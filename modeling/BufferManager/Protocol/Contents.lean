/-
  Protocol/Contents.lean --- the last change of a page is where the page is.

  A client that marks its changes before it gives its guard up leaves no change behind
  that is not marked: the last change of a page is marked, or has been made through a
  guard that is still live, and then the page is in the guard's frame.
-/
import BufferManager.Protocol.Barrier

set_option autoImplicit false

namespace BufferManager

/-- Bytes that include all changes of a page are its last content. -/
theorem Includes.getLast {history : List Page} {x : Page} (h : Includes history history.length x)
    (hne : history ≠ []) : history.getLast? = some x := by
  obtain ⟨earlier, y, rfl⟩ := (List.eq_nil_or_concat history).resolve_left hne
  rw [List.concat_eq_append] at h ⊢
  rw [List.length_append, List.length_singleton] at h
  rw [List.getLast?_append, h.eq_last]
  rfl

namespace Ledger

variable {τ : Type}

/-- The bytes are those after the last change of page `p`. -/
def Latest (g : Ledger τ) (p : Nat) (x : Page) : Prop :=
  Includes (g.history p) (g.history p).length x

/-- A client that gives a guard up has marked its changes. -/
def MarksFirst (g : Ledger τ) : Note τ → Prop
  | .dropped slot => g.pending slot = 0
  | _ => True

instance (g : Ledger τ) : ∀ x : Note τ, Decidable (g.MarksFirst x)
  | .dropped slot => inferInstanceAs (Decidable (g.pending slot = 0))
  | .called _ _ | .created _ _ | .deleted _ _ | .returned _ | .failed _ | .flushAll _ | .copied _ _
  | .wrote _ _ | .changed _ _ _ | .marked _ _ | .moved _ _ => .isTrue trivial

end Ledger

namespace Protocol

open BufferManager.Lib

variable {τ : Type} {n N : Nat} {complete : Prop} {c c' : Cfg τ} {g : Ledger τ} {e : Event τ}
  {sweeps : Bool}

/-- The last change of page `p` is marked, or was made through a guard that is live. -/
def LastKnown (c : Cfg τ) (g : Ledger τ) (p : Nat) : Prop :=
  (g.history p).length ≤ g.marked p ∨ ∃ slot gd, c.guards[slot]? = some gd ∧ gd.valid = true ∧
    gd.pageId = p ∧ (g.history p).length ≤ g.pending slot

/-- The account of the pages that clients have is complete. -/
structure Current (c : Cfg τ) (g : Ledger τ) : Prop where
  live : ∀ p, c.place p ≠ .unused → g.marked p ≠ 0 ∨ c.Reserved p
  last : ∀ p, g.marked p ≠ 0 → LastKnown c g p

/-! ## The contents of a page -/

section

variable [Fintype τ]

omit [Fintype τ] in
/-- What is marked of a page has been done to it. -/
theorem Durable.marked_le (hD : Durable c g) (p : Nat) : g.marked p ≤ (g.history p).length := by
  have hkept := hD.kept p
  cases hplace : c.place p with
  | unused => exact le_of_eq_of_le (hkept.unused hplace) (Nat.zero_le _)
  | nonResident => exact (hkept.disk (Or.inl hplace)).includes.le_length
  | loading f => exact (hkept.disk (Or.inr ⟨f, hplace⟩)).includes.le_length
  | resident f => exact (hkept.frame (Or.inl hplace)).1.le_length
  | evicting f => exact (hkept.frame (Or.inr hplace)).1.le_length

omit [Fintype τ] in
theorem Durable.getLast (hD : Durable c g) {p : Nat} {x : Page} (hmarked : g.marked p ≠ 0)
    (h : g.Latest p x) : (g.history p).getLast? = some x := by
  refine h.getLast fun hnil => hmarked ?_
  have hle := hD.marked_le p
  rw [hnil] at hle
  exact Nat.le_zero.mp hle

/-- A page that is in a frame has its last content there. -/
theorem Current.latest (hC : Current c g) (hD : Durable c g) (hI : Owned n c) (hP : Pinned c)
    {p f : Nat} (hmarked : g.marked p ≠ 0)
    (hplace : c.place p = .resident f ∨ c.place p = .evicting f) :
    g.Latest p (c.bytes f) := by
  rcases hC.last p hmarked with hle | ⟨slot, gd, hg, hv, rfl, hle⟩
  · exact ((hD.kept p).frame hplace).1.mono hle
  · obtain ⟨r, -, -, -, -, hresident⟩ := hP.of_guard hI (List.mem_of_getElem? hg) hv
    obtain rfl : gd.frameId = f := by
      rcases hplace with h | h <;> rw [hresident] at h <;> cases h
      rfl
    have hpending : g.pending slot ≠ 0 := by
      have := hD.marked_le gd.pageId
      omega
    obtain ⟨gd', hg', -, hincludes⟩ := hD.pending slot hpending
    obtain rfl := Option.some.inj (hg.symm.trans hg')
    exact hincludes.mono hle

/-- A page that is in no frame, or whose frame is being loaded, has its last content on
disk. -/
theorem Current.latest_disk (hC : Current c g) (hD : Durable c g) (hI : Owned n c) (hP : Pinned c)
    {p : Nat} (hmarked : g.marked p ≠ 0)
    (hplace : c.place p = .nonResident ∨ ∃ f, c.place p = .loading f) :
    g.Latest p (c.disk p) := by
  rcases hC.last p hmarked with hle | ⟨slot, gd, hg, hv, rfl, -⟩
  · exact ((hD.kept p).disk hplace).includes.mono hle
  · obtain ⟨r, -, -, -, -, hresident⟩ := hP.of_guard hI (List.mem_of_getElem? hg) hv
    rcases hplace with h | ⟨f, h⟩ <;> rw [hresident] at h <;> cases h

end

/-! ## Which pages clients have -/

section

variable [DecidableEq τ]

/-- What is marked of a page goes on to be something until the page is deleted. -/
theorem marked_enter_ne {p : Nat} (hdel : ∀ t r, e ≠ .deleted t p r) (h : g.marked p ≠ 0) :
    (e.enter (Ledger.after sweeps) g).marked p ≠ 0 := by
  cases e with
  | created t q f =>
    change Function.update g.marked q ((g.history q).length + 1) p ≠ 0
    by_cases hpq : p = q
    · rw [hpq, Function.update_self]
      exact Nat.succ_ne_zero _
    · rwa [Function.update_of_ne hpq]
  | marked slot q clash =>
    change Function.update g.marked q (max (g.marked q) (g.pending slot)) p ≠ 0
    by_cases hpq : p = q
    · subst hpq
      rw [Function.update_self]
      omega
    · rwa [Function.update_of_ne hpq]
  | deleted t q r =>
    have hpq : p ≠ q := by
      rintro rfl
      exact hdel t r rfl
    change Function.update g.marked q 0 p ≠ 0
    rwa [Function.update_of_ne hpq]
  | ended t r => cases r <;> exact h
  | _ => exact h

/-- A deleted id is not in use. -/
theorem Step.unused_of_deleted (h : Step n N complete c e c') {t : τ} {p : Nat} {r : Prop}
    (he : e = .deleted t p r) : c'.place p = .unused := by
  have hplain : ¬ e.Plain := by
    rw [he]
    exact id
  cases h with
  | deleteUnused t' q hph hplace =>
    obtain ⟨rfl, rfl, -⟩ := Event.deleted.inj he
    exact hplace
  | deleteResident t' q f r hph | deleteNonResident t' q hph =>
    obtain ⟨rfl, rfl, -⟩ := Event.deleted.inj he
    exact Function.update_self _ _ _
  | flushReturn t' caller => exact absurd (plain_eventOf t' _) hplain
  | noFrame t' a | evictFail t' a => exact absurd (plain_failEvent t' a _) hplain
  | evictDone t' a ev => exact absurd (plain_evictDone t' ev) hplain
  | unpinned t' q f caller failure => exact absurd (plain_unpinEvent t' failure) hplain
  | _ => cases he

/-- An id comes into use when a `NewPage` reserves it. -/
theorem Step.reserved_of_used (h : Step n N complete c e c') (hI : Owned n c) {p : Nat}
    (hp : c.place p = .unused) (hp' : c'.place p ≠ .unused) : c'.Reserved p := by
  have hmoved : ∀ {q : Nat} {x : Place}, c'.place = Function.update c.place q x → p = q := by
    intro q x hplace
    by_contra hpq
    rw [hplace, Function.update_of_ne hpq] at hp'
    exact hp' hp
  have hstays : c'.place = c.place → c'.Reserved p := fun hplace => absurd (hplace ▸ hp) hp'
  have hclaimed : ∀ {t : τ} {f : Nat} {w : Use} {q : Nat} {x : Place},
      (c.phase t).claim = some (f, w) → w.place f = some (q, x) → x ≠ .unused → p ≠ q := by
    rintro t f w q x hclaim hw hx rfl
    rw [hI.place_of_claim hclaim hw] at hp
    exact hx hp
  cases h with
  | reserve t q rest hph =>
    obtain rfl := hmoved rfl
    exact ⟨t, by simp [Phase.reserves]⟩
  | deleteResident t q f r hph hplace | deleteNonResident t q hph hplace
  | create t q f hph hplace | loadBegin t q f hph hplace | rollback t q err hph hplace =>
    obtain rfl := hmoved rfl
    rw [hp] at hplace
    cases hplace
  | evictBegin t a f r hph hev hplace =>
    have hpq := hmoved rfl
    rw [← hpq, hp] at hplace
    cases hplace
  | evictDone t a ev hph | evictFail t a ev err hph =>
    refine absurd (hmoved rfl)
      (hclaimed (t := t) (w := .evicting ev.oldPageId ev.dirty ev.dirtyEpoch)
      (by rw [hph]; rfl) rfl (by simp))
  | loaded t q f hph | loadFailed t q f err hph =>
    exact absurd (hmoved rfl) (hclaimed (t := t) (w := .loading q) (by rw [hph]; rfl) rfl (by simp))
  | @drop c₁ slot gd failure hg hv hpage hunpin =>
    have hframe := hunpin.frame_only
    cases failure <;> exact hstays (by simp [hframe])
  | @unpinned c₁ t q f caller failure hph hunpin => exact hstays (by simp [hunpin.frame_only])
  | @unpinThrew c₁ t q f caller failure err hph hunpin => exact hstays (by simp [hunpin.frame_only])
  | _ => exact hstays rfl

attribute [local simp] Phase.reserves

/-- A reserved id stays reserved until its page is made, or the id is given back. -/
theorem Step.keeps_reserved (h : Step n N complete c e c') (hR : Reservations c) {p : Nat}
    (hp : c.Reserved p) :
    c'.Reserved p ∨ (∃ t f, e = .created t p f) ∨ c'.place p = .unused := by
  obtain ⟨u, hu⟩ := hp
  have hstay : c'.phase = c.phase → c'.Reserved p := fun hphase => ⟨u, hphase ▸ hu⟩
  have hmove : ∀ {t : τ} {w : Phase}, c'.phase = Function.update c.phase t w →
      (∀ q, (c.phase t).reserves = some q → w.reserves = some q) → c'.Reserved p := by
    intro t w hphase hw
    refine ⟨u, ?_⟩
    rw [hphase]
    by_cases hut : u = t
    · subst hut
      rw [Function.update_self]
      exact hw p hu
    · rwa [Function.update_of_ne hut]
  cases h with
  | create t q f hph =>
    by_cases hut : u = t
    · subst hut
      obtain rfl : q = p := by simpa [hph] using hu
      exact Or.inr (Or.inl ⟨u, f, rfl⟩)
    · exact Or.inl ⟨u, by simpa [hut] using hu⟩
  | rollback t q err hph =>
    by_cases hut : u = t
    · subst hut
      obtain rfl : q = p := by simpa [hph] using hu
      exact Or.inr (Or.inr (Function.update_self _ _ _))
    · exact Or.inl ⟨u, by simpa [hut] using hu⟩
  | abandon t q err hph hplace =>
    exact absurd (hR.nonResident t q (by rw [hph]; rfl)) hplace
  | noIds | change | mark | dropStale | move | assign => exact Or.inl (hstay rfl)
  | @drop c₁ slot gd failure hg hv hpage hunpin =>
    have hframe := hunpin.frame_only
    cases failure <;> exact Or.inl (hstay (by simp [hframe]))
  | @unpinned c₁ t q f caller failure hph hunpin =>
    exact Or.inl (hmove (t := t) (w := unpinPhase caller failure) (by simp [hunpin.frame_only])
      (by simp [hph]))
  | @unpinThrew c₁ t q f caller failure err hph hunpin =>
    exact Or.inl (hmove (t := t) (w := .suspended .idle) (by simp [hunpin.frame_only])
      (by simp [hph]))
  | wakeFrame t a hph | tookFrame t a f hph | sleepFrame t a hph | evictCopy t a ev hph
  | evictCopyFailed t a ev k err hph | evictBegin t a f r hph | evictDone t a ev hph
  | noFrame t a hph | evictFail t a ev err hph =>
    refine Or.inl (hmove rfl ?_)
    cases a <;> simp [hph, failPhase]
  | reserve t q rest hph | block t q f err hph
  | visit t v hph | snapshot t hph | wakePage t v hph | nextFlush t q rest hph
  | leave t v err hph | sleepPage t v hph | pin t q f r hph | seek t q hph
  | skipFlush t q caller hph
  | flushReturn t caller hph
  | capture t q f r caller hph | deleteUnused t q hph | deleteResident t q f r hph
  | deleteNonResident t q hph | recheck t q hph
  | loadBegin t q f hph | surplus t q f hph
  | loaded t q f hph | loadFailed t q f err hph | written t q f epoch caller hph
  | writeFailed t q f epoch caller err hph | writeCopy t q f epoch caller hph
  | writeCopyFailed t q f epoch caller k err hph | readCopy t q f hph
  | readCopyFailed t q f left err hph =>
    exact Or.inl (hmove rfl (by simp [hph]))

/-- An id that is in use has been returned by a `NewPage`, or one has reserved it. -/
theorem Current.live_step (hC : Current c g) (h : Step n N complete c e c') (hI : Owned n c)
    (hR : Reservations c) {p : Nat} (hp : c'.place p ≠ .unused) :
    (e.enter (Ledger.after sweeps) g).marked p ≠ 0 ∨ c'.Reserved p := by
  by_cases hused : c.place p = .unused
  · exact Or.inr (h.reserved_of_used hI hused hp)
  rcases hC.live p hused with hmarked | hreserved
  · refine Or.inl (marked_enter_ne ?_ hmarked)
    rintro t r rfl
    exact hp (h.unused_of_deleted rfl)
  · rcases h.keeps_reserved hR hreserved with hres | ⟨t, f, rfl⟩ | hunused
    · exact Or.inr hres
    · refine Or.inl ?_
      change Function.update g.marked p ((g.history p).length + 1) p ≠ 0
      rw [Function.update_self]
      exact Nat.succ_ne_zero _
    · exact absurd hunused hp

/-! ## The last change -/

omit [DecidableEq τ] in
theorem Event.Plain.spares (h : e.Plain) : e.spares := by
  cases e <;> trivial

/-- A guard that is live keeps its unmarked change in its slot or in another one, unless
the step marks it, adds to it or gives the guard up. -/
theorem Step.follows (h : Step n N complete c e c') (sweeps : Bool) (hI : Owned n c)
    (g : Ledger τ) {slot : Nat} {gd : PageGuard} (hg : c.guards[slot]? = some gd)
    (hv : gd.valid = true) :
    (∃ slot', c'.guards[slot']? = some gd ∧
      (e.enter (Ledger.after sweeps) g).pending slot' = g.pending slot) ∨
    (∃ failure, e = .dropped slot failure) ∨ (∃ p clash, e = .marked slot p clash) ∨
      ∃ page, e = .changed slot gd.pageId page := by
  have hlt := (List.getElem?_eq_some_iff.mp hg).1
  by_cases hspares : e.spares
  · obtain ⟨⟨gs, hguards⟩, -⟩ := h.spares hspares hI
    have hg' : c'.guards[slot]? = some gd := by rw [hguards, List.getElem?_append_left hlt, hg]
    cases e with
    | marked slot' p clash =>
      by_cases hs : slot = slot'
      · exact Or.inr (Or.inr (Or.inl ⟨p, clash, by rw [hs]⟩))
      · exact Or.inl ⟨slot, hg', Function.update_of_ne hs _ _⟩
    | changed | dropped | moved => exact hspares.elim
    | ended t r => cases r <;> exact Or.inl ⟨slot, hg', rfl⟩
    | _ => exact Or.inl ⟨slot, hg', rfl⟩
  have hplain : ¬ e.Plain := fun hplain => hspares hplain.spares
  cases h with
  | change slot' gd' page hg' =>
    by_cases hs : slot = slot'
    · subst hs
      obtain rfl := Option.some.inj (hg.symm.trans hg')
      exact Or.inr (Or.inr (Or.inr ⟨page, rfl⟩))
    · exact Or.inl ⟨slot, hg, Function.update_of_ne hs _ _⟩
  | @drop c₁ slot' gd' failure hg' hv' hpage hunpin =>
    by_cases hs : slot = slot'
    · exact Or.inr (Or.inl ⟨failure, by rw [hs]⟩)
    · have hframe := hunpin.frame_only
      refine Or.inl ⟨slot, ?_, Function.update_of_ne hs _ _⟩
      cases failure <;> simpa [hframe, List.getElem?_set_ne (Ne.symm hs)] using hg
  | dropStale slot' gd' err hg' =>
    by_cases hs : slot = slot'
    · exact Or.inr (Or.inl ⟨some err, by rw [hs]⟩)
    · refine Or.inl ⟨slot, ?_, Function.update_of_ne hs _ _⟩
      simpa [List.getElem?_set_ne (Ne.symm hs)] using hg
  | move slot' gd' hg' =>
    by_cases hs : slot = slot'
    · subst hs
      obtain rfl := Option.some.inj (hg.symm.trans hg')
      refine Or.inl ⟨c.guards.length, ?_, ?_⟩
      · rw [List.getElem?_append_right (by simp)]
        simp
      · exact (Function.update_of_ne (Nat.ne_of_gt hlt) _ _).trans (Function.update_self _ _ _)
    · refine Or.inl ⟨slot, ?_, ?_⟩
      · rw [List.getElem?_append_left (by simpa using hlt), List.getElem?_set_ne (Ne.symm hs), hg]
      · exact (Function.update_of_ne hs _ _).trans (Function.update_of_ne (Nat.ne_of_lt hlt) _ _)
  | assign slot' source gd' gd₁ hne hg' hv' hg₁ =>
    have hlt' := (List.getElem?_eq_some_iff.mp hg').1
    by_cases hs : slot = source
    · subst hs
      obtain rfl := Option.some.inj (hg.symm.trans hg₁)
      refine Or.inl ⟨slot', ?_, ?_⟩
      · rw [List.getElem?_set_ne (Ne.symm hne), List.getElem?_set_self hlt']
      · exact (Function.update_of_ne hne _ _).trans (Function.update_self _ _ _)
    · have hto : slot ≠ slot' := by
        rintro rfl
        obtain rfl := Option.some.inj (hg.symm.trans hg')
        rw [hv] at hv'
        cases hv'
      refine Or.inl ⟨slot, ?_, ?_⟩
      · rw [List.getElem?_set_ne (Ne.symm hs), List.getElem?_set_ne (Ne.symm hto), hg]
      · exact (Function.update_of_ne hs _ _).trans (Function.update_of_ne hto _ _)
  | flushReturn t caller => exact absurd (plain_eventOf t _) hplain
  | noFrame t a | evictFail t a => exact absurd (plain_failEvent t a _) hplain
  | evictDone t a ev => exact absurd (plain_evictDone t ev) hplain
  | unpinned t q f caller failure => exact absurd (plain_unpinEvent t failure) hplain
  | _ => exact absurd trivial hspares

/-- What is marked of a page only grows, until the page is deleted or made. -/
theorem le_marked_enter {p : Nat} (hcreated : ∀ t f, e ≠ .created t p f)
    (hne : (e.enter (Ledger.after sweeps) g).marked p ≠ 0) :
    g.marked p ≤ (e.enter (Ledger.after sweeps) g).marked p := by
  cases e with
  | created t q f =>
    have hpq : p ≠ q := by
      rintro rfl
      exact hcreated t f rfl
    exact le_of_eq (Function.update_of_ne hpq _ _).symm
  | marked slot q clash =>
    change _ ≤ Function.update g.marked q (max (g.marked q) (g.pending slot)) p
    by_cases hpq : p = q
    · subst hpq
      rw [Function.update_self]
      exact Nat.le_max_left _ _
    · rw [Function.update_of_ne hpq]
  | deleted t q r =>
    change Function.update g.marked q 0 p ≠ 0 at hne
    change _ ≤ Function.update g.marked q 0 p
    by_cases hpq : p = q
    · subst hpq
      exact absurd (Function.update_self _ _ _) hne
    · rw [Function.update_of_ne hpq]
  | ended t r => cases r <;> exact le_rfl
  | _ => exact le_rfl

/-- A page is changed when it is made or through a guard. -/
theorem history_enter_eq {p : Nat} (hcreated : ∀ t f, e ≠ .created t p f)
    (hchanged : ∀ slot page, e ≠ .changed slot p page) :
    (e.enter (Ledger.after sweeps) g).history p = g.history p := by
  cases e with
  | created t q f =>
    refine Function.update_of_ne ?_ _ _
    rintro rfl
    exact hcreated t f rfl
  | changed slot q page =>
    refine Function.update_of_ne ?_ _ _
    rintro rfl
    exact hchanged slot page rfl
  | ended t r => cases r <;> rfl
  | _ => rfl

variable [Fintype τ]

omit [Fintype τ] in
/-- A page is changed through a live guard. -/
theorem Step.changed (h : Step n N complete c e c') {slot p : Nat} {page : Page}
    (he : e = .changed slot p page) : ∃ gd, c.guards[slot]? = some gd ∧ gd.valid = true ∧
      gd.pageId = p ∧ c'.guards = c.guards := by
  have hspares : ¬ e.spares := by
    rw [he]
    exact id
  cases h with
  | change slot gd page hg hv =>
    obtain ⟨rfl, rfl, -⟩ := Event.changed.inj he
    exact ⟨gd, hg, hv, rfl, rfl⟩
  | drop | dropStale | move | assign => cases he
  | flushReturn t caller => exact absurd (plain_eventOf t _).spares hspares
  | noFrame t a | evictFail t a => exact absurd (plain_failEvent t a _).spares hspares
  | evictDone t a ev => exact absurd (plain_evictDone t ev).spares hspares
  | unpinned t q f caller failure => exact absurd (plain_unpinEvent t failure).spares hspares
  | _ => exact absurd trivial hspares

/-- Of a page that is not made nothing gets marked unless something was. -/
theorem Current.marked_ne (hC : Current c g) (h : Step n N complete c e c') (hI : Owned n c)
    (hP : Pinned c) (hR : Reservations c) {p : Nat} (hcreated : ∀ t f, e ≠ .created t p f)
    (hne : (e.enter (Ledger.after sweeps) g).marked p ≠ 0) : g.marked p ≠ 0 := by
  by_cases hpasses : e.Passes p
  · refine fun hzero => hne (Nat.le_zero.mp ?_)
    exact (marked_enter_le sweeps hpasses g).trans (le_of_eq hzero)
  cases e with
  | created t q f =>
    refine absurd (fun hpq => ?_) hpasses
    exact hcreated t f (by rw [hpq])
  | marked slot q clash =>
    obtain ⟨gd, hg, hv, hpage⟩ := h.marked rfl
    obtain ⟨r, -, -, -, -, hplace⟩ := hP.of_guard hI (List.mem_of_getElem? hg) hv
    obtain rfl : q = p := not_not.mp hpasses
    rw [hpage] at hplace
    refine (hC.live q (by rw [hplace]; simp)).resolve_right ?_
    exact hR.not_reserved (by rw [hplace]; simp)
  | _ => exact absurd trivial hpasses

/-- The last change of a page goes on to be marked, or to be a live guard's. -/
theorem Current.last_step (hC : Current c g) (h : Step n N complete c e c')
    (hdrops : ∀ slot failure, e = .dropped slot failure → g.pending slot = 0) (hI : Owned n c)
    (hP : Pinned c) (hR : Reservations c) {p : Nat}
    (hne : (e.enter (Ledger.after sweeps) g).marked p ≠ 0) :
    LastKnown c' (e.enter (Ledger.after sweeps) g) p := by
  by_cases hcreated : ∃ t f, e = .created t p f
  · obtain ⟨t, f, rfl⟩ := hcreated
    refine Or.inl ?_
    change (Function.update g.history p (g.history p ++ [Page.zero]) p).length ≤
      Function.update g.marked p ((g.history p).length + 1) p
    rw [Function.update_self, Function.update_self, List.length_append]
    exact le_rfl
  push Not at hcreated
  by_cases hchanged : ∃ slot page, e = .changed slot p page
  · obtain ⟨slot, page, rfl⟩ := hchanged
    obtain ⟨gd, hg, hv, hpage, hguards⟩ := h.changed rfl
    refine Or.inr ⟨slot, gd, by rw [hguards, hg], hv, hpage, ?_⟩
    change (Function.update g.history p (g.history p ++ [page]) p).length ≤
      Function.update g.pending slot ((g.history p).length + 1) slot
    rw [Function.update_self, Function.update_self, List.length_append]
    exact le_rfl
  push Not at hchanged
  have hmarked := hC.marked_ne h hI hP hR hcreated hne
  have hle := le_marked_enter hcreated hne
  unfold LastKnown
  rw [history_enter_eq hcreated hchanged]
  rcases hC.last p hmarked with hlast | ⟨slot, gd, hg, hv, hpage, hlast⟩
  · exact Or.inl (hlast.trans hle)
  rcases h.follows sweeps hI g hg hv with ⟨slot', hg', hpending⟩ | ⟨failure, rfl⟩ |
    ⟨q, clash, rfl⟩ | ⟨page, rfl⟩
  · exact Or.inr ⟨slot', gd, hg', hv, hpage, by rw [hpending]; exact hlast⟩
  · rw [hdrops slot failure rfl] at hlast
    exact Or.inl (hlast.trans (Nat.zero_le _))
  · refine Or.inl (hlast.trans ?_)
    obtain ⟨gd', hg', -, hpage'⟩ := h.marked rfl
    obtain rfl := Option.some.inj (hg.symm.trans hg')
    obtain rfl := hpage'.symm.trans hpage
    change _ ≤ Function.update g.marked q (max _ (g.pending slot)) q
    rw [Function.update_self]
    exact Nat.le_max_right _ _
  · exact absurd (by rw [hpage]) (hchanged slot page)

/-- The account of the pages that clients have stays complete. -/
theorem Current.step (hC : Current c g) (h : Step n N complete c e c')
    (hdrops : ∀ slot failure, e = .dropped slot failure → g.pending slot = 0) (hI : Owned n c)
    (hP : Pinned c) (hR : Reservations c) : Current c' (e.enter (Ledger.after sweeps) g) :=
  ⟨fun _ hp => hC.live_step h hI hR hp, fun _ hne => hC.last_step h hdrops hI hP hR hne⟩

end

end Protocol

end BufferManager
