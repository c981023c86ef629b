/-
  Protocol/Copies.lean --- the copies of a page, and where their bytes come from.

  A page has a copy on disk, one in its frame, and one in a frame that a `ReadPage` has
  just filled.  A step that makes a new copy copies one, mixes two where a write fails, or
  is the last change of the page.  So what all copies include they include for good, and
  a `WritePage` leaves no copy without what it has written.
-/
import BufferManager.Protocol.Barrier

set_option autoImplicit false

namespace BufferManager.Protocol

open BufferManager.Lib

variable {τ : Type} {n N : Nat} {complete : Prop} {c c' : Cfg τ} {g : Ledger τ} {e : Event τ}
  {sweeps : Bool} {p : Nat} {x : Page}

/-- Frame `f` has a copy of page `p`. -/
inductive Cfg.Carries (c : Cfg τ) (p f : Nat) : Prop where
  | placed : c.place p = .resident f ∨ c.place p = .evicting f → Carries c p f
  | filled (t : τ) : c.phase t = .suspended (.reading p f .done) → Carries c p f

/-- `x` is what one of the copies of page `p` holds. -/
inductive Cfg.Copy (c : Cfg τ) (p : Nat) : Page → Prop where
  | disk : Copy c p (c.disk p)
  | frame (f : Nat) : c.Carries p f → Copy c p (c.bytes f)

/-- All copies of page `p` include its changes up to the `m`-th. -/
def Settled (c : Cfg τ) (g : Ledger τ) (p m : Nat) : Prop :=
  ∀ x, c.Copy p x → Includes (g.history p) m x

/-- No new copy. -/
theorem Cfg.Copy.of_congr (h : c'.Copy p x) (hdisk : c'.disk p = c.disk p)
    (hcarries : ∀ f, c'.Carries p f → c.Carries p f ∧ c'.bytes f = c.bytes f) : c.Copy p x := by
  cases h with
  | disk =>
    rw [hdisk]
    exact .disk
  | frame f hf =>
    obtain ⟨hold, hbytes⟩ := hcarries f hf
    rw [hbytes]
    exact .frame f hold

/-- The use of a frame with a copy names the page. -/
theorem Owned.place_of_carries (hI : Owned n c) {f : Nat} (h : c.Carries p f) :
    ∃ y, (c.frame f).place f = some (p, y) := by
  cases h with
  | placed hf => exact ⟨_, hI.use_of_place p f (by rcases hf with hf | hf <;> rw [hf] <;> rfl)⟩
  | filled t hph =>
    have huse := hI.claim_use t f (.loading p) (by rw [hph]; rfl)
    exact ⟨.loading f, by rw [huse]; rfl⟩

theorem Owned.carries_ne (hI : Owned n c) {f f' : Nat} (h : c.Carries p f)
    (hf' : ∀ y, (c.frame f').place f' ≠ some (p, y)) : f ≠ f' := by
  obtain ⟨y, hy⟩ := hI.place_of_carries h
  rintro rfl
  exact hf' y hy

/-- A frame that a `ReadPage` is filling has no copy yet. -/
theorem Owned.not_carries_of_reading (hI : Owned n c) {t : τ} {q f : Nat}
    (hph : c.phase t = .suspended (.reading q f .running)) : ¬ c.Carries p f := by
  have hclaim : (c.phase t).claim = some (f, .loading q) := by rw [hph]; rfl
  intro h
  cases h with
  | placed hf =>
    have huse := hI.use_of_place p f (by rcases hf with hf | hf <;> rw [hf] <;> rfl)
    rw [hI.claim_use t f _ hclaim] at huse
    obtain ⟨-, hplace⟩ := Prod.mk.inj (Option.some.inj huse)
    rcases hf with hf | hf <;> rw [hf] at hplace <;> cases hplace
  | filled u hu =>
    have hclaim' : (c.phase u).claim = some (f, .loading p) := by rw [hu]; rfl
    obtain rfl := hI.claim_unique t u f _ _ hclaim hclaim'
    rw [hph] at hu
    cases hu

section

variable [DecidableEq τ] {t : τ} {ph : Phase}

omit [DecidableEq τ] in
theorem Cfg.Carries.of_eq {f : Nat} (h : c'.Carries p f) (hplace : c'.place = c.place)
    (hphase : c'.phase = c.phase) : c.Carries p f := by
  cases h with
  | placed hf => exact .placed (hplace ▸ hf)
  | filled u hu => exact .filled u (hphase ▸ hu)

/-- A thread goes where it has filled no frame. -/
theorem Cfg.Carries.of_goto {f : Nat} (h : c'.Carries p f)
    (hplace : c'.place p = .resident f ∨ c'.place p = .evicting f →
      c.place p = .resident f ∨ c.place p = .evicting f)
    (hphase : c'.phase = Function.update c.phase t ph)
    (hph : ∀ f, ph ≠ .suspended (.reading p f .done)) : c.Carries p f := by
  cases h with
  | placed hf => exact .placed (hplace hf)
  | filled u hu =>
    rw [hphase] at hu
    by_cases hut : u = t
    · subst hut
      rw [Function.update_self] at hu
      exact absurd hu (hph f)
    · rw [Function.update_of_ne hut] at hu
      exact .filled u hu

theorem Cfg.Copy.of_goto (h : c'.Copy p x) (hdisk : c'.disk p = c.disk p)
    (hplace : c'.place = c.place) (hbytes : c'.bytes = c.bytes)
    (hphase : c'.phase = Function.update c.phase t ph)
    (hph : ∀ f, ph ≠ .suspended (.reading p f .done)) : c.Copy p x :=
  h.of_congr hdisk fun f hf => ⟨hf.of_goto (by rw [hplace]; exact id) hphase hph, by rw [hbytes]⟩

/-- A page gets a place that names the same frame or none. -/
theorem Cfg.Carries.of_setPlace {q f : Nat} {y : Place} (h : c'.Carries p f)
    (hplace : c'.place = Function.update c.place q y)
    (hy : ∀ f, p = q → y = .resident f ∨ y = .evicting f →
      c.place q = .resident f ∨ c.place q = .evicting f)
    (hphase : c'.phase = Function.update c.phase t ph)
    (hph : ∀ f, ph ≠ .suspended (.reading p f .done)) : c.Carries p f := by
  refine h.of_goto (fun hf => ?_) hphase hph
  rw [hplace] at hf
  by_cases hpq : p = q
  · subst hpq
    rw [Function.update_self] at hf
    exact hy f rfl hf
  · rwa [Function.update_of_ne hpq] at hf

theorem Cfg.Copy.of_setPlace {q : Nat} {y : Place} (h : c'.Copy p x) (hdisk : c'.disk p = c.disk p)
    (hplace : c'.place = Function.update c.place q y)
    (hy : ∀ f, y = .resident f ∨ y = .evicting f →
      c.place q = .resident f ∨ c.place q = .evicting f)
    (hbytes : c'.bytes = c.bytes) (hphase : c'.phase = Function.update c.phase t ph)
    (hph : ∀ f, ph ≠ .suspended (.reading p f .done)) : c.Copy p x :=
  h.of_congr hdisk fun _ hf => ⟨hf.of_setPlace hplace (fun f _ => hy f) hphase hph, by rw [hbytes]⟩

end

/-- Where a new copy of a page comes from. -/
inductive Origin (sweeps : Bool) (c : Cfg τ) (e : Event τ) (p : Nat) (x : Page) : Prop where
  | copy : c.Copy p x → Origin sweeps c e p x
  | mixed (k : Nat) (y z : Page) : c.Copy p y → c.Copy p z → x = Page.overwrite k y z →
      Origin sweeps c e p x
  | changed : (∀ g : Ledger τ, [DecidableEq τ] →
      (e.enter (Ledger.after sweeps) g).history p = g.history p ++ [x]) → Origin sweeps c e p x

/-- A `WritePage` of page `q` from frame `f`, of all bytes or of the first `k`. -/
theorem Origin.of_write [DecidableEq τ] {t : τ} {ph : Phase} {q f : Nat} {y : Page}
    (hx : c'.Copy p x) (hf : c.Carries q f)
    (hy : y = c.bytes f ∨ ∃ k, y = Page.overwrite k (c.bytes f) (c.disk q))
    (hdisk : c'.disk = Function.update c.disk q y)
    (hplace : c'.place = c.place) (hbytes : c'.bytes = c.bytes)
    (hphase : c'.phase = Function.update c.phase t ph)
    (hph : ∀ f, ph ≠ .suspended (.reading p f .done)) : Origin sweeps c e p x := by
  cases hx with
  | disk =>
    rw [hdisk]
    by_cases hpq : p = q
    · subst hpq
      rw [Function.update_self]
      rcases hy with rfl | ⟨k, rfl⟩
      · exact .copy (.frame f hf)
      · exact .mixed k _ _ (.frame f hf) .disk rfl
    · rw [Function.update_of_ne hpq]
      exact .copy .disk
  | frame f' hf' =>
    rw [hbytes]
    exact .copy (.frame f' (hf'.of_goto (by rw [hplace]; exact id) hphase hph))

variable [Fintype τ] [DecidableEq τ]

theorem Step.origin (h : Step n N complete c e c') (hI : Owned n c) (hP : Pinned c)
    (hR : Reservations c) (hx : c'.Copy p x) : Origin sweeps c e p x := by
  cases h with
  | noIds => exact .copy hx
  | visit | snapshot | wakePage | wakeFrame | nextFlush | leave | sleepPage | pin | seek | skipFlush
  | capture | deleteUnused | recheck | tookFrame | sleepFrame | surplus | abandon | writeFailed
  | written => exact .copy (hx.of_goto rfl rfl rfl rfl (by simp))
  | flushReturn t caller =>
    refine .copy (hx.of_goto rfl rfl rfl rfl fun f => ?_)
    rcases phaseOf_flushReturn caller with hnext | ⟨q, rest, -, hnext⟩ <;> simp [hnext]
  | noFrame t a => exact .copy (hx.of_goto rfl rfl rfl rfl (by cases a <;> simp [failPhase]))
  | @unpinned c₁ t q f caller failure hph hunpin =>
    have hframe := hunpin.frame_only
    have hphase : (c₁.notify.goto t (unpinPhase caller failure)).phase =
        Function.update c.phase t (unpinPhase caller failure) := by simp [hframe]
    exact .copy (hx.of_goto (by simp [hframe]) (by simp [hframe]) (by simp [hframe]) hphase
      (by cases failure <;> simp [unpinPhase]))
  | @unpinThrew c₁ t q f caller failure err hph hunpin =>
    have hframe := hunpin.frame_only
    have hphase : (c₁.goto t (.suspended .idle)).phase =
        Function.update c.phase t (.suspended .idle) := by simp [hframe]
    exact .copy (hx.of_goto (by simp [hframe]) (by simp [hframe]) (by simp [hframe]) hphase
      (by simp))
  | @drop c₁ slot gd failure hg hv hpage hunpin =>
    have hframe := hunpin.frame_only
    have hcopy : c₁.Copy p x → c.Copy p x := fun h => h.of_congr (by simp [hframe]) fun f hf =>
      ⟨hf.of_eq (by simp [hframe]) (by simp [hframe]), by simp [hframe]⟩
    cases failure with
    | none =>
      refine .copy (hcopy (hx.of_congr rfl fun f hf => ⟨hf.of_eq rfl rfl, rfl⟩))
    | some err => exact .copy (hcopy hx)
  | dropStale | move | assign | mark =>
    exact .copy (hx.of_congr rfl fun f hf => ⟨hf.of_eq rfl rfl, rfl⟩)
  | reserve | deleteResident | deleteNonResident | rollback | loadFailed | evictDone | loadBegin =>
    exact .copy (hx.of_setPlace rfl rfl (by simp) rfl rfl (by simp))
  | evictBegin t a f r hph hev hplace =>
    exact .copy (hx.of_setPlace rfl rfl (by simp [hplace]) rfl rfl (by simp))
  | evictFail t a ev err hph =>
    have hplace : c.place ev.oldPageId = .evicting ev.frameId :=
      hI.place_of_claim (t := t) (u := .evicting ev.oldPageId ev.dirty ev.dirtyEpoch)
        (by rw [hph]; rfl) rfl
    exact .copy (hx.of_setPlace rfl rfl (by simp [hplace]) rfl rfl
      (by cases a <;> simp [failPhase]))
  | create t q f hph hplace =>
    have hfree := hI.claim_use t f .free (by rw [hph]; rfl)
    by_cases hpq : p = q
    · subst hpq
      cases hx with
      | disk => exact .copy .disk
      | frame f' hf' =>
        cases hf' with
        | placed hf =>
          obtain rfl : f = f' := by simpa using hf
          exact .changed fun g => by simp [Event.enter, Event.note, Ledger.after, Ledger.change]
        | filled u hu =>
          -- Nobody loads a page that is out of memory.
          have hu' : c.phase u = .suspended (.reading p f' .done) := by
            by_cases hut : u = t
            · subst hut
              simp at hu
            · simpa [hut] using hu
          have hloading := hI.place_of_claim (t := u) (u := .loading p) (by rw [hu']; rfl) rfl
          rw [hplace] at hloading
          cases hloading
    · refine .copy (hx.of_congr rfl fun f' hf' => ?_)
      have hold := hf'.of_setPlace (c := c) rfl (fun _ h => absurd h hpq) rfl (by simp)
      have hne : f' ≠ f := hI.carries_ne hold (by simp [hfree, Use.place])
      exact ⟨hold, by simp [hne]⟩
  | block t q f err hph hplace => exact absurd (hR.nonResident t q (by rw [hph]; rfl)) hplace
  | loaded t q f hph =>
    refine .copy (hx.of_congr rfl fun f' hf' => ⟨?_, rfl⟩)
    by_cases hpq : p = q
    · subst hpq
      cases hf' with
      | placed hf =>
        obtain rfl : f = f' := by simpa using hf
        exact .filled t hph
      | filled u hu =>
        by_cases hut : u = t
        · subst hut
          simp at hu
        · exact .filled u (by simpa [hut] using hu)
    · exact hf'.of_setPlace rfl (fun _ h => absurd h hpq) rfl (by simp)
  | evictCopy t a ev hph =>
    have hplace : c.place ev.oldPageId = .evicting ev.frameId :=
      hI.place_of_claim (t := t) (u := .evicting ev.oldPageId ev.dirty ev.dirtyEpoch)
        (by rw [hph]; rfl) rfl
    exact .of_write hx (.placed (Or.inr hplace)) (Or.inl rfl) rfl rfl rfl rfl (by simp)
  | evictCopyFailed t a ev k err hph =>
    have hplace : c.place ev.oldPageId = .evicting ev.frameId :=
      hI.place_of_claim (t := t) (u := .evicting ev.oldPageId ev.dirty ev.dirtyEpoch)
        (by rw [hph]; rfl) rfl
    exact .of_write hx (.placed (Or.inr hplace)) (Or.inr ⟨k, rfl⟩) rfl rfl rfl rfl (by simp)
  | writeCopy t q f epoch caller hph =>
    have hplace : c.place q = .resident f :=
      hP.resident_of_refs q f (refs_pos_of_writer (t := t) (by rw [hph]; rfl))
    exact .of_write hx (.placed (Or.inl hplace)) (Or.inl rfl) rfl rfl rfl rfl (by simp)
  | writeCopyFailed t q f epoch caller k err hph =>
    have hplace : c.place q = .resident f :=
      hP.resident_of_refs q f (refs_pos_of_writer (t := t) (by rw [hph]; rfl))
    exact .of_write hx (.placed (Or.inl hplace)) (Or.inr ⟨k, rfl⟩) rfl rfl rfl rfl (by simp)
  | readCopy t q f hph =>
    have hcopy : ∀ {f'}, c.Carries p f' → Origin sweeps c (.silent : Event τ) p
        (Function.update c.bytes f (c.disk q) f') := by
      intro f' hf'
      have hne : f' ≠ f := by
        rintro rfl
        exact hI.not_carries_of_reading hph hf'
      rw [Function.update_of_ne hne]
      exact .copy (.frame f' hf')
    cases hx with
    | disk => exact .copy .disk
    | frame f' hf' =>
      cases hf' with
      | placed hf => exact hcopy (.placed hf)
      | filled u hu =>
        by_cases hut : u = t
        · subst hut
          obtain ⟨rfl, rfl⟩ : q = p ∧ f = f' := by simpa using hu
          have hbytes : Function.update c.bytes f (c.disk q) f = c.disk q :=
            Function.update_self _ _ _
          refine .copy ?_
          change c.Copy q (Function.update c.bytes f (c.disk q) f)
          rw [hbytes]
          exact .disk
        · exact hcopy (.filled u (by simpa [hut] using hu))
  | readCopyFailed t q f left err hph =>
    refine .copy (hx.of_congr rfl fun f' hf' => ?_)
    have hold := hf'.of_goto (c := c) id rfl (by simp)
    have hne : f' ≠ f := by
      rintro rfl
      exact hI.not_carries_of_reading hph hold
    exact ⟨hold, by simp [hne]⟩
  | change slot gd page hg hv =>
    obtain ⟨r, hr, hpage, hlisted, -⟩ := hP.of_guard hI (List.mem_of_getElem? hg) hv
    cases hx with
    | disk => exact .copy .disk
    | frame f' hf' =>
      have hold : c.Carries p f' := hf'.of_eq rfl rfl
      by_cases hff : f' = gd.frameId
      · subst hff
        obtain ⟨y, hy⟩ := hI.place_of_carries hold
        obtain rfl : gd.pageId = p := by
          rw [hr] at hy
          simp only [Use.place, hlisted, if_true, Option.some.injEq, Prod.mk.injEq] at hy
          rw [← hpage, hy.1]
        exact .changed fun g => by simp [Event.enter, Event.note, Ledger.after, Ledger.change]
      · have hbytes : Function.update c.bytes gd.frameId page f' = c.bytes f' :=
          Function.update_of_ne hff _ _
        refine .copy ?_
        change c.Copy p (Function.update c.bytes gd.frameId page f')
        rw [hbytes]
        exact .frame f' hold

/-- What all copies of a page include they include from then on. -/
theorem Settled.step {m : Nat} (h : Step n N complete c e c') (hI : Owned n c) (hP : Pinned c)
    (hR : Reservations c) (hs : Settled c g p m) :
    Settled c' (e.enter (Ledger.after sweeps) g) p m := by
  intro x hx
  have horigin : Origin sweeps c e p x := h.origin hI hP hR hx
  cases horigin with
  | copy hold => exact Includes.enter (hs x hold)
  | mixed k y z hy hz hmix =>
    rw [hmix]
    exact Includes.enter ((hs y hy).overwrite (hs z hz) k)
  | changed hhistory =>
    rw [hhistory g]
    exact .last (Nat.le_succ_of_le (hs _ .disk).le_length)

omit [Fintype τ] [DecidableEq τ] in
theorem Settled.mono {m m' : Nat} (h : Settled c g p m) (hle : m' ≤ m) : Settled c g p m' :=
  fun x hx => (h x hx).mono hle

omit [Fintype τ] [DecidableEq τ] in
theorem Settled.of_max {m m' : Nat} (h : Settled c g p m) (h' : Settled c g p m') :
    Settled c g p (max m m') :=
  fun x hx => (h x hx).of_max (h' x hx)

omit [Fintype τ] in
/-- The page is written from its frame, and no copy is left that lacks what the frame has. -/
theorem Settled.of_written {m f : Nat} {t : τ} {ph : Phase} (hI : Owned n c)
    (hplace : c.place p = .resident f ∨ c.place p = .evicting f)
    (hhas : Includes (g.history p) m (c.bytes f)) (hdisk : c'.disk p = c.bytes f)
    (hplace' : c'.place = c.place) (hbytes : c'.bytes = c.bytes)
    (hphase : c'.phase = Function.update c.phase t ph)
    (hph : ∀ f, ph ≠ .suspended (.reading p f .done)) :
    Settled c' (e.enter (Ledger.after sweeps) g) p m := by
  intro x hx
  apply Includes.enter
  cases hx with
  | disk =>
    rw [hdisk]
    exact hhas
  | frame f' hf' =>
    obtain rfl : f = f' := by
      have hold : c.Carries p f' := hf'.of_goto (by rw [hplace']; exact id) hphase hph
      cases hold with
      | placed hf => rcases hplace with hp | hp <;> rcases hf with hf | hf <;> simp_all
      | filled u hu =>
        -- A page in a frame is not being loaded.
        have hloading : c.place p = .loading f' :=
          hI.place_of_claim (t := u) (u := .loading p) (by rw [hu]; rfl) rfl
        rcases hplace with hp | hp <;> rw [hp] at hloading <;> cases hloading
    rw [hbytes]
    exact hhas

/-! ## Completed writes -/

/-- What a `WritePage` that has completed, or is about to, had found marked of its page is
in all copies of it. -/
structure Lasting (c : Cfg τ) (g : Ledger τ) : Prop where
  completed : ∀ p, Settled c g p (g.completed p)
  copied : ∀ t pc p, c.phase t = .suspended pc → pc.wrote = some p → Settled c g p (g.copied t)

omit [Fintype τ] in
/-- A `WritePage` that has completed was about to. -/
theorem Step.wrote {t : τ} (h : Step n N complete c e c') (he : e = .wrote t p) :
    ∃ pc, c.phase t = .suspended pc ∧ pc.wrote = some p := by
  cases h with
  | written t q f epoch caller hph =>
    obtain ⟨rfl, rfl⟩ := Event.wrote.inj he
    exact ⟨_, hph, rfl⟩
  | evictDone t a ev hph =>
    cases hdirty : ev.dirty with
    | false => simp [hdirty] at he
    | true =>
      rw [hdirty] at he
      obtain ⟨rfl, rfl⟩ := Event.wrote.inj he
      exact ⟨_, hph, by simp [Pc.wrote, hdirty]⟩
  | flushReturn t caller =>
    rcases caller with - | rest
    · cases he
    · cases rest <;> cases he
  | noFrame t a | evictFail t a => cases a <;> cases he
  | unpinned t p f caller failure => cases failure <;> cases he
  | _ => cases he

/-- A thread comes to the end of its `WritePage` by moving the bytes of a frame. -/
theorem Step.settles_written {u : τ} {pc : Pc} (h : Step n N complete c e c') (hI : Owned n c)
    (hP : Pinned c) (hD : Durable c g) (hph' : c'.phase u = .suspended pc)
    (hwrote : pc.wrote = some p) (hmoved : ¬ c'.phase u = c.phase u) :
    e = .copied u p ∧ Settled c' (e.enter (Ledger.after sweeps) g) p (g.marked p) := by
  have hother : ∀ {t : τ} {w : Phase}, c'.phase = Function.update c.phase t w →
      (∀ pc, w = .suspended pc → pc.wrote = none) → False := by
    intro t w hphase hnone
    by_cases hut : u = t
    · subst hut
      rw [hphase, Function.update_self] at hph'
      rw [hnone pc hph'] at hwrote
      cases hwrote
    · exact hmoved (by rw [hphase, Function.update_of_ne hut])
  cases h with
  | writeCopy t q f epoch caller hph =>
    obtain rfl : u = t := by
      by_contra hut
      exact hmoved (Function.update_of_ne hut _ _)
    obtain rfl := Phase.suspended.inj ((Function.update_self _ _ _).symm.trans hph')
    obtain rfl : q = p := by simpa [Pc.wrote] using hwrote
    have hwrites : (c.phase u).writes = some (q, f) := by rw [hph]; rfl
    have hplace : c.place q = .resident f := hP.resident_of_refs q f (refs_pos_of_writer hwrites)
    exact ⟨rfl, .of_written hI (Or.inl hplace) (hD.writing_has hP hwrites)
      (Function.update_self _ _ _) rfl rfl rfl (by simp)⟩
  | evictCopy t a ev hph =>
    obtain rfl : u = t := by
      by_contra hut
      exact hmoved (Function.update_of_ne hut _ _)
    obtain rfl := Phase.suspended.inj ((Function.update_self _ _ _).symm.trans hph')
    obtain ⟨-, rfl⟩ : ev.dirty = true ∧ ev.oldPageId = p := by
      simpa [Pc.wrote] using hwrote
    have hplace : c.place ev.oldPageId = .evicting ev.frameId :=
      hI.place_of_claim (t := u) (u := .evicting ev.oldPageId ev.dirty ev.dirtyEpoch)
        (by rw [hph]; rfl) rfl
    exact ⟨rfl, .of_written hI (Or.inr hplace) (hD.evicting_has hI hph).1
      (Function.update_self _ _ _) rfl rfl rfl (by simp)⟩
  | noIds | change | mark | dropStale | move | assign => exact absurd rfl hmoved
  | @drop c₁ slot gd failure hg hv hpage hunpin =>
    have hframe := hunpin.frame_only
    cases failure <;> exact absurd (by simp [hframe]) hmoved
  | @unpinned c₁ t q f caller failure hph hunpin =>
    have hphase : (c₁.notify.goto t (unpinPhase caller failure)).phase =
        Function.update c.phase t (unpinPhase caller failure) := by simp [hunpin.frame_only]
    exact (hother hphase (by cases failure <;> simp [unpinPhase, Pc.wrote])).elim
  | @unpinThrew c₁ t q f caller failure err hph hunpin =>
    have hphase : (c₁.goto t (.suspended .idle)).phase =
        Function.update c.phase t (.suspended .idle) := by simp [hunpin.frame_only]
    exact (hother hphase (by simp [Pc.wrote])).elim
  | flushReturn t caller hph =>
    refine (hother rfl ?_).elim
    rcases phaseOf_flushReturn caller with hidle | ⟨q, rest, -, hnext⟩
    · simp [hidle, Pc.wrote]
    · simp [hnext, Pc.wrote]
  | noFrame t a | evictFail t a =>
    exact (hother rfl (by cases a <;> simp [failPhase, Pc.wrote])).elim
  | evictBegin t a f r => exact (hother rfl (by cases hd : r.dirty <;> simp [Pc.wrote])).elim
  | _ => exact (hother rfl (by simp [Pc.wrote])).elim

theorem Lasting.step (h : Step n N complete c e c') (hI : Owned n c) (hP : Pinned c)
    (hR : Reservations c) (hD : Durable c g) (hL : Lasting c g) :
    Lasting c' (e.enter (Ledger.after sweeps) g) := by
  refine ⟨fun p => ?_, fun u pc p hph' hwrote => ?_⟩
  · have hkeeps : Settled c' (e.enter (Ledger.after sweeps) g) p (g.completed p) :=
      (hL.completed p).step h hI hP hR
    cases e with
    | wrote t q =>
      change Settled c' _ p (Function.update g.completed q (max (g.completed q) (g.copied t)) p)
      by_cases hpq : p = q
      · subst hpq
        obtain ⟨pc, hph, hwrote⟩ := h.wrote rfl
        rw [Function.update_self]
        exact hkeeps.of_max ((hL.copied t pc p hph hwrote).step h hI hP hR)
      · rw [Function.update_of_ne hpq]
        exact hkeeps
    | ended t r => cases r <;> exact hkeeps
    | _ => exact hkeeps
  · by_cases hsame : c'.phase u = c.phase u
    · rw [h.copied_stay hsame]
      exact (hL.copied u pc p (hsame.symm.trans hph') hwrote).step h hI hP hR
    · obtain ⟨he, hsettled⟩ : e = .copied u p ∧
          Settled c' (e.enter (Ledger.after sweeps) g) p (g.marked p) :=
        h.settles_written hI hP hD hph' hwrote hsame
      subst he
      rw [copied_enter]
      exact hsettled

end BufferManager.Protocol
