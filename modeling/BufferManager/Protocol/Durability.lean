/-
  Protocol/Durability.lean --- what is marked of a page is in its frame, and on disk
  where the page is clean or out of memory.

  `KeptAt` says so of one page, by its place, and `Told` of the thread that is moving a
  page.  A `FlushPage` has captured the epoch of its frame; where that has not changed,
  nothing has been marked since its write.
-/
import BufferManager.Protocol.Ledger

set_option autoImplicit false

namespace BufferManager

/-- The bytes include all that is marked of page `p`. -/
def Ledger.Has {τ : Type} (g : Ledger τ) (p : Nat) (x : Page) : Prop :=
  Includes (g.history p) (g.marked p) x

/-- The bytes include the changes of page `p` up to the `m`-th, and a `WritePage` that had
found them marked has completed. -/
structure Ledger.Saves {τ : Type} (g : Ledger τ) (p m : Nat) (x : Page) : Prop where
  includes : Includes (g.history p) m x
  completed : m ≤ g.completed p

namespace Protocol

open BufferManager.Lib

variable {τ : Type}

/-- What is marked of page `p` is where it belongs. -/
def KeptAt (c : Cfg τ) (g : Ledger τ) (p : Nat) : Prop :=
  match c.place p with
  | .unused => g.marked p = 0
  | .nonResident | .loading _ => g.Saves p (g.marked p) (c.disk p)
  | .resident f | .evicting f =>
      g.Has p (c.bytes f) ∧ ((c.frame f).meta.dirty = false → g.Saves p (g.marked p) (c.disk p))

/-- What the thread's transfer has done. -/
def Told (c : Cfg τ) (g : Ledger τ) (t : τ) : Prop :=
  match c.phase t with
  | .suspended (.reading p f .done) => g.Has p (c.bytes f)
  | .suspended (.evicting _ ev .done) => g.Has ev.oldPageId (c.disk ev.oldPageId) ∧
      (ev.dirty = true → g.marked ev.oldPageId ≤ g.copied t)
  | .suspended (.writing p f epoch _ io) => ∃ r, c.frame f = .resident r ∧
      (r.epoch = epoch → io = .done → g.Has p (c.disk p) ∧ g.marked p ≤ g.copied t)
  | _ => True

/-- The account fits the configuration. -/
structure Durable (c : Cfg τ) (g : Ledger τ) : Prop where
  kept : ∀ p, KeptAt c g p
  told : ∀ t, Told c g t
  /-- Nothing is marked of an id that a `NewPage` has reserved. -/
  reserved : ∀ t p, (c.phase t).reserves = some p → g.marked p = 0
  /-- A change that is not marked is still in the frame of its guard. -/
  pending : ∀ slot, g.pending slot ≠ 0 → ∃ gd, c.guards[slot]? = some gd ∧ gd.valid = true ∧
    Includes (g.history gd.pageId) (g.pending slot) (c.bytes gd.frameId)

variable {n N : Nat} {complete : Prop} {c c' : Cfg τ} {g : Ledger τ} {e : Event τ} {sweeps : Bool}

/-! ## The account and the events -/

/-- The event neither creates page `p` nor marks a change of it. -/
def Event.Passes (p : Nat) : Event τ → Prop
  | .created _ q _ | .marked _ q _ => q ≠ p
  | _ => True

section

variable [DecidableEq τ]

/-- The history of a page only grows. -/
theorem history_enter (sweeps : Bool) (e : Event τ) (g : Ledger τ) (p : Nat) :
    ∃ later, (e.enter (Ledger.after sweeps) g).history p = g.history p ++ later := by
  have hchange : ∀ (h : Nat → List Page) (q : Nat) (page : Page),
      ∃ later, Function.update h q (h q ++ [page]) p = h p ++ later := by
    intro h q page
    by_cases hpq : p = q
    · subst hpq
      exact ⟨[page], Function.update_self _ _ _⟩
    · exact ⟨[], by rw [Function.update_of_ne hpq, List.append_nil]⟩
  have hsame : ∃ later, g.history p = g.history p ++ later := ⟨[], (List.append_nil _).symm⟩
  cases e with
  | created t q f => exact hchange _ _ _
  | changed slot q page => exact hchange _ _ _
  | ended t r => cases r <;> exact hsame
  | _ => exact hsame

/-- Nothing gets marked of a page that an event passes by. -/
theorem marked_enter_le (sweeps : Bool) {p : Nat} (he : e.Passes p) (g : Ledger τ) :
    (e.enter (Ledger.after sweeps) g).marked p ≤ g.marked p := by
  cases e with
  | created t q f | marked slot q clash =>
    exact le_of_eq (Function.update_of_ne (Ne.symm he) _ _)
  | deleted t q r =>
    by_cases hpq : p = q
    · subst hpq
      exact le_of_eq_of_le (Function.update_self _ _ _) (Nat.zero_le _)
    · exact le_of_eq (Function.update_of_ne hpq _ _)
  | ended t r => cases r <;> exact le_rfl
  | _ => exact le_rfl

theorem Includes.enter {p m : Nat} {x : Page} (h : Includes (g.history p) m x) :
    Includes ((e.enter (Ledger.after sweeps) g).history p) m x := by
  obtain ⟨later, hlater⟩ := history_enter sweeps e g p
  rw [hlater]
  exact h.append later

theorem Has.enter {p : Nat} {x : Page} (h : g.Has p x) (he : e.Passes p) :
    (e.enter (Ledger.after sweeps) g).Has p x :=
  (Includes.enter h).mono (marked_enter_le sweeps he g)

/-- More and more is written. -/
theorem completed_enter_le (sweeps : Bool) (e : Event τ) (g : Ledger τ) (p : Nat) :
    g.completed p ≤ (e.enter (Ledger.after sweeps) g).completed p := by
  cases e with
  | wrote t q =>
    change _ ≤ Function.update g.completed q (max (g.completed q) (g.copied t)) p
    by_cases hpq : p = q
    · rw [hpq, Function.update_self]
      exact Nat.le_max_left _ _
    · rw [Function.update_of_ne hpq]
  | ended t r => cases r <;> exact le_rfl
  | _ => exact le_rfl

omit [DecidableEq τ] in
theorem Saves.mono {p m m' : Nat} {x : Page} (h : g.Saves p m x) (hle : m' ≤ m) : g.Saves p m' x :=
  ⟨h.includes.mono hle, hle.trans h.completed⟩

theorem Saves.enter {p m : Nat} {x : Page} (h : g.Saves p m x) :
    (e.enter (Ledger.after sweeps) g).Saves p m x :=
  ⟨Includes.enter h.includes, h.completed.trans (completed_enter_le sweeps e g p)⟩

/-- What is saved stays so where nothing more is marked. -/
theorem Saves.passes {p : Nat} {x : Page} (h : g.Saves p (g.marked p) x) (he : e.Passes p) :
    (e.enter (Ledger.after sweeps) g).Saves p ((e.enter (Ledger.after sweeps) g).marked p) x :=
  Saves.mono (Saves.enter h) (marked_enter_le sweeps he g)

end

/-! ## One page -/

namespace KeptAt

/-- A page that a step leaves where it is. -/
theorem congr [DecidableEq τ] {p : Nat} (h : KeptAt c g p) (hplace : c'.place p = c.place p)
    (hframe : ∀ f, (c.place p).frame = some f →
      c'.bytes f = c.bytes f ∧ (c'.frame f).meta.dirty = (c.frame f).meta.dirty)
    (hdisk : c'.disk p = c.disk p) (he : e.Passes p) :
    KeptAt c' (e.enter (Ledger.after sweeps) g) p := by
  unfold KeptAt at h ⊢
  rw [hplace, hdisk]
  cases hp : c.place p with
  | unused =>
    rw [hp] at h
    exact Nat.le_zero.mp ((marked_enter_le sweeps he g).trans (le_of_eq h))
  | nonResident | loading f =>
    rw [hp] at h
    exact Saves.passes h he
  | resident f | evicting f =>
    rw [hp] at h
    obtain ⟨hbytes, hdirty⟩ := hframe f (by rw [hp]; rfl)
    refine ⟨?_, fun hclean => Saves.passes (h.2 (hdirty ▸ hclean)) he⟩
    rw [hbytes]
    exact Has.enter h.1 he

/-- Where a page is out of memory, its marked changes are on disk. -/
theorem of_nonResident {p : Nat} (hplace : c.place p = .nonResident ∨ ∃ f, c.place p = .loading f)
    (h : g.Saves p (g.marked p) (c.disk p)) : KeptAt c g p := by
  unfold KeptAt
  rcases hplace with hp | ⟨f, hp⟩
  · rw [hp]
    exact h
  · rw [hp]
    exact h

theorem of_frame {p f : Nat} (hplace : c.place p = .resident f ∨ c.place p = .evicting f)
    (hbytes : g.Has p (c.bytes f))
    (hdisk : (c.frame f).meta.dirty = false → g.Saves p (g.marked p) (c.disk p)) :
    KeptAt c g p := by
  unfold KeptAt
  rcases hplace with hp | hp
  · rw [hp]
    exact ⟨hbytes, hdisk⟩
  · rw [hp]
    exact ⟨hbytes, hdisk⟩

theorem disk {p : Nat} (h : KeptAt c g p)
    (hplace : c.place p = .nonResident ∨ ∃ f, c.place p = .loading f) :
    g.Saves p (g.marked p) (c.disk p) := by
  unfold KeptAt at h
  rcases hplace with hp | ⟨f, hp⟩
  · rw [hp] at h
    exact h
  · rw [hp] at h
    exact h

theorem frame {p f : Nat} (h : KeptAt c g p)
    (hplace : c.place p = .resident f ∨ c.place p = .evicting f) :
    g.Has p (c.bytes f) ∧ ((c.frame f).meta.dirty = false → g.Saves p (g.marked p) (c.disk p)) := by
  unfold KeptAt at h
  rcases hplace with hp | hp
  · rw [hp] at h
    exact h
  · rw [hp] at h
    exact h

theorem unused {p : Nat} (h : KeptAt c g p) (hplace : c.place p = .unused) : g.marked p = 0 := by
  unfold KeptAt at h
  rw [hplace] at h
  exact h

end KeptAt

/-- Another page's frame is not the one whose use names `q`. -/
theorem Owned.frame_ne (hI : Owned n c) {f f' p q : Nat} {x : Place}
    (huse : (c.frame f').place f' = some (q, x)) (hpq : p ≠ q) (hf : (c.place p).frame = some f) :
    f ≠ f' := by
  rintro rfl
  exact hpq (hI.named huse p hf)

/-- No page's frame is one that is free. -/
theorem Owned.frame_ne_free (hI : Owned n c) {f f' p : Nat} (hfree : c.frame f' = .free)
    (hf : (c.place p).frame = some f) : f ≠ f' := by
  rintro rfl
  exact hI.unnamed (by rw [hfree]; rfl) p hf

/-- Another page's frame is not one that a thread is using for page `q`. -/
theorem Owned.frame_ne_claim (hI : Owned n c) {t : τ} {f f' p q : Nat} {u : Use} {x : Place}
    (hclaim : (c.phase t).claim = some (f', u)) (hu : u.place f' = some (q, x)) (hpq : p ≠ q)
    (hf : (c.place p).frame = some f) : f ≠ f' :=
  hI.frame_ne (by rw [hI.claim_use t f' u hclaim, hu]) hpq hf

/-- A frame gets a use that is as dirty as its last one. -/
theorem dirty_update {f f' : Nat} {u : Use} (h : u.meta.dirty = (c.frame f).meta.dirty) :
    (Function.update c.frame f u f').meta.dirty = (c.frame f').meta.dirty := by
  by_cases hf : f' = f
  · subst hf
    rw [Function.update_self, h]
  · rw [Function.update_of_ne hf]

theorem Unpin.dirty [DecidableEq τ] {f f' : Nat} {failure : Option Error}
    (h : Unpin c f c' failure) :
    (c'.frame f').meta.dirty = (c.frame f').meta.dirty := by
  cases h with
  | kept r k hr | last r hr | unknown r e hr => exact dirty_update (by rw [hr]; rfl)
  | refused => rfl

attribute [local simp] Place.frame Use.place Use.meta Phase.claim

variable [DecidableEq τ]

theorem Durable.kept_step [Fintype τ] (h : Step n N complete c e c') (hI : Owned n c)
    (hP : Pinned c) (hR : Reservations c) (hD : Durable c g) (p : Nat) :
    KeptAt c' (e.enter (Ledger.after sweeps) g) p := by
  have hkept := hD.kept p
  cases h with
  | visit | noIds | snapshot | wakePage | wakeFrame | nextFlush | leave | sleepPage | seek
  | skipFlush | recheck | tookFrame | sleepFrame | writeFailed | abandon | dropStale | move
  | assign => exact hkept.congr rfl (fun _ _ => ⟨rfl, rfl⟩) rfl trivial
  | flushReturn t caller =>
    refine hkept.congr rfl (fun _ _ => ⟨rfl, rfl⟩) rfl ?_
    rcases caller with - | rest
    · trivial
    · cases rest <;> trivial
  | noFrame t a =>
    refine hkept.congr rfl (fun _ _ => ⟨rfl, rfl⟩) rfl ?_
    cases a <;> trivial
  | pin t q f r hph hplace hr =>
    exact hkept.congr rfl (fun f' _ => ⟨rfl, dirty_update (by rw [hr]; rfl)⟩) rfl trivial
  | capture t q f r caller hph hplace hr =>
    exact hkept.congr rfl (fun f' _ => ⟨rfl, dirty_update (by rw [hr]; rfl)⟩) rfl trivial
  | @unpinned c₁ t q f caller failure hph hunpin =>
    refine hkept.congr ?_ (fun f' _ => ⟨?_, hunpin.dirty⟩) ?_ ?_
    · simp [hunpin.frame_only]
    · simp [hunpin.frame_only]
    · simp [hunpin.frame_only]
    · cases failure <;> trivial
  | @unpinThrew c₁ t q f caller failure e hph hunpin =>
    refine hkept.congr ?_ (fun f' _ => ⟨?_, hunpin.dirty⟩) ?_ trivial
    · simp [hunpin.frame_only]
    · simp [hunpin.frame_only]
    · simp [hunpin.frame_only]
  | @drop c₁ slot gd failure hg hv hpage hunpin =>
    have hframe := hunpin.frame_only
    have hdirty : ∀ f', (c₁.frame f').meta.dirty = (c.frame f').meta.dirty := fun f' => hunpin.dirty
    cases failure
    · exact hkept.congr (by simp [hframe]) (fun f' _ => ⟨by simp [hframe], hdirty f'⟩)
        (by simp [hframe]) trivial
    · exact hkept.congr (by simp [hframe]) (fun f' _ => ⟨by simp [hframe], hdirty f'⟩)
        (by simp [hframe]) trivial
  | reserve t q rest hph hids =>
    by_cases hpq : p = q
    · subst hpq
      have hunused := hI.upcoming_unused p (hids ▸ List.mem_cons_self)
      refine .of_nonResident (Or.inl (by simp)) (Saves.passes ?_ trivial)
      rw [hkept.unused hunused]
      exact ⟨.zero, Nat.zero_le _⟩
    · exact hkept.congr (by simp [hpq]) (fun _ _ => ⟨rfl, rfl⟩) rfl trivial
  | deleteUnused t q hph hplace =>
    exact hkept.congr rfl (fun _ _ => ⟨rfl, rfl⟩) rfl trivial
  | deleteNonResident t q hph hplace =>
    by_cases hpq : p = q
    · subst hpq
      unfold KeptAt
      simp [Event.enter, Event.note, Ledger.after]
    · exact hkept.congr (by simp [hpq]) (fun _ _ => ⟨rfl, rfl⟩) rfl trivial
  | deleteResident t q f r hph hplace hr =>
    by_cases hpq : p = q
    · subst hpq
      unfold KeptAt
      simp [Event.enter, Event.note, Ledger.after]
    · refine hkept.congr (by simp [hpq]) (fun f' hf' => ⟨rfl, ?_⟩) rfl trivial
      have huse := hI.use_of_place q f (by rw [hplace]; rfl)
      have hne := hI.frame_ne huse hpq hf'
      simp [hne]
  | surplus t q f hph =>
    have hfree := hI.claim_use t f .free (by rw [hph]; rfl)
    refine hkept.congr rfl (fun f' hf' => ⟨rfl, ?_⟩) rfl trivial
    simp [hI.frame_ne_free hfree hf']
  | rollback t q e hph hplace =>
    by_cases hpq : p = q
    · subst hpq
      unfold KeptAt
      simpa [Event.enter, Event.note, Ledger.after] using hD.reserved t p (by rw [hph]; rfl)
    · exact hkept.congr (by simp [hpq]) (fun _ _ => ⟨rfl, rfl⟩) rfl trivial
  | evictBegin t a f r hph hev hplace hr hpins =>
    by_cases hpq : p = r.page
    · subst hpq
      obtain ⟨hbytes, hdisk⟩ := hkept.frame (Or.inl hplace)
      refine .of_frame (f := f) (Or.inr (by simp)) hbytes fun hclean => hdisk ?_
      rw [hr]
      simpa using hclean
    · have huse := hI.use_of_place r.page f (by rw [hplace]; rfl)
      refine hkept.congr (by simp [hpq]) (fun f' hf' => ⟨rfl, ?_⟩) rfl trivial
      simp [hI.frame_ne huse hpq hf']
  | evictDone t a ev hph =>
    have hclaim : (c.phase t).claim =
        some (ev.frameId, .evicting ev.oldPageId ev.dirty ev.dirtyEpoch) := by
      rw [hph]
      rfl
    have hpasses : Event.Passes p
        (if ev.dirty = true then Event.wrote t ev.oldPageId else .silent) := by
      split <;> trivial
    by_cases hpq : p = ev.oldPageId
    · subst hpq
      have htold := hD.told t
      rw [Told, hph] at htold
      obtain ⟨hdisk, hcopied⟩ := htold
      refine .of_nonResident (Or.inl (by simp)) ?_
      cases hdirty : ev.dirty with
      | false =>
        obtain ⟨-, hclean⟩ := hkept.frame (Or.inr (hI.place_of_claim hclaim rfl))
        rw [hI.claim_use t ev.frameId _ hclaim] at hclean
        exact Saves.passes (hclean hdirty) trivial
      | true =>
        refine ⟨hdisk, ?_⟩
        change _ ≤ Function.update g.completed _ (max _ (g.copied t)) _
        rw [Function.update_self]
        exact (hcopied hdirty).trans (Nat.le_max_right _ _)
    · refine hkept.congr (by simp [hpq]) (fun f' hf' => ⟨rfl, ?_⟩) rfl hpasses
      simp [hI.frame_ne_claim hclaim rfl hpq hf']
  | evictFail t a ev e hph =>
    have hclaim : (c.phase t).claim =
        some (ev.frameId, .evicting ev.oldPageId ev.dirty ev.dirtyEpoch) := by
      rw [hph]
      rfl
    have huse := hI.claim_use t ev.frameId _ hclaim
    have hplace : c.place ev.oldPageId = .evicting ev.frameId := hI.place_of_claim hclaim rfl
    have hpasses : Event.Passes p (failEvent t a e) := by
      cases a <;> trivial
    by_cases hpq : p = ev.oldPageId
    · subst hpq
      obtain ⟨hbytes, hdisk⟩ := hkept.frame (Or.inr hplace)
      refine .of_frame (f := ev.frameId) (Or.inl (by simp)) (Has.enter hbytes hpasses)
        fun hclean => Saves.passes (hdisk ?_) hpasses
      rw [huse]
      simpa using hclean
    · refine hkept.congr (by simp [hpq]) (fun f' hf' => ⟨rfl, ?_⟩) rfl hpasses
      simp [hI.frame_ne_claim hclaim rfl hpq hf']
  | create t q f hph hplace =>
    have hfree := hI.claim_use t f .free (by rw [hph]; rfl)
    by_cases hpq : p = q
    · subst hpq
      refine .of_frame (f := f) (Or.inl (by simp)) ?_ fun hclean => ?_
      · rw [Ledger.Has]
        simp only [Event.enter, Event.note, Option.elim, Ledger.after, Ledger.change,
          Function.update_self, Cfg.setBytes, Cfg.setUse, Cfg.setPlace, Cfg.enlist, Cfg.notify,
          Cfg.addGuard, Cfg.goto]
        exact .last le_rfl
      · simp at hclean
    · refine hkept.congr (by simp [hpq]) (fun f' hf' => ?_) rfl (Ne.symm hpq)
      have hne := hI.frame_ne_free hfree hf'
      simp [hne]
  | block t q f e hph hplace => exact absurd (hR.nonResident t q (by rw [hph]; rfl)) hplace
  | loadBegin t q f hph hplace =>
    have hfree := hI.claim_use t f .free (by rw [hph]; rfl)
    by_cases hpq : p = q
    · subst hpq
      exact .of_nonResident (Or.inr ⟨f, by simp⟩)
        (Saves.passes (hkept.disk (Or.inl hplace)) trivial)
    · refine hkept.congr (by simp [hpq]) (fun f' hf' => ⟨rfl, ?_⟩) rfl trivial
      simp [hI.frame_ne_free hfree hf']
  | loaded t q f hph =>
    have hclaim : (c.phase t).claim = some (f, .loading q) := by rw [hph]; rfl
    have hplace : c.place q = .loading f := hI.place_of_claim hclaim rfl
    by_cases hpq : p = q
    · subst hpq
      have htold := hD.told t
      rw [Told, hph] at htold
      exact .of_frame (f := f) (Or.inl (by simp)) htold
        fun _ => Saves.passes (hkept.disk (Or.inr ⟨f, hplace⟩)) trivial
    · refine hkept.congr (by simp [hpq]) (fun f' hf' => ⟨rfl, ?_⟩) rfl trivial
      simp [hI.frame_ne_claim hclaim rfl hpq hf']
  | loadFailed t q f e hph =>
    have hclaim : (c.phase t).claim = some (f, .loading q) := by rw [hph]; rfl
    have hplace : c.place q = .loading f := hI.place_of_claim hclaim rfl
    by_cases hpq : p = q
    · subst hpq
      exact .of_nonResident (Or.inl (by simp))
        (Saves.passes (hkept.disk (Or.inr ⟨f, hplace⟩)) trivial)
    · refine hkept.congr (by simp [hpq]) (fun f' hf' => ⟨rfl, ?_⟩) rfl trivial
      simp [hI.frame_ne_claim hclaim rfl hpq hf']
  | written t q f epoch caller hph =>
    have hplace : c.place q = .resident f :=
      hP.resident_of_refs q f (refs_pos_of_writer (t := t) (by rw [hph]; rfl))
    by_cases hpq : p = q
    · subst hpq
      have htold := hD.told t
      rw [Told, hph] at htold
      obtain ⟨r, hr, hsince⟩ := htold
      obtain ⟨hbytes, hdisk⟩ := hkept.frame (Or.inl hplace)
      refine .of_frame (f := f) (Or.inl hplace) hbytes fun hclean => ?_
      by_cases hepoch : r.epoch = epoch
      · obtain ⟨hincludes, hcopied⟩ := hsince hepoch rfl
        refine ⟨hincludes, ?_⟩
        change _ ≤ Function.update g.completed p (max _ (g.copied t)) p
        rw [Function.update_self]
        exact hcopied.trans (Nat.le_max_right _ _)
      · refine Saves.passes (hdisk ?_) trivial
        rw [← hclean]
        simp [hr, Use.cleaned, hepoch]
    · refine hkept.congr rfl (fun f' hf' => ⟨rfl, ?_⟩) rfl trivial
      have hne := hI.frame_ne (hI.use_of_place q f (by rw [hplace]; rfl)) hpq hf'
      simp [hne]
  | evictCopy t a ev hph =>
    have hplace : c.place ev.oldPageId = .evicting ev.frameId :=
      hI.place_of_claim (t := t) (u := .evicting ev.oldPageId ev.dirty ev.dirtyEpoch)
        (by rw [hph]; rfl) rfl
    by_cases hpq : p = ev.oldPageId
    · subst hpq
      obtain ⟨hbytes, hdisk⟩ := hkept.frame (Or.inr hplace)
      refine .of_frame (Or.inr hplace) hbytes fun hclean => ⟨?_, (hdisk hclean).completed⟩
      change Includes _ _ (Function.update c.disk ev.oldPageId (c.bytes ev.frameId) ev.oldPageId)
      rw [Function.update_self]
      exact hbytes
    · exact hkept.congr rfl (fun _ _ => ⟨rfl, rfl⟩) (by simp [hpq]) trivial
  | evictCopyFailed t a ev k e hph =>
    have hplace : c.place ev.oldPageId = .evicting ev.frameId :=
      hI.place_of_claim (t := t) (u := .evicting ev.oldPageId ev.dirty ev.dirtyEpoch)
        (by rw [hph]; rfl) rfl
    by_cases hpq : p = ev.oldPageId
    · subst hpq
      obtain ⟨hbytes, hdisk⟩ := hkept.frame (Or.inr hplace)
      refine .of_frame (Or.inr hplace) hbytes fun hclean => ⟨?_, (hdisk hclean).completed⟩
      change Includes _ _ (Function.update c.disk ev.oldPageId _ ev.oldPageId)
      rw [Function.update_self]
      exact hbytes.overwrite (hdisk hclean).includes k
    · exact hkept.congr rfl (fun _ _ => ⟨rfl, rfl⟩) (by simp [hpq]) trivial
  | writeCopy t q f epoch caller hph =>
    have hplace : c.place q = .resident f :=
      hP.resident_of_refs q f (refs_pos_of_writer (t := t) (by rw [hph]; rfl))
    by_cases hpq : p = q
    · subst hpq
      obtain ⟨hbytes, hdisk⟩ := hkept.frame (Or.inl hplace)
      refine .of_frame (Or.inl hplace) hbytes fun hclean => ⟨?_, (hdisk hclean).completed⟩
      change Includes _ _ (Function.update c.disk p (c.bytes f) p)
      rw [Function.update_self]
      exact hbytes
    · exact hkept.congr rfl (fun _ _ => ⟨rfl, rfl⟩) (by simp [hpq]) trivial
  | writeCopyFailed t q f epoch caller k e hph =>
    have hplace : c.place q = .resident f :=
      hP.resident_of_refs q f (refs_pos_of_writer (t := t) (by rw [hph]; rfl))
    by_cases hpq : p = q
    · subst hpq
      obtain ⟨hbytes, hdisk⟩ := hkept.frame (Or.inl hplace)
      refine .of_frame (Or.inl hplace) hbytes fun hclean => ⟨?_, (hdisk hclean).completed⟩
      change Includes _ _ (Function.update c.disk p _ p)
      rw [Function.update_self]
      exact hbytes.overwrite (hdisk hclean).includes k
    · exact hkept.congr rfl (fun _ _ => ⟨rfl, rfl⟩) (by simp [hpq]) trivial
  | readCopy t q f hph | readCopyFailed t q f left e hph =>
    have hclaim : (c.phase t).claim = some (f, .loading q) := by rw [hph]; rfl
    have hplace : c.place q = .loading f := hI.place_of_claim hclaim rfl
    by_cases hpq : p = q
    · subst hpq
      exact .of_nonResident (Or.inr ⟨f, hplace⟩)
        (Saves.passes (hkept.disk (Or.inr ⟨f, hplace⟩)) trivial)
    · refine hkept.congr rfl (fun f' hf' => ⟨?_, rfl⟩) rfl trivial
      simp [hI.frame_ne_claim hclaim rfl hpq hf']
  | change slot gd page hg hv =>
    obtain ⟨r, hr, -, -, -, hplace⟩ := hP.of_guard hI (List.mem_of_getElem? hg) hv
    by_cases hpq : p = gd.pageId
    · subst hpq
      obtain ⟨hbytes, hdisk⟩ := hkept.frame (Or.inl hplace)
      refine .of_frame (Or.inl hplace) ?_ fun hclean => Saves.passes (hdisk hclean) trivial
      have hle := hbytes.le_length
      simpa [Ledger.Has, Event.enter, Event.note, Ledger.after, Ledger.change] using
        Includes.last (x := page) (Nat.le_succ_of_le hle)
    · refine hkept.congr rfl (fun f' hf' => ⟨?_, rfl⟩) rfl trivial
      have hne := hI.frame_ne (hI.use_of_place _ gd.frameId (by rw [hplace]; rfl)) hpq hf'
      simp [hne]
  | mark slot gd r hg hv hr hpage =>
    obtain ⟨r', hr', -, -, -, hplace⟩ := hP.of_guard hI (List.mem_of_getElem? hg) hv
    by_cases hpq : p = gd.pageId
    · subst hpq
      obtain ⟨hbytes, -⟩ := hkept.frame (Or.inl hplace)
      refine .of_frame (Or.inl hplace) ?_ fun hclean => ?_
      · have hpending : Includes (g.history gd.pageId) (g.pending slot) (c.bytes gd.frameId) := by
          by_cases hzero : g.pending slot = 0
          · rw [hzero]
            exact .zero
          · obtain ⟨gd', hg', -, hincludes⟩ := hD.pending slot hzero
            obtain rfl := Option.some.inj (hg'.symm.trans hg)
            exact hincludes
        simpa [Ledger.Has, Event.enter, Event.note, Ledger.after] using
          Includes.of_max hbytes hpending
      · simp at hclean
    · refine hkept.congr rfl (fun f' hf' => ⟨rfl, ?_⟩) rfl (Ne.symm hpq)
      have hne := hI.frame_ne (hI.use_of_place _ gd.frameId (by rw [hplace]; rfl)) hpq hf'
      simp [hne]

end Protocol

end BufferManager
