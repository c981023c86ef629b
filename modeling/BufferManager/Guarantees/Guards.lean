/-
  Guarantees/Guards.lean --- live guards and pin counts.

  As long as no `FlushPage` pins a frame whose `pin_count` is full, the counts are
  exact: a frame has one pin for each live guard on it and one for each `FlushPage`
  writing it.  So a guard keeps its page resident in its frame, nothing else touches
  the frame, and what the guard does cannot fail.
-/
import BufferManager.Refinement.Runs

set_option autoImplicit false

namespace BufferManager

open BufferManager.Lib BufferManager.Protocol BufferManager.Refinement

variable {R τ : Type} [Replacer R] [LawfulReplacer R] [Fintype τ] [DecidableEq τ]
  {n N : Nat} {s : System R τ}

/-- No `FlushPage` pins a frame whose count is full. -/
def System.NoOverflow (s : System R τ) (l : Action τ × Outcome) : Prop := ¬ s.FlushOverflows l.1

instance (s : System R τ) (l : Action τ × Outcome) : Decidable (s.NoOverflow l) :=
  inferInstanceAs (Decidable (¬ s.FlushOverflows l.1))

/-- What a live guard relies on. -/
structure System.Backs (s : System R τ) (g : PageGuard) : Prop where
  entry : s.entry g.pageId = ⟨.resident, some g.frameId⟩
  pageId : (s.manager.frameMeta g.frameId).pageId = some g.pageId
  state : (s.manager.frameMeta g.frameId).state = .resident
  pinned : 1 ≤ (s.manager.frameMeta g.frameId).pinCount
  allocated : s.manager.frameAllocator.isAllocated g.frameId = .ok true
  /-- Nobody loads into the frame. -/
  not_loading : ∀ t p io, s.pc t ≠ .reading p g.frameId io
  /-- Nobody evicts the frame, and the replacer may not choose it. -/
  not_evicting : ∀ t a ev io, s.pc t = .evicting a ev io → ev.frameId ≠ g.frameId
  not_evictable : g.frameId ∉ LawfulReplacer.evictable s.manager.replacer

namespace Protocol

variable {c c' : Cfg τ} {complete : Prop}

omit [Fintype τ] [DecidableEq τ] in
theorem Event.fits_of_explained {h : Hazards} (hh : ¬ h.overflow) {e : Event τ}
    (he : e.Explained h) : e.Fits := by
  cases e with
  | flushPinned pins => exact fun hp => hh (he hp)
  | _ => trivial

/-- The event is no drop that failed. -/
def Event.DropsCleanly : Event τ → Prop
  | .dropped _ failure => failure = none
  | _ => True

/-- Dropping a live guard does not fail. -/
theorem Step.dropsCleanly {e : Event τ} (h : Step n N complete c e c') (hI : Owned n c)
    (hP : Pinned c) : e.DropsCleanly := by
  cases h with
  | @drop c₁ slot g failure hg hv hp hunpin =>
    obtain ⟨r, hr, -, hlisted, hpins, -⟩ := hP.of_guard hI (List.mem_of_getElem? hg) hv
    obtain ⟨k, hk⟩ := Nat.exists_eq_add_of_le' hpins
    exact (hunpin.listed (n := n) (hI.congr rfl rfl rfl rfl rfl rfl fun _ => rfl) hr hlisted hk).1
  | dropStale slot g e hg hv hp =>
    obtain ⟨r, hr, hpage, -⟩ := hP.of_guard hI (List.mem_of_getElem? hg) hv
    exact absurd (by rw [hr]; exact congrArg some hpage) hp
  | flushReturn t caller =>
    rcases caller with - | rest
    · trivial
    · cases rest <;> trivial
  | noFrame t a | evictFail t a => cases a <;> trivial
  | evictDone t a ev => cases hd : ev.dirty <;> simp [Event.DropsCleanly]
  | unpinned t p f caller failure => cases failure <;> trivial
  | _ => trivial

end Protocol

/-! ## What a step does to a guarded frame -/

namespace Refinement

variable {c : Cfg τ}

omit [DecidableEq τ] in
/-- A live guard is backed. -/
theorem Sim.backs (hS : Sim n N s c) (hI : Owned n c) (hP : Pinned c) {g : PageGuard}
    (hg : g ∈ s.guards) (hv : g.valid = true) : s.Backs g := by
  obtain ⟨r, hr, hpage, hlisted, hpins, hplace⟩ := hP.of_guard hI (hS.guards ▸ hg) hv
  have hmeta : s.manager.frameMeta g.frameId = (Use.resident r).meta := by
    rw [hS.rep.frameMeta, hr]
  refine ⟨?_, ?_, ?_, ?_, ?_, ?_, ?_, ?_⟩
  · rw [hS.entry_eq, hplace]
    rfl
  · rw [hmeta, ← hpage]
    rfl
  · rw [hmeta]
    rfl
  · rw [hmeta]
    exact hpins
  · have hmem : g.frameId ∈ s.manager.frameAllocator.allocated := by
      rw [hS.rep.allocated]
      exact hI.allocated_of_use (by simp [hr])
    exact FrameAllocator.isAllocated_ok (FrameAllocator.mem_allocated.mp hmem).1
      (FrameAllocator.mem_allocated.mp hmem).2
  · intro t p io hpc
    exact hI.unclaimed_of_resident hr t _ (by rw [hS.phase, hpc]; rfl)
  · intro t a ev io hpc hf
    exact hI.unclaimed_of_resident hr t _ (by rw [hS.phase, hpc, ← hf]; rfl)
  · rw [hS.rep.evictable]
    intro hev
    have := (hI.evictable_resident hev hr).2
    omega

omit [DecidableEq τ] in
/-- `MarkDirty` on a live guard. -/
theorem Sim.marks (hS : Sim n N s c) (hI : Owned n c) (hP : Pinned c) {g : PageGuard}
    (hg : g ∈ s.guards) (hv : g.valid = true) :
    s.markGuard g = ({ s with manager := { s.manager with
      frameMeta := Function.update s.manager.frameMeta g.frameId
        { s.manager.frameMeta g.frameId with
          dirty := true
          dirtyEpoch := ((s.manager.frameMeta g.frameId).dirtyEpoch + 1) % 2 ^ 64 } } },
      .returned .unit) := by
  have hback := hS.backs hI hP hg hv
  have hnot : ¬ ((s.manager.frameMeta g.frameId).pageId ≠ some g.pageId ∨
      (s.manager.frameMeta g.frameId).state ≠ .resident) := by
    simp [hback.pageId, hback.state]
  rw [System.markGuard, if_pos hv]
  rw [markDirty_ok hnot]

/-- Drop on a live guard. -/
theorem Sim.drops (hS : Sim n N s c) (hI : Owned n c) (hP : Pinned c) {slot : Nat} {g : PageGuard}
    (hg : s.guards[slot]? = some g) : ∃ s', s.dropGuard slot g = (s', none) := by
  by_cases hv : g.valid = true
  · cases hdrop : s.dropGuard slot g with
    | mk s' failure =>
      obtain ⟨c', hstep, -⟩ := dropGuard_simulated hS hI hg hv hdrop
      obtain rfl := hstep.dropsCleanly hI hP
      exact ⟨s', rfl⟩
  · exact ⟨s, by rw [System.dropGuard, if_neg hv]⟩

omit [Fintype τ] [DecidableEq τ] in
/-- The notes of a call's piece are of no operation on a guard. -/
theorem spares_of_call {h : Hazards} {es : List (Event τ)} {before : List (Note τ)} {t : τ}
    {creates : Bool} {deletes : Option Nat} {out : Outcome}
    (htold : Told h es (before ++ out.notes t creates deletes))
    (hbefore : ∀ x ∈ before, ∀ e : Event τ, e.note = some x → e.spares) :
    ∀ e ∈ es, e.spares := by
  have hout : ∀ x ∈ out.notes t creates deletes, ∀ e : Event τ, e.note = some x → e.spares := by
    intro x hx e hnote
    cases e with
    | changed | dropped | moved =>
      obtain rfl := Option.some.inj hnote
      cases out with
      | returned r =>
        cases r with
        | unit => cases deletes <;> simp [Outcome.notes] at hx
        | guard g => cases creates <;> simp [Outcome.notes] at hx
      | _ => simp [Outcome.notes] at hx
    | _ => trivial
  intro e he
  cases hnote : e.note with
  | none =>
    cases e with
    | changed | dropped | moved => cases hnote
    | _ => trivial
  | some x =>
    have hx : x ∈ before ++ out.notes t creates deletes := by
      rw [← htold.notes]
      exact List.mem_filterMap.mpr ⟨e, he, hnote⟩
    rcases List.mem_append.mp hx with hx | hx
    · exact hbefore x hx e hnote
    · exact hout x hx e hnote

/-- A path that is no operation on a guard leaves a guarded frame's bytes alone. -/
theorem bytes_of_path {complete : Prop} {c' : Cfg τ} {es : List (Event τ)}
    (hpath : Path (Step n N complete) c es c') (hspares : ∀ e ∈ es, e.spares)
    (hfits : ∀ e ∈ es, e.Fits) (hI : Owned n c) (hP : Pinned c) {g : PageGuard}
    (hg : g ∈ c.guards) (hv : g.valid = true) : c'.bytes g.frameId = c.bytes g.frameId := by
  refine (hpath.preserves (P := fun e => e.spares ∧ e.Fits)
    (I := fun c₁ => Owned n c₁ ∧ Pinned c₁ ∧ g ∈ c₁.guards ∧
      c₁.bytes g.frameId = c.bytes g.frameId) ?_ (fun e he => ⟨hspares e he, hfits e he⟩)
    ⟨hI, hP, hg, rfl⟩).2.2.2
  rintro c₁ e c₂ ⟨hs, hf⟩ hstep ⟨hI₁, hP₁, hg₁, hbytes⟩
  obtain ⟨⟨gs, hgs⟩, hsame⟩ := hstep.spares hs hI₁
  obtain ⟨r, hr, -⟩ := hP₁.of_guard hI₁ hg₁ hv
  refine ⟨Owned.step hstep hI₁, Pinned.step hstep hf hI₁ hP₁, ?_, (hsame _ r hr).trans hbytes⟩
  rw [hgs]
  exact List.mem_append_left _ hg₁

omit [Fintype τ] in
theorem dropGuard_bytes (hS : Sim n N s c) (hI : Owned n c) {slot : Nat} {g : PageGuard}
    {s' : System R τ} {failure : Option Error} (hdrop : s.dropGuard slot g = (s', failure))
    (f : Nat) : s'.bytes f = s.bytes f := by
  by_cases hv : g.valid = true
  · have hwp := hS.rep.wp_dropPageGuard (p := g.pageId) (f := g.frameId) hI
      (Q := fun _ m' => m'.frameAllocator.frames = c.bytes)
      (E := fun _ m' => m'.frameAllocator.frames = c.bytes)
      (fun c' m' _ hunpin hR => hR.bytes.trans (by simp [hunpin.frame_only]))
      (fun c' m' e _ hunpin hR => hR.bytes.trans (by simp [hunpin.frame_only]))
      fun _ _ => hS.rep.bytes
    simp only [System.dropGuard, hv, if_true] at hdrop
    cases hm : Manager.dropPageGuard g.pageId g.frameId s.manager with
    | ok u m =>
      simp only [System.setGuard, hm] at hdrop
      obtain ⟨rfl, rfl⟩ := Prod.mk.inj hdrop
      rw [hS.bytes_eq]
      exact congrFun (hwp.ok hm) f
    | error e m =>
      simp only [System.setGuard, hm] at hdrop
      obtain ⟨rfl, rfl⟩ := Prod.mk.inj hdrop
      rw [hS.bytes_eq]
      exact congrFun (hwp.error hm) f
  · rw [System.dropGuard, if_neg hv] at hdrop
    obtain ⟨rfl, -⟩ := Prod.mk.inj hdrop
    rfl

/-- A step changes a guarded frame's bytes only by a store through a guard on it. -/
theorem guarded_bytes (hS : Sim n N s c) (hsound : Sound n N c) (hP : Pinned c)
    {action : Action τ} {s' : System R τ} {out : Outcome} (hok : s.NoOverflow (action, out))
    (hstep : s.step action = some (s', out)) {g : PageGuard} (hg : g ∈ s.guards)
    (hv : g.valid = true) (hwrite : ∀ slot page g', action = .write slot page →
      s.guards[slot]? = some g' → g'.frameId ≠ g.frameId) :
    s'.bytes g.frameId = s.bytes g.frameId := by
  have hI := hsound.owned
  have hg' : g ∈ c.guards := hS.guards ▸ hg
  have hback := hS.backs hI hP hg hv
  cases action with
  | call t call =>
    obtain ⟨es, c', h⟩ := call_simulated hS hI hsound.within hstep
    rw [hS.bytes_eq, h.sim.bytes_eq]
    refine bytes_of_path (h.path.mono fun _ _ _ hst => hst.step) (spares_of_call h.told ?_)
      (fun e he => Event.fits_of_explained (h := s.hazards _) hok (h.told.explained e he))
      hI hP hg' hv
    intro x hx e hnote
    cases e with
    | changed | dropped | moved =>
      obtain rfl := Option.some.inj hnote
      cases call <;> simp [Call.notes] at hx
    | _ => trivial
  | resume t =>
    obtain ⟨es, c', h⟩ := resume_simulated hS hI hsound.within hstep
    rw [hS.bytes_eq, h.sim.bytes_eq]
    refine bytes_of_path (h.path.mono fun _ _ _ hst => hst.step) (spares_of_call h.told ?_)
      (fun e he => Event.fits_of_explained (h := s.hazards _) hok (h.told.explained e he))
      hI hP hg' hv
    intro x hx e hnote
    cases e with
    | changed | dropped | moved =>
      obtain rfl := Option.some.inj hnote
      simp [Pc.notes] at hx
    | _ => trivial
  | transfer t =>
    obtain ⟨s₁, hs₁, heq⟩ := Option.map_eq_some_iff.mp hstep
    obtain ⟨rfl, -⟩ := Prod.mk.inj heq
    unfold System.transfer at hs₁
    split at hs₁
    · obtain rfl := Option.some.inj hs₁
      rfl
    · next p f hpc =>
      obtain rfl := Option.some.inj hs₁
      exact Function.update_of_ne (fun hf => hback.not_loading t p _ (hf ▸ hpc)) _ _
    · obtain rfl := Option.some.inj hs₁
      rfl
    · cases hs₁
  | failRead t left e =>
    obtain ⟨s₁, hs₁, heq⟩ := Option.map_eq_some_iff.mp hstep
    obtain ⟨rfl, -⟩ := Prod.mk.inj heq
    unfold System.failRead at hs₁
    split at hs₁
    · next p f hpc =>
      obtain rfl := Option.some.inj hs₁
      exact Function.update_of_ne (fun hf => hback.not_loading t p _ (hf ▸ hpc)) _ _
    · cases hs₁
  | failWrite t k e =>
    obtain ⟨s₁, hs₁, heq⟩ := Option.map_eq_some_iff.mp hstep
    obtain ⟨rfl, -⟩ := Prod.mk.inj heq
    unfold System.failWrite at hs₁
    split at hs₁
    · obtain rfl := Option.some.inj hs₁
      rfl
    · obtain rfl := Option.some.inj hs₁
      rfl
    · cases hs₁
  | read slot =>
    obtain ⟨g₁, -, heq⟩ := Option.map_eq_some_iff.mp hstep
    split at heq <;> obtain ⟨rfl, rfl⟩ := Prod.mk.inj heq <;> rfl
  | write slot page =>
    obtain ⟨g₁, hg₁, heq⟩ := Option.map_eq_some_iff.mp hstep
    split at heq
    · obtain ⟨rfl, rfl⟩ := Prod.mk.inj heq
      exact Function.update_of_ne (hwrite slot page g₁ rfl hg₁).symm _ _
    · obtain ⟨rfl, rfl⟩ := Prod.mk.inj heq
      rfl
  | markDirty slot =>
    obtain ⟨g₁, hg₁, heq⟩ := Option.map_eq_some_iff.mp hstep
    by_cases hv₁ : g₁.valid = true
    · rw [hS.marks hI hP (List.mem_of_getElem? hg₁) hv₁] at heq
      obtain ⟨rfl, -⟩ := Prod.mk.inj heq
      rfl
    · rw [System.markGuard, if_neg hv₁] at heq
      obtain ⟨rfl, -⟩ := Prod.mk.inj heq
      rfl
  | drop slot =>
    obtain ⟨g₁, -, heq⟩ := Option.map_eq_some_iff.mp hstep
    cases hdrop : s.dropGuard slot g₁ with
    | mk s₁ failure =>
      rw [hdrop] at heq
      cases failure <;> obtain ⟨rfl, rfl⟩ := Prod.mk.inj heq <;>
        exact dropGuard_bytes hS hI hdrop _
  | destroy slot =>
    obtain ⟨g₁, -, heq⟩ := Option.map_eq_some_iff.mp hstep
    cases hdrop : s.dropGuard slot g₁ with
    | mk s₁ failure =>
      rw [hdrop] at heq
      cases failure <;> obtain ⟨rfl, rfl⟩ := Prod.mk.inj heq <;>
        exact dropGuard_bytes hS hI hdrop _
  | moveConstruct slot =>
    obtain ⟨g₁, -, heq⟩ := Option.map_eq_some_iff.mp hstep
    obtain ⟨rfl, rfl⟩ := Prod.mk.inj heq
    rfl
  | moveAssign slot source =>
    simp only [System.step] at hstep
    split at hstep
    · next g₁ g₂ hg₁ hg₂ =>
      split at hstep
      · obtain ⟨rfl, rfl⟩ := Prod.mk.inj (Option.some.inj hstep)
        rfl
      · cases hdrop : s.dropGuard slot g₁ with
        | mk s₁ failure =>
          rw [hdrop] at hstep
          cases failure <;> obtain ⟨rfl, rfl⟩ := Prod.mk.inj (Option.some.inj hstep) <;>
            exact dropGuard_bytes hS hI hdrop _
    · exact absurd hstep (by simp)

/-- No step ends in `std::terminate`. -/
theorem not_terminated (hS : Sim n N s c) (hsound : Sound n N c) (hP : Pinned c)
    {action : Action τ} {s' : System R τ} : s.step action ≠ some (s', .terminated) := by
  have hdrops : ∀ slot g, s.guards[slot]? = some g → ∃ s₁, s.dropGuard slot g = (s₁, none) :=
    fun slot g hg => hS.drops hsound.owned hP hg
  intro hstep
  cases action with
  | destroy slot =>
    obtain ⟨g, hg, heq⟩ := Option.map_eq_some_iff.mp hstep
    obtain ⟨s₁, hs₁⟩ := hdrops slot g hg
    rw [hs₁] at heq
    cases heq
  | moveAssign slot source =>
    simp only [System.step] at hstep
    split at hstep
    · next g g' hg hg' =>
      obtain ⟨s₁, hs₁⟩ := hdrops slot g hg
      rw [hs₁] at hstep
      split at hstep <;> cases hstep
    · cases hstep
  | call t call =>
    obtain ⟨es, c', h⟩ := call_simulated hS hsound.owned hsound.within hstep
    exact h.lives rfl
  | resume t =>
    obtain ⟨es, c', h⟩ := resume_simulated hS hsound.owned hsound.within hstep
    exact h.lives rfl
  | transfer t | failRead t left e | failWrite t k e =>
    obtain ⟨s₁, -, heq⟩ := Option.map_eq_some_iff.mp hstep
    cases heq
  | read slot | write slot page =>
    obtain ⟨g, -, heq⟩ := Option.map_eq_some_iff.mp hstep
    split at heq <;> cases heq
  | drop slot =>
    obtain ⟨g, hg, heq⟩ := Option.map_eq_some_iff.mp hstep
    obtain ⟨s₁, hs₁⟩ := hdrops slot g hg
    rw [hs₁] at heq
    cases heq
  | moveConstruct slot =>
    obtain ⟨g, -, heq⟩ := Option.map_eq_some_iff.mp hstep
    cases heq
  | markDirty slot =>
    obtain ⟨g, hg, heq⟩ := Option.map_eq_some_iff.mp hstep
    by_cases hv : g.valid = true
    · rw [hS.marks hsound.owned hP (List.mem_of_getElem? hg) hv] at heq
      cases heq
    · rw [System.markGuard, if_neg hv] at heq
      cases heq

/-- What a step throws: a call's error has its reason, and the guards' own is that of an
empty guard. -/
theorem Sim.fails_of_threw (hS : Sim n N s c) (hsound : Sound n N c) (hP : Pinned c)
    {action : Action τ} {s' : System R τ} {e : Error}
    (hstep : s.step action = some (s', .threw e)) : s.Fails action e ∨ e = System.emptyGuard := by
  have hholds : Holds n N Pinned s := ⟨c, hS, hsound, hP⟩
  cases action with
  | call t call => exact Or.inl (hholds.fails (Or.inl ⟨t, call, rfl⟩) hstep)
  | resume t => exact Or.inl (hholds.fails (Or.inr ⟨t, rfl⟩) hstep)
  | transfer t | failRead t left e' | failWrite t k e' =>
    obtain ⟨s₁, -, heq⟩ := Option.map_eq_some_iff.mp hstep
    cases heq
  | read slot | write slot page =>
    obtain ⟨g, -, heq⟩ := Option.map_eq_some_iff.mp hstep
    split at heq
    · cases heq
    · cases heq
      exact Or.inr rfl
  | markDirty slot =>
    obtain ⟨g, hg, heq⟩ := Option.map_eq_some_iff.mp hstep
    by_cases hv : g.valid = true
    · rw [hS.marks hsound.owned hP (List.mem_of_getElem? hg) hv] at heq
      cases heq
    · rw [System.markGuard, if_neg hv] at heq
      cases heq
      exact Or.inr rfl
  | drop slot | destroy slot =>
    obtain ⟨g, hg, heq⟩ := Option.map_eq_some_iff.mp hstep
    obtain ⟨s₁, hs₁⟩ := hS.drops hsound.owned hP hg
    rw [hs₁] at heq
    cases heq
  | moveConstruct slot =>
    obtain ⟨g, -, heq⟩ := Option.map_eq_some_iff.mp hstep
    cases heq
  | moveAssign slot source =>
    simp only [System.step] at hstep
    split at hstep
    · split at hstep
      · cases hstep
      · split at hstep <;> cases hstep
    · cases hstep

/-- The counts are exact all along a run without overflow. -/
theorem pinned_of_reachable
    (h : Reachable (System.Initial n N) (Under System.NoOverflow System.Trans) s) :
    Holds n N Pinned s :=
  lift (P := Event.Fits) Pinned.initial
    (fun _ _ _ he hst hs hP => Pinned.step hst he hs.owned hP)
    (fun _ _ hok _ he => Event.fits_of_explained hok he) h

end Refinement

/-! ## Live guards -/

/-- A live guard stays valid: whatever the threads do, its page is resident in its
frame with a pin, the frame is in nobody else's hands and keeps its bytes but for
stores through guards, and `MarkDirty`, `Drop`, `~PageGuard` and move assignment do
not fail. -/
theorem live_guard_stays_valid
    (h : Reachable (System.Initial n N) (Under System.NoOverflow System.Trans) s) :
    (∀ g ∈ s.guards, g.valid = true → s.Backs g) ∧
    (∀ g ∈ s.guards, ∀ g' ∈ s.guards, g.valid = true → g'.valid = true →
      g.pageId = g'.pageId → g.frameId = g'.frameId) ∧
    (∀ action s' out, s.step action = some (s', out) → s.NoOverflow (action, out) →
      ∀ g ∈ s.guards, g.valid = true →
        (∀ slot page g', action = .write slot page → s.guards[slot]? = some g' →
          g'.frameId ≠ g.frameId) → s'.bytes g.frameId = s.bytes g.frameId) ∧
    (∀ slot g, s.guards[slot]? = some g → g.valid = true →
      (∃ s', s.step (.markDirty slot) = some (s', .returned .unit)) ∧
        ∃ s', s.step (.drop slot) = some (s', .returned .unit)) ∧
    ∀ action s', s.step action ≠ some (s', .terminated) := by
  obtain ⟨c, hS, hsound, hP⟩ := pinned_of_reachable h
  have hback : ∀ g ∈ s.guards, g.valid = true → s.Backs g := fun g hg hv =>
    hS.backs hsound.owned hP hg hv
  refine ⟨hback, ?_, ?_, ?_, fun _ _ => not_terminated hS hsound hP⟩
  · intro g hg g' hg' hv hv' heq
    have h₁ := (hback g hg hv).entry
    have h₂ := (hback g' hg' hv').entry
    rw [heq, h₂] at h₁
    exact (Option.some.inj (congrArg Entry.frameId h₁)).symm
  · exact fun action s' out hstep hok g hg hv hwrite =>
      guarded_bytes hS hsound hP hok hstep hg hv hwrite
  · intro slot g hg hv
    refine ⟨⟨_, by
      simp only [System.step, hg, Option.map_some]
      rw [hS.marks hsound.owned hP (List.mem_of_getElem? hg) hv]⟩, ?_⟩
    obtain ⟨s₁, hs₁⟩ := hS.drops hsound.owned hP hg
    exact ⟨s₁, by simp [System.step, hg, hs₁]⟩

/-- A guard on one frame, while a thread flushes its page and another one evicts the page
of the other frame. -/
theorem live_guard_stays_valid_evicting : ∃ s : System ClockReplacer (Fin 2),
    s.guards = [⟨true, 0, 0⟩, {}] ∧ s.pc 0 = .writing 0 0 1 .flushPage .running ∧
      s.pc 1 = .evicting (.newPage 2) ⟨1, 1, true, 1⟩ .running ∧ s.Backs ⟨true, 0, 0⟩ := by
  obtain ⟨s, hreach, hguards, hflush, hevict⟩ := exists_of_runNew (n := 2) (N := 3)
    (P := fun s : System ClockReplacer (Fin 2) => s.guards = [⟨true, 0, 0⟩, {}] ∧
      s.pc 0 = .writing 0 0 1 .flushPage .running ∧
      s.pc 1 = .evicting (.newPage 2) ⟨1, 1, true, 1⟩ .running)
    (show (System.runNew System.NoOverflow 2 3 [.call (0 : Fin 2) .newPage, .call 1 .newPage,
      .drop 1, .call 0 (.flushPage 0), .call 1 .newPage]).any _ = true by decide +kernel)
  exact ⟨s, hguards, hflush, hevict,
    (live_guard_stays_valid hreach).1 ⟨true, 0, 0⟩ (by simp [hguards]) rfl⟩

end BufferManager
