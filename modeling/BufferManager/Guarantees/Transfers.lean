/-
  Guarantees/Transfers.lean --- a transfer that takes many system calls is as good as one that
  moves its bytes at one instant.

  While a `ReadPage` or `WritePage` runs, nobody else touches the page's place in the file
  but for flushes that write the same bytes, and nobody stores into the frame.  So the
  bytes it has moved stay as they are until it has moved them all, and the transfer can be
  taken to happen when its loop is left.
-/
import BufferManager.Guarantees.Exclusion
import BufferManager.Manager.FileBacked
import BufferManager.Manager.Unread
import BufferManager.Protocol.Transfers

set_option autoImplicit false

namespace BufferManager

open BufferManager.Lib BufferManager.Protocol BufferManager.Refinement

/-! ## Steps that are not the disk's -/

namespace System

variable {R τ : Type} {U : Set Nat} {s s' s₁ : System R τ}

/-- Whether a `FlushPage` is about to overflow a count does not depend on bytes. -/
theorem AgreeOff.flushOverflows (h : AgreeOff U s s') (action : Action τ) :
    s.FlushOverflows action ↔ s'.FlushOverflows action := by
  have hvisits : s.visits action = s'.visits action := by
    unfold visits
    rw [h.pc]
  have hentry : ∀ p, s.entry p = s'.entry p := fun p =>
    congrArg (fun pt : PageTable => pt.pages p) h.manager.pageTable
  unfold FlushOverflows
  simp only [hvisits, hentry, h.manager.frameMeta]

/-- A step that is not the disk's goes the same way in both states, where no live guard is on
a frame in which they differ. -/
theorem AgreeOff.client_step [Replacer R] [DecidableEq τ] (h : AgreeOff U s s')
    {action : Action τ} (hdisk : action.ofDisk = false) {out : Outcome}
    (hguards : ∀ (slot : Nat) (g : PageGuard), s.guards[slot]? = some g → g.valid = true →
      g.frameId ∉ U) (hstep : s.step action = some (s₁, out)) :
    ∃ s₁', s'.step action = some (s₁', out) ∧ AgreeOff U s₁ s₁' := by
  cases action with
  | transfer | failRead | failWrite => cases hdisk
  | read slot =>
    obtain ⟨g, hg, heq⟩ := Option.map_eq_some_iff.mp hstep
    simp only [System.step]
    rw [← h.guards, hg, Option.map_some]
    split at heq
    · next hvalid =>
      obtain ⟨rfl, rfl⟩ := Prod.mk.inj heq
      rw [if_pos hvalid]
      have hsame : s.bytes g.frameId = s'.bytes g.frameId :=
        h.manager.frameAllocator.frames _ (hguards slot g hg hvalid)
      exact ⟨s', by rw [hsame], h⟩
    · next hvalid =>
      obtain ⟨rfl, rfl⟩ := Prod.mk.inj heq
      rw [if_neg hvalid]
      exact ⟨s', rfl, h⟩
  | write slot page =>
    obtain ⟨g, hg, heq⟩ := Option.map_eq_some_iff.mp hstep
    simp only [System.step]
    rw [← h.guards, hg, Option.map_some]
    split at heq
    · next hvalid =>
      obtain ⟨rfl, rfl⟩ := Prod.mk.inj heq
      rw [if_pos hvalid]
      exact ⟨_, rfl, h.setBytes _ _⟩
    · next hvalid =>
      obtain ⟨rfl, rfl⟩ := Prod.mk.inj heq
      rw [if_neg hvalid]
      exact ⟨_, rfl, h⟩
  | _ => exact h.step rfl hstep

end System

/-! ## Transfers and their frames -/

/-- The page of a transfer. -/
def Transfer.pageId : Transfer → Nat
  | .read p _ | .write p _ => p

/-- The frame of a transfer. -/
def Transfer.frameId : Transfer → Nat
  | .read _ f | .write _ f => f

theorem Pc.transfers_of_running {pc : Pc} {tr : Transfer} (h : pc.running = some tr) :
    pc.transfers = some (tr.pageId, tr.frameId) := by
  unfold running at h
  split at h
  · obtain rfl := Option.some.inj h
    rfl
  · obtain rfl := Option.some.inj h
    rfl
  · obtain rfl := Option.some.inj h
    rfl
  · cases h

theorem Pc.flushing_of_reads {pc : Pc} {p f : Nat} (h : pc.running = some (.read p f)) :
    pc.flushing = none := by
  unfold running at h
  split at h
  · rfl
  · cases h
  · cases h
  · cases h

/-- Two running transfers that share a page or a frame are writes of one page from one
frame. -/
def Exclusive {τ : Type} (pc : τ → Pc) : Prop :=
  ∀ t u tr tr', t ≠ u → (pc t).running = some tr → (pc u).running = some tr' →
    tr.pageId = tr'.pageId ∨ tr.frameId = tr'.frameId → tr = tr' ∧ ∃ p f, tr = .write p f

/-- A page that is read, and the frame it is read into, are in no other transfer. -/
theorem Exclusive.reads {τ : Type} {pc : τ → Pc} (h : Exclusive pc) {t u : τ} (hne : t ≠ u)
    {p f : Nat} {tr : Transfer} (ht : (pc t).running = some (.read p f))
    (hu : (pc u).running = some tr) :
    tr.pageId ≠ p ∧ tr.frameId ≠ f := by
  have hshare : ¬ (p = tr.pageId ∨ f = tr.frameId) := by
    intro hshare
    obtain ⟨-, q, g, hwrite⟩ := h t u _ _ hne ht hu hshare
    cases hwrite
  exact ⟨fun hp => hshare (Or.inl hp.symm), fun hf => hshare (Or.inr hf.symm)⟩

namespace Protocol

/-- Thread `u` has frame `f` to itself, or writes it. -/
def Cfg.Moves {τ : Type} (c : Cfg τ) (u : τ) (f : Nat) : Prop :=
  (∃ w, (c.phase u).claim = some (f, w)) ∨ ∃ p, (c.phase u).writes = some (p, f)

variable {τ : Type} [Fintype τ] [DecidableEq τ] {n N : Nat} {complete : Prop} {c c' : Cfg τ}
  {e : Event τ}

/-- The bytes of a frame that a thread moves stay as they are where another thread goes on. -/
theorem Step.bytes_moved (h : Step n N complete c e c') (hspares : e.spares) (hI : Owned n c)
    (hP : Pinned c) {u : τ} {f : Nat} (hmoves : c.Moves u f) (hsame : c'.phase u = c.phase u) :
    c'.bytes f = c.bytes f := by
  rcases hmoves with ⟨w, hclaim⟩ | ⟨p, hwrites⟩
  · exact h.bytes_claimed hI hP hclaim hsame
  · obtain ⟨k, r, hr, -⟩ := hP.of_refs hI (refs_pos_of_writer hwrites)
    exact (h.spares hspares hI).2 f r hr

omit [DecidableEq τ] in
/-- What is sound does not depend on bytes. -/
theorem Sound.withBytes (h : Sound n N c) (bytes disk : Nat → Page) :
    Sound n N { c with bytes, disk } :=
  ⟨⟨h.owned.place_of_use, h.owned.use_of_place, h.owned.claim_use, h.owned.claim_unique,
      h.owned.transient_claimed, h.owned.allocated_lt, h.owned.allocated_iff, h.owned.present_iff,
      h.owned.evictable_unpinned, h.owned.upcoming_unused, h.owned.upcoming_nodup⟩,
    h.within, h.covered⟩

omit [DecidableEq τ] in
theorem Pinned.withBytes (h : Pinned c) (bytes disk : Nat → Page) :
    Pinned { c with bytes, disk } :=
  ⟨h.resident_of_refs, h.pins_eq, h.evictable_iff, h.unlisted_pins, h.pins_le⟩

end Protocol

namespace Refinement

variable {R τ : Type} [Replacer R] [LawfulReplacer R] [DecidableEq τ] {n N : Nat}
  {s : System R τ} {c : Cfg τ} {t : τ}

omit [DecidableEq τ] in
theorem Sim.moves_of_running (hS : Sim n N s c) {tr : Transfer}
    (h : (s.pc t).running = some tr) : c.Moves t tr.frameId := by
  unfold Cfg.Moves
  rw [hS.phase t]
  unfold Pc.running at h
  split at h
  · next hpc =>
    obtain rfl := Option.some.inj h
    rw [hpc]
    exact Or.inl ⟨_, rfl⟩
  · next hpc =>
    obtain rfl := Option.some.inj h
    rw [hpc]
    exact Or.inl ⟨_, rfl⟩
  · next hpc =>
    obtain rfl := Option.some.inj h
    rw [hpc]
    exact Or.inr ⟨_, rfl⟩
  · cases h

omit [DecidableEq τ] in
/-- Other bytes, in frames and on disk, make another configuration. -/
theorem Sim.withBytes (hS : Sim n N s c) {U : Set Nat} {s' : System R τ}
    (h : s.AgreeOff U s') :
    Sim n N s' { c with bytes := s'.manager.frameAllocator.frames, disk := s'.disk } := by
  have hallocator := h.manager.frameAllocator.eq
  have hR := hS.rep
  refine ⟨?_, rfl, fun t => ?_, hS.guards.trans h.guards⟩
  · refine {
      frameCount := h.manager.frameCount ▸ hR.frameCount
      allocator_inv := ?_
      allocator_count := h.manager.frameAllocator.frameCount ▸ hR.allocator_count
      allocated := ?_
      bytes := rfl
      table_inv := h.manager.pageTable ▸ hR.table_inv
      maxPageCount := h.manager.pageTable ▸ hR.maxPageCount
      pages := h.manager.pageTable ▸ hR.pages
      upcoming := h.manager.pageTable ▸ hR.upcoming
      replacer_inv := h.manager.replacer ▸ hR.replacer_inv
      present := h.manager.replacer ▸ hR.present
      evictable := h.manager.replacer ▸ hR.evictable
      frameMeta := h.manager.frameMeta ▸ hR.frameMeta
      asleep := h.manager.asleep ▸ hR.asleep }
    · rw [hallocator]
      exact ⟨hR.allocator_inv.frameCount_pos, hR.allocator_inv.frameCount_le,
        hR.allocator_inv.length_eq, hR.allocator_inv.padding, hR.allocator_inv.count_eq,
        hR.allocator_inv.hint_lt⟩
    · rw [hallocator]
      exact hR.allocated
  · rw [← h.pc]
    exact hS.phase t

variable [Fintype τ]

omit [DecidableEq τ] in
/-- Transfers are exclusive. -/
theorem Sim.exclusive (hS : Sim n N s c) (hI : Owned n c) (hP : Pinned c) : Exclusive s.pc := by
  intro t u tr tr' hne ht hu hshare
  obtain ⟨hp, hf, hflush, hflush'⟩ := hS.transfers_exclusive hI hP hne
    (Pc.transfers_of_running ht) (Pc.transfers_of_running hu) hshare
  cases tr with
  | read p f =>
    rw [Pc.flushing_of_reads ht] at hflush
    cases hflush
  | write p f =>
    cases tr' with
    | read q g =>
      rw [Pc.flushing_of_reads hu] at hflush'
      cases hflush'
    | write q g =>
      obtain rfl : p = q := hp
      obtain rfl : f = g := hf
      exact ⟨rfl, p, f, rfl⟩

omit [DecidableEq τ] in
/-- The frame of a live guard is not being filled. -/
theorem Sim.guard_frame (hS : Sim n N s c) (hI : Owned n c) (hP : Pinned c) {g : PageGuard}
    (hg : g ∈ s.guards) (hvalid : g.valid = true) {t : τ} {p : Nat} :
    (s.pc t).running ≠ some (.read p g.frameId) := by
  intro hrunning
  obtain ⟨r, hr, -⟩ := hP.of_guard hI (hS.guards ▸ hg) hvalid
  rcases hS.transfers_cases hI hP (Pc.transfers_of_running hrunning) with
    ⟨hflush, -⟩ | ⟨u, hclaim, -⟩
  · rw [Pc.flushing_of_reads hrunning] at hflush
    cases hflush
  · exact hI.unclaimed_of_resident hr t u hclaim

/-- The rest of a call of another thread leaves the bytes of a frame in transfer alone. -/
theorem moved_bytes_of_path {complete : Prop} {c' : Cfg τ} {es : List (Event τ)}
    (hpath : Path (StepBy n N complete t) c es c') (hspares : ∀ e ∈ es, e.spares)
    (hfits : ∀ e ∈ es, e.Fits) (hI : Owned n c) (hP : Pinned c) {u : τ} (hu : u ≠ t) {f : Nat}
    (hmoves : c.Moves u f) : c'.bytes f = c.bytes f := by
  refine (hpath.preserves (P := fun e => e.spares ∧ e.Fits)
    (I := fun c₁ => Owned n c₁ ∧ Pinned c₁ ∧ c₁.Moves u f ∧ c₁.bytes f = c.bytes f) ?_
    (fun e he => ⟨hspares e he, hfits e he⟩) ⟨hI, hP, hmoves, rfl⟩).2.2.2
  rintro c₁ e c₂ ⟨hs, hf⟩ hstep ⟨hI₁, hP₁, hmoves₁, hbytes⟩
  have hsame := hstep.others u hu
  refine ⟨Owned.step hstep.step hI₁, Pinned.step hstep.step hf hI₁ hP₁, ?_,
    (hstep.step.bytes_moved hs hI₁ hP₁ hmoves₁ hsame).trans hbytes⟩
  unfold Cfg.Moves
  rw [hsame]
  exact hmoves₁

/-- A step that is not the disk's leaves a running transfer where it is, and the bytes in its
frame as they are but for stores through guards. -/
theorem Sim.step_keeps_transfer (hS : Sim n N s c) (hsound : Sound n N c) (hP : Pinned c)
    {action : Action τ} (hdisk : action.ofDisk = false) {s' : System R τ} {out : Outcome}
    (hok : s.NoOverflow (action, out)) (hstep : s.step action = some (s', out)) {u : τ}
    {tr : Transfer} (hrunning : (s.pc u).running = some tr)
    (hwrite : ∀ slot page g, action = .write slot page → s.guards[slot]? = some g →
      g.valid = true → g.frameId ≠ tr.frameId) :
    s'.pc u = s.pc u ∧ s'.bytes tr.frameId = s.bytes tr.frameId := by
  have hI := hsound.owned
  have hmoves := hS.moves_of_running hrunning
  have hpath : ∀ {t : τ} {before : List (Note τ)} {creates : Bool} {deletes : Option Nat}
      {es : List (Event τ)} {c' : Cfg τ}, t ≠ u →
      (∀ x ∈ before, ∀ e : Event τ, e.note = some x → e.spares) →
      SimulatedBy n N (s.hazards action) t out c before creates deletes s' es c' →
      s'.pc u = s.pc u ∧ s'.bytes tr.frameId = s.bytes tr.frameId := by
    intro t before creates deletes es c' hne hbefore h
    constructor
    · have hphase := phase_of_path h.path hne.symm
      rw [hS.phase, h.sim.phase] at hphase
      exact Phase.suspended.inj hphase
    · rw [hS.bytes_eq, h.sim.bytes_eq]
      exact moved_bytes_of_path h.path (spares_of_call h.told hbefore)
        (fun e he => Event.fits_of_explained (h := s.hazards action) hok (h.told.explained e he))
        hI hP hne.symm hmoves
  have hdropped : ∀ {slot : Nat} {g : PageGuard} {s₁ : System R τ} {failure : Option Error},
      s.dropGuard slot g = (s₁, failure) →
      s₁.pc u = s.pc u ∧ s₁.bytes tr.frameId = s.bytes tr.frameId := by
    intro slot g s₁ failure hdrop
    refine ⟨?_, dropGuard_bytes hS hI hdrop _⟩
    have hpc := System.dropGuard_pc s slot g
    rw [hdrop] at hpc
    exact congrFun hpc u
  cases action with
  | transfer | failRead | failWrite => cases hdisk
  | call t call =>
    have hne : t ≠ u := by
      rintro rfl
      simp only [System.step] at hstep
      split at hstep
      · next hidle =>
        rw [hidle] at hrunning
        cases hrunning
      · cases hstep
    obtain ⟨es, c', h⟩ := call_simulated hS hI hsound.within hstep
    refine hpath hne (fun x hx e hnote => ?_) h
    cases e with
    | changed | dropped | moved =>
      obtain rfl := Option.some.inj hnote
      cases call <;> simp [Call.notes] at hx
    | _ => trivial
  | resume t =>
    have hne : t ≠ u := by
      rintro rfl
      obtain ⟨piece, hpiece, -⟩ := Option.map_eq_some_iff.mp hstep
      unfold Pc.running at hrunning
      split at hrunning
      · next hpc =>
        rw [hpc] at hpiece
        cases hpiece
      · next a ev hpc =>
        rw [hpc] at hpiece
        cases a <;> cases hpiece
      · next hpc =>
        rw [hpc] at hpiece
        cases hpiece
      · cases hrunning
    obtain ⟨es, c', h⟩ := resume_simulated hS hI hsound.within hstep
    refine hpath hne (fun x hx e hnote => ?_) h
    cases e with
    | changed | dropped | moved =>
      obtain rfl := Option.some.inj hnote
      simp [Pc.notes] at hx
    | _ => trivial
  | read slot =>
    obtain ⟨g, -, heq⟩ := Option.map_eq_some_iff.mp hstep
    split at heq <;> obtain ⟨rfl, rfl⟩ := Prod.mk.inj heq <;> exact ⟨rfl, rfl⟩
  | write slot page =>
    obtain ⟨g, hg, heq⟩ := Option.map_eq_some_iff.mp hstep
    split at heq
    · next hvalid =>
      obtain ⟨rfl, rfl⟩ := Prod.mk.inj heq
      exact ⟨rfl, Function.update_of_ne (hwrite slot page g rfl hg hvalid).symm _ _⟩
    · obtain ⟨rfl, rfl⟩ := Prod.mk.inj heq
      exact ⟨rfl, rfl⟩
  | markDirty slot =>
    obtain ⟨g, hg, heq⟩ := Option.map_eq_some_iff.mp hstep
    by_cases hvalid : g.valid = true
    · rw [hS.marks hI hP (List.mem_of_getElem? hg) hvalid] at heq
      obtain ⟨rfl, -⟩ := Prod.mk.inj heq
      exact ⟨rfl, rfl⟩
    · rw [System.markGuard, if_neg hvalid] at heq
      obtain ⟨rfl, -⟩ := Prod.mk.inj heq
      exact ⟨rfl, rfl⟩
  | drop slot | destroy slot =>
    obtain ⟨g, -, heq⟩ := Option.map_eq_some_iff.mp hstep
    cases hdrop : s.dropGuard slot g with
    | mk s₁ failure =>
      rw [hdrop] at heq
      cases failure <;> obtain ⟨rfl, rfl⟩ := Prod.mk.inj heq <;> exact hdropped hdrop
  | moveConstruct slot =>
    obtain ⟨g, -, heq⟩ := Option.map_eq_some_iff.mp hstep
    obtain ⟨rfl, rfl⟩ := Prod.mk.inj heq
    exact ⟨rfl, rfl⟩
  | moveAssign slot source =>
    simp only [System.step] at hstep
    split at hstep
    · next g g' _ _ =>
      split at hstep
      · obtain ⟨rfl, rfl⟩ := Prod.mk.inj (Option.some.inj hstep)
        exact ⟨rfl, rfl⟩
      · cases hdrop : s.dropGuard slot g with
        | mk s₁ failure =>
          rw [hdrop] at hstep
          obtain ⟨hpc, hbytes⟩ := hdropped hdrop
          cases failure <;> obtain ⟨rfl, rfl⟩ := Prod.mk.inj (Option.some.inj hstep) <;>
            exact ⟨hpc, hbytes⟩
    · cases hstep

end Refinement

end BufferManager
