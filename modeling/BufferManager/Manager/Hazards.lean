/-
  Manager/Hazards.lean --- the steps an assumption on a run may exclude.

  Each predicate says of a state and of the action about to happen in it that one
  particular thing is about to happen.  They read the fields the source reads and
  decide nothing: a step is possible with and without them.
-/
import BufferManager.Manager.Trace

set_option autoImplicit false

namespace BufferManager

/-- The id a suspended `NewPage` has reserved. -/
def Pc.reserves : Pc → Option Nat
  | .waitFrame (.newPage p) | .evicting (.newPage p) _ _ => some p
  | _ => none

namespace System

variable {R τ : Type}

/-- A `NewPage` in progress has reserved `p`. -/
def Reserved (s : System R τ) (p : Nat) : Prop := ∃ t, (s.pc t).reserves = some p

/-- The page table's entry for `p`. -/
def entry (s : System R τ) (p : Nat) : Entry := s.manager.pageTable.pages p

/-- The allocator has a frame to give. -/
def HasFreeFrame (s : System R τ) : Prop :=
  ∃ f, f < s.manager.frameCount ∧ f ∉ s.manager.frameAllocator.allocated

/-- The loop over `State(page_id)` that a thread enters as the action gives it
`mutex_`. -/
def visits (s : System R τ) : Action τ → Option Visit
  | .call _ (.fetchPage p) => some (.fetchPage p)
  | .call _ (.flushPage p) => some (.flushPage p .flushPage)
  | .call _ (.deletePage p) => some (.deletePage p)
  | .resume t =>
      match s.pc t with
      | .waitPage v => some v
      | .nextFlush p rest => some (.flushPage p (.flushAllPages rest))
      | _ => none
  | _ => none

/-- `FlushPage` is about to pin a dirty frame whose `pin_count` is `2 ^ 32 - 1`. -/
def FlushOverflows (s : System R τ) (action : Action τ) : Prop :=
  ∃ p caller f, s.visits action = some (.flushPage p caller) ∧
    s.entry p = ⟨.resident, some f⟩ ∧ (s.manager.frameMeta f).dirty = true ∧
    (s.manager.frameMeta f).pinCount = maxPinCount

/-- `NewPage` is about to go on with a frame, and its id is not `kNonResident` any
more. -/
def InstallBlocked (s : System R τ) (action : Action τ) : Prop :=
  ∃ t, action = .resume t ∧
    match s.pc t with
    | .waitFrame (.newPage p) => s.HasFreeFrame ∧ (s.entry p).state ≠ .nonResident
    | .evicting (.newPage p) ev .done => p ≠ ev.oldPageId ∧ (s.entry p).state ≠ .nonResident
    | _ => False

/-- `FetchPage` is about to load a page whose id a `NewPage` in progress has
reserved. -/
def LoadsReserved (s : System R τ) (action : Action τ) : Prop :=
  (∃ p, s.visits action = some (.fetchPage p) ∧ s.HasFreeFrame ∧
    (s.entry p).state = .nonResident ∧ s.Reserved p) ∨
  ∃ t, action = .resume t ∧
    match s.pc t with
    | .waitFrame (.fetchPage p) =>
        s.HasFreeFrame ∧ (s.entry p).state = .nonResident ∧ s.Reserved p
    | .evicting (.fetchPage p) ev .done =>
        (p = ev.oldPageId ∨ (s.entry p).state = .nonResident) ∧ s.Reserved p
    | _ => False

/-- `DeletePage` meets an id that a `NewPage` in progress has reserved. -/
def DeletesReserved (s : System R τ) (action : Action τ) : Prop :=
  ∃ p, s.visits action = some (.deletePage p) ∧ s.Reserved p

/-- `FlushAllPages` is about to take its snapshot while a dirty frame is `kEvicting`. -/
def SnapshotMisses (s : System R τ) (action : Action τ) : Prop :=
  ∃ t f, action = .call t .flushAllPages ∧ f < s.manager.frameCount ∧
    (s.manager.frameMeta f).state = .evicting ∧ (s.manager.frameMeta f).dirty = true

/-- `MarkDirty` is about to bring a frame's `dirty_epoch` back to the value that a
`FlushPage` writing the frame has captured. -/
def EpochReturns (s : System R τ) (action : Action τ) : Prop :=
  ∃ slot g t caller io, action = .markDirty slot ∧ s.guards[slot]? = some g ∧
    s.pc t = .writing g.pageId g.frameId
      (((s.manager.frameMeta g.frameId).dirtyEpoch + 1) % 2 ^ 64) caller io

/-! ## Deciding them -/

/-- `FlushOverflows`, computed. -/
def flushOverflows (s : System R τ) (action : Action τ) : Bool :=
  match s.visits action with
  | some (.flushPage p _) =>
      match s.entry p with
      | ⟨.resident, some f⟩ => (s.manager.frameMeta f).dirty &&
          (s.manager.frameMeta f).pinCount == maxPinCount
      | _ => false
  | _ => false

theorem flushOverflows_iff (s : System R τ) (action : Action τ) :
    s.flushOverflows action = true ↔ s.FlushOverflows action := by
  unfold FlushOverflows flushOverflows
  split
  · next p caller hv =>
    rw [hv]
    split
    · next f he =>
      simp only [Bool.and_eq_true, beq_iff_eq]
      constructor
      · rintro ⟨hdirty, hpins⟩
        exact ⟨p, caller, f, rfl, he, hdirty, hpins⟩
      · rintro ⟨p', caller', f', hv', he', hdirty, hpins⟩
        obtain ⟨rfl, rfl⟩ := Visit.flushPage.inj (Option.some.inj hv')
        obtain rfl := Option.some.inj (congrArg Entry.frameId (he.symm.trans he'))
        exact ⟨hdirty, hpins⟩
    · next hne =>
      refine iff_of_false (by simp) ?_
      rintro ⟨p', caller', f', hv', he', -⟩
      obtain ⟨rfl, rfl⟩ := Visit.flushPage.inj (Option.some.inj hv')
      exact hne f' he'
  · next hne =>
    refine iff_of_false (by simp) ?_
    rintro ⟨p, caller, f, hv, -⟩
    exact hne p caller hv

instance (s : System R τ) (action : Action τ) : Decidable (s.FlushOverflows action) :=
  decidable_of_iff _ (s.flushOverflows_iff action)

instance (s : System R τ) : Decidable s.HasFreeFrame :=
  inferInstanceAs (Decidable (∃ f, f < s.manager.frameCount ∧
    f ∉ s.manager.frameAllocator.allocated))

/-- `InstallBlocked`, computed. -/
def installBlocked (s : System R τ) : Action τ → Bool
  | .resume t =>
      match s.pc t with
      | .waitFrame (.newPage p) => decide (s.HasFreeFrame ∧ (s.entry p).state ≠ .nonResident)
      | .evicting (.newPage p) ev .done =>
          decide (p ≠ ev.oldPageId ∧ (s.entry p).state ≠ .nonResident)
      | _ => false
  | _ => false

theorem installBlocked_iff (s : System R τ) (action : Action τ) :
    s.installBlocked action = true ↔ s.InstallBlocked action := by
  cases action with
  | resume t =>
    have hresume : s.InstallBlocked (.resume t) ↔
        match s.pc t with
        | .waitFrame (.newPage p) => s.HasFreeFrame ∧ (s.entry p).state ≠ .nonResident
        | .evicting (.newPage p) ev .done => p ≠ ev.oldPageId ∧ (s.entry p).state ≠ .nonResident
        | _ => False := by
      constructor
      · rintro ⟨u, hu, h⟩
        obtain rfl := Action.resume.inj hu
        exact h
      · exact fun h => ⟨t, rfl, h⟩
    rw [hresume, installBlocked]
    split
    · exact decide_eq_true_iff
    · exact decide_eq_true_iff
    · exact iff_of_false Bool.false_ne_true not_false
  | _ =>
    refine iff_of_false Bool.false_ne_true ?_
    rintro ⟨t, ht, -⟩
    cases ht

instance (s : System R τ) (action : Action τ) : Decidable (s.InstallBlocked action) :=
  decidable_of_iff _ (s.installBlocked_iff action)

section

variable [Fintype τ]

instance (s : System R τ) (p : Nat) : Decidable (s.Reserved p) :=
  inferInstanceAs (Decidable (∃ t, (s.pc t).reserves = some p))

/-- `DeletesReserved`, computed. -/
def deletesReserved (s : System R τ) (action : Action τ) : Bool :=
  match s.visits action with
  | some (.deletePage p) => decide (s.Reserved p)
  | _ => false

theorem deletesReserved_iff (s : System R τ) (action : Action τ) :
    s.deletesReserved action = true ↔ s.DeletesReserved action := by
  unfold deletesReserved DeletesReserved
  split
  · next p hv =>
    rw [hv, decide_eq_true_iff]
    exact ⟨fun h => ⟨p, rfl, h⟩, fun ⟨q, hq, h⟩ => Visit.deletePage.inj (Option.some.inj hq) ▸ h⟩
  · next hne =>
    refine iff_of_false Bool.false_ne_true ?_
    rintro ⟨p, hv, -⟩
    exact hne p hv

instance (s : System R τ) (action : Action τ) : Decidable (s.DeletesReserved action) :=
  decidable_of_iff _ (s.deletesReserved_iff action)

/-- The second case of `LoadsReserved`, computed: a `FetchPage` that goes on in
`AcquireFrameForFetchLocked`. -/
def acquiresReserved (s : System R τ) : Action τ → Bool
  | .resume t =>
      match s.pc t with
      | .waitFrame (.fetchPage p) =>
          decide (s.HasFreeFrame ∧ (s.entry p).state = .nonResident ∧ s.Reserved p)
      | .evicting (.fetchPage p) ev .done =>
          decide ((p = ev.oldPageId ∨ (s.entry p).state = .nonResident) ∧ s.Reserved p)
      | _ => false
  | _ => false

/-- `LoadsReserved`, computed. -/
def loadsReserved (s : System R τ) (action : Action τ) : Bool :=
  (match s.visits action with
    | some (.fetchPage p) =>
        decide (s.HasFreeFrame ∧ (s.entry p).state = .nonResident ∧ s.Reserved p)
    | _ => false) || s.acquiresReserved action

theorem loadsReserved_iff (s : System R τ) (action : Action τ) :
    s.loadsReserved action = true ↔ s.LoadsReserved action := by
  rw [loadsReserved, Bool.or_eq_true, LoadsReserved]
  refine or_congr ?_ ?_
  · split
    · next p hv =>
      rw [hv, decide_eq_true_iff]
      exact ⟨fun h => ⟨p, rfl, h⟩, fun ⟨q, hq, h⟩ => Visit.fetchPage.inj (Option.some.inj hq) ▸ h⟩
    · next hne =>
      refine iff_of_false Bool.false_ne_true ?_
      rintro ⟨p, hv, -⟩
      exact hne p hv
  · cases action with
    | resume t =>
      constructor
      · intro h
        refine ⟨t, rfl, ?_⟩
        rw [acquiresReserved] at h
        split at h
        · exact of_decide_eq_true h
        · exact of_decide_eq_true h
        · cases h
      · rintro ⟨u, hu, h⟩
        obtain rfl := Action.resume.inj hu
        rw [acquiresReserved]
        split at h
        · exact decide_eq_true h
        · exact decide_eq_true h
        · exact h.elim
    | _ =>
      refine iff_of_false Bool.false_ne_true ?_
      rintro ⟨t, ht, -⟩
      cases ht

instance (s : System R τ) (action : Action τ) : Decidable (s.LoadsReserved action) :=
  decidable_of_iff _ (s.loadsReserved_iff action)

end

end System

end BufferManager
