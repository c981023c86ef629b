/-
  Manager/Construction.lean --- the constructor of the buffer manager.

  Source: `BufferManager::BufferManager` and `BufferManager::ValidateOptions` in
  `src/buffer_manager.cc`; the members are constructed in the order in which the class
  declares them, and `disk_manager_` is the first.

  When a later member, or the body, throws, the members there are are destroyed, and the
  destructor of `disk_manager_` closes its descriptor.  Memory and threads are taken to
  be enough.
-/
import BufferManager.Executor.AsyncExecutor
import BufferManager.Manager.System
import BufferManager.Storage.DiskManager

set_option autoImplicit false

namespace BufferManager

open BufferManager.Lib

structure BufferManagerOptions where
  disk : DiskManagerOptions
  frameCount : Nat := 0
  asyncWorkerCount : Nat := 2

/-- `BufferManager::ValidateOptions`. -/
def BufferManagerOptions.validateOptions (options : BufferManagerOptions) : Except Error Unit :=
  if options.frameCount = 0 then
    throw ⟨.invalidArgument, "frame_count must be greater than zero"⟩
  else if options.disk.maxPageCount = 0 then
    throw ⟨.invalidArgument, "max_page_count must be greater than zero"⟩
  else if options.asyncWorkerCount = 0 then
    throw ⟨.invalidArgument, "async_worker_count must be greater than zero"⟩
  else return ()

/-- A `BufferManager` as it is constructed.  Its replacer is the client's, or a
`ClockReplacer`. -/
structure Constructed (R τ θ : Type) (workerCount : Nat) where
  disk : DiskManager
  manager : Manager (R ⊕ ClockReplacer) τ
  asyncExecutor : AsyncExecutor workerCount θ

variable {R τ θ : Type}

/-- What is constructed after `disk_manager_`; `replacer` is none for a null pointer. -/
def constructMembers (options : BufferManagerOptions) (replacer : Option R)
    (disk : DiskManager) : Except Error (Constructed R τ θ options.asyncWorkerCount) := do
  let frameAllocator ← FrameAllocator.make options.frameCount
  let pageTable ← PageTable.make options.disk.maxPageCount.toNat
  let asyncExecutor ← AsyncExecutor.make options.asyncWorkerCount
  options.validateOptions
  let replacer ← match replacer with
    | some replacer => pure (Sum.inl replacer)
    | none => do
        let replacer ← ClockReplacer.make options.frameCount
        pure (Sum.inr replacer)
  return {
    disk
    manager := {
      frameCount := options.frameCount
      frameAllocator
      pageTable
      replacer
      frameMeta := fun _ => {}
      asleep := ∅ }
    asyncExecutor }

/-- The constructor. -/
def construct (options : BufferManagerOptions) (replacer : Option R) (calls : OpenCalls) :
    EStateM Error Os (Constructed R τ θ options.asyncWorkerCount) := do
  let disk ← DiskManager.make options.disk calls
  match constructMembers options replacer disk with
  | .ok constructed => return constructed
  | .error e => do
      modify disk.close
      throw e

/-- The frames do not fit into a vector. -/
def BufferManagerOptions.TooManyFrames (options : BufferManagerOptions) : Prop :=
  FrameAllocator.framesMaxSize < options.frameCount

/-- The options that are refused after the file has been opened. -/
def BufferManagerOptions.RefusedLate (options : BufferManagerOptions) : Prop :=
  ¬ options.TooManyFrames ∧
    (options.frameCount = 0 ∨ 2 ^ 32 - 1 < options.frameCount ∨ options.asyncWorkerCount = 0)

theorem constructMembers_ok {options : BufferManagerOptions} (hdisk : options.disk.Valid)
    (hframes : ¬ options.TooManyFrames) (hlate : ¬ options.RefusedLate) (replacer : Option R)
    (disk : DiskManager) :
    ∃ c : Constructed R τ θ options.asyncWorkerCount,
      constructMembers options replacer disk = .ok c := by
  obtain ⟨hzero, hwidth, hworkers⟩ :=
    not_or.mp (fun h => hlate ⟨hframes, h⟩) |>.imp_right not_or.mp
  have hpages : options.disk.maxPageCount.toNat ≠ 0 := fun h =>
    hdisk.maxPageCount (UInt64.toNat_inj.mp h)
  have hpagesWidth := options.disk.maxPageCount.toNat_lt
  obtain ⟨frameAllocator, hframeAllocator, -⟩ :=
    FrameAllocator.make_ok (Nat.pos_of_ne_zero hzero) (not_lt.mp hwidth)
  obtain ⟨pageTable, hpageTable, -⟩ :=
    PageTable.make_ok (Nat.pos_of_ne_zero hpages) (by omega)
  obtain ⟨asyncExecutor, hasyncExecutor⟩ := AsyncExecutor.make_ok hworkers
  obtain ⟨clock, hclock, -⟩ :=
    ClockReplacer.make_ok (Nat.pos_of_ne_zero hzero) (not_lt.mp hwidth)
  have hoptions : options.validateOptions = .ok () := by
    rw [BufferManagerOptions.validateOptions, if_neg hzero, if_neg hdisk.maxPageCount,
      if_neg hworkers]
    rfl
  rw [constructMembers, hframeAllocator, hpageTable, hasyncExecutor, hoptions]
  cases replacer with
  | some r => exact ⟨_, rfl⟩
  | none =>
    rw [hclock]
    exact ⟨_, rfl⟩

theorem constructMembers_refused {options : BufferManagerOptions} (hlate : options.RefusedLate)
    (replacer : Option R) (disk : DiskManager) :
    ∃ e, (constructMembers options replacer disk :
      Except Error (Constructed R τ θ options.asyncWorkerCount)) = .error e ∧
      e.kind = .invalidArgument := by
  obtain ⟨hframes, hlate⟩ := hlate
  rw [constructMembers]
  cases hframeAllocator : FrameAllocator.make options.frameCount with
  | error e => exact ⟨e, rfl, (FrameAllocator.make_kind hframeAllocator).trans (if_neg hframes)⟩
  | ok frameAllocator =>
    cases hpageTable : PageTable.make options.disk.maxPageCount.toNat with
    | error e => exact ⟨e, rfl, PageTable.make_kind hpageTable⟩
    | ok pageTable =>
      obtain ⟨hpos, hinv, -, hcount, -⟩ := FrameAllocator.make_spec hframeAllocator
      have hle := hinv.frameCount_le
      rcases hlate with hzero | hwidth | hworkers
      · omega
      · omega
      · rw [AsyncExecutor.make, if_pos hworkers]
        exact ⟨_, rfl, rfl⟩

theorem constructMembers_tooManyFrames {options : BufferManagerOptions}
    (hframes : options.TooManyFrames) (replacer : Option R) (disk : DiskManager) :
    ∃ e, (constructMembers options replacer disk :
      Except Error (Constructed R τ θ options.asyncWorkerCount)) = .error e ∧
      e.kind = .lengthError := by
  have hthrows : FrameAllocator.make options.frameCount = .error _ := if_pos hframes
  rw [constructMembers, hthrows]
  exact ⟨_, rfl, rfl⟩

/-- The constructor returns if the file opens and no option is refused after that; where
one is, or the frames do not fit into a vector, the file is closed again. -/
theorem construct_wp (options : BufferManagerOptions) (replacer : Option R) (calls : OpenCalls)
    (os : Os) :
    wp (construct options replacer calls :
        EStateM Error Os (Constructed R τ θ options.asyncWorkerCount))
      (fun c os' => ¬ options.TooManyFrames ∧ ¬ options.RefusedLate ∧
        ∃ disk, DiskManager.make options.disk calls os = .ok disk os' ∧
          constructMembers options replacer disk = .ok c)
      (fun e os' => DiskManager.make options.disk calls os = .error e os' ∨
        ((options.RefusedLate ∧ e.kind = .invalidArgument ∨
            options.TooManyFrames ∧ e.kind = .lengthError) ∧
          ∃ disk os₁, DiskManager.make options.disk calls os = .ok disk os₁ ∧
            os' = disk.close os₁)) os := by
  rw [construct, wp_bind]
  cases hmake : DiskManager.make options.disk calls os with
  | error e os' => exact wp_of_error hmake (Or.inl rfl)
  | ok disk os' =>
    refine wp_of_ok hmake ?_
    by_cases hframes : options.TooManyFrames
    · obtain ⟨e, he, hkind⟩ := constructMembers_tooManyFrames hframes replacer disk
      rw [he]
      exact Or.inr ⟨Or.inr ⟨hframes, hkind⟩, disk, os', rfl, rfl⟩
    by_cases hlate : options.RefusedLate
    · obtain ⟨e, he, hkind⟩ := constructMembers_refused hlate replacer disk
      rw [he]
      exact Or.inr ⟨Or.inl ⟨hlate, hkind⟩, disk, os', rfl, rfl⟩
    · have hdisk := DiskManager.make_wp options.disk calls os
      unfold wp at hdisk
      rw [hmake] at hdisk
      obtain ⟨c, hc⟩ := constructMembers_ok hdisk.1 hframes hlate replacer disk
      rw [hc]
      exact ⟨hframes, hlate, disk, rfl, hc⟩

/-- A constructed manager is one as the calls on it start from: an empty table over the
pages of its file. -/
theorem construct_initial {options : BufferManagerOptions} {replacer : Option R}
    {disk : DiskManager} {c : Constructed R τ θ options.asyncWorkerCount}
    (h : constructMembers options replacer disk = .ok c) (pages : Nat → Page) :
    ∃ s, System.make options.frameCount options.disk.maxPageCount.toNat c.manager.replacer pages =
        .ok s ∧ s.manager = c.manager := by
  unfold constructMembers at h
  cases hframeAllocator : FrameAllocator.make options.frameCount with
  | error e => rw [hframeAllocator] at h; cases h
  | ok frameAllocator =>
    cases hpageTable : PageTable.make options.disk.maxPageCount.toNat with
    | error e => rw [hframeAllocator, hpageTable] at h; cases h
    | ok pageTable =>
      cases hasyncExecutor : (AsyncExecutor.make options.asyncWorkerCount :
          Except Error (AsyncExecutor _ θ)) with
      | error e => rw [hframeAllocator, hpageTable, hasyncExecutor] at h; cases h
      | ok asyncExecutor =>
        cases hoptions : options.validateOptions with
        | error e => rw [hframeAllocator, hpageTable, hasyncExecutor, hoptions] at h; cases h
        | ok u =>
          rw [hframeAllocator, hpageTable, hasyncExecutor, hoptions] at h
          rw [System.make, hframeAllocator, hpageTable]
          cases replacer with
          | some r =>
            obtain rfl := Except.ok.inj h
            exact ⟨_, rfl, rfl⟩
          | none =>
            cases hclock : ClockReplacer.make options.frameCount with
            | error e => rw [hclock] at h; cases h
            | ok clock =>
              rw [hclock] at h
              obtain rfl := Except.ok.inj h
              exact ⟨_, rfl, rfl⟩

end BufferManager
