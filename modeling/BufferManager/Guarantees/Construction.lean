/-
  Guarantees/Construction.lean --- what a construction that fails leaves behind.

  Source: `BufferManager::BufferManager` in `src/buffer_manager.cc` and
  `DiskManager::DiskManager` in `src/storage/disk_manager.cc`.

  `DiskManager` checks its options before it opens the file, and closes the file in its
  destructor.  But its own constructor throws with the file open, and then the destructor
  does not run; and `frame_count` and `async_worker_count` are checked when the file has
  been opened already, which creates, truncates or extends it.
-/
import BufferManager.Manager.Construction

set_option autoImplicit false

namespace BufferManager

open BufferManager.Lib

/-- A construction that throws has put everything back. -/
structure FailsClean {R : Type} (τ θ : Type) (options : BufferManagerOptions)
    (replacer : Option R) (calls : OpenCalls) (os : Os) : Prop where
  file : ∀ e os', (construct options replacer calls :
      EStateM Error Os (Constructed R τ θ options.asyncWorkerCount)) os = .error e os' →
    e.kind = .invalidArgument → os'.file = os.file
  fds : ∀ e os', (construct options replacer calls :
      EStateM Error Os (Constructed R τ θ options.asyncWorkerCount)) os = .error e os' →
    os'.fds ⊆ os.fds
  diskFds : ∀ e os', DiskManager.make options.disk calls os = .error e os' → os'.fds ⊆ os.fds

/-- The file is as opening it would leave it: it has the header and the extent of a fresh
file if it is to be truncated, and the extent of a preallocated one otherwise. -/
def Untouched (options : DiskManagerOptions) (os : Os) : Prop :=
  ∃ file, os.file = some file ∧
    if options.truncateExisting = true then
      file.size = (if options.preallocate = true then options.fileSize else kPageSize) ∧
        ∀ i, file.byte i = (makeHeader options).encode i
    else file.size ≠ 0 ∧ (options.preallocate = true → file.size = options.fileSize)

section

variable {options : DiskManagerOptions}

/-- What is made of a file without bytes. -/
theorem initialized_fresh (hvalid : options.Valid) {file : File} (hsize : file.size = 0) :
    (DiskManager.initialized options file).size =
        (if options.preallocate = true then options.fileSize else kPageSize) ∧
      ∀ i, (DiskManager.initialized options file).byte i = (makeHeader options).encode i := by
  have hfresh : DiskManager.Fresh options file := Or.inl hsize
  have hwritten : (file.write 0 kPageSize (makeHeader options).encode).size = kPageSize := by
    rw [File.write_size, if_neg (by decide)]
    omega
  have hbyte : ∀ i, (file.write 0 kPageSize (makeHeader options).encode).byte i =
      (makeHeader options).encode i := by
    intro i
    rw [File.write_byte]
    by_cases hi : i < kPageSize
    · rw [if_pos (by omega), Nat.sub_zero]
    · have hheader : sizeofHeader ≤ kPageSize := by decide
      rw [if_neg (by omega), file.zero_beyond i (by omega),
        DiskFileHeader.encode_of_le _ (by omega)]
  rw [DiskManager.initialized, if_pos hfresh]
  split
  · refine ⟨rfl, fun i => ?_⟩
    have hle := hvalid.kPageSize_le_fileSize
    rw [File.resize_byte_of_le _ (by omega), hbyte]
  · exact ⟨hwritten, hbyte⟩

theorem untouched_iff (hvalid : options.Valid) (os : Os) :
    Untouched options os ↔
      os.file = some (DiskManager.initialized options (DiskManager.opened options os)) := by
  by_cases htruncate : options.truncateExisting = true
  · have hopened : DiskManager.opened options os = File.empty := if_pos htruncate
    obtain ⟨hsize, hbyte⟩ := initialized_fresh hvalid File.empty_size
    simp only [Untouched, if_pos htruncate, hopened]
    constructor
    · rintro ⟨file, hfile, hsize', hbyte'⟩
      rw [hfile]
      congr 1
      exact File.ext (hsize'.trans hsize.symm) (funext fun i => (hbyte' i).trans (hbyte i).symm)
    · intro hfile
      exact ⟨_, hfile, hsize, hbyte⟩
  · simp only [Untouched, if_neg htruncate]
    cases hfile : os.file with
    | none => simp
    | some file =>
      have hopened : DiskManager.opened options os = file := by
        rw [DiskManager.opened, if_neg htruncate, hfile]
        rfl
      rw [hopened]
      by_cases hzero : file.size = 0
      · have hpos : 0 < kPageSize := by decide
        have hle := hvalid.kPageSize_le_fileSize
        constructor
        · rintro ⟨file', hfile', hne, -⟩
          obtain rfl := Option.some.inj hfile'
          exact absurd hzero hne
        · intro heq
          have hsize := (initialized_fresh hvalid hzero).1
          rw [← Option.some.inj heq, hzero] at hsize
          split at hsize <;> omega
      · have hfresh : ¬ DiskManager.Fresh options file := not_or.mpr ⟨hzero, htruncate⟩
        rw [DiskManager.initialized, if_neg hfresh]
        constructor
        · rintro ⟨file', hfile', -, hsize⟩
          obtain rfl := Option.some.inj hfile'
          split
          · next hpre => rw [← hsize hpre, File.resize_self]
          · rfl
        · intro heq
          refine ⟨file, rfl, hzero, fun hpre => ?_⟩
          rw [if_pos hpre] at heq
          exact congrArg File.size (Option.some.inj heq)

end

variable {R τ θ : Type}

variable (τ θ) in
/-- The options that are refused late are refused with the file opened and initialized. -/
theorem construct_refusedLate {options : BufferManagerOptions} {calls : OpenCalls} {os : Os}
    (hvalid : options.disk.Valid) (hopen : calls.openResult = .opened)
    (hfine : ¬ DiskManager.InitFails options.disk calls (DiskManager.opened options.disk os))
    (hlate : options.RefusedLate) (replacer : Option R) :
    ∃ e os', (construct options replacer calls : EStateM Error Os
        (Constructed R τ θ options.asyncWorkerCount)) os = .error e os' ∧
      e.kind = .invalidArgument ∧ os'.file =
        some (DiskManager.initialized options.disk (DiskManager.opened options.disk os)) := by
  have hok := DiskManager.make_ok hvalid hopen hfine
  have hconstruct : wp (construct options replacer calls : EStateM Error Os
      (Constructed R τ θ options.asyncWorkerCount)) _ _ os :=
    construct_wp options replacer calls os
  unfold wp at hconstruct
  split at hconstruct
  · exact absurd hlate hconstruct.2.1
  · next e os' hrun =>
    rcases hconstruct with herror | ⟨⟨-, hkind⟩ | ⟨hframes, -⟩, disk, os₁, hdisk, rfl⟩
    · rw [hok] at herror
      cases herror
    · rw [hok] at hdisk
      cases hdisk
      exact ⟨e, _, hrun, hkind, rfl⟩
    · exact absurd hframes hlate.1

/-- A construction that throws has put everything back, unless it throws in
`InitializeFile`, or refuses its options after opening a file that this has changed. -/
theorem construct_failsClean_iff (options : BufferManagerOptions) (replacer : Option R)
    (calls : OpenCalls) (os : Os) :
    FailsClean τ θ options replacer calls os ↔
      (options.disk.Valid → calls.openResult = .opened →
        ¬ DiskManager.InitFails options.disk calls (DiskManager.opened options.disk os) ∧
        (options.RefusedLate → Untouched options.disk os)) := by
  have hmake := DiskManager.make_wp options.disk calls os
  constructor
  · intro h hvalid hopen
    have hfine : ¬ DiskManager.InitFails options.disk calls
        (DiskManager.opened options.disk os) := by
      intro hfails
      obtain ⟨e, os', herror, hfds⟩ := DiskManager.make_error hvalid hopen hfails
      have hsubset := h.diskFds e os' herror
      rw [hfds] at hsubset
      exact lowestFree_notMem os.fds (hsubset (Finset.mem_insert_self _ _))
    refine ⟨hfine, fun hlate => (untouched_iff hvalid os).mpr ?_⟩
    obtain ⟨e, os', hrun, hkind, hfile⟩ := construct_refusedLate τ θ hvalid hopen hfine
      hlate replacer
    exact (h.file e os' hrun hkind).symm.trans hfile
  · intro h
    have hdiskFds : ∀ e os', DiskManager.make options.disk calls os = .error e os' →
        os'.fds ⊆ os.fds ∧ (e.kind = .invalidArgument → os'.file = os.file) := by
      intro e os' herror
      rcases hmake.error herror with ⟨-, rfl⟩ | ⟨-, hkind, -, hfds⟩ | ⟨hvalid, -, hopen, hfails, -⟩
      · exact ⟨subset_rfl, fun _ => rfl⟩
      · exact ⟨hfds.subset, fun h => absurd h hkind⟩
      · exact absurd hfails (h hvalid hopen).1
    have hlate : ∀ e os', (construct options replacer calls : EStateM Error Os
        (Constructed R τ θ options.asyncWorkerCount)) os = .error e os' →
        os'.fds ⊆ os.fds ∧ (e.kind = .invalidArgument → os'.file = os.file) := by
      intro e os' herror
      rcases (construct_wp options replacer calls os).error herror with
        hdisk | ⟨hwhy, disk, os₁, hdisk, rfl⟩
      · exact hdiskFds e os' hdisk
      · obtain ⟨hvalid, hopen, -, rfl, rfl⟩ := hmake.ok hdisk
        refine ⟨?_, fun hkind => ?_⟩
        · rw [DiskManager.close, Finset.erase_insert (lowestFree_notMem os.fds)]
        · rcases hwhy with ⟨hlate, -⟩ | ⟨-, hlength⟩
          · exact ((untouched_iff hvalid os).mp ((h hvalid hopen).2 hlate)).symm
          · cases hlength.symm.trans hkind
    exact ⟨fun e os' herror => (hlate e os' herror).2, fun e os' herror => (hlate e os' herror).1,
      fun e os' herror => (hdiskFds e os' herror).1⟩

/-- Without a frame count, the file is created before the options are refused; a file that
is not a disk file is refused, and stays open. -/
theorem construct_disturbs :
    let options : BufferManagerOptions := { disk := { path := "pages", maxPageCount := 1 } }
    ¬ FailsClean Unit Unit options (none : Option Unit) {} ⟨none, ∅⟩ ∧
    ¬ FailsClean Unit Unit options (none : Option Unit) {} ⟨some (File.empty.resize 1), ∅⟩ := by
  intro options
  have hvalid : options.disk.Valid := ⟨rfl, by decide, by decide, by decide, by decide⟩
  constructor
  · intro h
    have hfresh : DiskManager.Fresh options.disk
        (DiskManager.opened options.disk ⟨none, ∅⟩) := Or.inl rfl
    have hfine : ¬ DiskManager.InitFails options.disk {}
        (DiskManager.opened options.disk ⟨none, ∅⟩) := DiskManager.initialize_fresh hfresh rfl
    obtain ⟨e, os', hrun, hkind, hfile⟩ := construct_refusedLate Unit Unit hvalid rfl hfine
      ⟨Nat.not_lt_zero _, Or.inl rfl⟩ (none : Option Unit)
    rw [h.file e os' hrun hkind] at hfile
    cases hfile
  · intro h
    have hfails : DiskManager.InitFails options.disk {}
        (DiskManager.opened options.disk ⟨some (File.empty.resize 1), ∅⟩) := by
      refine .header (not_or.mpr ⟨by decide, by decide⟩) fun hheader => ?_
      have hmagic := congrFun (congrArg DiskFileHeader.magic hheader) 0
      revert hmagic
      decide
    obtain ⟨e, os', herror, hfds⟩ := DiskManager.make_error hvalid rfl hfails
    have hsubset := h.diskFds e os' herror
    rw [hfds] at hsubset
    exact Finset.notMem_empty _ (hsubset (Finset.mem_insert_self _ _))

end BufferManager
