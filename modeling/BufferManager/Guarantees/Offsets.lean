/-
  Guarantees/Offsets.lean --- which pages of an accepted file have an address.

  Source: `DiskManager::ValidateOptions`, `OffsetForPage` and `PreallocateFile`,
  `CheckedOffset` in `src/storage/disk_manager.cc`.

  `ValidateOptions` bounds the size of the file in `uint64`; the transfers need their
  offsets in `off_t`, whose bound is checked by `PreallocateFile` alone.
-/
import BufferManager.Storage.DiskManager

set_option autoImplicit false

namespace BufferManager

open BufferManager.Lib

namespace DiskManagerOptions

variable (options : DiskManagerOptions)

/-- The offset of the system call when `total` bytes of the page have been moved. -/
def transferOffset (pageId total : Nat) : Except Error Nat := do
  let offset ← options.offsetForPage pageId
  let currentOffset ← checkedAdd offset total
  checkedOffset currentOffset

/-- Every offset of the page's transfers is computed and fits, and no `ReadPage` or
`WritePage` of the page overflows. -/
structure Addressable (pageId : Nat) : Prop where
  offset : ∀ total, total < kPageSize →
    options.transferOffset pageId total = .ok (options.pageStart pageId + total) ∧
      options.pageStart pageId + total ≤ maxOffset
  read : ∀ (file : File) (results : List SysResult) (page : Page),
    wp (readPage options file pageId results) (fun _ _ => True)
      (fun e _ => e.kind ≠ .overflowError) page
  write : ∀ (page : Page) (results : List SysResult) (file : File),
    wp (writePage options pageId page results) (fun _ _ => True)
      (fun e _ => e.kind ≠ .overflowError) file

variable {options} {p : Nat}

theorem transferOffset_ok (hvalid : options.Valid) (hp : p < options.maxPageCount.toNat)
    {total : Nat} (hfits : options.pageStart p + total ≤ maxOffset) :
    options.transferOffset p total = .ok (options.pageStart p + total) := by
  have hmax : maxOffset ≤ maxUInt64 := by decide
  rw [transferOffset, offsetForPage_ok hvalid hp]
  change (do
    let currentOffset ← checkedAdd (options.pageStart p) total
    checkedOffset currentOffset) = _
  rw [checkedAdd_ok (hfits.trans hmax)]
  exact checkedOffset_ok hfits

/-- A page within the range of `off_t` is addressable. -/
theorem addressable_of_fits (hvalid : options.Valid) (hp : p < options.maxPageCount.toNat)
    (hfits : options.pageStart p + kPageSize ≤ maxOffset + 1) : options.Addressable p := by
  refine ⟨?_, ?_, ?_⟩
  · intro total htotal
    have hle : options.pageStart p + total ≤ maxOffset := by omega
    exact ⟨transferOffset_ok hvalid hp hle, hle⟩
  · intro file results page
    simp only [readPage, validatePageId_ok hp, offsetForPage_ok hvalid hp, wp_bind,
      wp_liftExcept_ok, wp_set, wp_onPage]
    have hzero : ∀ i, Page.zero.bytes i = 0 := fun i => by
      unfold Page.bytes
      split <;> rfl
    refine (readAtMost_wp file hzero kPageSize (options.pageStart p) results).mono
      (fun _ _ _ => trivial) ?_
    intro e out herror
    rw [(herror hfits).1]
    decide
  · intro page results file
    simp only [writePage, validatePageId_ok hp, offsetForPage_ok hvalid hp, wp_bind,
      wp_liftExcept_ok]
    refine (writeFully_wp file page.bytes kPageSize (options.pageStart p) results).mono
      (fun _ _ _ => trivial) ?_
    rintro e file' ⟨-, herror⟩
    rw [(herror hfits).1]
    decide

/-- The first system call of a transfer beyond the range of `off_t` is not made. -/
theorem transferLoop_beyond {σ : Type} {size offset : Nat} {call : String}
    {onZero : EStateM Error σ Unit} {move : (offset total left k : Nat) → σ → Nat × σ}
    (hsize : 0 < size) (hoffset : maxOffset < offset) (hfits : offset ≤ maxUInt64) (turns : Nat)
    (results : List SysResult) (s : σ) :
    wp (transferLoop size offset call onZero move (turns + 1) results 0) (fun _ _ => False)
      (fun e _ => e = ⟨.overflowError, "file offset does not fit into off_t"⟩) s := by
  rw [transferLoop, if_pos hsize, checkedAdd_ok (by omega), wp_bind, wp_liftExcept_ok, wp_bind,
    checkedOffset, if_pos (by omega)]
  rfl

section Beyond

variable (hvalid : options.Valid) (hp : p < options.maxPageCount.toNat)
  (hbeyond : maxOffset < options.pageStart p)

include hvalid hp

theorem pageStart_le_maxUInt64 : options.pageStart p ≤ maxUInt64 := by
  have hle := pageStart_le hp
  have hfits := hvalid.fits
  omega

include hbeyond

theorem readPage_beyond (file : File) (results : List SysResult) (page : Page) :
    wp (readPage options file p results) (fun _ _ => False)
      (fun e _ => e = ⟨.overflowError, "file offset does not fit into off_t"⟩) page := by
  simp only [readPage, validatePageId_ok hp, offsetForPage_ok hvalid hp, wp_bind,
    wp_liftExcept_ok, wp_set, wp_onPage]
  exact transferLoop_beyond (by decide) hbeyond (pageStart_le_maxUInt64 hvalid hp) _ results _

theorem writePage_beyond (page : Page) (results : List SysResult) (file : File) :
    wp (writePage options p page results) (fun _ _ => False)
      (fun e _ => e = ⟨.overflowError, "file offset does not fit into off_t"⟩) file := by
  simp only [writePage, validatePageId_ok hp, offsetForPage_ok hvalid hp, wp_bind,
    wp_liftExcept_ok]
  exact transferLoop_beyond (by decide) hbeyond (pageStart_le_maxUInt64 hvalid hp) _ results _

end Beyond

/-- What `PreallocateFile` checks is enough. -/
theorem fileSize_le_of_preallocate {calls : OpenCalls} {os os' : Os} {disk : DiskManager}
    (hmake : DiskManager.make options calls os = .ok disk os')
    (hpre : options.preallocate = true) : options.fileSize ≤ maxOffset := by
  obtain ⟨-, -, hfine, -⟩ := (DiskManager.make_wp options calls os).ok hmake
  by_contra hgt
  exact hfine (.offset hpre (by omega))

end DiskManagerOptions

/-- Every page of a file that was opened is addressable if and only if the file, with all
its pages, ends within `2 ^ 63` bytes. -/
theorem diskManager_addressable_iff {options : DiskManagerOptions} {calls : OpenCalls}
    {os os' : Os} {disk : DiskManager}
    (hmake : DiskManager.make options calls os = .ok disk os') :
    (∀ p, p < disk.options.maxPageCount.toNat → disk.options.Addressable p) ↔
      disk.options.headerSize.toNat + disk.options.maxPageCount.toNat * kPageSize ≤ 2 ^ 63 := by
  obtain ⟨hvalid, -, -, rfl, -⟩ := (DiskManager.make_wp options calls os).ok hmake
  change (∀ p, p < options.maxPageCount.toNat → options.Addressable p) ↔ options.fileSize ≤ 2 ^ 63
  have hmax : maxOffset + 1 = 2 ^ 63 := by decide
  constructor
  · intro haddressable
    have hpos : 0 < options.maxPageCount.toNat := by
      rw [Nat.pos_iff_ne_zero]
      exact fun h => hvalid.maxPageCount (UInt64.toNat_inj.mp h)
    -- the last byte of the last page
    obtain ⟨count, hcount⟩ : ∃ count, options.maxPageCount.toNat = count + 1 :=
      ⟨options.maxPageCount.toNat - 1, by omega⟩
    have hlast := ((haddressable count (by omega)).offset (kPageSize - 1) (by decide)).2
    have hsize : options.fileSize = options.pageStart count + kPageSize := by
      rw [DiskManagerOptions.fileSize, hcount, DiskManagerOptions.pageStart,
        DiskManagerOptions.pageStart, Nat.succ_mul, Nat.add_assoc]
    have hpage : 0 < kPageSize := by decide
    omega
  · intro hfits p hp
    have hle := DiskManagerOptions.pageStart_le hp
    exact DiskManagerOptions.addressable_of_fits hvalid hp (by omega)

/-- Two pages behind one header page. -/
theorem diskManager_addressable_iff_two :
    ∃ disk os', DiskManager.make { path := "pages", maxPageCount := 2 } {} ⟨none, ∅⟩ =
        .ok disk os' ∧ ∀ p, p < disk.options.maxPageCount.toNat → disk.options.Addressable p := by
  have hvalid : DiskManagerOptions.Valid { path := "pages", maxPageCount := 2 } :=
    ⟨rfl, by decide, by decide, by decide, by decide⟩
  have hmake := @DiskManager.make_ok _ {} ⟨none, ∅⟩ hvalid rfl
    (DiskManager.initialize_fresh (.inl rfl) rfl)
  exact ⟨_, _, hmake, (diskManager_addressable_iff hmake).mpr (by decide)⟩

/-- A file of `2 ^ 51` pages is accepted, and its last page begins beyond the range of
`off_t`: it can be neither read nor written. -/
theorem diskManager_unaddressable :
    ∃ disk os',
      DiskManager.make { path := "pages", maxPageCount := 2251799813685248 } {} ⟨none, ∅⟩ =
        .ok disk os' ∧ 2251799813685247 < disk.options.maxPageCount.toNat ∧
      wp (readPage disk.options File.empty 2251799813685247 []) (fun _ _ => False)
        (fun e _ => e = ⟨.overflowError, "file offset does not fit into off_t"⟩) Page.zero ∧
      wp (writePage disk.options 2251799813685247 Page.zero []) (fun _ _ => False)
        (fun e _ => e = ⟨.overflowError, "file offset does not fit into off_t"⟩) File.empty ∧
      ¬ ∀ p, p < disk.options.maxPageCount.toNat → disk.options.Addressable p := by
  have hvalid : DiskManagerOptions.Valid { path := "pages", maxPageCount := 2251799813685248 } :=
    ⟨rfl, by decide, by decide, by decide, by decide⟩
  have hp : 2251799813685247 < (2251799813685248 : UInt64).toNat := by decide
  refine ⟨_, _, @DiskManager.make_ok _ {} ⟨none, ∅⟩ hvalid rfl
    (DiskManager.initialize_fresh (.inl rfl) rfl), hp, ?_, ?_, ?_⟩
  · exact DiskManagerOptions.readPage_beyond hvalid hp (by decide) _ _ _
  · exact DiskManagerOptions.writePage_beyond hvalid hp (by decide) _ _ _
  · intro haddressable
    have hlast := ((haddressable 2251799813685247 hp).offset 0 (by decide)).2
    exact absurd hlast (by decide)

end BufferManager
