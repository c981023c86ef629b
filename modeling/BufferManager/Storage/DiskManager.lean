/-
  Storage/DiskManager.lean --- the disk file: its header, its pages, and how it is
  opened.

  Source: `src/storage/disk_manager.cc`, `src/storage/disk_manager.h`, as built for
  Linux on a little-endian machine.

  `Os` is what a `DiskManager` can see of the system: the file at `options.path` and the
  open descriptors.  `OpenCalls` says how the system calls of a construction end.  The
  constructor is a program that carries an `Os` and may throw; an exception leaves the
  `Os` as it was when it was thrown, for the destructor of an object that has not been
  constructed does not run.
-/
import BufferManager.Storage.Transfer
import Mathlib.Data.Finset.Card
import Mathlib.Data.Finset.Range
import Mathlib.Data.Fin.VecNotation
import Mathlib.Data.Fintype.Pi

set_option autoImplicit false

namespace BufferManager

open BufferManager.Lib

/-! ## Options and header -/

inductive IoMode where
  | kDirect
  | kBuffered
  deriving DecidableEq, Repr

structure DiskManagerOptions where
  path : String
  maxPageCount : UInt64 := 0
  headerSize : UInt64 := UInt64.ofNat kPageSize
  truncateExisting : Bool := false
  preallocate : Bool := false
  ioMode : IoMode := .kBuffered

/-- `kMagic`: the characters of `BMDISK01`. -/
def kMagic : Fin 8 → UInt8 := ![0x42, 0x4D, 0x44, 0x49, 0x53, 0x4B, 0x30, 0x31]

def kFormatVersion : UInt32 := 1

@[ext] structure DiskFileHeader where
  magic : Fin 8 → UInt8
  version : UInt32
  pageSize : UInt32
  maxPageCount : UInt64
  headerSize : UInt64

/-- `sizeof(DiskFileHeader)`. -/
def sizeofHeader : Nat := 32

/-- The bytes of a header in memory, and zeros behind them. -/
def DiskFileHeader.encode (h : DiskFileHeader) : Buffer := fun i =>
  if hi : i < 8 then h.magic ⟨i, hi⟩
  else if i < 12 then leByte h.version.toNat (i - 8)
  else if i < 16 then leByte h.pageSize.toNat (i - 12)
  else if i < 24 then leByte h.maxPageCount.toNat (i - 16)
  else if i < 32 then leByte h.headerSize.toNat (i - 24)
  else 0

/-- The header whose bytes these are. -/
def DiskFileHeader.decode (b : Buffer) : DiskFileHeader where
  magic j := b j
  version := UInt32.ofNat (leNat 4 fun j => b (8 + j))
  pageSize := UInt32.ofNat (leNat 4 fun j => b (12 + j))
  maxPageCount := UInt64.ofNat (leNat 8 fun j => b (16 + j))
  headerSize := UInt64.ofNat (leNat 8 fun j => b (24 + j))

/-- `MakeHeader`. -/
def makeHeader (options : DiskManagerOptions) : DiskFileHeader where
  magic := kMagic
  version := kFormatVersion
  pageSize := UInt32.ofNat kPageSize
  maxPageCount := options.maxPageCount
  headerSize := options.headerSize

theorem DiskFileHeader.decode_congr {b b' : Buffer} (h : ∀ i, i < sizeofHeader → b i = b' i) :
    decode b = decode b' := by
  have hfield : ∀ at' w, at' + w ≤ sizeofHeader →
      leNat w (fun j => b (at' + j)) = leNat w (fun j => b' (at' + j)) :=
    fun at' w hw => leNat_congr fun j hj => h _ (by omega)
  have hmagic : (fun j : Fin 8 => b j) = fun j : Fin 8 => b' j :=
    funext fun j => h _ (lt_of_lt_of_le j.isLt (by decide))
  simp only [decode, hmagic, hfield 8 4 (by decide), hfield 12 4 (by decide),
    hfield 16 8 (by decide), hfield 24 8 (by decide)]

/-- What is written as a header is read back as that header. -/
theorem DiskFileHeader.decode_encode (h : DiskFileHeader) : decode h.encode = h := by
  have hfield : ∀ at' w x, (∀ j, j < w → h.encode (at' + j) = leByte x j) →
      leNat w (fun j => h.encode (at' + j)) = x % 256 ^ w :=
    fun at' w x hj => (leNat_congr hj).trans (leNat_leByte w x)
  have hversion := hfield 8 4 h.version.toNat fun j hj => by
    rw [encode, dif_neg (by omega), if_pos (by omega), Nat.add_sub_cancel_left]
  have hpageSize := hfield 12 4 h.pageSize.toNat fun j hj => by
    rw [encode, dif_neg (by omega), if_neg (by omega), if_pos (by omega), Nat.add_sub_cancel_left]
  have hmaxPageCount := hfield 16 8 h.maxPageCount.toNat fun j hj => by
    rw [encode, dif_neg (by omega), if_neg (by omega), if_neg (by omega), if_pos (by omega),
      Nat.add_sub_cancel_left]
  have hheaderSize := hfield 24 8 h.headerSize.toNat fun j hj => by
    rw [encode, dif_neg (by omega), if_neg (by omega), if_neg (by omega), if_neg (by omega),
      if_pos (by omega), Nat.add_sub_cancel_left]
  have h32 : ∀ x : UInt32, x.toNat % 256 ^ 4 = x.toNat := fun x =>
    Nat.mod_eq_of_lt (lt_of_lt_of_le x.toNat_lt (by decide))
  have h64 : ∀ x : UInt64, x.toNat % 256 ^ 8 = x.toNat := fun x =>
    Nat.mod_eq_of_lt (lt_of_lt_of_le x.toNat_lt (by decide))
  refine DiskFileHeader.ext (funext fun j => ?_) ?_ ?_ ?_ ?_
  · simp [decode, encode]
  · rw [decode, hversion, h32, UInt32.ofNat_toNat]
  · rw [decode, hpageSize, h32, UInt32.ofNat_toNat]
  · rw [decode, hmaxPageCount, h64, UInt64.ofNat_toNat]
  · rw [decode, hheaderSize, h64, UInt64.ofNat_toNat]

/-- The bytes that are read as a header are those of that header. -/
theorem DiskFileHeader.encode_decode (b : Buffer) {i : Nat} (hi : i < sizeofHeader) :
    (decode b).encode i = b i := by
  have hfield : ∀ at' w {x : Nat}, at' ≤ i → i < at' + w → x = leNat w (fun j => b (at' + j)) →
      leByte x (i - at') = b i := by
    rintro at' w _ hle hlt rfl
    rw [leByte_leNat (fun j => b (at' + j)) (by omega), Nat.add_sub_cancel' hle]
  have h32 : ∀ f, (UInt32.ofNat (leNat 4 f)).toNat = leNat 4 f := fun f =>
    UInt32.toNat_ofNat_of_lt' (lt_of_lt_of_le (leNat_lt 4 f) (by decide))
  have h64 : ∀ f, (UInt64.ofNat (leNat 8 f)).toNat = leNat 8 f := fun f =>
    UInt64.toNat_ofNat_of_lt' (lt_of_lt_of_le (leNat_lt 8 f) (by decide))
  rw [sizeofHeader] at hi
  rw [encode]
  split
  · rfl
  · split
    · exact hfield 8 4 (by omega) (by omega) (h32 _)
    · split
      · exact hfield 12 4 (by omega) (by omega) (h32 _)
      · split
        · exact hfield 16 8 (by omega) (by omega) (h64 _)
        · exact hfield 24 8 (by omega) (by omega) (h64 _)

theorem DiskFileHeader.encode_of_le (header : DiskFileHeader) {i : Nat} (hi : sizeofHeader ≤ i) :
    header.encode i = 0 := by
  rw [sizeofHeader] at hi
  rw [encode, dif_neg (by omega), if_neg (by omega), if_neg (by omega),
    if_neg (by omega), if_neg (by omega)]

/-! ## Offsets and checks of the options -/

namespace DiskManagerOptions

variable (options : DiskManagerOptions)

/-- `DiskManager::ExpectedFileSize`. -/
def expectedFileSize : Except Error Nat := do
  let pageAreaSize ← checkedMul options.maxPageCount.toNat kPageSize
  checkedAdd options.headerSize.toNat pageAreaSize

/-- `DiskManager::ValidateOptions`. -/
def validateOptions : Except Error Unit :=
  if options.path.isEmpty then
    throw ⟨.invalidArgument, "disk path must not be empty"⟩
  else if options.maxPageCount = 0 then
    throw ⟨.invalidArgument, "max_page_count must be greater than zero"⟩
  else if options.headerSize.toNat < sizeofHeader then
    throw ⟨.invalidArgument, "header_size is too small"⟩
  else if options.headerSize.toNat % kPageSize ≠ 0 then
    throw ⟨.invalidArgument, "header_size must be a multiple of kPageSize"⟩
  else do
    let _ ← options.expectedFileSize

/-- `DiskManager::ValidatePageId`. -/
def validatePageId (pageId : Nat) : Except Error Unit :=
  if pageId ≥ options.maxPageCount.toNat then throw ⟨.outOfRange, "page id is out of range"⟩
  else return ()

/-- `DiskManager::OffsetForPage`. -/
def offsetForPage (pageId : Nat) : Except Error Nat := do
  options.validatePageId pageId
  let pageOffset ← checkedMul pageId kPageSize
  checkedAdd options.headerSize.toNat pageOffset

/-- Where page `p` begins. -/
def pageStart (p : Nat) : Nat := options.headerSize.toNat + p * kPageSize

/-- The size of a file with all its pages. -/
def fileSize : Nat := options.pageStart options.maxPageCount.toNat

/-- The options a `DiskManager` accepts. -/
structure Valid : Prop where
  path : options.path.isEmpty = false
  maxPageCount : options.maxPageCount ≠ 0
  sizeofHeader_le : sizeofHeader ≤ options.headerSize.toNat
  aligned : options.headerSize.toNat % kPageSize = 0
  fits : options.fileSize ≤ maxUInt64

theorem expectedFileSize_ok (h : options.fileSize ≤ maxUInt64) :
    options.expectedFileSize = .ok options.fileSize := by
  rw [fileSize, pageStart] at h
  rw [expectedFileSize, checkedMul_ok (by omega)]
  exact checkedAdd_ok h

theorem fileSize_of_expectedFileSize {n : Nat} (h : options.expectedFileSize = .ok n) :
    options.fileSize ≤ maxUInt64 := by
  unfold expectedFileSize at h
  cases harea : checkedMul options.maxPageCount.toNat kPageSize with
  | error e =>
    rw [harea] at h
    cases h
  | ok area =>
    rw [harea] at h
    obtain ⟨rfl, hle⟩ := checkedMul_eq_ok harea
    exact (checkedAdd_eq_ok hle h).2

theorem validateOptions_ok (h : options.Valid) : options.validateOptions = .ok () := by
  rw [validateOptions, if_neg (by simp [h.path]), if_neg h.maxPageCount,
    if_neg (by have := h.sizeofHeader_le; omega), if_neg (by simp [h.aligned]),
    options.expectedFileSize_ok h.fits]
  rfl

theorem valid_of_validateOptions {u : Unit} (h : options.validateOptions = .ok u) :
    options.Valid := by
  unfold validateOptions at h
  split at h
  · cases h
  · next hpath =>
    split at h
    · cases h
    · next hcount =>
      split at h
      · cases h
      · next hsize =>
        split at h
        · cases h
        · next haligned =>
          refine ⟨by simpa using hpath, hcount, by omega, by simpa using haligned, ?_⟩
          cases hexpected : options.expectedFileSize with
          | error e =>
            rw [hexpected] at h
            cases h
          | ok n => exact options.fileSize_of_expectedFileSize hexpected

variable {options}

theorem pageStart_le {p : Nat} (hp : p < options.maxPageCount.toNat) :
    options.pageStart p + kPageSize ≤ options.fileSize := by
  have : (p + 1) * kPageSize ≤ options.maxPageCount.toNat * kPageSize :=
    Nat.mul_le_mul_right _ hp
  rw [fileSize, pageStart, pageStart]
  rw [Nat.succ_mul] at this
  omega

/-- Pages lie side by side. -/
theorem pageStart_disjoint {p q : Nat} (hne : p ≠ q) :
    options.pageStart p + kPageSize ≤ options.pageStart q ∨
      options.pageStart q + kPageSize ≤ options.pageStart p := by
  have hsucc : ∀ {a b : Nat}, a < b → options.pageStart a + kPageSize ≤ options.pageStart b := by
    intro a b hab
    have : (a + 1) * kPageSize ≤ b * kPageSize := Nat.mul_le_mul_right _ hab
    rw [pageStart, pageStart]
    rw [Nat.succ_mul] at this
    omega
  rcases Nat.lt_or_gt_of_ne hne with hlt | hgt
  · exact Or.inl (hsucc hlt)
  · exact Or.inr (hsucc hgt)

theorem Valid.kPageSize_le (h : options.Valid) : kPageSize ≤ options.headerSize.toNat := by
  have hpos : 0 < options.headerSize.toNat := lt_of_lt_of_le (by decide) h.sizeofHeader_le
  exact Nat.le_of_dvd hpos (Nat.dvd_of_mod_eq_zero h.aligned)

theorem Valid.kPageSize_le_fileSize (h : options.Valid) : kPageSize ≤ options.fileSize := by
  have hle := h.kPageSize_le
  rw [fileSize, pageStart]
  omega

/-- A page lies within the range of `off_t` or behind it. -/
theorem Valid.pageStart_fits (h : options.Valid) {p : Nat}
    (hp : options.pageStart p ≤ maxOffset) : options.pageStart p + kPageSize ≤ maxOffset + 1 := by
  have haligned := h.aligned
  simp only [pageStart, kPageSize, maxOffset] at hp haligned ⊢
  omega

theorem validatePageId_ok {p : Nat} (hp : p < options.maxPageCount.toNat) :
    options.validatePageId p = .ok () := if_neg (by omega)

theorem validatePageId_error {p : Nat} (hp : options.maxPageCount.toNat ≤ p) :
    options.validatePageId p = .error ⟨.outOfRange, "page id is out of range"⟩ := if_pos hp

theorem offsetForPage_ok (h : options.Valid) {p : Nat} (hp : p < options.maxPageCount.toNat) :
    options.offsetForPage p = .ok (options.pageStart p) := by
  have hle : options.pageStart p ≤ maxUInt64 := by
    have := pageStart_le hp
    have := h.fits
    omega
  rw [pageStart] at hle
  rw [offsetForPage, validatePageId_ok hp]
  change (do
    let pageOffset ← checkedMul p kPageSize
    checkedAdd options.headerSize.toNat pageOffset) = _
  rw [checkedMul_ok (by omega)]
  exact checkedAdd_ok hle

end DiskManagerOptions

/-! ## ReadPage and WritePage -/

/-- The bytes of a page in memory. -/
def Page.bytes (page : Page) : Buffer := fun i =>
  if h : i < kPageSize then page.data ⟨i, h⟩ else 0

/-- The page whose bytes these are. -/
def Page.ofBytes (b : Buffer) : Page := ⟨fun j => b j⟩

/-- A transfer into a page. -/
def onPage (x : EStateM Error Buffer Unit) : EStateM Error Page Unit := fun page =>
  match x page.bytes with
  | .ok () b => .ok () (Page.ofBytes b)
  | .error e b => .error e (Page.ofBytes b)

/-- `DiskManager::ReadPage`. -/
def readPage (options : DiskManagerOptions) (file : File) (pageId : Nat)
    (results : List SysResult) : EStateM Error Page Unit := do
  liftExcept (options.validatePageId pageId)
  set Page.zero
  let offset ← liftExcept (options.offsetForPage pageId)
  onPage (readAtMost file kPageSize offset results)

/-- `DiskManager::WritePage`. -/
def writePage (options : DiskManagerOptions) (pageId : Nat) (page : Page)
    (results : List SysResult) : EStateM Error File Unit := do
  liftExcept (options.validatePageId pageId)
  let offset ← liftExcept (options.offsetForPage pageId)
  writeFully page.bytes kPageSize offset results

/-- The page a file holds in place `p`. -/
def pageAt (options : DiskManagerOptions) (file : File) (p : Nat) : Page :=
  ⟨fun j => file.byte (options.pageStart p + j)⟩

theorem wp_onPage {x : EStateM Error Buffer Unit} {Q : Unit → Page → Prop}
    {E : Error → Page → Prop} {page : Page} :
    wp (onPage x) Q E page ↔
      wp x (fun u b => Q u (Page.ofBytes b)) (fun e b => E e (Page.ofBytes b)) page.bytes := by
  unfold wp onPage
  cases x page.bytes <;> exact Iff.rfl

variable {options : DiskManagerOptions}

/-- `ReadPage` gives the page in its place; it throws for an id out of range, beyond the
range of `off_t`, or where the results say so. -/
theorem readPage_wp (hvalid : options.Valid) (file : File) (p : Nat) (results : List SysResult)
    (page : Page) :
    wp (readPage options file p results)
      (fun _ page' => p < options.maxPageCount.toNat ∧ options.pageStart p ≤ maxOffset ∧
        page' = pageAt options file p)
      (fun _ _ => p < options.maxPageCount.toNat → options.pageStart p ≤ maxOffset →
        readAborts kPageSize (file.size - options.pageStart p) results = true) page := by
  rw [readPage]
  by_cases hp : p < options.maxPageCount.toNat
  · simp only [DiskManagerOptions.validatePageId_ok hp,
      DiskManagerOptions.offsetForPage_ok hvalid hp, wp_bind, wp_liftExcept_ok, wp_set, wp_onPage]
    by_cases hfits : options.pageStart p ≤ maxOffset
    · refine (readAtMost_wp file (fun i => ?_) kPageSize (options.pageStart p) results).mono ?_ ?_
      · unfold Page.bytes
        split <;> rfl
      · rintro - out ⟨hbytes, -⟩
        exact ⟨hp, hfits, Page.ext (funext fun j => hbytes j j.isLt)⟩
      · intro e out herror _ _
        exact (herror (hvalid.pageStart_fits hfits)).2
    · refine (readAtMost_beyond file (by decide : 0 < kPageSize) (not_le.mp hfits) results
        Page.zero.bytes).mono ?_ ?_
      · exact fun _ _ h => h.elim
      · exact fun _ _ _ _ h => absurd h hfits
  · simp only [DiskManagerOptions.validatePageId_error (not_lt.mp hp), wp_bind,
      wp_liftExcept_error]
    exact fun h => absurd h hp

/-- `WritePage` puts the page into its place, or throws having put the first bytes of it
there. -/
theorem writePage_wp (hvalid : options.Valid) (file : File) (p : Nat) (page : Page)
    (results : List SysResult) :
    wp (writePage options p page results)
      (fun _ file' => p < options.maxPageCount.toNat ∧
        file' = file.write (options.pageStart p) kPageSize page.bytes)
      (fun _ file' => (p < options.maxPageCount.toNat → options.fileSize ≤ maxOffset →
          writeAborts kPageSize results = true) ∧
        ∃ k, (k = 0 ∨ p < options.maxPageCount.toNat) ∧ k < kPageSize ∧
          file' = file.write (options.pageStart p) k page.bytes) file := by
  rw [writePage]
  by_cases hp : p < options.maxPageCount.toNat
  · simp only [DiskManagerOptions.validatePageId_ok hp,
      DiskManagerOptions.offsetForPage_ok hvalid hp, wp_bind, wp_liftExcept_ok]
    refine (writeFully_wp file page.bytes kPageSize (options.pageStart p) results).mono ?_ ?_
    · rintro - file' ⟨hfile, -⟩
      exact ⟨hp, hfile⟩
    · rintro e file' ⟨⟨k, hk, hfile⟩, herror⟩
      have hle := DiskManagerOptions.pageStart_le hp
      exact ⟨fun _ hfits => (herror (by omega)).2, k, Or.inr hp, hk, hfile⟩
  · simp only [DiskManagerOptions.validatePageId_error (not_lt.mp hp), wp_bind,
      wp_liftExcept_error]
    exact ⟨fun h => absurd h hp, 0, Or.inl rfl, by decide, (file.write_zero _ _).symm⟩

/-! ## Opening the file -/

/-- What a `DiskManager` can see of the system. -/
structure Os where
  file : Option File
  fds : Finset Nat

/-- How `open` ends.  One that fails may have created the file before it did, as with
`O_DIRECT` where that is not supported. -/
inductive OpenResult where
  | opened
  | failed (reason : String) (created : Bool)

/-- How the system calls of a construction end; `headerResults` are those of the `pread` or
`pwrite` calls on the header. -/
structure OpenCalls where
  openResult : OpenResult := .opened
  fstatFailure : Option String := none
  headerResults : List SysResult := []
  ftruncateFailure : Option String := none

/-- The descriptor `open` gives: the lowest one that is not open. -/
def lowestFree (fds : Finset Nat) : Nat := Nat.find (Infinite.exists_notMem_finset fds)

theorem lowestFree_notMem (fds : Finset Nat) : lowestFree fds ∉ fds :=
  Nat.find_spec (Infinite.exists_notMem_finset fds)

/-- Work on the file behind the descriptor. -/
def onFile {α : Type} (x : EStateM Error File α) : EStateM Error Os α := fun os =>
  match x (os.file.getD File.empty) with
  | .ok a file => .ok a { os with file := some file }
  | .error e file => .error e { os with file := some file }

structure DiskManager where
  options : DiskManagerOptions
  fd : Nat

namespace DiskManager

/-- `FileSize`. -/
def fileSize (calls : OpenCalls) : EStateM Error File Nat :=
  match calls.fstatFailure with
  | some reason => throw ⟨.runtimeError, "fstat failed: " ++ reason⟩
  | none => return (← get).size

/-- `OpenFile`. -/
def openFile (options : DiskManagerOptions) (calls : OpenCalls) : EStateM Error Os Nat :=
  match calls.openResult with
  | .failed reason created => do
      modify fun os => { os with file := os.file <|> if created then some File.empty else none }
      throw ⟨.runtimeError, "open failed: " ++ reason⟩
  | .opened => modifyGet fun os =>
      let file := if options.truncateExisting then File.empty else os.file.getD File.empty
      (lowestFree os.fds, { file := some file, fds := insert (lowestFree os.fds) os.fds })

/-- `WriteFreshHeader`. -/
def writeFreshHeader (options : DiskManagerOptions) (calls : OpenCalls) :
    EStateM Error File Unit :=
  writeFully (makeHeader options).encode kPageSize 0 calls.headerResults

/-- The checks of `ValidateExistingHeader`. -/
def checkHeader (options : DiskManagerOptions) (header : DiskFileHeader) : Except Error Unit :=
  if header.magic ≠ kMagic then
    throw ⟨.runtimeError, "invalid disk file magic"⟩
  else if header.version ≠ kFormatVersion then
    throw ⟨.runtimeError, "unsupported disk file format version"⟩
  else if header.pageSize.toNat ≠ kPageSize then
    throw ⟨.runtimeError, "disk file page size does not match build"⟩
  else if header.maxPageCount ≠ options.maxPageCount then
    throw ⟨.runtimeError, "disk file max_page_count does not match options"⟩
  else if header.headerSize ≠ options.headerSize then
    throw ⟨.runtimeError, "disk file header_size does not match options"⟩
  else return ()

/-- `ValidateExistingHeader`; the header page is a local of it. -/
def validateExistingHeader (options : DiskManagerOptions) (calls : OpenCalls) :
    EStateM Error File Unit := do
  let file ← get
  match readAtMost file kPageSize 0 calls.headerResults Page.zero.bytes with
  | .ok () headerPage => liftExcept (checkHeader options (DiskFileHeader.decode headerPage))
  | .error e _ => throw e

/-- `PreallocateFile`. -/
def preallocateFile (options : DiskManagerOptions) (calls : OpenCalls) :
    EStateM Error File Unit := do
  let expectedSize ← liftExcept options.expectedFileSize
  if expectedSize > maxOffset then
    throw ⟨.overflowError, "expected file size does not fit into off_t"⟩
  else
    match calls.ftruncateFailure with
    | some reason => throw ⟨.runtimeError, "ftruncate failed: " ++ reason⟩
    | none => modify (File.resize · expectedSize)

/-- `InitializeFile`. -/
def initializeFile (options : DiskManagerOptions) (calls : OpenCalls) :
    EStateM Error File Unit := do
  let size ← fileSize calls
  (if size = 0 ∨ options.truncateExisting = true then writeFreshHeader options calls
    else validateExistingHeader options calls)
  if options.preallocate then preallocateFile options calls else pure ()

/-- The constructor. -/
def make (options : DiskManagerOptions) (calls : OpenCalls) : EStateM Error Os DiskManager := do
  liftExcept options.validateOptions
  let fd ← openFile options calls
  onFile (initializeFile options calls)
  return { options, fd }

/-- The destructor. -/
def close (disk : DiskManager) (os : Os) : Os := { os with fds := os.fds.erase disk.fd }

variable {options : DiskManagerOptions} {calls : OpenCalls}

/-- `InitializeFile` writes a header, rather than check the one that is there. -/
def Fresh (options : DiskManagerOptions) (file : File) : Prop :=
  file.size = 0 ∨ options.truncateExisting = true

instance (file : File) : Decidable (Fresh options file) :=
  inferInstanceAs (Decidable (_ ∨ _))

/-- What `InitializeFile` makes of a file. -/
def initialized (options : DiskManagerOptions) (file : File) : File :=
  let file := if Fresh options file then
    file.write 0 kPageSize (makeHeader options).encode else file
  if options.preallocate then file.resize options.fileSize else file

/-- The step of `InitializeFile` at which it throws, if any. -/
inductive InitFails (options : DiskManagerOptions) (calls : OpenCalls) (file : File) : Prop where
  | fstat (h : calls.fstatFailure.isSome)
  | write (hfresh : Fresh options file) (h : writeAborts kPageSize calls.headerResults = true)
  | read (hfresh : ¬ Fresh options file)
      (h : readAborts kPageSize file.size calls.headerResults = true)
  | header (hfresh : ¬ Fresh options file)
      (h : DiskFileHeader.decode file.byte ≠ makeHeader options)
  | offset (hpre : options.preallocate = true) (h : maxOffset < options.fileSize)
  | ftruncate (hpre : options.preallocate = true) (h : calls.ftruncateFailure.isSome)

/-- Nothing goes wrong with a fresh file that is not preallocated, unless a system call
does. -/
theorem initialize_fresh {file : File} (hfresh : Fresh options file)
    (hpre : options.preallocate = false) : ¬ InitFails options {} file := by
  intro h
  cases h with
  | fstat h => cases h
  | write _ h => cases h
  | read hstale _ => exact hstale hfresh
  | header hstale _ => exact hstale hfresh
  | offset hpre' _ => simp [hpre] at hpre'
  | ftruncate hpre' _ => simp [hpre] at hpre'

theorem checkHeader_ok (options : DiskManagerOptions) :
    checkHeader options (makeHeader options) = .ok () := by
  simp [checkHeader, makeHeader, kPageSize]
  rfl

theorem checkHeader_error {options : DiskManagerOptions} {header : DiskFileHeader}
    (h : header ≠ makeHeader options) :
    ∃ what, checkHeader options header = .error ⟨.runtimeError, what⟩ := by
  unfold checkHeader
  split
  · exact ⟨_, rfl⟩
  · next hmagic =>
    split
    · exact ⟨_, rfl⟩
    · next hversion =>
      split
      · exact ⟨_, rfl⟩
      · next hpageSize =>
        split
        · exact ⟨_, rfl⟩
        · next hmaxPageCount =>
          split
          · exact ⟨_, rfl⟩
          · next hheaderSize =>
            refine absurd ?_ h
            refine DiskFileHeader.ext (not_not.mp hmagic) (not_not.mp hversion) ?_
              (not_not.mp hmaxPageCount) (not_not.mp hheaderSize)
            rw [← UInt32.ofNat_toNat (x := header.pageSize), not_not.mp hpageSize, makeHeader]

/-- `WriteFreshHeader` within `InitializeFile`. -/
theorem writeFreshHeader_wp {file : File} (hfresh : Fresh options file) :
    wp (writeFreshHeader options calls)
      (fun _ file' => file' = file.write 0 kPageSize (makeHeader options).encode ∧
        writeAborts kPageSize calls.headerResults = false)
      (fun e _ => e.kind = .runtimeError ∧ InitFails options calls file) file := by
  refine (writeFully_wp file (makeHeader options).encode kPageSize 0 calls.headerResults).mono
    (fun _ _ h => h) ?_
  rintro e file' ⟨-, herror⟩
  obtain ⟨hkind, haborts⟩ := herror (by decide)
  exact ⟨hkind, .write hfresh haborts⟩

/-- `ValidateExistingHeader` within `InitializeFile`. -/
theorem validateExistingHeader_wp {file : File} (hfresh : ¬ Fresh options file) :
    wp (validateExistingHeader options calls)
      (fun _ file' => file' = file ∧ readAborts kPageSize file.size calls.headerResults = false ∧
        DiskFileHeader.decode file.byte = makeHeader options)
      (fun e file' => file' = file ∧ e.kind = .runtimeError ∧ InitFails options calls file)
      file := by
  have hzero : ∀ i, Page.zero.bytes i = 0 := fun i => by
    unfold Page.bytes
    split <;> rfl
  have hread := readAtMost_wp file hzero kPageSize 0 calls.headerResults
  rw [validateExistingHeader, wp_bind, wp_get]
  unfold wp at hread
  cases hrun : readAtMost file kPageSize 0 calls.headerResults Page.zero.bytes with
  | ok u headerPage =>
    rw [hrun] at hread
    obtain ⟨hbytes, haborts⟩ := hread
    have hheader : DiskFileHeader.decode headerPage = DiskFileHeader.decode file.byte :=
      DiskFileHeader.decode_congr fun i hi => by
        rw [hbytes i (lt_of_lt_of_le hi (by decide)), Nat.zero_add]
    dsimp only
    rw [hheader]
    by_cases heq : DiskFileHeader.decode file.byte = makeHeader options
    · rw [heq, checkHeader_ok, wp_liftExcept_ok]
      exact ⟨rfl, haborts, rfl⟩
    · obtain ⟨what, hcheck⟩ := checkHeader_error heq
      rw [hcheck, wp_liftExcept_error]
      exact ⟨rfl, rfl, .header hfresh heq⟩
  | error e out =>
    rw [hrun] at hread
    obtain ⟨hkind, haborts⟩ := hread (by decide)
    exact ⟨rfl, hkind, .read hfresh haborts⟩

/-- `PreallocateFile`; it does nothing to the file where it throws. -/
theorem preallocateFile_wp (hvalid : options.Valid) (file : File) :
    wp (preallocateFile options calls)
      (fun _ file' => file' = file.resize options.fileSize ∧ options.fileSize ≤ maxOffset ∧
        calls.ftruncateFailure = none)
      (fun e file' => file' = file ∧ e.kind ≠ .invalidArgument ∧
        (maxOffset < options.fileSize ∨ calls.ftruncateFailure.isSome)) file := by
  rw [preallocateFile, options.expectedFileSize_ok hvalid.fits, wp_bind, wp_liftExcept_ok, wp_ite]
  split
  · next hgt => exact ⟨rfl, by simp, Or.inl hgt⟩
  · next hle =>
    cases hcall : calls.ftruncateFailure with
    | none => exact ⟨rfl, not_lt.mp hle, rfl⟩
    | some reason => exact ⟨rfl, by simp, Or.inr rfl⟩

/-- `InitializeFile` throws for the reasons listed, and then leaves a file that it does not
write to as it is. -/
theorem initializeFile_wp (hvalid : options.Valid) (file : File) :
    wp (initializeFile options calls)
      (fun _ file' => ¬ InitFails options calls file ∧ file' = initialized options file)
      (fun e file' => InitFails options calls file ∧ e.kind ≠ .invalidArgument ∧
        (¬ Fresh options file → file' = file)) file := by
  have hheader : wp
      (if file.size = 0 ∨ options.truncateExisting = true then writeFreshHeader options calls
        else validateExistingHeader options calls)
      (fun _ file' => file' = (if Fresh options file then
          file.write 0 kPageSize (makeHeader options).encode else file) ∧
        (Fresh options file → writeAborts kPageSize calls.headerResults = false) ∧
        (¬ Fresh options file → readAborts kPageSize file.size calls.headerResults = false ∧
          DiskFileHeader.decode file.byte = makeHeader options))
      (fun e file' => InitFails options calls file ∧ e.kind ≠ .invalidArgument ∧
        (¬ Fresh options file → file' = file)) file := by
    by_cases hfresh : Fresh options file
    · rw [if_pos (c := file.size = 0 ∨ _) hfresh, if_pos hfresh]
      refine (writeFreshHeader_wp hfresh).mono ?_ ?_
      · rintro - file' ⟨hfile, haborts⟩
        exact ⟨hfile, fun _ => haborts, fun h => absurd hfresh h⟩
      · rintro e file' ⟨hkind, hfails⟩
        exact ⟨hfails, by simp [hkind], fun h => absurd hfresh h⟩
    · rw [if_neg (c := file.size = 0 ∨ _) hfresh, if_neg hfresh]
      refine (validateExistingHeader_wp hfresh).mono ?_ ?_
      · rintro - file' ⟨hfile, hrest⟩
        exact ⟨hfile, fun h => absurd h hfresh, fun _ => hrest⟩
      · rintro e file' ⟨hfile, hkind, hfails⟩
        exact ⟨hfails, by simp [hkind], fun _ => hfile⟩
  rw [initializeFile, wp_bind]
  cases hstat : calls.fstatFailure with
  | some reason =>
    simp only [fileSize, hstat, wp_throw]
    exact ⟨.fstat (by simp [hstat]), by simp, fun _ => trivial⟩
  | none =>
    simp only [fileSize, hstat, wp_bind, wp_get, wp_pure]
    refine hheader.mono ?_ fun _ _ h => h
    rintro - _ ⟨rfl, hwrite, hread⟩
    have hfine : (options.preallocate = true →
        options.fileSize ≤ maxOffset ∧ calls.ftruncateFailure = none) →
        ¬ InitFails options calls file := by
      intro hpre hfails
      cases hfails with
      | fstat h => simp [hstat] at h
      | write hfresh h => simp [hwrite hfresh] at h
      | read hfresh h => simp [(hread hfresh).1] at h
      | header hfresh h => exact h (hread hfresh).2
      | offset h hgt => exact absurd (hpre h).1 (by omega)
      | ftruncate h hcall => simp [(hpre h).2] at hcall
    rw [wp_ite]
    split
    · next hpre =>
      refine (preallocateFile_wp hvalid _).mono ?_ ?_
      · rintro - _ ⟨rfl, hle, hcall⟩
        exact ⟨hfine fun _ => ⟨hle, hcall⟩, (if_pos hpre).symm⟩
      · rintro e _ ⟨rfl, hkind, hreason⟩
        refine ⟨?_, hkind, fun hfresh => if_neg hfresh⟩
        rcases hreason with hgt | hcall
        · exact .offset hpre hgt
        · exact .ftruncate hpre hcall
    · next hpre => exact ⟨hfine fun h => absurd h hpre, (if_neg hpre).symm⟩

/-- The file that `OpenFile` finds or makes. -/
def opened (options : DiskManagerOptions) (os : Os) : File :=
  if options.truncateExisting then File.empty else os.file.getD File.empty

theorem some_opened_of_not_fresh {os : Os} (h : ¬ Fresh options (opened options os)) :
    some (opened options os) = os.file := by
  rw [Fresh, not_or] at h
  rw [opened, if_neg h.2] at h ⊢
  cases hfile : os.file with
  | none => simp [hfile] at h
  | some file => rfl

theorem wp_onFile {α : Type} {x : EStateM Error File α} {Q : α → Os → Prop}
    {E : Error → Os → Prop} {os : Os} :
    wp (onFile x) Q E os ↔
      wp x (fun a file => Q a { os with file := some file })
        (fun e file => E e { os with file := some file }) (os.file.getD File.empty) := by
  unfold wp onFile
  cases x (os.file.getD File.empty) <;> exact Iff.rfl

/-- The constructor returns if the options are valid, the file opens and `InitializeFile`
does not throw.  Where it throws after `open`, the descriptor stays open. -/
theorem make_wp (options : DiskManagerOptions) (calls : OpenCalls) (os : Os) :
    wp (make options calls)
      (fun disk os' => options.Valid ∧ calls.openResult = .opened ∧
        ¬ InitFails options calls (opened options os) ∧
        disk = ⟨options, lowestFree os.fds⟩ ∧
        os' = ⟨some (initialized options (opened options os)),
          insert (lowestFree os.fds) os.fds⟩)
      (fun e os' =>
        (¬ options.Valid ∧ os' = os) ∨
        (options.Valid ∧ e.kind ≠ .invalidArgument ∧ calls.openResult ≠ .opened ∧
          os'.fds = os.fds) ∨
        (options.Valid ∧ e.kind ≠ .invalidArgument ∧ calls.openResult = .opened ∧
          InitFails options calls (opened options os) ∧
          os'.fds = insert (lowestFree os.fds) os.fds ∧
          (¬ Fresh options (opened options os) → os'.file = os.file))) os := by
  rw [make, wp_bind]
  cases hcheck : options.validateOptions with
  | error e =>
    rw [wp_liftExcept_error]
    refine Or.inl ⟨fun hvalid => ?_, rfl⟩
    rw [options.validateOptions_ok hvalid] at hcheck
    cases hcheck
  | ok u =>
    have hvalid := options.valid_of_validateOptions hcheck
    rw [wp_liftExcept_ok, wp_bind, openFile]
    cases hopen : calls.openResult with
    | failed reason created =>
      simp only [wp_bind, wp_modify, wp_throw]
      exact Or.inr (Or.inl ⟨hvalid, by simp, by simp, trivial⟩)
    | opened =>
      simp only [wp_modifyGet, wp_bind, wp_onFile, wp_pure]
      refine (initializeFile_wp hvalid _).mono ?_ ?_
      · rintro - file' ⟨hfine, rfl⟩
        exact ⟨hvalid, trivial, hfine, trivial, rfl⟩
      · rintro e file' ⟨hfails, hkind, hfile⟩
        refine Or.inr (Or.inr ⟨hvalid, hkind, trivial, hfails, trivial, fun hfresh => ?_⟩)
        rw [hfile hfresh]
        exact some_opened_of_not_fresh hfresh

theorem make_ok {os : Os} (hvalid : options.Valid) (hopen : calls.openResult = .opened)
    (hfine : ¬ InitFails options calls (opened options os)) :
    make options calls os = .ok ⟨options, lowestFree os.fds⟩
      ⟨some (initialized options (opened options os)), insert (lowestFree os.fds) os.fds⟩ := by
  have hmake := make_wp options calls os
  unfold wp at hmake
  cases hrun : make options calls os with
  | ok disk os' =>
    rw [hrun] at hmake
    obtain ⟨-, -, -, rfl, rfl⟩ := hmake
    rfl
  | error e os' =>
    rw [hrun] at hmake
    rcases hmake with ⟨hinvalid, -⟩ | ⟨-, -, hclosed, -⟩ | ⟨-, -, -, hfails, -⟩
    · exact absurd hvalid hinvalid
    · exact absurd hopen hclosed
    · exact absurd hfails hfine

theorem make_error {os : Os} (hvalid : options.Valid) (hopen : calls.openResult = .opened)
    (hfails : InitFails options calls (opened options os)) :
    ∃ e os', make options calls os = .error e os' ∧
      os'.fds = insert (lowestFree os.fds) os.fds := by
  have hmake := make_wp options calls os
  unfold wp at hmake
  cases hrun : make options calls os with
  | ok disk os' =>
    rw [hrun] at hmake
    exact absurd hfails hmake.2.2.1
  | error e os' =>
    rw [hrun] at hmake
    rcases hmake with ⟨hinvalid, -⟩ | ⟨-, -, hclosed, -⟩ | ⟨-, -, -, -, hfds, -⟩
    · exact absurd hvalid hinvalid
    · exact absurd hopen hclosed
    · exact ⟨e, os', rfl, hfds⟩

end DiskManager

end BufferManager
