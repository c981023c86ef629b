/-
  Guarantees/Format.lean --- which files a `DiskManager` takes for its own.

  Source: `src/storage/disk_manager.cc`, `InitializeFile`, `ValidateExistingHeader` and
  `MakeHeader`.

  A file that is there may hold anything.  The checks of its header compare the fields one
  after another; that is, they look for the first byte that is not as `WriteFreshHeader`
  would have written it, and complain of the field it lies in.
-/
import BufferManager.Guarantees.Reopening

set_option autoImplicit false

namespace BufferManager

open BufferManager.Lib

variable {options : DiskManagerOptions} {calls : OpenCalls} {file : File}

/-- What `ValidateExistingHeader` says of the field in which byte `i` lies. -/
def headerComplaint (i : Nat) : String :=
  if i < 8 then "invalid disk file magic"
  else if i < 12 then "unsupported disk file format version"
  else if i < 16 then "disk file page size does not match build"
  else if i < 24 then "disk file max_page_count does not match options"
  else "disk file header_size does not match options"

/-! ## Fields and bytes -/

namespace DiskFileHeader

variable {h h' : DiskFileHeader}

/-- The fields are what the bytes in their places say. -/
theorem field_eq {i : Nat} (hbytes : ∀ j, j < i → h.encode j = h'.encode j) :
    (8 ≤ i → h.magic = h'.magic) ∧ (12 ≤ i → h.version = h'.version) ∧
      (16 ≤ i → h.pageSize = h'.pageSize) ∧ (24 ≤ i → h.maxPageCount = h'.maxPageCount) ∧
      (32 ≤ i → h.headerSize = h'.headerSize) := by
  have hnat : ∀ at' w, at' + w ≤ i →
      leNat w (fun j => h.encode (at' + j)) = leNat w (fun j => h'.encode (at' + j)) :=
    fun at' w hw => leNat_congr fun j hj => hbytes _ (by omega)
  rw [← decode_encode h, ← decode_encode h']
  refine ⟨fun hi => funext fun j => ?_, fun hi => ?_, fun hi => ?_, fun hi => ?_, fun hi => ?_⟩
  · exact hbytes j (lt_of_lt_of_le j.isLt hi)
  · exact congrArg UInt32.ofNat (hnat 8 4 hi)
  · exact congrArg UInt32.ofNat (hnat 12 4 hi)
  · exact congrArg UInt64.ofNat (hnat 16 8 hi)
  · exact congrArg UInt64.ofNat (hnat 24 8 hi)

/-- Headers that differ in a byte differ in its field. -/
theorem field_ne {i : Nat} (hi : i < sizeofHeader) (hne : h.encode i ≠ h'.encode i) :
    (i < 8 → h.magic ≠ h'.magic) ∧ (8 ≤ i → i < 12 → h.version ≠ h'.version) ∧
      (12 ≤ i → i < 16 → h.pageSize ≠ h'.pageSize) ∧
      (16 ≤ i → i < 24 → h.maxPageCount ≠ h'.maxPageCount) ∧
      (24 ≤ i → h.headerSize ≠ h'.headerSize) := by
  rw [sizeofHeader] at hi
  unfold encode at hne
  refine ⟨fun hlt heq => hne ?_, fun hle hlt heq => hne ?_, fun hle hlt heq => hne ?_,
    fun hle hlt heq => hne ?_, fun hle heq => hne ?_⟩
  · simp only [hlt, dif_pos, heq]
  · simp only [show ¬ i < 8 by omega, dif_neg, not_false_eq_true, hlt, if_true, heq]
  · simp only [show ¬ i < 8 by omega, dif_neg, not_false_eq_true, show ¬ i < 12 by omega, if_false,
      hlt, if_true, heq]
  · simp only [show ¬ i < 8 by omega, dif_neg, not_false_eq_true, show ¬ i < 12 by omega,
      show ¬ i < 16 by omega, if_false, hlt, if_true, heq]
  · simp only [show ¬ i < 8 by omega, dif_neg, not_false_eq_true, show ¬ i < 12 by omega,
      show ¬ i < 16 by omega, show ¬ i < 24 by omega, if_false, hi, if_true, heq]

end DiskFileHeader

namespace DiskManager

/-- The check of a header complains of the field with the first wrong byte. -/
theorem checkHeader_of_first {header : DiskFileHeader} {i : Nat} (hi : i < sizeofHeader)
    (hbefore : ∀ j, j < i → header.encode j = (makeHeader options).encode j)
    (hwrong : header.encode i ≠ (makeHeader options).encode i) :
    checkHeader options header = .error ⟨.runtimeError, headerComplaint i⟩ := by
  obtain ⟨hmagic, hversion, hpageSize, hmaxPageCount, -⟩ := DiskFileHeader.field_eq hbefore
  obtain ⟨hmagic', hversion', hpageSize', hmaxPageCount', hheaderSize'⟩ :=
    DiskFileHeader.field_ne hi hwrong
  have hsize : header.pageSize.toNat ≠ kPageSize ↔
      header.pageSize ≠ (makeHeader options).pageSize := by
    rw [not_iff_not, ← UInt32.toNat_inj]
    exact Iff.rfl
  unfold checkHeader headerComplaint
  by_cases h8 : i < 8
  · rw [if_pos (show header.magic ≠ kMagic from hmagic' h8), if_pos h8]
    rfl
  · have hsame : header.magic = kMagic := hmagic (by omega)
    rw [if_neg (not_not.mpr hsame), if_neg h8]
    by_cases h12 : i < 12
    · rw [if_pos (show header.version ≠ kFormatVersion from hversion' (by omega) h12), if_pos h12]
      rfl
    · have hsame : header.version = kFormatVersion := hversion (by omega)
      rw [if_neg (not_not.mpr hsame), if_neg h12]
      by_cases h16 : i < 16
      · rw [if_pos (hsize.mpr (hpageSize' (by omega) h16)), if_pos h16]
        rfl
      · rw [if_neg (mt hsize.mp (not_not.mpr (hpageSize (by omega)))), if_neg h16]
        by_cases h24 : i < 24
        · rw [if_pos (show header.maxPageCount ≠ options.maxPageCount from
            hmaxPageCount' (by omega) h24), if_pos h24]
          rfl
        · have hsame : header.maxPageCount = options.maxPageCount := hmaxPageCount (by omega)
          rw [if_neg (not_not.mpr hsame), if_neg h24,
            if_pos (show header.headerSize ≠ options.headerSize from hheaderSize' (by omega))]
          rfl

/-! ## A file that is there -/

/-- The check of the header of a file decides on it, where no system call fails. -/
theorem validateExistingHeader_checks (hresults : Unfailing calls.headerResults) (file : File) :
    wp (validateExistingHeader options calls)
      (fun _ file' => file' = file ∧
        checkHeader options (DiskFileHeader.decode file.byte) = .ok ())
      (fun e file' => file' = file ∧
        checkHeader options (DiskFileHeader.decode file.byte) = .error e) file := by
  have hzero : ∀ i, Page.zero.bytes i = 0 := fun i => by
    unfold Page.bytes
    split <;> rfl
  have hread := readAtMost_wp file hzero kPageSize 0 calls.headerResults
  unfold wp at hread
  rw [validateExistingHeader, wp_bind, wp_get]
  cases hrun : readAtMost file kPageSize 0 calls.headerResults Page.zero.bytes with
  | ok u headerPage =>
    rw [hrun] at hread
    have hheader : DiskFileHeader.decode headerPage = DiskFileHeader.decode file.byte :=
      DiskFileHeader.decode_congr fun i hi => by
        rw [hread.1 i (lt_of_lt_of_le hi (by decide)), Nat.zero_add]
    dsimp only
    rw [hheader]
    cases hcheck : checkHeader options (DiskFileHeader.decode file.byte) with
    | ok u => exact ⟨rfl, rfl⟩
    | error e => exact ⟨rfl, rfl⟩
  | error e out =>
    rw [hrun] at hread
    have haborts := (hread (by decide)).2
    rw [readAborts_of_unfailing hresults] at haborts
    cases haborts

/-- A file whose header is complained of is opened, and left as it is. -/
theorem make_of_checkHeader_error (hvalid : options.Valid) (hfresh : ¬ Fresh options file)
    (hcalls : calls.Unfailing) (fds : Finset Nat) {e : Error}
    (hcheck : checkHeader options (DiskFileHeader.decode file.byte) = .error e) :
    make options calls ⟨some file, fds⟩ =
      .error e ⟨some file, insert (lowestFree fds) fds⟩ := by
  have hmake : wp (make options calls) (fun _ _ => False)
      (fun e' os' => e' = e ∧ os' = ⟨some file, insert (lowestFree fds) fds⟩)
      ⟨some file, fds⟩ := by
    rw [make, options.validateOptions_ok hvalid, wp_bind, wp_liftExcept_ok, wp_bind, openFile,
      hcalls.openResult]
    simp only [wp_modifyGet, wp_bind, wp_onFile, wp_pure]
    rw [if_neg (not_or.mp hfresh).2]
    change wp (initializeFile options calls) _ _ file
    rw [initializeFile, wp_bind]
    simp only [fileSize, hcalls.fstatFailure, wp_bind, wp_get, wp_pure]
    rw [if_neg (show ¬ (file.size = 0 ∨ options.truncateExisting = true) from hfresh)]
    refine (validateExistingHeader_checks hcalls.headerResults file).mono ?_ ?_
    · rintro - file' ⟨-, hok⟩
      rw [hcheck] at hok
      cases hok
    · rintro e' file' ⟨rfl, herror⟩
      exact ⟨Except.error.inj (herror.symm.trans hcheck), rfl⟩
  unfold wp at hmake
  cases hrun : make options calls ⟨some file, fds⟩ with
  | ok disk os' =>
    rw [hrun] at hmake
    exact hmake.elim
  | error e' os' =>
    rw [hrun] at hmake
    rw [hmake.1, hmake.2]

/-- Opening a file with a header leaves the places of its pages as they are. -/
theorem pageAt_opened (hfresh : ¬ Fresh options file) {p : Nat}
    (hp : p < options.maxPageCount.toNat) :
    pageAt options (initialized options file) p = pageAt options file p := by
  have hend := DiskManagerOptions.pageStart_le hp
  rw [initialized, if_neg hfresh]
  split
  · refine Page.ext (funext fun j => ?_)
    have hj := j.isLt
    simp only [pageAt, File.resize_byte]
    rw [if_pos (by omega)]
  · rfl

end DiskManager

/-- A `DiskManager` opens a file that is there if and only if its first bytes, with zeros
behind the end of the file, are those of the header that it would have written itself.
Then each page is what the file holds in its place.  Otherwise it names the field of the
first wrong byte, and the file stays as it is. -/
theorem existing_file_accepted_iff (hvalid : options.Valid)
    (hfresh : ¬ DiskManager.Fresh options file)
    (hfits : options.preallocate = true → options.fileSize ≤ maxOffset)
    (hcalls : calls.Unfailing) (fds : Finset Nat) :
    let made := DiskManager.make options calls ⟨some file, fds⟩
    let expected := (makeHeader options).encode
    ((∃ disk os', made = .ok disk os') ↔ ∀ i, i < sizeofHeader → file.byte i = expected i) ∧
    (∀ disk os', made = .ok disk os' → ∃ file', os'.file = some file' ∧
      ∀ p, p < options.maxPageCount.toNat → ∀ into results, Unfailing results → ∀ page,
        readPage options file' p results into = .ok () page ↔
          options.pageStart p ≤ maxOffset ∧ page = pageAt options file p) ∧
    ∀ i, i < sizeofHeader → (∀ j, j < i → file.byte j = expected j) → file.byte i ≠ expected i →
      made = .error ⟨.runtimeError, headerComplaint i⟩
        ⟨some file, insert (lowestFree fds) fds⟩ := by
  intro made expected
  have hopened : DiskManager.opened options ⟨some file, fds⟩ = file := if_neg (not_or.mp hfresh).2
  have hbytes : ∀ {j}, j < sizeofHeader →
      (DiskFileHeader.decode file.byte).encode j = file.byte j :=
    fun hj => DiskFileHeader.encode_decode file.byte hj
  have hcomplains : ∀ i, i < sizeofHeader → (∀ j, j < i → file.byte j = expected j) →
      file.byte i ≠ expected i → made = .error ⟨.runtimeError, headerComplaint i⟩
        ⟨some file, insert (lowestFree fds) fds⟩ := by
    intro i hi hbefore hwrong
    refine DiskManager.make_of_checkHeader_error hvalid hfresh hcalls fds ?_
    refine DiskManager.checkHeader_of_first hi (fun j hj => ?_) ?_
    · rw [hbytes (hj.trans hi)]
      exact hbefore j hj
    · rw [hbytes hi]
      exact hwrong
  have haccepts : (∀ i, i < sizeofHeader → file.byte i = expected i) →
      made = .ok ⟨options, lowestFree fds⟩
        ⟨some (DiskManager.initialized options file), insert (lowestFree fds) fds⟩ := by
    intro hall
    have hfine : ¬ DiskManager.InitFails options calls
        (DiskManager.opened options ⟨some file, fds⟩) := by
      rw [hopened]
      rintro (h | ⟨h, -⟩ | ⟨-, h⟩ | ⟨-, h⟩ | ⟨hpre, h⟩ | ⟨-, h⟩)
      · simp [hcalls.fstatFailure] at h
      · exact hfresh h
      · simp [readAborts_of_unfailing hcalls.headerResults] at h
      · refine h ((DiskFileHeader.decode_congr hall).trans ?_)
        exact DiskFileHeader.decode_encode (makeHeader options)
      · exact absurd (hfits hpre) (by omega)
      · simp [hcalls.ftruncateFailure] at h
    have hmake := DiskManager.make_ok hvalid hcalls.openResult hfine
    rwa [hopened] at hmake
  have hiff : (∃ disk os', made = .ok disk os') ↔
      ∀ i, i < sizeofHeader → file.byte i = expected i := by
    refine ⟨?_, fun hall => ⟨_, _, haccepts hall⟩⟩
    rintro ⟨disk, os', hok⟩
    by_contra hwrong
    have hexists : ∃ i, i < sizeofHeader ∧ file.byte i ≠ expected i := by
      simpa using hwrong
    obtain ⟨hlt, hne⟩ := Nat.find_spec hexists
    have herror := hcomplains _ hlt (fun j hj => ?_) hne
    · rw [hok] at herror
      cases herror
    · exact not_not.mp fun hj' => Nat.find_min hexists hj ⟨hj.trans hlt, hj'⟩
  refine ⟨hiff, fun disk os' hok => ?_, hcomplains⟩
  have hmade := haccepts (hiff.mp ⟨disk, os', hok⟩)
  rw [hok] at hmade
  obtain ⟨-, rfl⟩ := EStateM.Result.ok.inj hmade
  refine ⟨_, rfl, fun p hp into results hresults page => ?_⟩
  rw [readPage_unfailing hvalid hp into hresults, DiskManager.pageAt_opened hfresh hp]

/-- A file of one byte is no disk file: the second byte of its magic is missing. -/
theorem existing_file_accepted_iff_short :
    let options : DiskManagerOptions := { path := "pages", maxPageCount := 2 }
    DiskManager.make options {} ⟨some (File.empty.write 0 1 fun _ => 0x42), ∅⟩ =
      .error ⟨.runtimeError, "invalid disk file magic"⟩
        ⟨some (File.empty.write 0 1 fun _ => 0x42), insert (lowestFree ∅) ∅⟩ := by
  intro options
  have hvalid : options.Valid := ⟨rfl, by decide, by decide, by decide, by decide⟩
  have hfresh : ¬ DiskManager.Fresh options (File.empty.write 0 1 fun _ => 0x42) := by decide
  have hcalls : OpenCalls.Unfailing {} := ⟨rfl, rfl, by simp [Unfailing], rfl⟩
  have haccepted := existing_file_accepted_iff hvalid hfresh (fun h => by cases h) hcalls ∅
  exact haccepted.2.2 1 (by decide) (by decide) (by decide)

end BufferManager
