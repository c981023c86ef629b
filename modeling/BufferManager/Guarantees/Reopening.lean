/-
  Guarantees/Reopening.lean --- a disk file is opened again with its page count and
  header size, and holds its pages.

  Source: `src/storage/disk_manager.cc`, `InitializeFile`.

  `Laid` is what the file of a `DiskManager` keeps through all calls: the header, which
  lies in front of the pages, and an extent that a later `ftruncate` to the expected size
  does not cut.
-/
import BufferManager.Storage.PageArray

set_option autoImplicit false

namespace BufferManager

open BufferManager.Lib

/-- The system calls of a construction succeed, if by small steps. -/
structure OpenCalls.Unfailing (calls : OpenCalls) : Prop where
  openResult : calls.openResult = .opened
  fstatFailure : calls.fstatFailure = none
  headerResults : BufferManager.Unfailing calls.headerResults
  ftruncateFailure : calls.ftruncateFailure = none

/-- The file has the header of these options, and no bytes behind its pages. -/
structure Laid (options : DiskManagerOptions) (file : File) : Prop where
  header : DiskFileHeader.decode file.byte = makeHeader options
  kPageSize_le : kPageSize ≤ file.size
  size_le : file.size ≤ options.fileSize

variable {options options' : DiskManagerOptions} {calls : OpenCalls} {file : File}

theorem makeHeader_eq_iff : makeHeader options' = makeHeader options ↔
    options'.maxPageCount = options.maxPageCount ∧ options'.headerSize = options.headerSize := by
  simp [makeHeader]

namespace Laid

theorem congr (h : Laid options file) {file' : File}
    (hbyte : ∀ i, i < kPageSize → file'.byte i = file.byte i) (hsize : kPageSize ≤ file'.size)
    (hle : file'.size ≤ options.fileSize) : Laid options file' where
  header := by
    rw [← h.header]
    exact DiskFileHeader.decode_congr fun i hi => hbyte i (lt_of_lt_of_le hi (by decide))
  kPageSize_le := hsize
  size_le := hle

theorem resize (hvalid : options.Valid) (h : Laid options file) :
    Laid options (file.resize options.fileSize) :=
  h.congr (fun i _ => file.resize_byte_of_le h.size_le i) hvalid.kPageSize_le_fileSize le_rfl

/-- A fresh file has its header. -/
theorem initialized (hvalid : options.Valid) (hsize : file.size = 0) :
    Laid options (DiskManager.initialized options file) := by
  have hfresh : DiskManager.Fresh options file := Or.inl hsize
  have hlaid : Laid options (file.write 0 kPageSize (makeHeader options).encode) := by
    refine ⟨?_, ?_, ?_⟩
    · refine (DiskFileHeader.decode_congr fun i hi => ?_).trans
        (DiskFileHeader.decode_encode (makeHeader options))
      have hi' : i < kPageSize := lt_of_lt_of_le hi (by decide)
      rw [File.write_byte, if_pos (by omega), Nat.sub_zero]
    · rw [File.write_size, if_neg (by decide)]
      omega
    · have := hvalid.kPageSize_le_fileSize
      rw [File.write_size, if_neg (by decide)]
      omega
  rw [DiskManager.initialized, if_pos hfresh]
  split
  · exact hlaid.resize hvalid
  · exact hlaid

theorem run (hvalid : options.Valid) (h : Laid options file) (call : DiskCall) :
    Laid options (call.run options file).2 := by
  rcases call.run_file hvalid file with hfile | ⟨p, k, page, hp, hk, hfile⟩
  · rw [hfile]
    exact h
  · have hend := DiskManagerOptions.pageStart_le hp
    have hle := h.size_le
    have hge := h.kPageSize_le
    refine h.congr (fun i hi => DiskCall.run_header hvalid file call
      (lt_of_lt_of_le hi hvalid.kPageSize_le)) ?_ ?_
    · rw [hfile, File.write_size]
      split <;> omega
    · rw [hfile, File.write_size]
      split <;> omega

theorem runCalls (hvalid : options.Valid) (h : Laid options file) (calls : List DiskCall) :
    Laid options (runCalls options file calls).2 := by
  induction calls generalizing file with
  | nil => exact h
  | cons call calls ih => exact ih (h.run hvalid call)

end Laid

/-- `ReadPage` without failing system calls gives the page in its place, if that is within
the range of `off_t`. -/
theorem readPage_unfailing (hvalid : options.Valid) {p : Nat}
    (hp : p < options.maxPageCount.toNat) (into : Page) {results : List SysResult}
    (hresults : Unfailing results) (page : Page) :
    readPage options file p results into = .ok () page ↔
      options.pageStart p ≤ maxOffset ∧ page = pageAt options file p := by
  have hread := readPage_wp hvalid file p results into
  unfold wp at hread
  cases hrun : readPage options file p results into with
  | ok u page' =>
    rw [hrun] at hread
    obtain ⟨-, hfits, rfl⟩ := hread
    constructor
    · intro h
      cases h
      exact ⟨hfits, rfl⟩
    · rintro ⟨-, rfl⟩
      rfl
  | error e page' =>
    rw [hrun] at hread
    refine ⟨by simp, ?_⟩
    rintro ⟨hfits, -⟩
    have haborts := hread hp hfits
    rw [readAborts_of_unfailing hresults] at haborts
    cases haborts

theorem DiskManager.not_fresh_of_laid (hlaid : Laid options file)
    (htruncate : options'.truncateExisting = false) : ¬ Fresh options' file := by
  have hpos : 0 < file.size := lt_of_lt_of_le (by decide) hlaid.kPageSize_le
  simp [Fresh, htruncate, Nat.ne_of_gt hpos]

/-- A file that gets a header has no bytes before. -/
theorem DiskManager.opened_size_of_fresh {os : Os} (h : Fresh options (opened options os)) :
    (opened options os).size = 0 := by
  rcases h with h | h
  · exact h
  · rw [opened, if_pos h]
    rfl

/-- On a file with pages nothing fails but the check of the header. -/
theorem DiskManager.initFails_iff (hlaid : Laid options file)
    (htruncate : options'.truncateExisting = false)
    (hfits : options'.preallocate = true → options'.fileSize ≤ maxOffset)
    (hcalls : calls.Unfailing) :
    InitFails options' calls file ↔ makeHeader options ≠ makeHeader options' := by
  have hfresh := not_fresh_of_laid hlaid htruncate
  rw [← hlaid.header]
  constructor
  · rintro (h | ⟨h, -⟩ | ⟨-, h⟩ | ⟨-, h⟩ | ⟨hpre, h⟩ | ⟨-, h⟩)
    · simp [hcalls.fstatFailure] at h
    · exact absurd h hfresh
    · simp [readAborts_of_unfailing hcalls.headerResults] at h
    · exact h
    · exact absurd (hfits hpre) (by omega)
    · simp [hcalls.ftruncateFailure] at h
  · exact .header hfresh

/-- What is done to a file with pages when it is reopened cuts none of them. -/
theorem pageAt_initialized (hlaid : Laid options file)
    (hheader : makeHeader options' = makeHeader options)
    (htruncate : options'.truncateExisting = false) {p : Nat} :
    pageAt options' (DiskManager.initialized options' file) p = pageAt options file p := by
  have hfresh := DiskManager.not_fresh_of_laid hlaid htruncate
  obtain ⟨hcount, hsize⟩ := makeHeader_eq_iff.mp hheader
  have hstart : ∀ q, options'.pageStart q = options.pageStart q := fun q => by
    rw [DiskManagerOptions.pageStart, DiskManagerOptions.pageStart, hsize]
  have hfile : options'.fileSize = options.fileSize := by
    rw [DiskManagerOptions.fileSize, DiskManagerOptions.fileSize, hstart, hcount]
  rw [DiskManager.initialized, if_neg hfresh]
  refine Page.ext (funext fun j => ?_)
  simp only [pageAt, hstart]
  split
  · rw [hfile, File.resize_byte_of_le _ hlaid.size_le]
  · rfl

/-- A file is reopened with the page count and the header size it was made with, and with
no others.  Then `ReadPage` gives the pages it gave before; otherwise the file is as it
was. -/
theorem diskManager_reopens {os₀ : Os} {created : OpenCalls} {disk : DiskManager} {file₁ : File}
    {fds₁ : Finset Nat}
    (hmake : DiskManager.make options created os₀ = .ok disk ⟨some file₁, fds₁⟩)
    (hfresh : DiskManager.Fresh options (DiskManager.opened options os₀))
    (written : List DiskCall) (fds : Finset Nat) (hvalid : options'.Valid)
    (htruncate : options'.truncateExisting = false)
    (hfits : options'.preallocate = true → options'.fileSize ≤ maxOffset)
    (hcalls : calls.Unfailing) :
    let file := (runCalls options file₁ written).2
    let reopened := DiskManager.make options' calls ⟨some file, fds⟩
    ((∃ disk' os', reopened = .ok disk' os') ↔
      options'.maxPageCount = options.maxPageCount ∧ options'.headerSize = options.headerSize) ∧
    (∀ disk' os', reopened = .ok disk' os' → ∃ file', os'.file = some file' ∧
      ∀ p, p < options.maxPageCount.toNat → ∀ into into' results results',
        Unfailing results → Unfailing results' → ∀ page,
          readPage options' file' p results' into' = .ok () page ↔
            readPage options file p results into = .ok () page) ∧
    ∀ e os', reopened = .error e os' → os'.file = some file := by
  intro file reopened
  have hfirst := DiskManager.make_wp options created os₀
  rw [wp, hmake] at hfirst
  obtain ⟨hvalid₀, -, -, -, hos⟩ := hfirst
  obtain ⟨hfile₁, -⟩ := Os.mk.inj hos
  have hlaid : Laid options file := by
    refine Laid.runCalls hvalid₀ ?_ written
    rw [Option.some.inj hfile₁]
    exact Laid.initialized hvalid₀ (DiskManager.opened_size_of_fresh hfresh)
  have hopened : DiskManager.opened options' ⟨some file, fds⟩ = file :=
    if_neg (by simp [htruncate])
  have hfails := DiskManager.initFails_iff hlaid htruncate hfits hcalls
  have hsecond : wp (DiskManager.make options' calls)
      (fun _ os' => makeHeader options' = makeHeader options ∧
        os'.file = some (DiskManager.initialized options' file))
      (fun _ os' => makeHeader options' ≠ makeHeader options ∧ os'.file = some file)
      ⟨some file, fds⟩ := by
    refine (DiskManager.make_wp options' calls ⟨some file, fds⟩).mono ?_ ?_
    · rintro disk' os' ⟨-, -, hfine, -, rfl⟩
      rw [hopened] at hfine
      rw [hopened]
      exact ⟨(not_not.mp (mt hfails.mpr hfine)).symm, rfl⟩
    · rintro e os' (⟨hinvalid, -⟩ | ⟨-, -, hclosed, -⟩ | ⟨-, -, -, hfail, -, hkept⟩)
      · exact absurd hvalid hinvalid
      · exact absurd hcalls.openResult hclosed
      · rw [hopened] at hfail hkept
        exact ⟨(hfails.mp hfail).symm, hkept (DiskManager.not_fresh_of_laid hlaid htruncate)⟩
  refine ⟨?_, ?_, ?_⟩
  · rw [← makeHeader_eq_iff]
    unfold wp at hsecond
    constructor
    · rintro ⟨disk', os', hok⟩
      rw [show DiskManager.make options' calls ⟨some file, fds⟩ = .ok disk' os' from hok] at hsecond
      exact hsecond.1
    · intro hheader
      cases hrun : reopened with
      | ok disk' os' => exact ⟨disk', os', rfl⟩
      | error e os' =>
        rw [show DiskManager.make options' calls ⟨some file, fds⟩ = .error e os' from hrun]
          at hsecond
        exact absurd hheader hsecond.1
  · intro disk' os' hok
    obtain ⟨hheader, hfile'⟩ := hsecond.ok hok
    refine ⟨_, hfile', fun p hp into into' results results' hresults hresults' page => ?_⟩
    obtain ⟨hcount, hsize⟩ := makeHeader_eq_iff.mp hheader
    rw [readPage_unfailing hvalid (by rw [hcount]; exact hp) into' hresults',
      readPage_unfailing hvalid₀ hp into hresults, pageAt_initialized hlaid hheader htruncate,
      DiskManagerOptions.pageStart, DiskManagerOptions.pageStart, hsize]
  · intro e os' herror
    exact (hsecond.error herror).2

/-- A file of two pages, one of them written, reopened with preallocation. -/
theorem diskManager_reopens_two :
    let options : DiskManagerOptions := { path := "pages", maxPageCount := 2 }
    let ones : Page := ⟨fun _ => 1⟩
    ∃ disk file₁ fds₁, DiskManager.make options {} ⟨none, ∅⟩ = .ok disk ⟨some file₁, fds₁⟩ ∧
      ∃ disk' os', DiskManager.make { options with preallocate := true } {}
          ⟨some (runCalls options file₁ [.write 1 ones []]).2, ∅⟩ = .ok disk' os' ∧
        ∃ file', os'.file = some file' ∧ ∀ page,
          readPage { options with preallocate := true } file' 1 [] Page.zero = .ok () page ↔
            readPage options (runCalls options file₁ [.write 1 ones []]).2 1 [] Page.zero =
              .ok () page := by
  intro options ones
  have hvalid : options.Valid := ⟨rfl, by decide, by decide, by decide, by decide⟩
  have hfresh : DiskManager.Fresh options (DiskManager.opened options ⟨none, ∅⟩) := Or.inl rfl
  have hfine : ¬ DiskManager.InitFails options {} (DiskManager.opened options ⟨none, ∅⟩) :=
    DiskManager.initialize_fresh hfresh rfl
  have hcalls : OpenCalls.Unfailing {} := ⟨rfl, rfl, by simp [Unfailing], rfl⟩
  have hvalid' : ({ options with preallocate := true } : DiskManagerOptions).Valid :=
    ⟨rfl, by decide, by decide, by decide, by decide⟩
  have hmake : DiskManager.make options {} ⟨none, ∅⟩ = _ :=
    DiskManager.make_ok hvalid rfl hfine
  refine ⟨_, _, _, hmake, ?_⟩
  obtain ⟨haccepted, hreads, -⟩ := diskManager_reopens hmake hfresh [.write 1 ones []] ∅ hvalid'
    rfl (fun _ => by decide) hcalls
  obtain ⟨disk', os', hreopened⟩ := haccepted.mpr ⟨rfl, rfl⟩
  obtain ⟨file', hfile', hpages⟩ := hreads disk' os' hreopened
  have hnone : Unfailing [] := by simp [Unfailing]
  exact ⟨disk', os', hreopened, file', hfile',
    fun page => hpages 1 (by decide) Page.zero Page.zero [] [] hnone hnone page⟩

end BufferManager
