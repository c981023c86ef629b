/-
  Storage/PageArray.lean --- a `DiskManager` is an array of pages.

  What `ReadPage` and `WritePage` mean is said on `Nat → Page`, the disk as the rest of
  the manager sees it: a read gives a page, a write replaces one, and a write that throws
  replaces the first bytes of one.  A call on the file is such a step on the pages the
  file holds, and it leaves all bytes outside of its page alone.
-/
import BufferManager.Storage.DiskManager

set_option autoImplicit false

namespace BufferManager

open BufferManager.Lib

/-! ## Calls -/

/-- A call on a `DiskManager`, with the results of its system calls; a read has the page
that it reads into. -/
inductive DiskCall where
  | read (pageId : Nat) (into : Page) (results : List SysResult)
  | write (pageId : Nat) (page : Page) (results : List SysResult)

/-- How a call ends. -/
inductive DiskOutcome where
  | read (page : Page)
  | written
  | threw (e : Error)

/-- Make a call. -/
def DiskCall.run (options : DiskManagerOptions) (file : File) : DiskCall → DiskOutcome × File
  | .read pageId into results =>
      match readPage options file pageId results into with
      | .ok () page => (.read page, file)
      | .error e _ => (.threw e, file)
  | .write pageId page results =>
      match writePage options pageId page results file with
      | .ok () file => (.written, file)
      | .error e file => (.threw e, file)

/-- Make calls one after the other, whether or not they throw. -/
def runCalls (options : DiskManagerOptions) :
    File → List DiskCall → List (DiskCall × DiskOutcome) × File
  | file, [] => ([], file)
  | file, call :: calls =>
      let (outcome, file) := call.run options file
      let (history, file) := runCalls options file calls
      ((call, outcome) :: history, file)

/-- What is written by a call, if it is a write of page `p`. -/
def DiskCall.written (p : Nat) : DiskCall → Option Page
  | .read .. => none
  | .write pageId page _ => if pageId = p then some page else none

/-- The last write of page `p`, and how it ended. -/
def lastWrite (p : Nat) : List (DiskCall × DiskOutcome) → Option (Page × DiskOutcome)
  | [] => none
  | (call, outcome) :: history =>
      (lastWrite p history).or ((call.written p).map fun page => (page, outcome))

/-- Every system call moves something or is interrupted, as POSIX has it for a regular
file that no error befalls. -/
def Unfailing (results : List SysResult) : Prop :=
  ∀ r, r ∈ results → r = .interrupted ∨ ∃ k, 0 < k ∧ r = .moved k

/-! ## The meaning of a call -/

/-- A call on an array of `N` pages. -/
inductive PageStep (N : Nat) (disk : Nat → Page) :
    DiskCall → DiskOutcome → (Nat → Page) → Prop where
  | read {p : Nat} {into : Page} {results : List SysResult} (hp : p < N) :
      PageStep N disk (.read p into results) (.read (disk p)) disk
  | write {p : Nat} {page : Page} {results : List SysResult} (hp : p < N) :
      PageStep N disk (.write p page results) .written (Function.update disk p page)
  | readThrows {p : Nat} {into : Page} {results : List SysResult} (e : Error) :
      PageStep N disk (.read p into results) (.threw e) disk
  | writeThrows {p k : Nat} {page : Page} {results : List SysResult} (e : Error)
      (hk : k < kPageSize) (hp : k = 0 ∨ p < N) :
      PageStep N disk (.write p page results) (.threw e)
        (Function.update disk p (Page.overwrite k page (disk p)))

theorem Page.bytes_of_lt (page : Page) {i : Nat} (hi : i < kPageSize) :
    page.bytes i = page.data ⟨i, hi⟩ := dif_pos hi

variable {options : DiskManagerOptions}

theorem pageAt_write {file : File} {p k : Nat} {page : Page} :
    pageAt options (file.write (options.pageStart p) k page.bytes) p =
      Page.overwrite k page (pageAt options file p) := by
  refine Page.ext (funext fun j => ?_)
  rw [Page.overwrite_data]
  simp only [pageAt, File.write_byte]
  refine if_congr (by omega) ?_ rfl
  rw [Nat.add_sub_cancel_left, Page.bytes_of_lt page j.isLt]

theorem pageAt_write_of_ne {file : File} {p q k : Nat} {data : Buffer} (hk : k ≤ kPageSize)
    (hne : q ≠ p) :
    pageAt options (file.write (options.pageStart p) k data) q = pageAt options file q := by
  refine Page.ext (funext fun j => ?_)
  simp only [pageAt, File.write_byte]
  have hj := j.isLt
  have hdisjoint : options.pageStart q + kPageSize ≤ options.pageStart p ∨
      options.pageStart p + kPageSize ≤ options.pageStart q :=
    DiskManagerOptions.pageStart_disjoint hne
  rcases hdisjoint with hle | hle
  · rw [if_neg (by omega)]
  · rw [if_neg (by omega)]

theorem Page.overwrite_all (new old : Page) : Page.overwrite kPageSize new old = new :=
  Page.ext (funext fun j => if_pos j.isLt)

/-- The pages of the file after the first bytes of one have been written. -/
theorem pageAt_write_eq_update (file : File) (p : Nat) {k : Nat} (page : Page)
    (hk : k ≤ kPageSize) :
    pageAt options (file.write (options.pageStart p) k page.bytes) =
      Function.update (pageAt options file) p (Page.overwrite k page (pageAt options file p)) := by
  funext q
  by_cases hq : q = p
  · subst hq
    rw [Function.update_self, pageAt_write]
  · rw [Function.update_of_ne hq, pageAt_write_of_ne hk hq]

/-- A call on the file is a call on the pages in it. -/
theorem DiskCall.run_pageStep (hvalid : options.Valid) (file : File) (call : DiskCall) :
    PageStep options.maxPageCount.toNat (pageAt options file) call (call.run options file).1
      (pageAt options (call.run options file).2) := by
  cases call with
  | read p into results =>
    have hread := readPage_wp hvalid file p results into
    unfold wp at hread
    rw [run]
    cases hrun : readPage options file p results into with
    | ok u page =>
      rw [hrun] at hread
      obtain ⟨hp, -, rfl⟩ := hread
      exact .read hp
    | error e page => exact .readThrows e
  | write p page results =>
    have hwrite := writePage_wp hvalid file p page results
    unfold wp at hwrite
    rw [run]
    cases hrun : writePage options p page results file with
    | ok u file' =>
      rw [hrun] at hwrite
      obtain ⟨hp, rfl⟩ := hwrite
      dsimp only
      rw [pageAt_write_eq_update file p page le_rfl, Page.overwrite_all]
      exact .write hp
    | error e file' =>
      rw [hrun] at hwrite
      obtain ⟨-, k, hp, hk, rfl⟩ := hwrite
      dsimp only
      rw [pageAt_write_eq_update file p page hk.le]
      exact .writeThrows e hk hp

/-- What a call does to the bytes of the file: it writes the first ones of a page, if any. -/
theorem DiskCall.run_file (hvalid : options.Valid) (file : File) (call : DiskCall) :
    (call.run options file).2 = file ∨ ∃ p k, ∃ page : Page, p < options.maxPageCount.toNat ∧
      k ≤ kPageSize ∧
      (call.run options file).2 = file.write (options.pageStart p) k page.bytes := by
  cases call with
  | read p into results =>
    rw [run]
    split <;> exact Or.inl rfl
  | write p page results =>
    have hwrite := writePage_wp hvalid file p page results
    unfold wp at hwrite
    rw [run]
    cases hrun : writePage options p page results file with
    | ok u file' =>
      rw [hrun] at hwrite
      exact Or.inr ⟨p, kPageSize, page, hwrite.1, le_rfl, hwrite.2⟩
    | error e file' =>
      rw [hrun] at hwrite
      obtain ⟨-, k, hzero | hp, hk, rfl⟩ := hwrite
      · exact Or.inl (by rw [hzero, File.write_zero])
      · exact Or.inr ⟨p, k, page, hp, hk.le, rfl⟩

/-- The header is in front of all pages. -/
theorem DiskCall.run_header (hvalid : options.Valid) (file : File) (call : DiskCall) {i : Nat}
    (hi : i < options.headerSize.toNat) : (call.run options file).2.byte i = file.byte i := by
  rcases call.run_file hvalid file with hfile | ⟨p, k, page, -, -, hfile⟩
  · rw [hfile]
  · rw [hfile, File.write_byte, if_neg]
    rintro ⟨hle, -⟩
    rw [DiskManagerOptions.pageStart] at hle
    omega

/-! ## Results without errors -/

theorem writeAborts_of_unfailing {left : Nat} {results : List SysResult}
    (h : Unfailing results) : writeAborts left results = false := by
  fun_induction writeAborts left results with
  | case1 => rfl
  | case2 => rfl
  | case3 left rs ih => exact ih fun r hr => h r (List.mem_cons_of_mem _ hr)
  | case4 left reason rs =>
    obtain hr | ⟨k, -, hr⟩ := h _ List.mem_cons_self
    · cases hr
    · cases hr
  | case5 left k rs ih =>
    rw [ih fun r hr => h r (List.mem_cons_of_mem _ hr), Bool.or_false, beq_eq_false_iff_ne]
    obtain hr | ⟨k', hpos, hr⟩ := h _ List.mem_cons_self
    · cases hr
    · cases hr
      omega

theorem readAborts_of_unfailing {left available : Nat} {results : List SysResult}
    (h : Unfailing results) : readAborts left available results = false := by
  fun_induction readAborts left available results with
  | case1 => rfl
  | case2 => rfl
  | case3 left available rs ih => exact ih fun r hr => h r (List.mem_cons_of_mem _ hr)
  | case4 left available reason rs =>
    obtain hr | ⟨k, -, hr⟩ := h _ List.mem_cons_self
    · cases hr
    · cases hr
  | case5 left available k rs count ih =>
    rw [ih fun r hr => h r (List.mem_cons_of_mem _ hr), Bool.and_false]

end BufferManager
