/-
  Guarantees/DiskPages.lean --- a page that is read is the page that was written last.

  The calls on one `DiskManager` may be any, with any results of their system calls.
  Between two writes of a page, calls on other pages leave it alone; what the results
  are only decides whether a call throws, and how much of its page a write that throws
  has replaced.
-/
import BufferManager.Storage.PageArray

set_option autoImplicit false

namespace BufferManager

open BufferManager.Lib

variable {options : DiskManagerOptions}

namespace PageStep

variable {N : Nat} {disk disk' : Nat → Page} {call : DiskCall} {outcome : DiskOutcome}

/-- A call that does not write page `p` leaves it as it is. -/
theorem eq_of_written (h : PageStep N disk call outcome disk') {p : Nat}
    (hp : call.written p = none) : disk' p = disk p := by
  cases h with
  | read => rfl
  | readThrows => rfl
  | write =>
    refine Function.update_of_ne ?_ _ _
    rintro rfl
    simp [DiskCall.written] at hp
  | writeThrows =>
    refine Function.update_of_ne ?_ _ _
    rintro rfl
    simp [DiskCall.written] at hp

/-- A read that returns gives the page that is there. -/
theorem page_eq {p : Nat} {into page : Page} {results : List SysResult}
    (h : PageStep N disk (.read p into results) (.read page) disk') : page = disk p := by
  cases h with
  | read => rfl

/-- A call that writes page `p` and returns leaves there what it was given. -/
theorem eq_page (h : PageStep N disk call .written disk') {p : Nat} {page : Page}
    (hp : call.written p = some page) : disk' p = page := by
  cases h with
  | write =>
    simp only [DiskCall.written] at hp
    split at hp
    · next heq =>
      subst heq
      rw [Function.update_self]
      exact Option.some.inj hp
    · cases hp

end PageStep

/-- After any calls a page holds what the last write of it was given, if that returned,
and what it held at first if there was none. -/
theorem pageAt_runCalls (hvalid : options.Valid) (calls : List DiskCall) (file : File) (p : Nat) :
    (∀ page, lastWrite p (runCalls options file calls).1 = some (page, .written) →
      pageAt options (runCalls options file calls).2 p = page) ∧
    (lastWrite p (runCalls options file calls).1 = none →
      pageAt options (runCalls options file calls).2 p = pageAt options file p) := by
  induction calls generalizing file with
  | nil => exact ⟨by simp [runCalls, lastWrite], fun _ => rfl⟩
  | cons call calls ih =>
    have hstep := call.run_pageStep hvalid file
    obtain ⟨hsome, hnone⟩ := ih (call.run options file).2
    simp only [runCalls, lastWrite]
    cases hlast : lastWrite p (runCalls options (call.run options file).2 calls).1 with
    | some last =>
      rw [hlast] at hsome
      exact ⟨by simpa using hsome, by simp⟩
    | none =>
      rw [hnone hlast, Option.none_or]
      cases hwritten : call.written p with
      | none => exact ⟨by simp, fun _ => hstep.eq_of_written hwritten⟩
      | some page =>
        refine ⟨fun page' hpage => ?_, by simp⟩
        obtain ⟨rfl, hdone⟩ := Prod.mk.inj (Option.some.inj hpage)
        rw [hdone] at hstep
        exact hstep.eq_page hwritten

/-- A call of `ReadPage` whose system calls do not fail returns. -/
theorem DiskCall.read_returns (hvalid : options.Valid) (hfits : options.fileSize ≤ maxOffset)
    (file : File) {p : Nat} (hp : p < options.maxPageCount.toNat) (into : Page)
    {results : List SysResult} (hresults : Unfailing results) :
    ∃ page, ((DiskCall.read p into results).run options file).1 = .read page := by
  have hread := readPage_wp hvalid file p results into
  unfold wp at hread
  rw [run]
  cases hrun : readPage options file p results into with
  | ok u page => exact ⟨page, rfl⟩
  | error e page =>
    rw [hrun] at hread
    have hle := DiskManagerOptions.pageStart_le hp
    have haborts := hread hp (by omega)
    rw [readAborts_of_unfailing hresults] at haborts
    cases haborts

/-- A call of `WritePage` whose system calls do not fail returns. -/
theorem DiskCall.write_returns (hvalid : options.Valid) (hfits : options.fileSize ≤ maxOffset)
    (file : File) {p : Nat} (hp : p < options.maxPageCount.toNat) (page : Page)
    {results : List SysResult} (hresults : Unfailing results) :
    ((DiskCall.write p page results).run options file).1 = .written := by
  have hwrite := writePage_wp hvalid file p page results
  unfold wp at hwrite
  rw [run]
  cases hrun : writePage options p page results file with
  | ok u file' => rfl
  | error e file' =>
    rw [hrun] at hwrite
    have haborts := hwrite.1 hp hfits
    rw [writeAborts_of_unfailing hresults] at haborts
    cases haborts

/-- A `WritePage` that throws has put a prefix of the page into its place. -/
theorem DiskCall.write_throws (hvalid : options.Valid) {file : File} {p : Nat} {page : Page}
    {results : List SysResult} {e : Error}
    (h : ((DiskCall.write p page results).run options file).1 = .threw e) :
    ∃ k, k < kPageSize ∧ (k = 0 ∨ p < options.maxPageCount.toNat) ∧
      ((DiskCall.write p page results).run options file).2 =
        file.write (options.pageStart p) k page.bytes := by
  have hwrite := writePage_wp hvalid file p page results
  unfold wp at hwrite
  rw [run] at h ⊢
  cases hrun : writePage options p page results file with
  | ok u file' =>
    rw [hrun] at h
    cases h
  | error e' file' =>
    rw [hrun] at hwrite
    obtain ⟨-, k, hp, hk, hfile⟩ := hwrite
    exact ⟨k, hk, hp, hfile⟩

/-- A `DiskManager` whose file fits `off_t`, after any calls.  A `ReadPage` that returns
gives what the last `WritePage` of the page was given, or what the page held at first; it
returns if its system calls do not fail.  A `WritePage` leaves the header and the other
pages alone, and one that throws has written a prefix of its page. -/
theorem diskManager_pages (haccepted : options.validateOptions = .ok ())
    (hfits : options.fileSize ≤ maxOffset) (file₀ : File) (calls : List DiskCall) :
    let history := (runCalls options file₀ calls).1
    let file := (runCalls options file₀ calls).2
    (∀ p into results, let outcome := ((DiskCall.read p into results).run options file).1
      (∀ page, outcome = .read page →
        (∀ page', lastWrite p history = some (page', .written) → page = page') ∧
        (lastWrite p history = none → page = pageAt options file₀ p)) ∧
      (p < options.maxPageCount.toNat → Unfailing results → ∃ page, outcome = .read page)) ∧
    ∀ p page results, let ended := (DiskCall.write p page results).run options file
      (∀ q, q ≠ p → pageAt options ended.2 q = pageAt options file q) ∧
      (∀ i, i < options.headerSize.toNat → ended.2.byte i = file.byte i) ∧
      (∀ e, ended.1 = .threw e → ∃ k, k < kPageSize ∧
        (k = 0 ∨ p < options.maxPageCount.toNat) ∧
        ended.2 = file.write (options.pageStart p) k page.bytes) ∧
      (p < options.maxPageCount.toNat → Unfailing results → ended.1 = .written) := by
  have hvalid := options.valid_of_validateOptions haccepted
  intro history file
  constructor
  · intro p into results outcome
    refine ⟨fun page hpage => ?_, fun hp => DiskCall.read_returns hvalid hfits file hp into⟩
    obtain ⟨hsome, hnone⟩ := pageAt_runCalls hvalid calls file₀ p
    have hstep := (DiskCall.read p into results).run_pageStep hvalid file
    have hheld : page = pageAt options file p := by
      rw [show ((DiskCall.read p into results).run options file).1 = .read page from hpage] at hstep
      exact hstep.page_eq
    rw [hheld]
    exact ⟨hsome, hnone⟩
  · intro p page results ended
    refine ⟨fun q hne => ?_, fun i hi => DiskCall.run_header hvalid file _ hi,
      fun e he => DiskCall.write_throws hvalid he,
      fun hp hresults => DiskCall.write_returns hvalid hfits file hp page hresults⟩
    refine ((DiskCall.write p page results).run_pageStep hvalid file).eq_of_written ?_
    rw [DiskCall.written, if_neg hne.symm]

/-- Two pages behind one page of header, the second written and read with short transfers. -/
theorem diskManager_pages_two :
    let options : DiskManagerOptions := { path := "pages", maxPageCount := 2 }
    let ones : Page := ⟨fun _ => 1⟩
    let calls : List DiskCall := [.write 1 ones [.moved 1, .interrupted]]
    lastWrite 1 (runCalls options File.empty calls).1 = some (ones, .written) ∧
    ∀ page, ((DiskCall.read 1 Page.zero [.moved 7]).run options
      (runCalls options File.empty calls).2).1 = .read page → page = ones := by
  intro options ones calls
  have hvalid : options.Valid := ⟨rfl, by decide, by decide, by decide, by decide⟩
  have haccepted := options.validateOptions_ok hvalid
  have hfits : options.fileSize ≤ maxOffset := by decide
  have hresults : Unfailing [.moved 1, .interrupted] := by
    simp [Unfailing]
  have hreturns := DiskCall.write_returns hvalid hfits File.empty
    (by decide : 1 < options.maxPageCount.toNat) ones hresults
  have hlast : lastWrite 1 (runCalls options File.empty calls).1 = some (ones, .written) := by
    simp [calls, runCalls, lastWrite, DiskCall.written, hreturns]
  have hread := (diskManager_pages haccepted hfits File.empty calls).1 1 Page.zero [.moved 7]
  exact ⟨hlast, fun page hpage => (hread.1 page hpage).1 _ hlast⟩

end BufferManager
