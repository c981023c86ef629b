/-
  Storage/Turns.lean --- `ReadPage` and `WritePage`, a system call at a time.

  Source: `src/storage/disk_manager.cc`, `ReadAtMost`, `WriteFully`, `ReadPage` and
  `WritePage`.

  What `Storage/Transfer.lean` runs from beginning to end is cut here where other threads
  can come between: before the loop, and after each turn of it.
-/
import BufferManager.Storage.PageArray

set_option autoImplicit false

namespace BufferManager

open BufferManager.Lib

/-! ## The loop -/

/-- One turn of the loop of `ReadAtMost` and `WriteFully`, with `total` bytes moved before it:
what has been moved after it, or nothing where the loop is left. -/
def transferTurn {σ : Type} (size offset : Nat) (call : String) (onZero : EStateM Error σ Unit)
    (move : (offset total left k : Nat) → σ → Nat × σ) (result : SysResult) (total : Nat) :
    EStateM Error σ (Option Nat) :=
  if total < size then do
    let currentOffset ← liftExcept (checkedAdd offset total)
    let position ← liftExcept (checkedOffset currentOffset)
    match result with
    | .interrupted => return some total
    | .failed reason => throw ⟨.runtimeError, call ++ ": " ++ reason⟩
    | .moved k => do
        let count ← modifyGet (move position total (size - total) k)
        if count = 0 then do
          onZero
          return none
        else return some (total + count)
  else return none

/-- The loop is its turns. -/
theorem transferLoop_succ {σ : Type} (size offset : Nat) (call : String)
    (onZero : EStateM Error σ Unit) (move : (offset total left k : Nat) → σ → Nat × σ)
    (turns : Nat) (results : List SysResult) (total : Nat) :
    transferLoop size offset call onZero move (turns + 1) results total =
      transferTurn size offset call onZero move (results.headD (.moved size)) total >>=
        fun next => next.elim (pure ())
          (transferLoop size offset call onZero move turns results.tail) := by
  rw [transferLoop, transferTurn]
  split
  · simp only [bind_assoc]
    congr 1
    funext currentOffset
    congr 1
    funext position
    cases results.headD (.moved size) with
    | interrupted => rfl
    | failed reason => rfl
    | moved k =>
      dsimp only
      rw [bind_assoc]
      congr 1
      funext count
      split
      · rw [bind_assoc]
        exact (bind_pure onZero).symm
      · rfl
  · rfl

/-- A turn of `ReadAtMost` on a page. -/
def readTurn (file : File) (offset : Nat) (result : SysResult) (total : Nat) :
    EStateM Error Buffer (Option Nat) :=
  transferTurn kPageSize offset "pread failed" (pure ()) (pread file) result total

/-- A turn of `WriteFully` on a page. -/
def writeTurn (data : Buffer) (offset : Nat) (result : SysResult) (total : Nat) :
    EStateM Error File (Option Nat) :=
  transferTurn kPageSize offset "pwrite failed" (throw ⟨.runtimeError, "pwrite wrote zero bytes"⟩)
    (pwrite data) result total

/-- The rule for a turn. -/
theorem transferTurn_wp {σ : Type} {size offset total : Nat} {call : String}
    {onZero : EStateM Error σ Unit} {move : (offset total left k : Nat) → σ → Nat × σ}
    {result : SysResult} {Q : Option Nat → σ → Prop} {E : Error → σ → Prop} {s : σ}
    (hthrows : ∀ e, E e s) (hinterrupted : total < size → Q (some total) s)
    (hdone : ¬ total < size → Q none s)
    (hmoved : ∀ k, total < size →
      ((move (offset + total) total (size - total) k s).1 = 0 →
        wp onZero (fun _ => Q none) E (move (offset + total) total (size - total) k s).2) ∧
      ((move (offset + total) total (size - total) k s).1 ≠ 0 →
        Q (some (total + (move (offset + total) total (size - total) k s).1))
          (move (offset + total) total (size - total) k s).2)) :
    wp (transferTurn size offset call onZero move result total) Q E s := by
  rw [transferTurn, wp_ite]
  split
  · next hlt =>
    rw [wp_bind, checkedAdd]
    split
    · exact hthrows _
    · rw [show (return offset + total : Except Error Nat) = .ok (offset + total) from rfl,
        wp_liftExcept_ok, wp_bind, checkedOffset]
      split
      · exact hthrows _
      · rw [show (return offset + total : Except Error Nat) = .ok (offset + total) from rfl,
          wp_liftExcept_ok]
        cases result with
        | interrupted => exact hinterrupted hlt
        | failed reason => exact hthrows _
        | moved k =>
          obtain ⟨hzero, hsome⟩ := hmoved k hlt
          simp only [wp_bind, wp_modifyGet, wp_ite]
          split
          · next hcount => exact hzero hcount
          · next hcount => exact hsome hcount
  · next hge => exact hdone hge

theorem pread_snd (file : File) (offset total left k : Nat) (out : Buffer) (i : Nat) :
    (pread file offset total left k out).2 i =
      if total ≤ i ∧ i < total + (pread file offset total left k out).1 then
        file.byte (offset + (i - total)) else out i := rfl

/-- A turn of a read puts the next bytes of the file behind those that are there; the loop is
left with all bytes, or at the end of the file. -/
theorem readTurn_wp (file : File) (offset : Nat) (result : SysResult) (total : Nat)
    (b : Buffer) :
    wp (readTurn file offset result total)
      (fun next b' =>
        (∀ total', next = some total' → total ≤ total' ∧ total' ≤ kPageSize ∧
          ∀ i, b' i = if total ≤ i ∧ i < total' then file.byte (offset + i) else b i) ∧
        (next = none → b' = b ∧ (kPageSize ≤ total ∨ file.size ≤ offset + total)))
      (fun _ b' => b' = b) b := by
  refine transferTurn_wp (fun _ => rfl) (fun hlt => ?_) (fun hge => ?_)
    fun k hlt => ⟨fun hzero => ?_, fun _ => ?_⟩
  · refine ⟨fun total' h => ?_, fun h => by cases h⟩
    obtain rfl := Option.some.inj h
    exact ⟨le_rfl, hlt.le, fun i => (if_neg (by omega)).symm⟩
  · exact ⟨fun total' h => (by cases h), fun _ => ⟨rfl, Or.inl (not_lt.mp hge)⟩⟩
  · refine ⟨fun total' h => (by cases h), fun _ => ⟨funext fun i => ?_, Or.inr ?_⟩⟩
    · have hcount : readCount file (offset + total) (kPageSize - total) k = 0 := hzero
      simp only [pread]
      rw [hcount, if_neg (by omega)]
    · simp only [pread, readCount] at hzero
      omega
  · refine ⟨fun total' h => ?_, fun h => by cases h⟩
    obtain rfl := Option.some.inj h
    refine ⟨by omega, ?_, fun i => ?_⟩
    · simp only [pread, readCount]
      omega
    · rw [pread_snd]
      split
      · congr 1
        omega
      · rfl

/-- A turn of a write puts the next bytes into the file; one that writes none throws, and the
loop is left with all bytes written. -/
theorem writeTurn_wp (data : Buffer) (offset : Nat) (result : SysResult) (total : Nat)
    (file : File) :
    wp (writeTurn data offset result total)
      (fun next file' =>
        (∀ total', next = some total' → total ≤ total' ∧ total' ≤ kPageSize ∧
          ∀ i, file'.byte (offset + i) =
            if total ≤ i ∧ i < total' then data i else file.byte (offset + i)) ∧
        (∀ i, i < offset → file'.byte i = file.byte i) ∧
        (∀ i, offset + kPageSize ≤ i → file'.byte i = file.byte i) ∧
        (next = none → file' = file ∧ kPageSize ≤ total))
      (fun _ file' => file' = file) file := by
  refine transferTurn_wp (fun _ => rfl) (fun hlt => ?_) (fun hge => ?_)
    fun k hlt => ⟨fun hzero => ?_, fun _ => ?_⟩
  · refine ⟨fun total' h => ?_, fun _ _ => rfl, fun _ _ => rfl, fun h => by cases h⟩
    obtain rfl := Option.some.inj h
    exact ⟨le_rfl, hlt.le, fun i => (if_neg (by omega)).symm⟩
  · exact ⟨fun total' h => (by cases h), fun _ _ => rfl, fun _ _ => rfl,
      fun _ => ⟨rfl, not_lt.mp hge⟩⟩
  · have hcount : min k (kPageSize - total) = 0 := hzero
    rw [wp_throw]
    simp only [pwrite]
    rw [hcount, File.write_zero]
  · simp only [pwrite]
    refine ⟨fun total' h => ?_, fun i hi => ?_, fun i hi => ?_, fun h => by cases h⟩
    · obtain rfl := Option.some.inj h
      refine ⟨by omega, by omega, fun i => ?_⟩
      rw [File.write_byte]
      by_cases hin : total ≤ i ∧ i < total + min k (kPageSize - total)
      · rw [if_pos (by omega), if_pos hin]
        congr 1
        omega
      · rw [if_neg (by omega), if_neg hin]
    · rw [File.write_byte, if_neg (by omega)]
    · rw [File.write_byte, if_neg (by omega)]

section Pages

variable {options : DiskManagerOptions} {file file' : File} {p total total' : Nat} {page : Page}

theorem Page.overwrite_zero (new old : Page) : Page.overwrite 0 new old = old :=
  Page.ext (funext fun j => by rw [Page.overwrite_data, if_neg (Nat.not_lt_zero _)])

theorem Page.ofBytes_bytes (page : Page) : Page.ofBytes page.bytes = page :=
  Page.ext (funext fun j => page.bytes_of_lt j.isLt)

/-- After a turn of a read there is more of the file's page in the frame. -/
theorem ofBytes_moved {b : Buffer}
    (hpage : page = Page.overwrite total (pageAt options file p) Page.zero) (hle : total ≤ total')
    (hb : ∀ i, b i = if total ≤ i ∧ i < total' then file.byte (options.pageStart p + i)
      else page.bytes i) :
    Page.ofBytes b = Page.overwrite total' (pageAt options file p) Page.zero := by
  refine Page.ext (funext fun j => ?_)
  rw [Page.overwrite_data]
  change b j = _
  rw [hb, page.bytes_of_lt j.isLt, hpage, Page.overwrite_data]
  by_cases hj : j.val < total
  · rw [if_neg (by omega), if_pos hj, if_pos (by omega)]
  · by_cases hj' : j.val < total'
    · rw [if_pos ⟨by omega, hj'⟩, if_pos hj']
      rfl
    · rw [if_neg (by omega), if_neg hj, if_neg hj']

/-- Where a read ends, the frame holds the file's page; behind the end of the file both are
zero. -/
theorem eq_pageAt_of_ended
    (hpage : page = Page.overwrite total (pageAt options file p) Page.zero)
    (hend : kPageSize ≤ total ∨ file.size ≤ options.pageStart p + total) :
    page = pageAt options file p := by
  refine Page.ext (funext fun j => ?_)
  rw [hpage, Page.overwrite_data]
  split
  · rfl
  · next hj =>
    have hlt := j.isLt
    exact (file.zero_beyond (options.pageStart p + j) (by omega)).symm

/-- After a turn of a write there is more of the frame in the file. -/
theorem pageAt_moved (hle : total ≤ total')
    (hwritten : ∀ j : Fin kPageSize, j.val < total → (pageAt options file p).data j = page.data j)
    (hbyte : ∀ i, file'.byte (options.pageStart p + i) =
      if total ≤ i ∧ i < total' then page.bytes i else file.byte (options.pageStart p + i)) :
    pageAt options file' p = Page.overwrite total' page (pageAt options file p) := by
  refine Page.ext (funext fun j => ?_)
  rw [Page.overwrite_data]
  change file'.byte (options.pageStart p + j) = _
  rw [hbyte, page.bytes_of_lt j.isLt]
  by_cases hj : j.val < total
  · rw [if_neg (by omega), if_pos (by omega)]
    exact hwritten j hj
  · by_cases hj' : j.val < total'
    · rw [if_pos ⟨by omega, hj'⟩, if_pos hj']
    · rw [if_neg (by omega), if_neg hj']
      rfl

/-- The other pages of the file are as before. -/
theorem pageAt_outside (hbelow : ∀ i, i < options.pageStart p → file'.byte i = file.byte i)
    (habove : ∀ i, options.pageStart p + kPageSize ≤ i → file'.byte i = file.byte i) {q : Nat}
    (hq : q ≠ p) : pageAt options file' q = pageAt options file q := by
  refine Page.ext (funext fun j => ?_)
  have hj := j.isLt
  have hdisjoint : options.pageStart q + kPageSize ≤ options.pageStart p ∨
      options.pageStart p + kPageSize ≤ options.pageStart q :=
    DiskManagerOptions.pageStart_disjoint hq
  rcases hdisjoint with hle | hle
  · exact hbelow _ (by omega)
  · exact habove _ (by omega)

end Pages

/-! ## Before the loop -/

/-- `ReadPage` before its loop: the offset of the page, whose bytes are zero now. -/
def beginRead (options : DiskManagerOptions) (pageId : Nat) : EStateM Error Page Nat := do
  liftExcept (options.validatePageId pageId)
  set Page.zero
  liftExcept (options.offsetForPage pageId)

/-- `WritePage` before its loop. -/
def beginWrite (options : DiskManagerOptions) (pageId : Nat) : Except Error Nat := do
  options.validatePageId pageId
  options.offsetForPage pageId

/-- `ReadPage` is what comes before the loop, and the loop. -/
theorem readPage_eq (options : DiskManagerOptions) (file : File) (p : Nat)
    (results : List SysResult) : readPage options file p results =
      beginRead options p >>= fun offset => onPage (readAtMost file kPageSize offset results) := by
  simp only [readPage, beginRead, bind_assoc]

/-- `WritePage` is what comes before the loop, and the loop. -/
theorem writePage_eq (options : DiskManagerOptions) (p : Nat) (page : Page)
    (results : List SysResult) : writePage options p page results =
      liftExcept (beginWrite options p) >>=
        fun offset => writeFully page.bytes kPageSize offset results := by
  rw [writePage, beginWrite]
  cases options.validatePageId p with
  | error e => rfl
  | ok u => rfl

theorem offsetForPage_eq_ok {options : DiskManagerOptions} {p offset : Nat}
    (h : options.offsetForPage p = .ok offset) : offset = options.pageStart p := by
  unfold DiskManagerOptions.offsetForPage at h
  cases hvalid : options.validatePageId p with
  | error e =>
    rw [hvalid] at h
    cases h
  | ok u =>
    rw [hvalid] at h
    cases hmul : checkedMul p kPageSize with
    | error e =>
      replace h : (checkedMul p kPageSize >>= checkedAdd options.headerSize.toNat) = .ok offset := h
      rw [hmul] at h
      cases h
    | ok x =>
      replace h : (checkedMul p kPageSize >>= checkedAdd options.headerSize.toNat) = .ok offset := h
      rw [hmul] at h
      obtain ⟨rfl, hle⟩ := checkedMul_eq_ok hmul
      exact (checkedAdd_eq_ok hle h).1

/-- The loop of a read begins with a page of zeros, at its place in the file. -/
theorem beginRead_ok {options : DiskManagerOptions} {p offset : Nat} {page page' : Page}
    (h : beginRead options p page = .ok offset page') :
    offset = options.pageStart p ∧ page' = Page.zero := by
  have hbegin : wp (beginRead options p)
      (fun offset page' => options.offsetForPage p = .ok offset ∧ page' = Page.zero)
      (fun _ _ => True) page := by
    rw [beginRead, wp_bind]
    cases options.validatePageId p with
    | error e => trivial
    | ok u =>
      rw [wp_liftExcept_ok, wp_bind, wp_set]
      cases hoffset : options.offsetForPage p with
      | error e => trivial
      | ok offset => exact ⟨rfl, rfl⟩
  obtain ⟨hoffset, hpage⟩ := hbegin.ok h
  exact ⟨offsetForPage_eq_ok hoffset, hpage⟩

theorem beginWrite_eq_ok {options : DiskManagerOptions} {p offset : Nat}
    (h : beginWrite options p = .ok offset) : offset = options.pageStart p := by
  unfold beginWrite at h
  cases hvalid : options.validatePageId p with
  | error e =>
    rw [hvalid] at h
    cases h
  | ok u =>
    rw [hvalid] at h
    exact offsetForPage_eq_ok h

end BufferManager
