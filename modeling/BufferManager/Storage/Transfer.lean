/-
  Storage/Transfer.lean --- `pread`, `pwrite` and the loops around them.

  Source: `src/storage/disk_manager.cc`, `CheckedAdd` to `WriteFully`.

  The environment says how each system call ends: it is interrupted, it fails, or it
  moves a number of bytes, of which a `pread` takes as many as there are, and at least
  one before the end of the file.  `results` lists how the calls of one transfer end;
  those behind the list move all they can.  So every list is a schedule that POSIX
  allows, and every finite one is listed.
-/
import BufferManager.Lib.ErrorState
import BufferManager.Lib.RegularFile
import BufferManager.Types

set_option autoImplicit false

namespace BufferManager

open BufferManager.Lib

/-! ## Checked arithmetic -/

/-- `std::numeric_limits<std::uint64_t>::max()`. -/
def maxUInt64 : Nat := 2 ^ 64 - 1

/-- `std::numeric_limits<off_t>::max()`. -/
def maxOffset : Nat := 2 ^ 63 - 1

/-- `CheckedAdd`. -/
def checkedAdd (lhs rhs : Nat) : Except Error Nat :=
  if lhs > maxUInt64 - rhs then throw ⟨.overflowError, "uint64 addition overflow"⟩
  else return lhs + rhs

/-- `CheckedMul`. -/
def checkedMul (lhs rhs : Nat) : Except Error Nat :=
  if lhs ≠ 0 ∧ rhs > maxUInt64 / lhs then
    throw ⟨.overflowError, "uint64 multiplication overflow"⟩
  else return lhs * rhs

/-- `CheckedOffset`. -/
def checkedOffset (offset : Nat) : Except Error Nat :=
  if offset > maxOffset then throw ⟨.overflowError, "file offset does not fit into off_t"⟩
  else return offset

theorem checkedAdd_ok {lhs rhs : Nat} (h : lhs + rhs ≤ maxUInt64) :
    checkedAdd lhs rhs = .ok (lhs + rhs) := if_neg (by omega)

theorem checkedAdd_eq_ok {lhs rhs x : Nat} (hr : rhs ≤ maxUInt64) (h : checkedAdd lhs rhs = .ok x) :
    x = lhs + rhs ∧ lhs + rhs ≤ maxUInt64 := by
  unfold checkedAdd at h
  split at h
  · cases h
  · obtain rfl := Except.ok.inj h
    exact ⟨rfl, by omega⟩

theorem checkedMul_ok {lhs rhs : Nat} (h : lhs * rhs ≤ maxUInt64) :
    checkedMul lhs rhs = .ok (lhs * rhs) := by
  refine if_neg ?_
  rintro ⟨hne, hgt⟩
  rw [gt_iff_lt, Nat.div_lt_iff_lt_mul (Nat.pos_of_ne_zero hne), Nat.mul_comm] at hgt
  omega

theorem checkedMul_eq_ok {lhs rhs x : Nat} (h : checkedMul lhs rhs = .ok x) :
    x = lhs * rhs ∧ lhs * rhs ≤ maxUInt64 := by
  unfold checkedMul at h
  split at h
  · cases h
  · next hfits =>
    obtain rfl := Except.ok.inj h
    refine ⟨rfl, ?_⟩
    by_cases hzero : lhs = 0
    · simp [hzero]
    · have hle : rhs ≤ maxUInt64 / lhs := by
        by_contra hgt
        exact hfits ⟨hzero, by omega⟩
      rw [Nat.le_div_iff_mul_le (Nat.pos_of_ne_zero hzero), Nat.mul_comm] at hle
      exact hle

theorem checkedOffset_ok {offset : Nat} (h : offset ≤ maxOffset) :
    checkedOffset offset = .ok offset := if_neg (by omega)

/-! ## System calls -/

/-- How one `pread` or `pwrite` ends: with `EINTR`, with another error, which `strerror`
describes, or with some bytes moved. -/
inductive SysResult where
  | interrupted
  | failed (reason : String)
  | moved (count : Nat)
  deriving DecidableEq, Repr

/-- Memory from the address a transfer is given. -/
abbrev Buffer := Nat → UInt8

/-- The bytes a `pread` of `left` bytes at `offset` moves that is asked to move `k`. -/
def readCount (file : File) (offset left k : Nat) : Nat :=
  min (max 1 k) (min left (file.size - offset))

/-- `pread(fd, out + total, left, offset)`. -/
def pread (file : File) (offset total left k : Nat) (out : Buffer) : Nat × Buffer :=
  let count := readCount file offset left k
  (count, fun i =>
    if total ≤ i ∧ i < total + count then file.byte (offset + (i - total)) else out i)

/-- `pwrite(fd, in + total, left, offset)`. -/
def pwrite (data : Buffer) (offset total left k : Nat) (file : File) : Nat × File :=
  let count := min k left
  (count, file.write offset count fun i => data (total + i))

/-! ## The loops -/

/-- The loop of `ReadAtMost` and `WriteFully`, for at most `turns` turns: `move` is the
system call on what is left, named `call` in its error, and `onZero` is what the loop
does where it moves nothing.  A turn moves a byte, uses up a listed result, or ends the
loop, so `results.length + size + 1` turns are enough. -/
def transferLoop {σ : Type} (size offset : Nat) (call : String) (onZero : EStateM Error σ Unit)
    (move : (offset total left k : Nat) → σ → Nat × σ) :
    (turns : Nat) → List SysResult → (total : Nat) → EStateM Error σ Unit
  | 0, _, _ => pure ()
  | turns + 1, results, total =>
      if total < size then do
        let currentOffset ← liftExcept (checkedAdd offset total)
        let position ← liftExcept (checkedOffset currentOffset)
        match results.headD (.moved size) with
        | .interrupted => transferLoop size offset call onZero move turns results.tail total
        | .failed reason => throw ⟨.runtimeError, call ++ ": " ++ reason⟩
        | .moved k => do
            let count ← modifyGet (move position total (size - total) k)
            if count = 0 then onZero
            else transferLoop size offset call onZero move turns results.tail (total + count)
      else pure ()

/-- `ReadAtMost`. -/
def readAtMost (file : File) (size offset : Nat) (results : List SysResult) :
    EStateM Error Buffer Unit :=
  transferLoop size offset "pread failed" (pure ()) (pread file) (results.length + size + 1)
    results 0

/-- `WriteFully`. -/
def writeFully (data : Buffer) (size offset : Nat) (results : List SysResult) :
    EStateM Error File Unit :=
  transferLoop size offset "pwrite failed" (throw ⟨.runtimeError, "pwrite wrote zero bytes"⟩)
    (pwrite data) (results.length + size + 1) results 0

/-- The rule for the loop: `I` speaks of the results to come, the bytes moved and the
state. -/
theorem transferLoop_wp {σ : Type} {size offset : Nat} {call : String}
    {onZero : EStateM Error σ Unit} {move : (offset total left k : Nat) → σ → Nat × σ}
    {I : List SysResult → Nat → σ → Prop} {Q : Unit → σ → Prop} {E : Error → σ → Prop}
    (hoffset : ∀ rs total s e, total < size → I rs total s → maxOffset < offset + total → E e s)
    (hinterrupted : ∀ rs total s, total < size → I (.interrupted :: rs) total s → I rs total s)
    (hfailed : ∀ rs total s reason, total < size → I (.failed reason :: rs) total s →
      E ⟨.runtimeError, call ++ ": " ++ reason⟩ s)
    (hmoved : ∀ rs total s k, total < size → rs.headD (.moved size) = .moved k → I rs total s →
      (move (offset + total) total (size - total) k s).1 ≤ size - total ∧
      ((move (offset + total) total (size - total) k s).1 = 0 →
        wp onZero Q E (move (offset + total) total (size - total) k s).2) ∧
      ((move (offset + total) total (size - total) k s).1 ≠ 0 →
        I rs.tail (total + (move (offset + total) total (size - total) k s).1)
          (move (offset + total) total (size - total) k s).2))
    (hdone : ∀ rs s, I rs size s → Q () s) {turns : Nat} {results : List SysResult} {total : Nat}
    {s : σ} (hturns : results.length + (size - total) < turns) (htotal : total ≤ size)
    (hI : I results total s) :
    wp (transferLoop size offset call onZero move turns results total) Q E s := by
  induction turns generalizing results total s with
  | zero => omega
  | succ turns ih =>
    rw [transferLoop, wp_ite]
    split
    · next hlt =>
      by_cases hfits : offset + total ≤ maxOffset
      · have hmax : maxOffset ≤ maxUInt64 := by decide
        simp only [checkedAdd_ok (hfits.trans hmax), checkedOffset_ok hfits, wp_bind,
          wp_liftExcept_ok]
        cases hhead : results.headD (.moved size) with
        | interrupted =>
          cases results with
          | nil => cases hhead
          | cons r rs =>
            obtain rfl : r = .interrupted := hhead
            exact ih (by simp at hturns ⊢; omega) htotal (hinterrupted rs total s hlt hI)
        | failed reason =>
          cases results with
          | nil => cases hhead
          | cons r rs =>
            obtain rfl : r = .failed reason := hhead
            exact hfailed rs total s reason hlt hI
        | moved k =>
          obtain ⟨hle, hzero, hsome⟩ := hmoved results total s k hlt hhead hI
          simp only [wp_bind, wp_modifyGet, wp_ite]
          split
          · next hcount => exact hzero hcount
          · next hcount =>
            refine ih ?_ (by omega) (hsome hcount)
            have htail : results.tail.length ≤ results.length := by simp
            omega
      · have hthrow := fun e => hoffset results total s e hlt hI (by omega)
        rw [wp_bind]
        unfold checkedAdd
        split
        · exact hthrow _
        · rw [show (return offset + total : Except Error Nat) = .ok (offset + total) from rfl,
            wp_liftExcept_ok, wp_bind, checkedOffset, if_pos (by omega)]
          exact hthrow _
    · obtain rfl : total = size := by omega
      exact hdone results s hI

/-- Beyond the range of `off_t` nothing is read. -/
theorem readAtMost_beyond (file : File) {size offset : Nat} (hsize : 0 < size)
    (hoffset : maxOffset < offset) (results : List SysResult) (out : Buffer) :
    wp (readAtMost file size offset results) (fun _ _ => False) (fun _ _ => True) out := by
  rw [readAtMost, transferLoop, if_pos hsize, wp_bind]
  by_cases hadd : offset + 0 ≤ maxUInt64
  · rw [checkedAdd_ok hadd, wp_liftExcept_ok, wp_bind, checkedOffset, if_pos (by omega)]
    trivial
  · rw [checkedAdd, if_pos (by omega)]
    trivial

/-! ## What the transfers do -/

/-- Of the results of a write with `left` bytes to go, one is an error, or a write of zero
bytes, and comes before the end. -/
def writeAborts : (left : Nat) → List SysResult → Bool
  | _, [] => false
  | 0, _ :: _ => false
  | left + 1, .interrupted :: rs => writeAborts (left + 1) rs
  | _ + 1, .failed _ :: _ => true
  | left + 1, .moved k :: rs => k == 0 || writeAborts (left + 1 - k) rs

/-- Of the results of a read with `left` bytes to go, `available` of them in the file, one
is an error and comes before the end. -/
def readAborts : (left available : Nat) → List SysResult → Bool
  | _, _, [] => false
  | 0, _, _ :: _ => false
  | left + 1, available, .interrupted :: rs => readAborts (left + 1) available rs
  | _ + 1, _, .failed _ :: _ => true
  | left + 1, available, .moved k :: rs =>
      let count := min (max 1 k) (min (left + 1) available)
      count != 0 && readAborts (left + 1 - count) (available - count) rs

/-- `WriteFully` writes all its bytes, or throws having written the first of them; within
the range of `off_t` it throws when the results say so. -/
theorem writeFully_wp (file : File) (data : Buffer) (size offset : Nat)
    (results : List SysResult) :
    wp (writeFully data size offset results)
      (fun _ file' => file' = file.write offset size data ∧ writeAborts size results = false)
      (fun e file' => (∃ k, k < size ∧ file' = file.write offset k data) ∧
        (offset + size ≤ maxOffset + 1 →
          e.kind = .runtimeError ∧ writeAborts size results = true)) file := by
  refine transferLoop_wp (I := fun rs total file' => total ≤ size ∧
      file' = file.write offset total data ∧
      writeAborts (size - total) rs = writeAborts size results)
    ?_ ?_ ?_ ?_ ?_ (by omega) (Nat.zero_le _)
    ⟨Nat.zero_le _, (file.write_zero offset data).symm, by rw [Nat.sub_zero]⟩
  · rintro rs total _ e hlt ⟨-, rfl, -⟩ hmax
    exact ⟨⟨total, hlt, rfl⟩, fun hfits => by omega⟩
  · rintro rs total _ hlt ⟨hle, rfl, haborts⟩
    obtain ⟨left, hleft⟩ : ∃ left, size - total = left + 1 := ⟨size - total - 1, by omega⟩
    rw [hleft, writeAborts] at haborts
    exact ⟨hle, rfl, by rw [hleft, haborts]⟩
  · rintro rs total _ reason hlt ⟨-, rfl, haborts⟩
    obtain ⟨left, hleft⟩ : ∃ left, size - total = left + 1 := ⟨size - total - 1, by omega⟩
    rw [hleft, writeAborts] at haborts
    exact ⟨⟨total, hlt, rfl⟩, fun _ => ⟨rfl, haborts.symm⟩⟩
  · rintro rs total _ k hlt hhead ⟨hle, rfl, haborts⟩
    obtain ⟨left, hleft⟩ : ∃ left, size - total = left + 1 := ⟨size - total - 1, by omega⟩
    dsimp only [pwrite]
    refine ⟨Nat.min_le_right _ _, fun hzero => ?_, fun hne => ⟨by omega, ?_, ?_⟩⟩
    · obtain rfl : k = 0 := by omega
      rw [wp_throw, hzero]
      refine ⟨⟨total, hlt, File.write_zero _ _ _⟩, fun _ => ⟨rfl, ?_⟩⟩
      cases rs with
      | nil => exact absurd (SysResult.moved.inj hhead) (by omega)
      | cons r rs =>
        obtain rfl : r = .moved 0 := hhead
        rw [← haborts, hleft]
        rfl
    · rw [File.write_write]
    · rw [← haborts]
      cases rs with
      | nil =>
        rw [List.tail_nil, writeAborts, writeAborts]
      | cons r rs =>
        obtain rfl : r = .moved k := hhead
        have hk : (k == 0) = false := by
          rw [beq_eq_false_iff_ne]
          rintro rfl
          simp at hne
        rw [List.tail_cons, hleft, writeAborts, hk, Bool.false_or]
        congr 1
        omega
  · rintro rs _ ⟨-, rfl, haborts⟩
    refine ⟨rfl, ?_⟩
    rw [← haborts, Nat.sub_self]
    cases rs <;> rfl

/-- `ReadAtMost` into zeros gives the bytes of the file, and zeros behind its end. -/
theorem readAtMost_wp (file : File) {out : Buffer} (hout : ∀ i, out i = 0) (size offset : Nat)
    (results : List SysResult) :
    wp (readAtMost file size offset results)
      (fun _ out' => (∀ i, i < size → out' i = file.byte (offset + i)) ∧
        readAborts size (file.size - offset) results = false)
      (fun e _ => offset + size ≤ maxOffset + 1 →
        e.kind = .runtimeError ∧ readAborts size (file.size - offset) results = true) out := by
  refine transferLoop_wp (I := fun rs total out' => total ≤ size ∧
      ((∀ i, i < total → out' i = file.byte (offset + i)) ∧ ∀ i, total ≤ i → out' i = 0) ∧
      readAborts (size - total) (file.size - offset - total) rs =
        readAborts size (file.size - offset) results)
    ?_ ?_ ?_ ?_ ?_ (by omega) (Nat.zero_le _)
    ⟨Nat.zero_le _, ⟨by simp, fun i _ => hout i⟩, by rw [Nat.sub_zero, Nat.sub_zero]⟩
  · rintro rs total out' e hlt - hmax hfits
    omega
  · rintro rs total out' hlt ⟨hle, hbytes, haborts⟩
    obtain ⟨left, hleft⟩ : ∃ left, size - total = left + 1 := ⟨size - total - 1, by omega⟩
    rw [hleft, readAborts] at haborts
    exact ⟨hle, hbytes, by rw [hleft, haborts]⟩
  · rintro rs total out' reason hlt ⟨-, -, haborts⟩
    obtain ⟨left, hleft⟩ : ∃ left, size - total = left + 1 := ⟨size - total - 1, by omega⟩
    rw [hleft, readAborts] at haborts
    exact fun _ => ⟨rfl, haborts.symm⟩
  · rintro rs total out' k hlt hhead ⟨hle, ⟨hbytes, hrest⟩, haborts⟩
    obtain ⟨left, hleft⟩ : ∃ left, size - total = left + 1 := ⟨size - total - 1, by omega⟩
    have havailable : file.size - (offset + total) = file.size - offset - total := by omega
    have hstep : ∀ r rs', rs = r :: rs' →
        readAborts (size - total) (file.size - offset - total) rs =
          (readCount file (offset + total) (size - total) k != 0 &&
            readAborts (size - total - readCount file (offset + total) (size - total) k)
              (file.size - offset - total - readCount file (offset + total) (size - total) k)
              rs') := by
      rintro r rs' rfl
      obtain rfl : r = .moved k := hhead
      rw [hleft, readAborts, readCount, havailable]
    dsimp only [pread]
    refine ⟨?_, fun hzero => ?_, fun hne => ⟨?_, ⟨fun i hi => ?_, fun i hi => ?_⟩, ?_⟩⟩
    · rw [readCount]
      omega
    · have heof : file.size ≤ offset + total := by
        rw [readCount] at hzero
        omega
      rw [hzero, wp_pure]
      refine ⟨fun i hi => ?_, ?_⟩
      · dsimp only
        rw [if_neg (by omega)]
        by_cases hlow : i < total
        · exact hbytes i hlow
        · rw [hrest i (by omega), file.zero_beyond _ (by omega)]
      · rw [← haborts]
        cases rs with
        | nil => rw [readAborts]
        | cons r rs' => rw [hstep r rs' rfl, hzero]; rfl
    · rw [readCount]
      omega
    · by_cases hlow : i < total
      · rw [if_neg (by omega), hbytes i hlow]
      · rw [if_pos (by omega)]
        congr 1
        omega
    · rw [if_neg (by omega), hrest i (by omega)]
    · rw [← haborts]
      cases rs with
      | nil => rw [List.tail_nil, readAborts, readAborts]
      | cons r rs' =>
        have hne' : (readCount file (offset + total) (size - total) k != 0) = true := by
          simpa using hne
        rw [hstep r rs' rfl, hne', Bool.true_and, List.tail_cons]
        congr 1 <;> omega
  · rintro rs out' ⟨-, hbytes, haborts⟩
    refine ⟨hbytes.1, ?_⟩
    rw [← haborts, Nat.sub_self]
    cases rs <;> rfl

end BufferManager
