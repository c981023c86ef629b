/-
  Lib/RegularFile.lean --- regular files and the integers stored in them.

  A file has a size and bytes, which read as zero from the size on: behind the end of
  the file, and in a hole.  `write` is a `pwrite` that transfers all its bytes and
  `resize` is `ftruncate`; two writes that follow each other are one.
-/
import Mathlib.Data.Nat.ModEq
import Mathlib.Tactic.Ring

set_option autoImplicit false

namespace BufferManager.Lib

/-! ## Files -/

/-- A regular file. -/
@[ext] structure File where
  size : Nat
  byte : Nat → UInt8
  zero_beyond : ∀ i, size ≤ i → byte i = 0

namespace File

/-- A file as it is created. -/
def empty : File := ⟨0, fun _ => 0, fun _ _ => rfl⟩

/-- `n` bytes of `data` are written at `offset`. -/
def write (f : File) (offset n : Nat) (data : Nat → UInt8) : File where
  size := if n = 0 then f.size else max f.size (offset + n)
  byte i := if offset ≤ i ∧ i < offset + n then data (i - offset) else f.byte i
  zero_beyond i hi := by
    split at hi
    · next hn => rw [if_neg (by omega), f.zero_beyond i hi]
    · rw [if_neg (by omega), f.zero_beyond i (by omega)]

/-- The file is cut, or extended with zeros, to `n` bytes. -/
def resize (f : File) (n : Nat) : File where
  size := n
  byte i := if i < n then f.byte i else 0
  zero_beyond i hi := if_neg (by omega)

variable (f : File)

@[simp] theorem write_byte (offset n : Nat) (data : Nat → UInt8) (i : Nat) :
    (f.write offset n data).byte i =
      if offset ≤ i ∧ i < offset + n then data (i - offset) else f.byte i := rfl

theorem write_size (offset n : Nat) (data : Nat → UInt8) :
    (f.write offset n data).size = if n = 0 then f.size else max f.size (offset + n) := rfl

@[simp] theorem resize_size (n : Nat) : (f.resize n).size = n := rfl

@[simp] theorem resize_byte (n i : Nat) :
    (f.resize n).byte i = if i < n then f.byte i else 0 := rfl

@[simp] theorem empty_size : empty.size = 0 := rfl

@[simp] theorem empty_byte (i : Nat) : empty.byte i = 0 := rfl

theorem write_zero (offset : Nat) (data : Nat → UInt8) : f.write offset 0 data = f := by
  refine File.ext ?_ (funext fun i => ?_)
  · rw [write_size, if_pos rfl]
  · rw [write_byte, if_neg (by omega)]

/-- A write that goes on where the last one has stopped. -/
theorem write_write (offset k m : Nat) (data : Nat → UInt8) :
    (f.write offset k data).write (offset + k) m (fun i => data (k + i)) =
      f.write offset (k + m) data := by
  refine File.ext ?_ (funext fun i => ?_)
  · simp only [write_size]
    split <;> split <;> split <;> omega
  · simp only [write_byte]
    by_cases hlow : i < offset + k
    · rw [if_neg (by omega)]
      exact if_congr (by omega) rfl rfl
    · rw [if_neg (c := offset ≤ i ∧ i < offset + k) (by omega)]
      refine if_congr (by omega) ?_ rfl
      congr 1
      omega

/-- What is cut off was zero already where a file is extended. -/
theorem resize_byte_of_le {n : Nat} (h : f.size ≤ n) (i : Nat) :
    (f.resize n).byte i = f.byte i := by
  rw [resize_byte]
  split
  · rfl
  · rw [f.zero_beyond i (by omega)]

theorem resize_self : f.resize f.size = f := by
  exact File.ext rfl (funext fun i => f.resize_byte_of_le le_rfl i)

end File

/-! ## Little-endian integers -/

/-- Byte `j` of a little-endian integer. -/
def leByte (x j : Nat) : UInt8 := UInt8.ofNat (x / 256 ^ j)

/-- The integer in the first `w` bytes, the least significant byte first. -/
def leNat : (w : Nat) → (Nat → UInt8) → Nat
  | 0, _ => 0
  | w + 1, b => (b 0).toNat + 256 * leNat w fun j => b (j + 1)

/-- Decoding `w` bytes of an integer gives it back, modulo what fits into them. -/
theorem leNat_leByte (w x : Nat) : leNat w (leByte x) = x % 256 ^ w := by
  induction w generalizing x with
  | zero => simp [leNat, Nat.mod_one]
  | succ w ih =>
    have hshift : (fun j => leByte x (j + 1)) = leByte (x / 256) := by
      funext j
      rw [leByte, leByte, Nat.div_div_eq_div_mul, pow_succ']
    have hlow : (leByte x 0).toNat = x % 256 := by
      simp [leByte]
    rw [leNat, hshift, ih, hlow, pow_succ', Nat.mod_mul]

theorem leNat_congr {w : Nat} {b b' : Nat → UInt8} (h : ∀ j, j < w → b j = b' j) :
    leNat w b = leNat w b' := by
  induction w generalizing b b' with
  | zero => rfl
  | succ w ih =>
    rw [leNat, leNat, h 0 (by omega), ih fun j hj => h (j + 1) (by omega)]

theorem leNat_lt (w : Nat) (b : Nat → UInt8) : leNat w b < 256 ^ w := by
  induction w generalizing b with
  | zero => exact Nat.one_pos
  | succ w ih =>
    have hrest := ih fun j => b (j + 1)
    have hbyte := (b 0).toNat_lt
    rw [leNat, pow_succ']
    omega

/-- Encoding the integer in `w` bytes gives them back. -/
theorem leByte_leNat {w : Nat} (b : Nat → UInt8) {j : Nat} (hj : j < w) :
    leByte (leNat w b) j = b j := by
  induction w generalizing b j with
  | zero => exact absurd hj (Nat.not_lt_zero j)
  | succ w ih =>
    rw [leByte, leNat]
    cases j with
    | zero =>
      refine UInt8.toNat_inj.mp ?_
      have hbyte := (b 0).toNat_lt
      simp only [pow_zero, Nat.div_one, UInt8.toNat_ofNat']
      omega
    | succ j =>
      have hbyte := (b 0).toNat_lt
      have hdiv : ((b 0).toNat + 256 * leNat w fun j => b (j + 1)) / 256 =
          leNat w fun j => b (j + 1) := by omega
      rw [pow_succ', ← Nat.div_div_eq_div_mul, hdiv]
      exact ih (fun j => b (j + 1)) (Nat.lt_of_succ_lt_succ hj)

end BufferManager.Lib
