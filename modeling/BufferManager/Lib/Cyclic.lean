/-
  Lib/Cyclic.lean --- positions on a ring of `n` slots.

  `distance n a b` is the number of steps from slot `a` forward to slot `b`; going
  past a slot other than `b` shortens the way to `b`, or starts a new turn.
-/
import Mathlib.Tactic.Common

set_option autoImplicit false

namespace BufferManager.Lib.Cyclic

variable {n a b c k : Nat}

/-- How far slot `b` lies ahead of slot `a`. -/
def distance (n a b : Nat) : Nat := (b + n - a) % n

/-- The distance without a modulus: at most one wrap. -/
theorem distance_eq_ite (ha : a < n) (hb : b < n) :
    distance n a b = if a ≤ b then b - a else b + n - a := by
  unfold distance
  split
  · rename_i h
    rw [show b + n - a = b - a + n by omega, Nat.add_mod_right, Nat.mod_eq_of_lt (by omega)]
  · rw [Nat.mod_eq_of_lt (by omega)]

theorem succ_mod_eq_ite (ha : a < n) : (a + 1) % n = if a + 1 = n then 0 else a + 1 := by
  split
  · rename_i h
    rw [h, Nat.mod_self]
  · rw [Nat.mod_eq_of_lt (by omega)]

theorem add_mod_eq_ite (ha : a < n) (hk : k < n) :
    (a + k) % n = if a + k < n then a + k else a + k - n := by
  split
  · rename_i h
    exact Nat.mod_eq_of_lt h
  · rw [Nat.mod_eq_sub_mod (by omega), Nat.mod_eq_of_lt (by omega)]

theorem distance_lt (ha : a < n) : distance n a b < n :=
  Nat.mod_lt _ (by omega)

theorem add_distance (ha : a < n) (hb : b < n) : (a + distance n a b) % n = b := by
  have hlt : distance n a b < n := distance_lt ha
  rw [add_mod_eq_ite ha hlt]
  rw [distance_eq_ite ha hb] at hlt ⊢
  split <;> split <;> omega

theorem distance_add (ha : a < n) (hk : k < n) : distance n a ((a + k) % n) = k := by
  have hlt : (a + k) % n < n := Nat.mod_lt _ (by omega)
  rw [distance_eq_ite ha hlt, add_mod_eq_ite ha hk]
  split <;> split <;> omega

/-- Slots at one distance are one slot. -/
theorem eq_of_distance_eq (ha : a < n) (hb : b < n) (hc : c < n)
    (h : distance n a b = distance n a c) : b = c := by
  rw [← add_distance ha hb, h, add_distance ha hc]

/-- Going on past a slot that comes before `c`. -/
theorem distance_past_of_lt (ha : a < n) (hb : b < n) (hc : c < n)
    (h : distance n a b < distance n a c) :
    distance n ((b + 1) % n) c + distance n a b + 1 = distance n a c := by
  have hs : (b + 1) % n < n := Nat.mod_lt _ (by omega)
  rw [distance_eq_ite ha hb, distance_eq_ite ha hc] at *
  rw [distance_eq_ite hs hc, succ_mod_eq_ite hb]
  split at h <;> split at h <;> split <;> split <;> omega

/-- Going on past a slot that comes after `c`: the next way to `c` goes around once. -/
theorem distance_past_of_gt (ha : a < n) (hb : b < n) (hc : c < n)
    (h : distance n a c < distance n a b) :
    distance n ((b + 1) % n) c + distance n a b + 1 = distance n a c + n := by
  have hs : (b + 1) % n < n := Nat.mod_lt _ (by omega)
  rw [distance_eq_ite ha hb, distance_eq_ite ha hc] at *
  rw [distance_eq_ite hs hc, succ_mod_eq_ite hb]
  split at h <;> split at h <;> split <;> split <;> omega

end BufferManager.Lib.Cyclic
