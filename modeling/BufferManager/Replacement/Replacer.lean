/-
  Replacement/Replacer.lean --- the replacer interface and what the buffer
  manager relies on.

  Source: `src/replacement/replacer.h`.

  The abstract class becomes a type class over the replacer's state.
  `LawfulReplacer` is the contract a replacer keeps: two sets of frames, those it
  knows (`present`) and those it may choose (`evictable`), and the effect of every
  call on them.  A lawful replacer may still decline to choose; one that declines
  only when nothing is evictable is `CompleteReplacer`.
-/
import BufferManager.Types
import Mathlib.Data.Set.Insert

set_option autoImplicit false

namespace BufferManager

/-- `class Replacer`.  A call that throws leaves the state as it was. -/
class Replacer (R : Type) where
  recordAccess : R → Nat → Except Error R
  setEvictable : R → Nat → Bool → Except Error R
  victim : R → Except Error (Option Nat × R)
  remove : R → Nat → Except Error R

/-- What a replacer for frames below `n` promises, in terms of the frames it
knows and the frames it may choose. -/
class LawfulReplacer (R : Type) [Replacer R] where
  /-- The state is one the replacer of `n` frames can be in. -/
  Inv : Nat → R → Prop
  present : R → Set Nat
  evictable : R → Set Nat
  evictable_subset {n : Nat} {r : R} : Inv n r → evictable r ⊆ present r
  recordAccess_spec {n : Nat} {r : R} {f : Nat} : Inv n r → f < n →
    ∃ r', Replacer.recordAccess r f = .ok r' ∧ Inv n r' ∧
      present r' = insert f (present r) ∧ evictable r' = evictable r
  /-- Making a known frame evictable, or not. -/
  setEvictable_spec {n : Nat} {r : R} {f : Nat} (b : Bool) : Inv n r → f ∈ present r →
    ∃ r', Replacer.setEvictable r f b = .ok r' ∧ Inv n r' ∧ present r' = present r ∧
      evictable r' = if b then insert f (evictable r) else evictable r \ {f}
  /-- A frame the replacer does not know can only be refused. -/
  setEvictable_absent {n : Nat} {r : R} {f : Nat} (b : Bool) : Inv n r → f < n →
    f ∉ present r → ∃ e, Replacer.setEvictable r f b = .error e
  /-- The victim is evictable and is forgotten; without a victim nothing changes. -/
  victim_spec {n : Nat} {r : R} : Inv n r →
    ∃ choice r', Replacer.victim r = .ok (choice, r') ∧ Inv n r' ∧
      match choice with
      | none => present r' = present r ∧ evictable r' = evictable r
      | some f => f < n ∧ f ∈ evictable r ∧ present r' = present r \ {f} ∧
          evictable r' = evictable r \ {f}
  remove_spec {n : Nat} {r : R} {f : Nat} : Inv n r → f < n →
    ∃ r', Replacer.remove r f = .ok r' ∧ Inv n r' ∧ present r' = present r \ {f} ∧
      evictable r' = evictable r \ {f}

/-- A lawful replacer that chooses whenever it can. -/
class CompleteReplacer (R : Type) [Replacer R] [LawfulReplacer R] : Prop where
  victim_none {n : Nat} {r r' : R} : LawfulReplacer.Inv n r →
    Replacer.victim r = .ok (none, r') → LawfulReplacer.evictable r = ∅

end BufferManager
