/-
  Lib/WriteBack.lean --- a store whose writes reach the medium later.

  Values are read and written in a cache.  Whenever and in whatever order it likes, the
  system copies them to the medium, which alone survives a crash.  A sync ends when each
  address has been copied since it began: what has not been by then, its end copies.

  A demand says which values are good enough at an address.  What the cache meets from
  the beginning of a sync on, the medium meets at its end, and as long as the cache does.
-/
import Mathlib.Logic.Basic

set_option autoImplicit false

namespace BufferManager.Lib

universe u v

variable {α : Type u} {β : Type v}

/-- The cache, the medium, and the addresses copied since the last sync began. -/
structure WriteBack (α : Type u) (β : Type v) where
  cache : α → β
  medium : α → β
  reached : α → Bool

namespace WriteBack

/-- The cache gets other values. -/
def store (w : WriteBack α β) (cache : α → β) : WriteBack α β := { w with cache := cache }

/-- The addresses in `copied` are copied. -/
def copy (w : WriteBack α β) (copied : α → Bool) : WriteBack α β where
  cache := w.cache
  medium a := if copied a = true then w.cache a else w.medium a
  reached a := w.reached a || copied a

/-- A sync begins. -/
def begin (w : WriteBack α β) : WriteBack α β := { w with reached := fun _ => false }

/-- A sync ends. -/
def finish (w : WriteBack α β) : WriteBack α β := w.copy fun a => !w.reached a

/-- The values meet a demand. -/
def Meets (Q : α → β → Prop) (values : α → β) : Prop := ∀ a, Q a (values a)

/-- The cache meets the demand, and so does what has been copied since the sync began. -/
structure Arriving (Q : α → β → Prop) (w : WriteBack α β) : Prop where
  cache : Meets Q w.cache
  reached : ∀ a, w.reached a = true → Q a (w.medium a)

variable {Q Q' : α → β → Prop} {w : WriteBack α β}

theorem Meets.mono {values : α → β} (h : Meets Q values) (hle : ∀ a b, Q a b → Q' a b) :
    Meets Q' values :=
  fun a => hle a _ (h a)

/-- What the cache and the medium meet the medium goes on to meet. -/
theorem Meets.copy (h : Meets Q w.medium) (hcache : Meets Q w.cache) (copied : α → Bool) :
    Meets Q (w.copy copied).medium := by
  intro a
  change Q a (if copied a = true then w.cache a else w.medium a)
  split
  · exact hcache a
  · exact h a

namespace Arriving

theorem begin (h : Meets Q w.cache) : Arriving Q w.begin where
  cache := h
  reached _ hreached := by cases hreached

theorem copy (h : Arriving Q w) (copied : α → Bool) : Arriving Q (w.copy copied) where
  cache := h.cache
  reached a hreached := by
    change Q a (if copied a = true then w.cache a else w.medium a)
    split
    · exact h.cache a
    · next hcopied =>
      refine h.reached a ?_
      rcases (Bool.or_eq_true _ _).mp hreached with hold | hnew
      · exact hold
      · exact absurd hnew hcopied

/-- The cache changes, and demands that have been met are. -/
theorem store (h : Arriving Q w) (hle : ∀ a b, Q a b → Q' a b) {cache : α → β}
    (hcache : Meets Q' cache) : Arriving Q' (w.store cache) where
  cache := hcache
  reached a hreached := hle a _ (h.reached a hreached)

/-- At the end of the sync the medium meets the demand. -/
theorem finish (h : Arriving Q w) : Meets Q w.finish.medium := by
  intro a
  refine (h.copy _).reached a ?_
  change (w.reached a || !w.reached a) = true
  cases w.reached a <;> rfl

end Arriving

end WriteBack

end BufferManager.Lib
