/-
  Lib/ErrorState.lean --- weakest preconditions for programs that carry a state
  and may throw.

  `EStateM ε σ` keeps the state a program had reached when it threw, which is what
  an exception does to the object it leaves.  `wp x Q E s` says that `x`, started
  in `s`, either returns into `Q` or throws into `E`.  The rules below follow the
  program's constructors, so a proof about a program reads in the program's order;
  `wp_of_ok` and `wp_of_error` plug in what is already known about a part.
-/
import Mathlib.Logic.Basic

set_option autoImplicit false

namespace BufferManager.Lib

universe u

variable {ε σ α β : Type u}

/-- `x` started in `s` returns a value and state satisfying `Q`, or throws an
error in a state satisfying `E`. -/
def wp (x : EStateM ε σ α) (Q : α → σ → Prop) (E : ε → σ → Prop) (s : σ) : Prop :=
  match x s with
  | .ok a s' => Q a s'
  | .error e s' => E e s'

variable {Q : α → σ → Prop} {E : ε → σ → Prop} {s t : σ}

theorem wp_of_ok {x : EStateM ε σ α} {a : α} (h : x s = .ok a t) (hQ : Q a t) :
    wp x Q E s := by
  rw [wp, h]
  exact hQ

theorem wp_of_error {x : EStateM ε σ α} {e : ε} (h : x s = .error e t) (hE : E e t) :
    wp x Q E s := by
  rw [wp, h]
  exact hE

theorem bind_of_ok {x : EStateM ε σ α} {f : α → EStateM ε σ β} {a : α} (h : x s = .ok a t) :
    (x >>= f) s = f a t := by
  change EStateM.bind x f s = _
  unfold EStateM.bind
  rw [h]

theorem bind_of_error {x : EStateM ε σ α} {f : α → EStateM ε σ β} {e : ε} (h : x s = .error e t) :
    (x >>= f) s = .error e t := by
  change EStateM.bind x f s = _
  unfold EStateM.bind
  rw [h]

theorem wp.ok {x : EStateM ε σ α} {a : α} (h : wp x Q E s) (hx : x s = .ok a t) : Q a t := by
  rw [wp, hx] at h
  exact h

theorem wp.error {x : EStateM ε σ α} {e : ε} (h : wp x Q E s) (hx : x s = .error e t) :
    E e t := by
  rw [wp, hx] at h
  exact h

theorem wp.mono {x : EStateM ε σ α} {Q' : α → σ → Prop} {E' : ε → σ → Prop} (h : wp x Q E s)
    (hQ : ∀ a s', Q a s' → Q' a s') (hE : ∀ e s', E e s' → E' e s') : wp x Q' E' s := by
  unfold wp at h ⊢
  split at h
  · exact hQ _ _ h
  · exact hE _ _ h

/-- Nothing is asked of how `x` ends but what always holds. -/
theorem wp_of_forall {x : EStateM ε σ α} (hQ : ∀ a s', Q a s') (hE : ∀ e s', E e s') :
    wp x Q E s := by
  unfold wp
  split
  · exact hQ _ _
  · exact hE _ _

/-- Two facts about one run. -/
theorem wp.and {x : EStateM ε σ α} {Q' : α → σ → Prop} {E' : ε → σ → Prop} (h : wp x Q E s)
    (h' : wp x Q' E' s) :
    wp x (fun a s' => Q a s' ∧ Q' a s') (fun e s' => E e s' ∧ E' e s') s := by
  unfold wp at h h' ⊢
  split at h
  · next hx =>
    rw [hx] at h'
    exact ⟨h, h'⟩
  · next hx =>
    rw [hx] at h'
    exact ⟨h, h'⟩

@[simp] theorem wp_pure (a : α) : wp (pure a) Q E s ↔ Q a s := Iff.rfl

@[simp] theorem wp_throw (e : ε) : wp (throw e : EStateM ε σ α) Q E s ↔ E e s := Iff.rfl

@[simp] theorem wp_bind {Q : β → σ → Prop} (x : EStateM ε σ α) (f : α → EStateM ε σ β) :
    wp (x >>= f) Q E s ↔ wp x (fun a s' => wp (f a) Q E s') E s := by
  unfold wp
  change (match EStateM.bind x f s with | .ok a s' => Q a s' | .error e s' => E e s') ↔ _
  unfold EStateM.bind
  cases x s <;> exact Iff.rfl

@[simp] theorem wp_map {Q : β → σ → Prop} (f : α → β) (x : EStateM ε σ α) :
    wp (f <$> x) Q E s ↔ wp x (fun a s' => Q (f a) s') E s := by
  unfold wp
  change (match EStateM.map f x s with | .ok a s' => Q a s' | .error e s' => E e s') ↔ _
  unfold EStateM.map
  cases x s <;> exact Iff.rfl

@[simp] theorem wp_get {Q : σ → σ → Prop} : wp (get : EStateM ε σ σ) Q E s ↔ Q s s := Iff.rfl

@[simp] theorem wp_set {Q : PUnit → σ → Prop} (s₁ : σ) :
    wp (set s₁ : EStateM ε σ PUnit) Q E s ↔ Q ⟨⟩ s₁ := Iff.rfl

@[simp] theorem wp_modify {Q : PUnit → σ → Prop} (f : σ → σ) :
    wp (modify f : EStateM ε σ PUnit) Q E s ↔ Q ⟨⟩ (f s) := Iff.rfl

/-- A handler runs in the state the error left. -/
@[simp] theorem wp_tryCatch (x : EStateM ε σ α) (handler : ε → EStateM ε σ α) :
    wp (tryCatch x handler) Q E s ↔ wp x Q (fun e s' => wp (handler e) Q E s') s := by
  unfold wp
  change (match EStateM.tryCatch x handler s with | .ok a s' => Q a s' | .error e s' => E e s') ↔ _
  unfold EStateM.tryCatch
  cases h : x s <;> exact Iff.rfl

@[simp] theorem wp_ite (c : Prop) [Decidable c] (x y : EStateM ε σ α) :
    wp (if c then x else y) Q E s ↔ if c then wp x Q E s else wp y Q E s := by
  split <;> exact Iff.rfl

@[simp] theorem wp_modifyGet (f : σ → α × σ) :
    wp (modifyGet f : EStateM ε σ α) Q E s ↔ Q (f s).1 (f s).2 := Iff.rfl

@[simp] theorem wp_liftExcept_ok (a : α) :
    wp (liftExcept (.ok a : Except ε α) : EStateM ε σ α) Q E s ↔ Q a s := Iff.rfl

@[simp] theorem wp_liftExcept_error (e : ε) :
    wp (liftExcept (.error e : Except ε α) : EStateM ε σ α) Q E s ↔ E e s := Iff.rfl

/-! ## Partial operations on a component

An operation given as `σ → Except ε (α × σ)` leaves the state alone when it
throws. -/

/-- Run a fallible operation on the state; an error changes nothing. -/
def attempt (op : σ → Except ε (α × σ)) : EStateM ε σ α := fun s =>
  match op s with
  | .ok (a, s') => .ok a s'
  | .error e => .error e s

theorem attempt_ok {op : σ → Except ε (α × σ)} {a : α} (h : op s = .ok (a, t)) :
    attempt op s = .ok a t := by
  rw [attempt, h]

theorem attempt_error {op : σ → Except ε (α × σ)} {e : ε} (h : op s = .error e) :
    attempt op s = .error e s := by
  rw [attempt, h]

/-- What holds before an attempt and is kept by the operation holds after it. -/
theorem wp_attempt {op : σ → Except ε (α × σ)} {P : σ → Prop} (hs : P s)
    (hop : ∀ a s', op s = .ok (a, s') → P s') :
    wp (attempt op) (fun _ => P) (fun _ => P) s := by
  cases h : op s with
  | ok x => exact wp_of_ok (attempt_ok h) (hop x.1 x.2 h)
  | error e => exact wp_of_error (attempt_error h) hs

end BufferManager.Lib
