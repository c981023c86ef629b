/-
  Lib/Relational.lean --- programs that cannot tell two states apart.

  `Agree r q x y` says of two programs that carry a state and may throw: started in states
  related by `r`, they end in the same way, in states related by `r`, with values related
  by `q` or with one error.  `Respects r x` says it of a program and itself: what `x` does
  does not depend on the part of the state that `r` leaves open.  The rules follow the
  program's constructors; `attempt_bind` is for an operation on a component.
-/
import BufferManager.Lib.ErrorState

set_option autoImplicit false

namespace BufferManager.Lib

variable {ε σ α β γ : Type}

/-- Two runs have ended in the same way. -/
def SameEnd (r : σ → σ → Prop) (q : α → β → Prop) :
    EStateM.Result ε σ α → EStateM.Result ε σ β → Prop
  | .ok a s, .ok b t => q a b ∧ r s t
  | .error e s, .error e' t => e = e' ∧ r s t
  | _, _ => False

/-- From related states, `x` and `y` end in the same way. -/
def Agree (r : σ → σ → Prop) (q : α → β → Prop) (x : EStateM ε σ α) (y : EStateM ε σ β) : Prop :=
  ∀ s t, r s t → SameEnd r q (x s) (y t)

/-- `x` ends in the same way from related states. -/
abbrev Respects (r : σ → σ → Prop) (x : EStateM ε σ α) : Prop := Agree r Eq x x

variable {r : σ → σ → Prop} {q : α → β → Prop}

namespace SameEnd

variable {s t : σ} {x y : EStateM.Result ε σ α}

theorem ok {a : α} (h : SameEnd r Eq x y) (hx : x = .ok a s) : ∃ t, y = .ok a t ∧ r s t := by
  subst hx
  cases y with
  | ok b t =>
    obtain ⟨rfl, hr⟩ := h
    exact ⟨t, rfl, hr⟩
  | error e t => exact h.elim

theorem error {e : ε} (h : SameEnd r Eq x y) (hx : x = .error e s) :
    ∃ t, y = .error e t ∧ r s t := by
  subst hx
  cases y with
  | ok b t => exact h.elim
  | error e' t =>
    obtain ⟨rfl, hr⟩ := h
    exact ⟨t, rfl, hr⟩

end SameEnd

/-- The second programs go on where the first ones ended. -/
theorem Agree.bind {α' β' : Type} {q' : α' → β' → Prop} {x : EStateM ε σ α} {y : EStateM ε σ β}
    {f : α → EStateM ε σ α'} {g : β → EStateM ε σ β'} (h : Agree r q x y)
    (hfg : ∀ a b, q a b → Agree r q' (f a) (g b)) : Agree r q' (x >>= f) (y >>= g) := by
  intro s t hr
  have hxy := h s t hr
  change SameEnd r q' (EStateM.bind x f s) (EStateM.bind y g t)
  unfold EStateM.bind
  cases hx : x s with
  | ok a s' =>
    rw [hx] at hxy
    cases hy : y t with
    | ok b t' =>
      rw [hy] at hxy
      exact hfg a b hxy.1 s' t' hxy.2
    | error e t' =>
      rw [hy] at hxy
      exact hxy.elim
  | error e s' =>
    rw [hx] at hxy
    cases hy : y t with
    | ok b t' =>
      rw [hy] at hxy
      exact hxy.elim
    | error e' t' =>
      rw [hy] at hxy
      exact hxy

namespace Respects

variable {x : EStateM ε σ α}

theorem pure (a : α) : Respects r (Pure.pure a : EStateM ε σ α) := fun _ _ hr => ⟨rfl, hr⟩

theorem throw (e : ε) : Respects r (MonadExcept.throw e : EStateM ε σ α) :=
  fun _ _ hr => ⟨rfl, hr⟩

theorem bind {f : α → EStateM ε σ β} (h : Respects r x) (hf : ∀ a, Respects r (f a)) :
    Respects r (x >>= f) := by
  refine Agree.bind h ?_
  rintro a _ rfl
  exact hf a

/-- A value that is not looked at need not be the same. -/
theorem bind_unread {q : α → α → Prop} {y : EStateM ε σ β} (h : Agree r q x x)
    (hy : Respects r y) : Respects r (x >>= fun _ => y) :=
  Agree.bind h fun _ _ _ => hy

/-- A handler goes on where the error was thrown. -/
theorem tryCatch {handler : ε → EStateM ε σ α} (h : Respects r x)
    (hh : ∀ e, Respects r (handler e)) : Respects r (MonadExcept.tryCatch x handler) := by
  intro s t hr
  have hxy := h s t hr
  change SameEnd r Eq (EStateM.tryCatch x handler s) (EStateM.tryCatch x handler t)
  unfold EStateM.tryCatch
  cases hs : x s with
  | ok a s' =>
    obtain ⟨t', ht, hr'⟩ := hxy.ok hs
    rw [ht]
    exact ⟨rfl, hr'⟩
  | error e s' =>
    obtain ⟨t', ht, hr'⟩ := hxy.error hs
    rw [ht]
    exact hh e s' t' hr'

theorem ite {c : Prop} [Decidable c] {y : EStateM ε σ α} (hx : c → Respects r x)
    (hy : ¬ c → Respects r y) : Respects r (if c then x else y) := by
  split
  · next hc => exact hx hc
  · next hc => exact hy hc

theorem modify {f : σ → σ} (h : ∀ s t, r s t → r (f s) (f t)) :
    Respects r (modify f : EStateM ε σ PUnit) := fun s t hr => ⟨rfl, h s t hr⟩

/-- A part of the state is looked at that related states have in common. -/
theorem view {f : σ → α} (h : ∀ s t, r s t → f s = f t) :
    Respects r (do return f (← get) : EStateM ε σ α) := fun s t hr => ⟨h s t hr, hr⟩

/-- An operation on a component that related states have in common. -/
theorem attempt_bind {op : σ → Except ε γ} {k : σ → γ → Except ε (α × σ)}
    (hop : ∀ s t, r s t → op s = op t)
    (hk : ∀ s t c, r s t → ∃ a s' t', k s c = .ok (a, s') ∧ k t c = .ok (a, t') ∧ r s' t') :
    Respects r (attempt fun s => op s >>= k s) := by
  intro s t hr
  have hst := hop s t hr
  unfold attempt
  dsimp only
  cases hs : op s with
  | error e =>
    rw [← hst, hs]
    exact ⟨rfl, hr⟩
  | ok c =>
    obtain ⟨a, s', t', hks, hkt, hr'⟩ := hk s t c hr
    rw [← hst, hs]
    change SameEnd r Eq (match k s c with | .ok (a, s') => _ | .error e => _)
      (match k t c with | .ok (a, s') => _ | .error e => _)
    rw [hks, hkt]
    exact ⟨rfl, hr'⟩

end Respects

end BufferManager.Lib
