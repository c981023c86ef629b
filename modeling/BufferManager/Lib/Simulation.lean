/-
  Lib/Simulation.lean --- programs that run paths of an abstract step relation.

  `Simulates rep step c x Q E` says of a program `x` that carries a state and may
  throw: started in any state that represents the abstract state `c`, it ends in a
  state that represents the end of some path from `c`.  `Q` speaks of the value
  returned, the path's labels and its end, and `E` of the error thrown in the same
  way.  The rules follow the program's constructors; `of_wp` is where a piece of
  the program is proved to run a path.
-/
import BufferManager.Lib.ErrorState
import BufferManager.Lib.Transition

set_option autoImplicit false

namespace BufferManager.Lib

variable {ε σ α β : Type} {κ η : Type}

/-- `x` runs a path of `step` from `c`. -/
def Simulates (rep : σ → κ → Prop) (step : κ → η → κ → Prop) (c : κ) (x : EStateM ε σ α)
    (Q : α → List η → κ → Prop) (E : ε → List η → κ → Prop) : Prop :=
  ∀ s, rep s c → wp x
    (fun a s' => ∃ es c', Path step c es c' ∧ rep s' c' ∧ Q a es c')
    (fun e s' => ∃ es c', Path step c es c' ∧ rep s' c' ∧ E e es c') s

namespace Simulates

variable {rep : σ → κ → Prop} {step : κ → η → κ → Prop} {c : κ} {x : EStateM ε σ α}
  {Q : α → List η → κ → Prop} {E : ε → List η → κ → Prop}

theorem pure {a : α} (h : Q a [] c) : Simulates rep step c (Pure.pure a : EStateM ε σ α) Q E :=
  fun _ hs => ⟨[], c, .nil c, hs, h⟩

theorem mono {Q' : α → List η → κ → Prop} {E' : ε → List η → κ → Prop}
    (h : Simulates rep step c x Q E)
    (hQ : ∀ a es c', Path step c es c' → Q a es c' → Q' a es c')
    (hE : ∀ e es c', Path step c es c' → E e es c' → E' e es c') :
    Simulates rep step c x Q' E' := by
  intro s hs
  refine (h s hs).mono ?_ ?_
  · rintro a s' ⟨es, c', hpath, hrep, hq⟩
    exact ⟨es, c', hpath, hrep, hQ a es c' hpath hq⟩
  · rintro e s' ⟨es, c', hpath, hrep, he⟩
    exact ⟨es, c', hpath, hrep, hE e es c' hpath he⟩

/-- The second program goes on where the first one's path ended. -/
theorem bind {f : α → EStateM ε σ β} {Q' : β → List η → κ → Prop}
    {E' : ε → List η → κ → Prop} (hx : Simulates rep step c x Q E)
    (hf : ∀ a es c', Path step c es c' → Q a es c' →
      Simulates rep step c' (f a) (fun b es' => Q' b (es ++ es')) fun e es' => E' e (es ++ es'))
    (hE : ∀ e es c', Path step c es c' → E e es c' → E' e es c') :
    Simulates rep step c (x >>= f) Q' E' := by
  intro s hs
  rw [wp_bind]
  refine (hx s hs).mono ?_ ?_
  · rintro a s' ⟨es, c', hpath, hrep, hq⟩
    refine (hf a es c' hpath hq s' hrep).mono ?_ ?_
    · rintro b s'' ⟨es', c'', hpath', hrep', hq'⟩
      exact ⟨es ++ es', c'', hpath.append hpath', hrep', hq'⟩
    · rintro e s'' ⟨es', c'', hpath', hrep', he'⟩
      exact ⟨es ++ es', c'', hpath.append hpath', hrep', he'⟩
  · rintro e s' ⟨es, c', hpath, hrep, he⟩
    exact ⟨es, c', hpath, hrep, hE e es c' hpath he⟩

/-- A handler goes on where the path ended at the throw. -/
theorem tryCatch {handler : ε → EStateM ε σ α} {Q' : α → List η → κ → Prop}
    {E' : ε → List η → κ → Prop} (hx : Simulates rep step c x Q E)
    (hQ : ∀ a es c', Path step c es c' → Q a es c' → Q' a es c')
    (hh : ∀ e es c', Path step c es c' → E e es c' →
      Simulates rep step c' (handler e) (fun a es' => Q' a (es ++ es'))
        fun e' es' => E' e' (es ++ es')) :
    Simulates rep step c (MonadExcept.tryCatch x handler) Q' E' := by
  intro s hs
  rw [wp_tryCatch]
  refine (hx s hs).mono ?_ ?_
  · rintro a s' ⟨es, c', hpath, hrep, hq⟩
    exact ⟨es, c', hpath, hrep, hQ a es c' hpath hq⟩
  · rintro e s' ⟨es, c', hpath, hrep, he⟩
    refine (hh e es c' hpath he s' hrep).mono ?_ ?_
    · rintro b s'' ⟨es', c'', hpath', hrep', hq'⟩
      exact ⟨es ++ es', c'', hpath.append hpath', hrep', hq'⟩
    · rintro e' s'' ⟨es', c'', hpath', hrep', he'⟩
      exact ⟨es ++ es', c'', hpath.append hpath', hrep', he'⟩

/-- A piece that runs one step, however it ends. -/
theorem of_wp (h : ∀ s, rep s c → wp x
    (fun a s' => ∃ e c', step c e c' ∧ rep s' c' ∧ Q a [e] c')
    (fun e s' => ∃ ev c', step c ev c' ∧ rep s' c' ∧ E e [ev] c') s) :
    Simulates rep step c x Q E := by
  intro s hs
  refine (h s hs).mono ?_ ?_
  · rintro a s' ⟨e, c', hstep, hrep, hq⟩
    exact ⟨[e], c', .single hstep, hrep, hq⟩
  · rintro e s' ⟨ev, c', hstep, hrep, he⟩
    exact ⟨[ev], c', .single hstep, hrep, he⟩

/-- A step of the abstract system that the program makes without changing its
state. -/
theorem after {e : η} {c₁ : κ} (hstep : step c e c₁) (hrep : ∀ s, rep s c → rep s c₁)
    (h : Simulates rep step c₁ x (fun a es => Q a (e :: es)) fun er es => E er (e :: es)) :
    Simulates rep step c x Q E := by
  intro s hs
  refine (h s (hrep s hs)).mono ?_ ?_
  · rintro a s' ⟨es, c', hpath, hrep', hq⟩
    exact ⟨e :: es, c', .cons hstep hpath, hrep', hq⟩
  · rintro er s' ⟨es, c', hpath, hrep', he⟩
    exact ⟨e :: es, c', .cons hstep hpath, hrep', he⟩

end Simulates

end BufferManager.Lib
