/-
  Lib/Transition.lean --- labelled transition systems: paths, reachable states,
  invariants, assumptions on the steps and history variables.

  A step relation is `step : σ → ε → σ → Prop`.  An assumption on the environment
  is a predicate on the state before a step and the step's label; a history is a
  value computed from the steps taken, which the steps do not depend on.
-/
import Mathlib.Data.List.Basic
import Mathlib.Data.Prod.Basic

set_option autoImplicit false

namespace BufferManager.Lib

universe u v w

variable {σ : Type u} {ε : Type v} {γ : Type w}

/-! ## Paths -/

/-- Finitely many steps, with their labels in order. -/
inductive Path (step : σ → ε → σ → Prop) : σ → List ε → σ → Prop where
  | nil (s : σ) : Path step s [] s
  | cons {s s₁ s' : σ} {e : ε} {es : List ε} :
      step s e s₁ → Path step s₁ es s' → Path step s (e :: es) s'

/-- Every label is admissible, given the history before it. -/
def Admits (next : γ → ε → γ) (ok : γ → ε → Prop) : γ → List ε → Prop
  | _, [] => True
  | g, e :: es => ok g e ∧ Admits next ok (next g e) es

instance Admits.decidable {next : γ → ε → γ} {ok : γ → ε → Prop} [∀ g e, Decidable (ok g e)] :
    ∀ g es, Decidable (Admits next ok g es)
  | _, [] => .isTrue trivial
  | g, e :: es =>
      have : Decidable (Admits next ok (next g e) es) := Admits.decidable (next g e) es
      inferInstanceAs (Decidable (ok g e ∧ Admits next ok (next g e) es))

/-- What is admissible of the labels that are seen is admissible of all, if an unseen
one always is and leaves no trace. -/
theorem Admits.of_filterMap {ε' : Type v} {next : γ → ε' → γ} {ok : γ → ε' → Prop}
    {seen : ε → Option ε'} {es : List ε} {g : γ} (h : Admits next ok g (es.filterMap seen)) :
    Admits (fun g e => (seen e).elim g (next g)) (fun g e => ∀ x, seen e = some x → ok g x)
      g es := by
  induction es generalizing g with
  | nil => trivial
  | cons e es ih =>
    rw [List.filterMap_cons] at h
    cases he : seen e with
    | none =>
      rw [he] at h
      exact ⟨fun x hx => absurd (he.symm.trans hx) (by simp), by simpa [he] using ih h⟩
    | some x =>
      rw [he] at h
      refine ⟨fun y hy => ?_, by simpa [he] using ih h.2⟩
      obtain rfl := Option.some.inj (he.symm.trans hy)
      exact h.1

theorem foldl_filterMap_elim {ε' : Type v} (next : γ → ε' → γ) (seen : ε → Option ε')
    (es : List ε) (g : γ) :
    (es.filterMap seen).foldl next g = es.foldl (fun g e => (seen e).elim g (next g)) g := by
  rw [List.foldl_filterMap]
  congr 1
  funext g e
  cases seen e <;> rfl

theorem Admits.and {next : γ → ε → γ} {ok P : γ → ε → Prop} {es : List ε} {g : γ}
    (h : Admits next ok g es) (h' : ∀ e, e ∈ es → ∀ g, P g e) :
    Admits next (fun g e => ok g e ∧ P g e) g es := by
  induction es generalizing g with
  | nil => trivial
  | cons e es ih =>
    exact ⟨⟨h.1, h' e List.mem_cons_self g⟩,
      ih h.2 fun e' he' => h' e' (List.mem_cons_of_mem _ he')⟩

namespace Path

variable {step : σ → ε → σ → Prop} {s s₁ s₂ : σ} {e : ε} {es es' : List ε}

theorem single (h : step s e s₁) : Path step s [e] s₁ := .cons h (.nil _)

theorem append (h : Path step s es s₁) (h' : Path step s₁ es' s₂) :
    Path step s (es ++ es') s₂ := by
  induction h with
  | nil => exact h'
  | cons hstep _ ih => exact .cons hstep (ih h')

/-- A path of two parts passes a state between them. -/
theorem split (h : Path step s (es ++ es') s₂) : ∃ s₁, Path step s es s₁ ∧ Path step s₁ es' s₂ := by
  induction es generalizing s with
  | nil => exact ⟨s, .nil s, h⟩
  | cons e es ih =>
    cases h with
    | cons hstep hrest =>
      obtain ⟨s₁, hfirst, hsecond⟩ := ih hrest
      exact ⟨s₁, .cons hstep hfirst, hsecond⟩

theorem mono {step' : σ → ε → σ → Prop} (hstep : ∀ s e s', step s e s' → step' s e s')
    (h : Path step s es s₁) : Path step' s es s₁ := by
  induction h with
  | nil => exact .nil _
  | cons hst _ ih => exact .cons (hstep _ _ _ hst) ih

/-- What every step with an admissible label preserves holds at the end of a path
of such steps. -/
theorem preserves {P : ε → Prop} {I : σ → Prop}
    (hI : ∀ s e s', P e → step s e s' → I s → I s') (h : Path step s es s₁)
    (hok : ∀ e ∈ es, P e) (hs : I s) : I s₁ := by
  induction h with
  | nil => exact hs
  | cons hstep _ ih =>
    exact ih (fun e he => hok e (List.mem_cons_of_mem _ he))
      (hI _ _ _ (hok _ List.mem_cons_self) hstep hs)

/-- The same for a property of the state and of a history that the labels determine,
where the history so far says which labels are admissible. -/
theorem preserves_history {ok : γ → ε → Prop} {I : σ → γ → Prop} {next : γ → ε → γ}
    (hI : ∀ s e s' g, ok g e → step s e s' → I s g → I s' (next g e)) (h : Path step s es s₁)
    {g : γ} (hok : Admits next ok g es) (hs : I s g) : I s₁ (es.foldl next g) := by
  induction h generalizing g with
  | nil => exact hs
  | cons hstep _ ih => exact ih hok.2 (hI _ _ _ _ hok.1 hstep hs)

/-- Forward simulation: if each step is matched by a path whose seen labels are the step's
own, a path is matched by one with the same seen labels. -/
theorem simulated {κ η ω : Type*} {step' : κ → η → κ → Prop} {rel : σ → κ → Prop}
    {seen : ε → Option ω} {seen' : η → Option ω}
    (hstep : ∀ s c e s', rel s c → step s e s' →
      ∃ ls c', Path step' c ls c' ∧ ls.filterMap seen' = (seen e).toList ∧ rel s' c')
    (h : Path step s es s₁) {c : κ} (hrel : rel s c) :
    ∃ ls c', Path step' c ls c' ∧ ls.filterMap seen' = es.filterMap seen ∧ rel s₁ c' := by
  induction h generalizing c with
  | nil s => exact ⟨[], c, .nil c, rfl, hrel⟩
  | cons hst _ ih =>
    obtain ⟨ls, c₁, hpath, hseen, hrel₁⟩ := hstep _ _ _ _ hrel hst
    obtain ⟨ls', c', hpath', hseen', hrel'⟩ := ih hrel₁
    refine ⟨ls ++ ls', c', hpath.append hpath', ?_, hrel'⟩
    rw [List.filterMap_append, hseen, hseen', List.filterMap_cons]
    cases seen _ <;> rfl

end Path

/-! ## Reachable states -/

/-- The states of runs that start in `init`. -/
inductive Reachable (init : σ → Prop) (step : σ → ε → σ → Prop) : σ → Prop where
  | init {s : σ} : init s → Reachable init step s
  | step {s s' : σ} {e : ε} : Reachable init step s → step s e s' → Reachable init step s'

/-- The steps taken under an assumption. -/
def Under (ok : σ → ε → Prop) (step : σ → ε → σ → Prop) : σ → ε → σ → Prop :=
  fun s e s' => ok s e ∧ step s e s'

/-- The steps with a history kept beside the state. -/
def Recorded (next : γ → σ → ε → γ) (step : σ → ε → σ → Prop) : σ × γ → ε → σ × γ → Prop :=
  fun x e y => step x.1 e y.1 ∧ y.2 = next x.2 x.1 e

namespace Reachable

variable {init : σ → Prop} {step : σ → ε → σ → Prop} {s : σ}

/-- What holds initially and is preserved by every step holds in every reachable
state. -/
theorem invariant {I : σ → Prop} (hinit : ∀ s, init s → I s)
    (hstep : ∀ s e s', I s → step s e s' → I s') (h : Reachable init step s) : I s := by
  induction h with
  | init hs => exact hinit _ hs
  | step _ hst ih => exact hstep _ _ _ ih hst

/-- Fewer assumptions, more reachable states. -/
theorem mono {step' : σ → ε → σ → Prop} (hstep : ∀ s e s', step s e s' → step' s e s')
    (h : Reachable init step s) : Reachable init step' s := by
  induction h with
  | init hs => exact .init hs
  | step _ hst ih => exact .step ih (hstep _ _ _ hst)

/-- The states of a run with a history are those of a run. -/
theorem of_recorded {next : γ → σ → ε → γ} {init' : σ × γ → Prop} {ok' : σ × γ → ε → Prop}
    {ok : σ → ε → Prop} {x : σ × γ} (hinit : ∀ x, init' x → init x.1)
    (hok : ∀ x e, ok' x e → ok x.1 e) (h : Reachable init' (Under ok' (Recorded next step)) x) :
    Reachable init (Under ok step) x.1 := by
  induction h with
  | init hs => exact .init (hinit _ hs)
  | step _ hst ih => exact .step ih ⟨hok _ _ hst.1, hst.2.1⟩

/-- Where a path leads from a reachable state is reachable. -/
theorem of_path {es : List ε} {s' : σ} (hs : Reachable init step s) (h : Path step s es s') :
    Reachable init step s' := by
  induction h with
  | nil => exact hs
  | cons hst _ ih => exact ih (hs.step hst)

theorem of_under {ok : σ → ε → Prop} (h : Reachable init (Under ok step) s) :
    Reachable init step s :=
  h.mono fun _ _ _ hst => hst.2

end Reachable

/-- A path with a history is a path without it. -/
theorem Path.of_recorded {step : σ → ε → σ → Prop} {next : γ → σ → ε → γ}
    {step' : σ → ε → σ → Prop} {ok : σ × γ → ε → Prop} {x x' : σ × γ} {es : List ε}
    (hstep : ∀ x e s', ok x e → step x.1 e s' → step' x.1 e s')
    (h : Path (Under ok (Recorded next step)) x es x') : Path step' x.1 es x'.1 := by
  induction h with
  | nil => exact .nil _
  | cons hst _ ih => exact .cons (hstep _ _ _ hst.1 hst.2.1) ih

/-! ## Runs that come to an end -/

/-- Whichever steps are taken, they lead to where all is done: until then there is a step to
take, and steps cannot be taken for ever. -/
inductive Settles (step : σ → σ → Prop) (done : σ → Prop) : σ → Prop where
  | done {s : σ} : done s → Settles step done s
  | goesOn {s : σ} : (∃ s', step s s') → (∀ s', step s s' → Settles step done s') →
      Settles step done s

/-- The rule for it: an invariant under which there is a step to take, and a measure that
steps lower. -/
theorem Settles.of_measure {step : σ → σ → Prop} {done I : σ → Prop} (μ : σ → Nat)
    (hprogress : ∀ s, I s → ¬ done s → ∃ s', step s s')
    (hkeeps : ∀ s s', I s → step s s' → I s')
    (hless : ∀ s s', I s → step s s' → μ s' < μ s) {s : σ} (hs : I s) :
    Settles step done s := by
  induction hμ : μ s using Nat.strongRecOn generalizing s with
  | _ k ih =>
    subst hμ
    by_cases hdone : done s
    · exact .done hdone
    · exact .goesOn (hprogress s hs hdone) fun s' hst =>
        ih _ (hless s s' hs hst) (hkeeps s s' hs hst) rfl

/-- Where all is done, more is known. -/
theorem Settles.imp {step : σ → σ → Prop} {done done' I : σ → Prop}
    (hkeeps : ∀ s s', I s → step s s' → I s') (himp : ∀ s, I s → done s → done' s) {s : σ}
    (hs : I s) (h : Settles step done s) : Settles step done' s := by
  induction h with
  | done hdone => exact .done (himp _ hs hdone)
  | goesOn hprogress _ ih => exact .goesOn hprogress fun s' hst => ih s' hst (hkeeps _ s' hs hst)

/-! ## Components

An operation on a component is a total function: it gives something back, an error
among others, and leaves a state. -/

section Components

variable {α : Type*} {o r : Type*}

/-- Perform operations one after another and keep what each gave back. -/
def perform (call : σ → o → r × σ) (s : σ) : List o → List (o × r) × σ
  | [] => ([], s)
  | op :: ops =>
      let rest := perform call (call s op).2 ops
      ((op, (call s op).1) :: rest.1, rest.2)

/-- Forward simulation: if each operation is matched by a step of the specification,
a list of operations is matched by a path. -/
theorem perform_refines {call : σ → o → r × σ} {spec : α → o × r → α → Prop}
    {rel : σ → α → Prop}
    (hcall : ∀ s a op, rel s a → ∃ a', spec a (op, (call s op).1) a' ∧ rel (call s op).2 a')
    {s : σ} {a : α} (h : rel s a) (ops : List o) :
    ∃ a', Path spec a (perform call s ops).1 a' ∧ rel (perform call s ops).2 a' := by
  induction ops generalizing s a with
  | nil => exact ⟨a, .nil a, h⟩
  | cons op ops ih =>
    obtain ⟨a₁, hstep, hrel⟩ := hcall s a op h
    obtain ⟨a', hpath, hrel'⟩ := ih hrel
    exact ⟨a', .cons hstep hpath, hrel'⟩

/-- A system that answers each operation as a component does, and stays related to it, does
so along a path. -/
theorem Path.perform_eq {call : α → o → r × α} {step : σ → o × r → σ → Prop} {rel : σ → α → Prop}
    (hstep : ∀ s a l s', rel s a → step s l s' → l.2 = (call a l.1).1 ∧ rel s' (call a l.1).2)
    {s s' : σ} {a : α} {ls : List (o × r)} (h : Path step s ls s') (hs : rel s a) :
    (perform call a (ls.map Prod.fst)).1 = ls ∧ rel s' (perform call a (ls.map Prod.fst)).2 := by
  induction h generalizing a with
  | nil => exact ⟨rfl, hs⟩
  | @cons s s₁ s' l ls hst _ ih =>
    obtain ⟨hanswer, hrel⟩ := hstep s a l s₁ hs hst
    obtain ⟨hrest, hrel'⟩ := ih hrel
    refine ⟨?_, hrel'⟩
    change (l.1, (call a l.1).1) :: (perform call (call a l.1).2 (ls.map Prod.fst)).1 = _
    rw [hrest, ← hanswer]

end Components

/-! ## Computed runs -/

section Execution

variable {α o : Type*}

/-- Follow a list of actions and keep a history, as long as each step is possible and
allowed. -/
def execute (step : σ → α → Option (σ × o)) (next : γ → σ → α × o → γ)
    (ok : σ × γ → α × o → Prop) [∀ x l, Decidable (ok x l)] (x : σ × γ) :
    List α → Option (σ × γ)
  | [] => some x
  | action :: rest =>
      match step x.1 action with
      | none => none
      | some (s', out) =>
          if ok x (action, out) then
            execute step next ok (s', next x.2 x.1 (action, out)) rest
          else none

/-- A run that has been computed is a path. -/
theorem path_of_execute {step : σ → α → Option (σ × o)} {next : γ → σ → α × o → γ}
    {ok : σ × γ → α × o → Prop} [∀ x l, Decidable (ok x l)] {l : List α} {x x' : σ × γ}
    (h : execute step next ok x l = some x') :
    ∃ ls, Path (Under ok (Recorded next fun s l s' => step s l.1 = some (s', l.2))) x ls x' ∧
      ls.map Prod.fst = l := by
  induction l generalizing x with
  | nil =>
    obtain rfl := Option.some.inj h
    exact ⟨[], .nil x, rfl⟩
  | cons a rest ih =>
    rw [execute] at h
    split at h
    · cases h
    · next s₁ out hstep =>
      split at h
      · next hok =>
        obtain ⟨ls, hpath, rfl⟩ := ih h
        exact ⟨(a, out) :: ls, .cons ⟨hok, hstep, rfl⟩ hpath, rfl⟩
      · cases h

/-- Where a list of allowed actions leads, with its history, is reachable. -/
theorem reachable_of_execute {step : σ → α → Option (σ × o)} {next : γ → σ → α × o → γ}
    {ok : σ × γ → α × o → Prop} [∀ x l, Decidable (ok x l)] {init : σ × γ → Prop}
    {l : List α} {x x' : σ × γ}
    (hx : Reachable init (Under ok (Recorded next fun s l s' => step s l.1 = some (s', l.2))) x)
    (h : execute step next ok x l = some x') :
    Reachable init (Under ok (Recorded next fun s l s' => step s l.1 = some (s', l.2))) x' := by
  obtain ⟨ls, hpath, -⟩ := path_of_execute h
  exact hx.of_path hpath

end Execution

end BufferManager.Lib
