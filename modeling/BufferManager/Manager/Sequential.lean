/-
  Manager/Sequential.lean --- one thread, and a call of it from its beginning.

  With one thread nothing happens between two locked pieces of a call but the call's
  own transfers.  `Executes` follows a call from the state in which it began, through
  any pattern of transfers that fail.
-/
import BufferManager.Manager.Trace

set_option autoImplicit false

namespace BufferManager

/-- The action is a use of a guard. -/
def Action.onGuard {τ : Type} : Action τ → Bool
  | .read _ | .write _ _ | .markDirty _ | .drop _ | .destroy _ | .moveConstruct _
  | .moveAssign _ _ => true
  | .call _ _ | .resume _ | .transfer _ | .failRead _ _ _ | .failWrite _ _ _ => false

namespace System

variable {R : Type}

/-- The live guards on page `p`. -/
def guardsOf {τ : Type} (s : System R τ) (p : Nat) : Nat :=
  s.guards.countP fun gd => gd.valid && gd.pageId == p

/-- Fewer than `2 ^ 32 - 1` guards are live on each page. -/
def FewGuards {τ : Type} (s : System R τ) : Prop :=
  ∀ gd ∈ s.guards, gd.valid = true → s.guardsOf gd.pageId < maxPinCount

instance {τ : Type} (s : System R τ) : Decidable s.FewGuards :=
  inferInstanceAs (Decidable
    (∀ gd ∈ s.guards, gd.valid = true → s.guardsOf gd.pageId < maxPinCount))

variable [Replacer R]

/-- The only thread's `call`, begun in `s`, has come to `s'`, and its last step ended with
the outcome; `failure` is the error of the last of its transfers that failed. -/
inductive Executes (s : System R Unit) (call : Call) :
    Option Error → System R Unit → Outcome → Prop where
  | begin {s' : System R Unit} {out : Outcome} : s.step (.call () call) = some (s', out) →
      Executes s call none s' out
  | resume {failure : Option Error} {m s' : System R Unit} {out : Outcome} :
      Executes s call failure m .suspended → m.step (.resume ()) = some (s', out) →
      Executes s call failure s' out
  | transfer {failure : Option Error} {m s' : System R Unit} {out : Outcome} :
      Executes s call failure m .suspended → m.step (.transfer ()) = some (s', out) →
      Executes s call failure s' out
  | failRead {failure : Option Error} {m s' : System R Unit} {out : Outcome} (left : Page)
      (e : Error) : Executes s call failure m .suspended →
      m.step (.failRead () left e) = some (s', out) → Executes s call (some e) s' out
  | failWrite {failure : Option Error} {m s' : System R Unit} {out : Outcome} (k : Nat)
      (e : Error) : Executes s call failure m .suspended →
      m.step (.failWrite () k e) = some (s', out) → Executes s call (some e) s' out

/-- A call begins where the thread is in none. -/
theorem Executes.idle {s s' : System R Unit} {call : Call} {failure : Option Error} {out : Outcome}
    (h : s.Executes call failure s' out) : s.pc () = .idle := by
  induction h with
  | begin hstep =>
    simp only [step] at hstep
    split at hstep
    · next hidle => exact hidle
    · cases hstep
  | resume _ _ ih | transfer _ _ ih | failRead _ _ _ _ ih | failWrite _ _ _ _ ih => exact ih

/-- Go on with a call through a list of actions. -/
def goOn (failure : Option Error) (m : System R Unit) (out : Outcome) :
    List (Action Unit) → Option (Option Error × System R Unit × Outcome)
  | [] => some (failure, m, out)
  | action :: rest =>
      match out, action with
      | .suspended, .resume t => (m.step (.resume t)).bind fun y => goOn failure y.1 y.2 rest
      | .suspended, .transfer t => (m.step (.transfer t)).bind fun y => goOn failure y.1 y.2 rest
      | .suspended, .failRead t left e =>
          (m.step (.failRead t left e)).bind fun y => goOn (some e) y.1 y.2 rest
      | .suspended, .failWrite t k e =>
          (m.step (.failWrite t k e)).bind fun y => goOn (some e) y.1 y.2 rest
      | _, _ => none

/-- Follow a call from its beginning. -/
def execute (s : System R Unit) (call : Call) (l : List (Action Unit)) :
    Option (Option Error × System R Unit × Outcome) :=
  (s.step (.call () call)).bind fun y => goOn none y.1 y.2 l

theorem executes_of_goOn {s : System R Unit} {call : Call} {l : List (Action Unit)}
    {failure failure' : Option Error} {m s' : System R Unit} {out out' : Outcome}
    (hexec : s.Executes call failure m out)
    (h : goOn failure m out l = some (failure', s', out')) : s.Executes call failure' s' out' := by
  induction l generalizing failure m out with
  | nil =>
    cases h
    exact hexec
  | cons action rest ih =>
    unfold goOn at h
    split at h
    · obtain ⟨y, hy, hrest⟩ := Option.bind_eq_some_iff.mp h
      exact ih (hexec.resume hy) hrest
    · obtain ⟨y, hy, hrest⟩ := Option.bind_eq_some_iff.mp h
      exact ih (hexec.transfer hy) hrest
    · obtain ⟨y, hy, hrest⟩ := Option.bind_eq_some_iff.mp h
      exact ih (hexec.failRead _ _ hy) hrest
    · obtain ⟨y, hy, hrest⟩ := Option.bind_eq_some_iff.mp h
      exact ih (hexec.failWrite _ _ hy) hrest
    · cases h

/-- What has been followed is what the call does. -/
theorem executes_of_execute {s s' : System R Unit} {call : Call} {l : List (Action Unit)}
    {failure : Option Error} {out : Outcome} (h : s.execute call l = some (failure, s', out)) :
    s.Executes call failure s' out := by
  obtain ⟨y, hy, hrest⟩ := Option.bind_eq_some_iff.mp h
  exact executes_of_goOn (.begin hy) hrest

end System

end BufferManager
