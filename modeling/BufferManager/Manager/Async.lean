/-
  Manager/Async.lean --- the asynchronous calls: requests, futures, and the workers that
  make the calls.

  Source: `src/buffer_manager.cc`, `NewPageAsync` to `DeletePageAsync`, `SyncAsync`, and
  the `packaged_task` of `AsyncExecutor::Submit`.

  An asynchronous call submits a task to the executor and hands its future to the client.
  The worker that has taken the task makes the call in it, on its own thread; what the
  call returns or throws goes into the future, and only then does the task return.  The
  threads of the machine are those of the clients and those of the workers.
-/
import BufferManager.Executor.AsyncExecutor
import BufferManager.Manager.Machine

set_option autoImplicit false

namespace BufferManager

open BufferManager.Lib

/-- What an asynchronous call asks for. -/
inductive Request where
  | call (c : Call)
  | sync
  deriving DecidableEq, Repr

/-- How far a worker is with the call of its task. -/
inductive Stage where
  /-- In no task, or in one whose call has not begun. -/
  | outside
  | calling
  /-- The call has ended, and the future is not ready. -/
  | called (reply : Reply)
  /-- The future is ready, and the task about to return. -/
  | replied

/-- The future is ready. -/
def Stage.isReplied : Stage → Bool
  | .replied => true
  | .outside | .calling | .called _ => false

theorem Stage.of_isReplied {x : Stage} (h : x.isReplied = true) : x = .replied := by
  cases x with
  | replied => rfl
  | outside | calling | called => cases h

/-- The task a worker runs. -/
def Worker.task : Worker → Option Nat
  | .running task => some task
  | .awake | .asleep | .exited => none

theorem Worker.task_eq_some {x : Worker} {i : Nat} : x.task = some i ↔ x = .running i := by
  cases x <;> simp [Worker.task]

/-- How a machine step begins the call of a request. -/
def Request.action {τ : Type} (t : τ) : Request → Machine.Action τ
  | .call c => .act (.call t c)
  | .sync => .sync t

@[simp] theorem Request.begins_action {τ : Type} (t : τ) (r : Request) :
    (r.action t).begins = some t := by
  cases r <;> rfl

@[simp] theorem Request.resumes_action {τ : Type} (t : τ) (r : Request) :
    (r.action t).resumes = none := by
  cases r <;> rfl

/-- The machine, the executor with its `W` workers, and the tasks: what each was made for,
and what its future holds. -/
structure Async (W : Nat) (R θ : Type) where
  machine : Machine R (θ ⊕ Fin W)
  executor : AsyncExecutor W θ
  request : Nat → Option Request
  future : Nat → Option Reply
  stage : Fin W → Stage

namespace Async

/-- What may happen next. -/
inductive Action (W : Nat) (θ : Type) where
  /-- A client makes an asynchronous call. -/
  | submit (t : θ) (r : Request)
  /-- A step of the executor other than a `Submit`. -/
  | executor (action : AsyncExecutor.Action W θ)
  /-- A worker begins the call of its task. -/
  | begin (w : Fin W)
  /-- A step of the machine, by which no worker begins a call. -/
  | machine (action : Machine.Action (θ ⊕ Fin W))
  /-- A worker makes the future of its task ready. -/
  | reply (w : Fin W)

/-- What a step tells. -/
inductive Event (W : Nat) (θ : Type) where
  | submitted (r : Request) (effect : AsyncExecutor.Effect)
  | executor (effect : AsyncExecutor.Effect)
  | began (task : Nat) (r : Request) (out : Outcome)
  | ended (task : Nat) (reply : Reply)
  | machine (action : Machine.Action (θ ⊕ Fin W)) (out : Outcome)
  | replied (task : Nat)

variable {W : Nat} {R θ : Type}

/-- The worker that ends the call of its task with this step, the task and the reply. -/
def ends (s : Async W R θ) (action : Machine.Action (θ ⊕ Fin W)) (out : Outcome) :
    Option (Fin W × Nat × Reply) :=
  match action.resumes with
  | some (.inr w) =>
      match (s.executor.worker w).task, out.reply with
      | some task, some reply => some (w, task, reply)
      | _, _ => none
  | _ => none

/-- A worker's call goes on or has ended. -/
def stageOf (out : Outcome) : Stage :=
  match out.reply with
  | some reply => .called reply
  | none => .calling

/-- Worker `w` is at stage `x` now. -/
def setStage (s : Async W R θ) (w : Fin W) (x : Stage) : Async W R θ :=
  { s with stage := Function.update s.stage w x }

/-- Where a step of the machine leaves the worker whose call it may have ended. -/
def settle (s : Async W R θ) (action : Machine.Action (θ ⊕ Fin W))
    (m : Machine R (θ ⊕ Fin W)) (out : Outcome) : Async W R θ × Event W θ :=
  match s.ends action out with
  | some (w, task, reply) =>
      ({ s with machine := m }.setStage w (.called reply), .ended task reply)
  | none => ({ s with machine := m }, .machine action out)

variable [DecidableEq θ]

/-- No worker begins a call with the step, and no client that is in `Submit`. -/
def admits (s : Async W R θ) (action : Machine.Action (θ ⊕ Fin W)) : Bool :=
  match action.begins with
  | some (.inl t) => !s.executor.notifying t
  | some (.inr _) => false
  | none => true

/-- The worker has done all that its step needs: its task returns when the future is
ready. -/
def ready (s : Async W R θ) : AsyncExecutor.Action W θ → Bool
  | .finish w => (s.stage w).isReplied
  | .submit _ => false
  | _ => true

/-- A worker whose task returns is in none. -/
def release (s : Async W R θ) : AsyncExecutor.Action W θ → Async W R θ
  | .finish w => s.setStage w .outside
  | _ => s

variable [Replacer R]

/-- One step, if it is possible. -/
def step (s : Async W R θ) : Action W θ → Option (Async W R θ × Event W θ)
  | .submit t r =>
      if s.machine.system.pc (.inl t) = .idle ∧ ¬ s.machine.InSync (.inl t) then
        (s.executor.step (.submit t)).map fun y =>
          ({ s with
            executor := y.1
            request := Function.update s.request s.executor.made (some r) }, .submitted r y.2)
      else none
  | .executor action =>
      if s.ready action = true then
        (s.executor.step action).map fun y =>
          ({ s with executor := y.1 }.release action, .executor y.2)
      else none
  | .begin w =>
      match (s.executor.worker w).task, s.stage w with
      | some task, .outside =>
          (s.request task).bind fun r =>
            (s.machine.step (r.action (.inr w))).map fun y =>
              ({ s with machine := y.1 }.setStage w (stageOf y.2), .began task r y.2)
      | _, _ => none
  | .machine action =>
      if s.admits action = true then
        (s.machine.step action).map fun y => s.settle action y.1 y.2
      else none
  | .reply w =>
      match (s.executor.worker w).task, s.stage w with
      | some task, .called reply =>
          some ({ s with future := Function.update s.future task (some reply) }.setStage w .replied,
            .replied task)
      | _, _ => none

/-- The process goes on. -/
def Event.survived : Event W θ → Bool
  | .machine _ out => out.survived
  | _ => true

/-- A step that the process survives. -/
def Trans (s : Async W R θ) (l : Action W θ × Event W θ) (s' : Async W R θ) : Prop :=
  s.step l.1 = some (s', l.2) ∧ l.2.survived = true

/-- A buffer manager as constructed: no task has been made. -/
def Initial [LawfulReplacer R] (frameCount maxPageCount : Nat) (s : Async W R θ) : Prop :=
  Machine.Initial frameCount maxPageCount s.machine ∧ AsyncExecutor.make W = .ok s.executor ∧
    (∀ i, s.request i = none) ∧ (∀ i, s.future i = none) ∧ ∀ w, s.stage w = .outside

/-- A buffer manager that makes its own replacer, over a file and a medium of zeros. -/
def makeWithClock (frameCount maxPageCount : Nat) : Except Error (Async W ClockReplacer θ) := do
  let system ← System.makeWithClock frameCount maxPageCount fun _ => Page.zero
  let executor ← AsyncExecutor.make W
  return {
    machine := ⟨system, fun _ => Page.zero, fun _ _ => false, ∅, none⟩
    executor := executor
    request := fun _ => none
    future := fun _ => none
    stage := fun _ => .outside }

/-- What can happen in one step. -/
inductive Cases (s : Async W R θ) : Action W θ → Event W θ → Async W R θ → Prop where
  | submit (t : θ) (r : Request) (x : AsyncExecutor W θ) (e : AsyncExecutor.Effect) :
      s.machine.system.pc (.inl t) = .idle → ¬ s.machine.InSync (.inl t) →
      s.executor.step (.submit t) = some (x, e) →
      Cases s (.submit t r) (.submitted r e)
        { s with
          executor := x
          request := Function.update s.request s.executor.made (some r) }
  | executor (action : AsyncExecutor.Action W θ) (x : AsyncExecutor W θ)
      (e : AsyncExecutor.Effect) : (∀ t, action ≠ .submit t) → (∀ w, action ≠ .finish w) →
      s.executor.step action = some (x, e) →
      Cases s (.executor action) (.executor e) { s with executor := x }
  | finish (w : Fin W) (x : AsyncExecutor W θ) (e : AsyncExecutor.Effect) :
      s.stage w = .replied → s.executor.step (.finish w) = some (x, e) →
      Cases s (.executor (.finish w)) (.executor e) ({ s with executor := x }.setStage w .outside)
  | begin (w : Fin W) (task : Nat) (r : Request) (m : Machine R (θ ⊕ Fin W)) (out : Outcome) :
      s.executor.worker w = .running task → s.stage w = .outside → s.request task = some r →
      s.machine.step (r.action (.inr w)) = some (m, out) →
      Cases s (.begin w) (.began task r out) ({ s with machine := m }.setStage w (stageOf out))
  | ended (action : Machine.Action (θ ⊕ Fin W)) (w : Fin W) (task : Nat) (reply : Reply)
      (m : Machine R (θ ⊕ Fin W)) (out : Outcome) : s.admits action = true →
      s.machine.step action = some (m, out) → action.resumes = some (.inr w) →
      s.executor.worker w = .running task → out.reply = some reply →
      Cases s (.machine action) (.ended task reply)
        ({ s with machine := m }.setStage w (.called reply))
  | machine (action : Machine.Action (θ ⊕ Fin W)) (m : Machine R (θ ⊕ Fin W)) (out : Outcome) :
      s.admits action = true → s.machine.step action = some (m, out) →
      s.ends action out = none →
      Cases s (.machine action) (.machine action out) { s with machine := m }
  | reply (w : Fin W) (task : Nat) (reply : Reply) : s.executor.worker w = .running task →
      s.stage w = .called reply →
      Cases s (.reply w) (.replied task)
        ({ s with future := Function.update s.future task (some reply) }.setStage w .replied)

omit [DecidableEq θ] [Replacer R] in
theorem ends_eq_some {s : Async W R θ} {action : Machine.Action (θ ⊕ Fin W)} {out : Outcome}
    {w : Fin W} {task : Nat} {reply : Reply} (h : s.ends action out = some (w, task, reply)) :
    action.resumes = some (.inr w) ∧ s.executor.worker w = .running task ∧
      out.reply = some reply := by
  unfold ends at h
  split at h
  · next u hu =>
    split at h
    · next i a hi ha =>
      obtain ⟨rfl, rfl, rfl⟩ : u = w ∧ i = task ∧ a = reply := by simpa using h
      exact ⟨hu, Worker.task_eq_some.mp hi, ha⟩
    · cases h
  · cases h

omit [DecidableEq θ] [Replacer R] in
theorem reply_eq_none_of_ends {s : Async W R θ} {action : Machine.Action (θ ⊕ Fin W)}
    {out : Outcome} {w : Fin W} {task : Nat} (h : s.ends action out = none)
    (hresumes : action.resumes = some (.inr w)) (hw : s.executor.worker w = .running task) :
    out.reply = none := by
  cases hreply : out.reply with
  | none => rfl
  | some reply => simp [ends, hresumes, hw, Worker.task, hreply] at h

theorem step_cases {s s' : Async W R θ} {action : Action W θ} {e : Event W θ}
    (h : s.step action = some (s', e)) : s.Cases action e s' := by
  cases action with
  | submit t r =>
    simp only [step] at h
    split at h
    · next hfree =>
      obtain ⟨⟨x, e⟩, hx, heq⟩ := Option.map_eq_some_iff.mp h
      obtain ⟨rfl, rfl⟩ := Prod.mk.inj heq
      exact .submit t r x e hfree.1 hfree.2 hx
    · cases h
  | executor action =>
    simp only [step] at h
    split at h
    · next hready =>
      obtain ⟨⟨x, e⟩, hx, heq⟩ := Option.map_eq_some_iff.mp h
      obtain ⟨rfl, rfl⟩ := Prod.mk.inj heq
      cases action with
      | submit t => cases hready
      | finish w => exact .finish w x e (Stage.of_isReplied hready) hx
      | notifyOne | turn | wake | stop | notifyAll | join =>
        exact .executor _ x e (by simp) (by simp) hx
    · cases h
  | begin w =>
    simp only [step] at h
    split at h
    · next task htask hstage =>
      obtain ⟨r, hr, h⟩ := Option.bind_eq_some_iff.mp h
      obtain ⟨⟨m, out⟩, hm, heq⟩ := Option.map_eq_some_iff.mp h
      obtain ⟨rfl, rfl⟩ := Prod.mk.inj heq
      exact .begin w task r m out (Worker.task_eq_some.mp htask) hstage hr hm
    · cases h
  | machine action =>
    simp only [step] at h
    split at h
    · next hadmits =>
      obtain ⟨⟨m, out⟩, hm, heq⟩ := Option.map_eq_some_iff.mp h
      unfold settle at heq
      split at heq
      · next w task reply hends =>
        obtain ⟨hresumes, hworker, hreply⟩ := ends_eq_some hends
        obtain ⟨rfl, rfl⟩ := Prod.mk.inj heq
        exact .ended action w task reply m out hadmits hm hresumes hworker hreply
      · next hends =>
        obtain ⟨rfl, rfl⟩ := Prod.mk.inj heq
        exact .machine action m out hadmits hm hends
    · cases h
  | reply w =>
    simp only [step] at h
    split at h
    · next task reply htask hstage =>
      obtain ⟨rfl, rfl⟩ := Prod.mk.inj (Option.some.inj h)
      exact .reply w task reply (Worker.task_eq_some.mp htask) hstage
    · cases h

end Async

end BufferManager
