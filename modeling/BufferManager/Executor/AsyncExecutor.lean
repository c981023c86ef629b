/-
  Executor/AsyncExecutor.lean --- the thread pool behind the asynchronous calls.

  Source: `src/buffer_manager.cc`, `AsyncExecutor`.

  A step is a critical section of `mutex_`, a notification, the end of a task, or a
  return from `ready_.wait` without a notification.  `Submit` and the destructor
  notify after they have given up `mutex_`, so the notification is a step of its own;
  the environment chooses the sleeper that `notify_one` wakes.  A task is named by the
  number of `packaged_task` objects made before it: `make_shared` touches nothing that
  is shared and is counted in the critical section that follows it.  What a task does
  is the client's; it may take any time, and what it throws stays in its future.
-/
import BufferManager.Types
import Mathlib.Data.Fintype.Basic

set_option autoImplicit false

namespace BufferManager

/-- Where a worker thread is. -/
inductive Worker where
  /-- About to take `mutex_` and to test the predicate of `ready_.wait`: at the top of its
  loop, or back from the wait. -/
  | awake
  /-- Blocked in `ready_.wait`. -/
  | asleep
  /-- In `task()`. -/
  | running (task : Nat)
  /-- `WorkerLoop` has returned. -/
  | exited
  deriving DecidableEq, Repr

/-- Where the destructor is. -/
inductive Destructor where
  | notCalled
  /-- `stopping_` is set, and `notify_all` has not been called. -/
  | notifying
  /-- The first `joined` workers have been joined. -/
  | joining (joined : Nat)
  deriving DecidableEq, Repr

/-- The executor with its `n` workers and the threads `θ` that submit to it; `notifying`
says that a thread has put its task into the queue and has not called `notify_one`. -/
structure AsyncExecutor (n : Nat) (θ : Type) where
  stopping : Bool
  tasks : List Nat
  made : Nat
  worker : Fin n → Worker
  notifying : θ → Bool
  destructor : Destructor

namespace AsyncExecutor

/-- What may happen next. -/
inductive Action (n : Nat) (θ : Type) where
  | submit (t : θ)
  /-- The `notify_one` at the end of a `Submit`, and the worker it wakes. -/
  | notifyOne (t : θ) (w : Option (Fin n))
  /-- A worker that is awake takes `mutex_`. -/
  | turn (w : Fin n)
  /-- A worker's task returns. -/
  | finish (w : Fin n)
  /-- A worker's wait returns without a notification. -/
  | wake (w : Fin n)
  /-- The destructor's critical section. -/
  | stop
  | notifyAll
  /-- The destructor joins the next worker. -/
  | join
  deriving DecidableEq

/-- What a step does to a task. -/
inductive Effect where
  | silent
  | accepted (task : Nat)
  | refused (e : Error)
  | taken (task : Nat)
  | finished (task : Nat)
  deriving DecidableEq

variable {n : Nat} {θ : Type}

/-- The constructor. -/
def make (workerCount : Nat) : Except Error (AsyncExecutor workerCount θ) :=
  if workerCount = 0 then
    throw ⟨.invalidArgument, "async_worker_count must be greater than zero"⟩
  else
    return {
      stopping := false
      tasks := []
      made := 0
      worker := fun _ => .awake
      notifying := fun _ => false
      destructor := .notCalled }

theorem make_ok {workerCount : Nat} (h : workerCount ≠ 0) :
    ∃ executor : AsyncExecutor workerCount θ, make workerCount = .ok executor :=
  ⟨_, if_neg h⟩

/-- Worker `w` is at `x` now. -/
def setWorker (s : AsyncExecutor n θ) (w : Fin n) (x : Worker) : AsyncExecutor n θ :=
  { s with worker := Function.update s.worker w x }

/-- A notification reaches worker `w`. -/
def wakeWorker : Worker → Worker
  | .asleep => .awake
  | x => x

/-- The critical section of `WorkerLoop`. -/
def workerTurn (s : AsyncExecutor n θ) (w : Fin n) : AsyncExecutor n θ × Effect :=
  match s.tasks with
  | [] => if s.stopping = true then (s.setWorker w .exited, .silent)
      else (s.setWorker w .asleep, .silent)
  | task :: rest => ({ s with tasks := rest }.setWorker w (.running task), .taken task)

variable [DecidableEq θ]

/-- The critical section of `Submit`. -/
def submit (s : AsyncExecutor n θ) (t : θ) : AsyncExecutor n θ × Effect :=
  if s.stopping = true then
    ({ s with made := s.made + 1 }, .refused ⟨.logicError, "async executor is stopping"⟩)
  else
    ({ s with
        tasks := s.tasks ++ [s.made]
        made := s.made + 1
        notifying := Function.update s.notifying t true }, .accepted s.made)

/-- One step, if it is possible. -/
def step (s : AsyncExecutor n θ) : Action n θ → Option (AsyncExecutor n θ × Effect)
  | .submit t => if s.notifying t = false then some (s.submit t) else none
  | .notifyOne t w =>
      if s.notifying t = true then
        let s' := { s with notifying := Function.update s.notifying t false }
        match w with
        | some w => if s.worker w = .asleep then some (s'.setWorker w .awake, .silent) else none
        | none => if ∀ w, s.worker w ≠ .asleep then some (s', .silent) else none
      else none
  | .turn w => if s.worker w = .awake then some (s.workerTurn w) else none
  | .finish w =>
      match s.worker w with
      | .running task => some (s.setWorker w .awake, .finished task)
      | _ => none
  | .wake w => if s.worker w = .asleep then some (s.setWorker w .awake, .silent) else none
  | .stop =>
      if s.destructor = .notCalled then
        some ({ s with stopping := true, destructor := .notifying }, .silent)
      else none
  | .notifyAll =>
      if s.destructor = .notifying then
        some ({ s with
          worker := fun w => wakeWorker (s.worker w)
          destructor := .joining 0 }, .silent)
      else none
  | .join =>
      match s.destructor with
      | .joining k =>
          if h : k < n then
            if s.worker ⟨k, h⟩ = .exited then
              some ({ s with destructor := .joining (k + 1) }, .silent)
            else none
          else none
      | _ => none

/-- A step, with its effect. -/
def Trans (s : AsyncExecutor n θ) (l : Action n θ × Effect) (s' : AsyncExecutor n θ) : Prop :=
  s.step l.1 = some (s', l.2)

/-- What can happen to a worker, a submitter and the destructor in one step. -/
inductive Cases (s : AsyncExecutor n θ) : Action n θ → Effect → AsyncExecutor n θ → Prop where
  | refused (t : θ) : s.stopping = true →
      Cases s (.submit t) (.refused ⟨.logicError, "async executor is stopping"⟩)
        { s with made := s.made + 1 }
  | accepted (t : θ) : s.stopping = false →
      Cases s (.submit t) (.accepted s.made)
        { s with
          tasks := s.tasks ++ [s.made]
          made := s.made + 1
          notifying := Function.update s.notifying t true }
  | notified (t : θ) (w : Fin n) : s.notifying t = true → s.worker w = .asleep →
      Cases s (.notifyOne t (some w)) .silent
        ({ s with notifying := Function.update s.notifying t false }.setWorker w .awake)
  | unheard (t : θ) : s.notifying t = true → (∀ w, s.worker w ≠ .asleep) →
      Cases s (.notifyOne t none) .silent
        { s with notifying := Function.update s.notifying t false }
  | exits (w : Fin n) : s.worker w = .awake → s.tasks = [] → s.stopping = true →
      Cases s (.turn w) .silent (s.setWorker w .exited)
  | sleeps (w : Fin n) : s.worker w = .awake → s.tasks = [] → s.stopping = false →
      Cases s (.turn w) .silent (s.setWorker w .asleep)
  | takes (w : Fin n) (task : Nat) (rest : List Nat) : s.worker w = .awake →
      s.tasks = task :: rest →
      Cases s (.turn w) (.taken task) ({ s with tasks := rest }.setWorker w (.running task))
  | finishes (w : Fin n) (task : Nat) : s.worker w = .running task →
      Cases s (.finish w) (.finished task) (s.setWorker w .awake)
  | wakes (w : Fin n) : s.worker w = .asleep → Cases s (.wake w) .silent (s.setWorker w .awake)
  | stops : s.destructor = .notCalled →
      Cases s .stop .silent { s with stopping := true, destructor := .notifying }
  | notifiesAll : s.destructor = .notifying →
      Cases s .notifyAll .silent
        { s with worker := fun w => wakeWorker (s.worker w), destructor := .joining 0 }
  | joins (k : Nat) (h : k < n) : s.destructor = .joining k → s.worker ⟨k, h⟩ = .exited →
      Cases s .join .silent { s with destructor := .joining (k + 1) }

theorem step_cases {s s' : AsyncExecutor n θ} {a : Action n θ} {e : Effect}
    (h : s.step a = some (s', e)) : Cases s a e s' := by
  cases a with
  | submit t =>
    simp only [step] at h
    split at h
    · unfold submit at h
      split at h
      · next hstop =>
        obtain ⟨rfl, rfl⟩ := Prod.mk.inj (Option.some.inj h)
        exact .refused t hstop
      · next hstop =>
        obtain ⟨rfl, rfl⟩ := Prod.mk.inj (Option.some.inj h)
        exact .accepted t (by simpa using hstop)
    · cases h
  | notifyOne t w =>
    simp only [step] at h
    split at h
    · next ht =>
      split at h
      · next w =>
        split at h
        · next hw =>
          obtain ⟨rfl, rfl⟩ := Prod.mk.inj (Option.some.inj h)
          exact .notified t w ht hw
        · cases h
      · split at h
        · next hall =>
          obtain ⟨rfl, rfl⟩ := Prod.mk.inj (Option.some.inj h)
          exact .unheard t ht hall
        · cases h
    · cases h
  | turn w =>
    simp only [step] at h
    split at h
    · next hw =>
      unfold workerTurn at h
      split at h
      · next htasks =>
        split at h
        · next hstop =>
          obtain ⟨rfl, rfl⟩ := Prod.mk.inj (Option.some.inj h)
          exact .exits w hw htasks hstop
        · next hstop =>
          obtain ⟨rfl, rfl⟩ := Prod.mk.inj (Option.some.inj h)
          exact .sleeps w hw htasks (by simpa using hstop)
      · next task rest htasks =>
        obtain ⟨rfl, rfl⟩ := Prod.mk.inj (Option.some.inj h)
        exact .takes w task rest hw htasks
    · cases h
  | finish w =>
    simp only [step] at h
    split at h
    · next task hw =>
      obtain ⟨rfl, rfl⟩ := Prod.mk.inj (Option.some.inj h)
      exact .finishes w task hw
    · cases h
  | wake w =>
    simp only [step] at h
    split at h
    · next hw =>
      obtain ⟨rfl, rfl⟩ := Prod.mk.inj (Option.some.inj h)
      exact .wakes w hw
    · cases h
  | stop =>
    simp only [step] at h
    split at h
    · next hd =>
      obtain ⟨rfl, rfl⟩ := Prod.mk.inj (Option.some.inj h)
      exact .stops hd
    · cases h
  | notifyAll =>
    simp only [step] at h
    split at h
    · next hd =>
      obtain ⟨rfl, rfl⟩ := Prod.mk.inj (Option.some.inj h)
      exact .notifiesAll hd
    · cases h
  | join =>
    simp only [step] at h
    split at h
    · next k hd =>
      split at h
      · next hk =>
        split at h
        · next hw =>
          obtain ⟨rfl, rfl⟩ := Prod.mk.inj (Option.some.inj h)
          exact .joins k hk hd hw
        · cases h
      · cases h
    · cases h

end AsyncExecutor

end BufferManager
