/-
  Guarantees/AsyncTasks.lean --- the executor runs every accepted task once.

  `Ledger` keeps the tasks in the order in which `Submit` accepted them, workers took
  them, and they ended.  `Accounted` says that the queue is what has been accepted and
  not taken, and that the workers run what has been taken and has not ended; `Attended`
  says that no task waits while nobody is going to look at the queue.
-/
import BufferManager.Executor.AsyncExecutor
import BufferManager.Lib.Transition
import Mathlib.Data.List.Count

set_option autoImplicit false

namespace BufferManager

open BufferManager.Lib

namespace AsyncExecutor

/-- What has become of the tasks. -/
structure Ledger where
  accepted : List Nat := []
  taken : List Nat := []
  finished : List Nat := []

/-- The ledger after an effect. -/
def Ledger.after (g : Ledger) : Effect → Ledger
  | .accepted task => { g with accepted := g.accepted ++ [task] }
  | .taken task => { g with taken := g.taken ++ [task] }
  | .finished task => { g with finished := g.finished ++ [task] }
  | .silent | .refused _ => g

variable {n : Nat} {θ : Type} {s s' : AsyncExecutor n θ} {g : Ledger}

/-- A notification that has been promised is still to come. -/
def Pending (s : AsyncExecutor n θ) : Prop :=
  (∃ t, s.notifying t = true) ∨ s.destructor = .notifying

/-- The tasks are where the ledger says they are. -/
structure Accounted (s : AsyncExecutor n θ) (g : Ledger) : Prop where
  fifo : g.accepted = g.taken ++ s.tasks
  fresh : ∀ i ∈ g.accepted, i < s.made
  nodup : g.accepted.Nodup
  taken_iff : ∀ i, i ∈ g.taken ↔ (∃ w, s.worker w = .running i) ∨ i ∈ g.finished
  alone : ∀ w w' i, s.worker w = .running i → s.worker w' = .running i → w = w'
  not_finished : ∀ w i, s.worker w = .running i → i ∉ g.finished
  finished_nodup : g.finished.Nodup

/-- Nobody sleeps on what has to be done. -/
structure Attended (s : AsyncExecutor n θ) : Prop where
  stopping_iff : s.stopping = true ↔ s.destructor ≠ .notCalled
  exited : ∀ w, s.worker w = .exited → s.stopping = true ∧ s.tasks = []
  attended : s.tasks ≠ [] → s.Pending ∨ ∃ w, s.worker w ≠ .asleep ∧ s.worker w ≠ .exited
  woken : ∀ k, s.destructor = .joining k → ∀ w, s.worker w ≠ .asleep
  joined : ∀ k, s.destructor = .joining k → ∀ w : Fin n, w.val < k → s.worker w = .exited

/-! ## What one step keeps -/

@[simp] theorem setWorker_tasks (s : AsyncExecutor n θ) (w : Fin n) (x : Worker) :
    (s.setWorker w x).tasks = s.tasks := rfl

@[simp] theorem setWorker_made (s : AsyncExecutor n θ) (w : Fin n) (x : Worker) :
    (s.setWorker w x).made = s.made := rfl

@[simp] theorem setWorker_worker (s : AsyncExecutor n θ) (w : Fin n) (x : Worker) :
    (s.setWorker w x).worker = Function.update s.worker w x := rfl

@[simp] theorem setWorker_stopping (s : AsyncExecutor n θ) (w : Fin n) (x : Worker) :
    (s.setWorker w x).stopping = s.stopping := rfl

@[simp] theorem setWorker_notifying (s : AsyncExecutor n θ) (w : Fin n) (x : Worker) :
    (s.setWorker w x).notifying = s.notifying := rfl

@[simp] theorem setWorker_destructor (s : AsyncExecutor n θ) (w : Fin n) (x : Worker) :
    (s.setWorker w x).destructor = s.destructor := rfl

@[simp] theorem wakeWorker_running (x : Worker) (i : Nat) :
    wakeWorker x = .running i ↔ x = .running i := by
  cases x <;> simp [wakeWorker]

@[simp] theorem wakeWorker_exited (x : Worker) : wakeWorker x = .exited ↔ x = .exited := by
  cases x <;> simp [wakeWorker]

@[simp] theorem wakeWorker_ne_asleep (x : Worker) : wakeWorker x ≠ .asleep := by
  cases x <;> simp [wakeWorker]

/-- A worker that runs no task goes where it runs none. -/
theorem running_setWorker {w : Fin n} {x : Worker} (hw : ∀ i, s.worker w ≠ .running i)
    (hx : ∀ i, x ≠ .running i) (u : Fin n) (i : Nat) :
    (s.setWorker w x).worker u = .running i ↔ s.worker u = .running i := by
  by_cases hu : u = w
  · subst hu
    simp [hw i, hx i]
  · simp [hu]

namespace Accounted

/-- Nothing happens to a task. -/
theorem idle (h : Accounted s g) (htasks : s'.tasks = s.tasks) (hmade : s.made ≤ s'.made)
    (hrun : ∀ w i, s'.worker w = .running i ↔ s.worker w = .running i) : Accounted s' g where
  fifo := by rw [htasks, h.fifo]
  fresh i hi := (h.fresh i hi).trans_le hmade
  nodup := h.nodup
  taken_iff i := by simp only [hrun, h.taken_iff]
  alone w w' i hw hw' := h.alone w w' i ((hrun w i).mp hw) ((hrun w' i).mp hw')
  not_finished w i hw := h.not_finished w i ((hrun w i).mp hw)
  finished_nodup := h.finished_nodup

theorem take (h : Accounted s g) {w : Fin n} {task : Nat} {rest : List Nat}
    (hw : s.worker w = .awake) (htasks : s.tasks = task :: rest) :
    Accounted ({ s with tasks := rest }.setWorker w (.running task))
      (g.after (.taken task)) := by
  have hfifo : g.accepted = g.taken ++ task :: rest := by rw [h.fifo, htasks]
  have hnew : task ∉ g.taken := by
    have hnodup := h.nodup
    rw [hfifo, List.nodup_append] at hnodup
    exact fun hmem => hnodup.2.2 task hmem task List.mem_cons_self rfl
  have hold : ∀ u i, s.worker u = .running i → i ≠ task := by
    rintro u i hu rfl
    exact hnew ((h.taken_iff i).mpr (Or.inl ⟨u, hu⟩))
  have hrun : ∀ u i, ({ s with tasks := rest }.setWorker w (.running task)).worker u = .running i ↔
      (u = w ∧ i = task) ∨ s.worker u = .running i := by
    intro u i
    by_cases hu : u = w
    · subst hu
      simp [hw, eq_comm]
    · simp [hu]
  refine ⟨by simp [Ledger.after, hfifo], h.fresh, h.nodup, fun i => ?_, fun u u' i hu hu' => ?_,
    fun u i hu => ?_, h.finished_nodup⟩
  · simp only [Ledger.after, List.mem_append, List.mem_singleton, hrun, h.taken_iff]
    constructor
    · rintro ((⟨u, hu⟩ | hi) | rfl)
      · exact Or.inl ⟨u, Or.inr hu⟩
      · exact Or.inr hi
      · exact Or.inl ⟨w, Or.inl ⟨rfl, rfl⟩⟩
    · rintro (⟨u, ⟨-, rfl⟩ | hu⟩ | hi)
      · exact Or.inr rfl
      · exact Or.inl (Or.inl ⟨u, hu⟩)
      · exact Or.inl (Or.inr hi)
  · rcases (hrun u i).mp hu with ⟨rfl, rfl⟩ | hran
    · rcases (hrun u' i).mp hu' with ⟨rfl, -⟩ | hran'
      · rfl
      · exact absurd rfl (hold u' i hran')
    · rcases (hrun u' i).mp hu' with ⟨-, rfl⟩ | hran'
      · exact absurd rfl (hold u i hran)
      · exact h.alone u u' i hran hran'
  · rcases (hrun u i).mp hu with ⟨-, rfl⟩ | hu
    · exact fun hi => hnew ((h.taken_iff i).mpr (Or.inr hi))
    · exact h.not_finished u i hu

theorem finish (h : Accounted s g) {w : Fin n} {task : Nat} (hw : s.worker w = .running task) :
    Accounted (s.setWorker w .awake) (g.after (.finished task)) := by
  have hrun : ∀ u i, (s.setWorker w .awake).worker u = .running i ↔
      u ≠ w ∧ s.worker u = .running i := by
    intro u i
    by_cases hu : u = w
    · subst hu
      simp
    · simp [hu]
  have hother : ∀ u i, u ≠ w → s.worker u = .running i → i ≠ task := by
    rintro u i hne hu rfl
    exact hne (h.alone u w i hu hw)
  refine ⟨h.fifo, h.fresh, h.nodup, fun i => ?_, fun u u' i hu hu' => ?_, fun u i hu => ?_, ?_⟩
  · simp only [Ledger.after, List.mem_append, List.mem_singleton, hrun, h.taken_iff]
    constructor
    · rintro (⟨u, hu⟩ | hi)
      · by_cases hne : u = w
        · subst hne
          exact Or.inr (Or.inr (Worker.running.inj (hu.symm.trans hw)))
        · exact Or.inl ⟨u, hne, hu⟩
      · exact Or.inr (Or.inl hi)
    · rintro (⟨u, -, hu⟩ | hi | rfl)
      · exact Or.inl ⟨u, hu⟩
      · exact Or.inr hi
      · exact Or.inl ⟨w, hw⟩
  · exact h.alone u u' i ((hrun u i).mp hu).2 ((hrun u' i).mp hu').2
  · obtain ⟨hne, hu⟩ := (hrun u i).mp hu
    simpa [Ledger.after] using ⟨h.not_finished u i hu, hother u i hne hu⟩
  · have hnew := h.not_finished w task hw
    simp only [Ledger.after, List.nodup_append, h.finished_nodup, List.nodup_singleton, true_and,
      List.mem_singleton]
    rintro i hi j rfl rfl
    exact hnew hi

variable [DecidableEq θ]

theorem step {a : Action n θ} {e : Effect} (h : Accounted s g) (hs : s.step a = some (s', e)) :
    Accounted s' (g.after e) := by
  cases step_cases hs with
  | refused t hstop => exact h.idle rfl (Nat.le_succ _) fun _ _ => Iff.rfl
  | accepted t hstop =>
    refine ⟨by simp [Ledger.after, h.fifo], fun i hi => ?_, ?_, h.taken_iff, h.alone,
      h.not_finished, h.finished_nodup⟩
    · rcases List.mem_append.mp hi with hi | hi
      · exact (h.fresh i hi).trans (Nat.lt_succ_self _)
      · obtain rfl := List.mem_singleton.mp hi
        exact Nat.lt_succ_self _
    · simp only [Ledger.after, List.nodup_append, h.nodup, List.nodup_singleton, true_and,
        List.mem_singleton]
      rintro i hi j rfl rfl
      exact lt_irrefl _ (h.fresh _ hi)
  | notified t w ht hw =>
    exact h.idle rfl le_rfl (running_setWorker (s := { s with notifying := _ }) (by simp [hw])
      (by simp))
  | unheard t ht hall => exact h.idle rfl le_rfl fun _ _ => Iff.rfl
  | exits w hw | sleeps w hw => exact h.idle rfl le_rfl (running_setWorker (by simp [hw]) (by simp))
  | takes w task rest hw htasks => exact h.take hw htasks
  | finishes w task hw => exact h.finish hw
  | wakes w hw => exact h.idle rfl le_rfl (running_setWorker (by simp [hw]) (by simp))
  | stops => exact h.idle rfl le_rfl fun _ _ => Iff.rfl
  | notifiesAll => exact h.idle rfl le_rfl fun _ _ => by simp
  | joins => exact h.idle rfl le_rfl fun _ _ => Iff.rfl

end Accounted

namespace Attended

variable [DecidableEq θ]

omit [DecidableEq θ] in
/-- A step that leaves the queue, the destructor and the workers that have exited as they
are, and puts nobody to sleep but where nothing is to be done. -/
theorem keep (h : Attended s) (hstopping : s'.stopping = s.stopping)
    (hdestructor : s'.destructor = s.destructor) (htasks : s'.tasks = s.tasks)
    (hexited : ∀ w, s'.worker w = .exited ↔ s.worker w = .exited)
    (hasleep : ∀ w, s'.worker w = .asleep → s.worker w = .asleep ∨ s.destructor = .notCalled)
    (hattended : s.tasks ≠ [] → s'.Pending ∨ ∃ w, s'.worker w ≠ .asleep ∧ s'.worker w ≠ .exited) :
    Attended s' where
  stopping_iff := by rw [hstopping, hdestructor, h.stopping_iff]
  exited w hw := by
    rw [hstopping, htasks]
    exact h.exited w ((hexited w).mp hw)
  attended hne := hattended (htasks ▸ hne)
  woken k hk w hw := by
    rw [hdestructor] at hk
    rcases hasleep w hw with hold | hnone
    · exact h.woken k hk w hold
    · rw [hk] at hnone
      cases hnone
  joined k hk w hlt := (hexited w).mpr (h.joined k (hdestructor ▸ hk) w hlt)

theorem step (hn : 0 < n) {a : Action n θ} {e : Effect} (h : Attended s)
    (hs : s.step a = some (s', e)) : Attended s' := by
  -- While a task is queued no worker has exited.
  have hbusy : s.tasks ≠ [] → ∀ w, s.worker w ≠ .exited := fun hne w hw => hne (h.exited w hw).2
  have hexited : ∀ {w : Fin n} {x : Worker}, s.worker w ≠ .exited → x ≠ .exited → ∀ u,
      (Function.update s.worker w x) u = .exited ↔ s.worker u = .exited := by
    intro w x hw hx u
    by_cases hu : u = w
    · subst hu
      simp [hw, hx]
    · simp [hu]
  have hasleep : ∀ {w : Fin n} {x : Worker}, x ≠ .asleep → ∀ u,
      (Function.update s.worker w x) u = .asleep → s.worker u = .asleep := by
    intro w x hx u hu
    by_cases huw : u = w
    · subst huw
      simp [hx] at hu
    · simpa [huw] using hu
  cases step_cases hs with
  | refused t hstop =>
    exact h.keep rfl rfl rfl (fun _ => Iff.rfl) (fun _ hw => Or.inl hw) h.attended
  | accepted t hstop =>
    refine ⟨h.stopping_iff, fun w hw => ?_, fun _ => Or.inl (Or.inl ⟨t, by simp⟩), h.woken,
      h.joined⟩
    have := (h.exited w hw).1
    rw [hstop] at this
    cases this
  | notified t w ht hw =>
    refine h.keep rfl rfl rfl (hexited (by simp [hw]) (by simp))
      (fun u hu => Or.inl (hasleep (by simp) u hu)) fun _ => Or.inr ⟨w, ?_⟩
    simp
  | unheard t ht hall =>
    refine h.keep rfl rfl rfl (fun _ => Iff.rfl) (fun _ hw => Or.inl hw) fun hne => Or.inr ?_
    exact ⟨⟨0, hn⟩, hall _, hbusy hne _⟩
  | exits w hw htasks hstop =>
    refine ⟨h.stopping_iff, fun u hu => ⟨hstop, htasks⟩, fun hne => absurd htasks hne,
      fun k hk u hu => h.woken k hk u (hasleep (by simp) u hu), fun k hk u hlt => ?_⟩
    by_cases huw : u = w
    · simp [huw]
    · simpa [huw] using h.joined k hk u hlt
  | sleeps w hw htasks hstop =>
    have hnone : s.destructor = .notCalled := by
      by_contra hne
      rw [h.stopping_iff.mpr hne] at hstop
      cases hstop
    exact h.keep rfl rfl rfl (hexited (by simp [hw]) (by simp)) (fun _ _ => Or.inr hnone)
      fun hne => absurd htasks hne
  | takes w task rest hw htasks =>
    have hnot := hbusy (by simp [htasks])
    refine ⟨h.stopping_iff, fun u hu => ?_, fun _ => Or.inr ⟨w, by simp, by simp⟩,
      fun k hk u hu => h.woken k hk u (hasleep (by simp) u hu), fun k hk u hlt => ?_⟩
    · exact absurd ((hexited (hnot w) (by simp) u).mp hu) (hnot u)
    · exact absurd (h.joined k hk u hlt) (hnot u)
  | finishes w task hw =>
    exact h.keep rfl rfl rfl (hexited (by simp [hw]) (by simp))
      (fun u hu => Or.inl (hasleep (by simp) u hu)) fun _ => Or.inr ⟨w, by simp, by simp⟩
  | wakes w hw =>
    exact h.keep rfl rfl rfl (hexited (by simp [hw]) (by simp))
      (fun u hu => Or.inl (hasleep (by simp) u hu)) fun _ => Or.inr ⟨w, by simp, by simp⟩
  | stops hd =>
    refine ⟨by simp, fun w hw => ⟨rfl, (h.exited w hw).2⟩, fun _ => Or.inl (Or.inr rfl), ?_, ?_⟩
    · intro k hk
      cases hk
    · intro k hk
      cases hk
  | notifiesAll hd =>
    have hstop : s.stopping = true := h.stopping_iff.mpr (by simp [hd])
    refine ⟨by simp [hstop], fun w hw => ⟨hstop, (h.exited w (by simpa using hw)).2⟩,
      fun hne => Or.inr ⟨⟨0, hn⟩, by simp, by simpa using hbusy hne _⟩, fun _ _ w => by simp, ?_⟩
    intro k hk w hlt
    obtain rfl := Destructor.joining.inj hk
    omega
  | joins k hk hd hw =>
    refine ⟨by simp [h.stopping_iff, hd], h.exited, fun hne => ?_, fun _ _ => h.woken k hd, ?_⟩
    · exact absurd hw (hbusy hne _)
    · intro j hj w hlt
      obtain rfl := Destructor.joining.inj hj
      rcases Nat.lt_succ_iff_lt_or_eq.mp hlt with hlt | rfl
      · exact h.joined k hd w hlt
      · exact hw

end Attended

/-! ## Runs -/

variable [DecidableEq θ]

/-- A step of a run in which the ledger is kept. -/
def Kept : AsyncExecutor n θ × Ledger → Action n θ × Effect → AsyncExecutor n θ × Ledger → Prop :=
  Recorded (fun g _ l => g.after l.2) Trans

/-- The executor as constructed. -/
def Initial (x : AsyncExecutor n θ × Ledger) : Prop := make n = .ok x.1 ∧ x.2 = {}

/-- Follow a list of actions, as long as each is possible. -/
def run (x : AsyncExecutor n θ × Ledger) : List (Action n θ) → Option (AsyncExecutor n θ × Ledger)
  | [] => some x
  | a :: rest => (x.1.step a).bind fun y => run (y.1, x.2.after y.2) rest

theorem reachable_of_run {x x' : AsyncExecutor n θ × Ledger} {l : List (Action n θ)}
    (hx : Reachable Initial Kept x) (h : run x l = some x') : Reachable Initial Kept x' := by
  induction l generalizing x with
  | nil =>
    obtain rfl := Option.some.inj h
    exact hx
  | cons a rest ih =>
    obtain ⟨⟨s, e⟩, hstep, hrest⟩ := Option.bind_eq_some_iff.mp h
    have hkept : Kept x (a, e) (s, x.2.after e) := ⟨hstep, rfl⟩
    exact ih (hx.step hkept) hrest

omit [DecidableEq θ] in
theorem initial_spec {x : AsyncExecutor n θ × Ledger} (h : Initial x) :
    0 < n ∧ Accounted x.1 x.2 ∧ Attended x.1 := by
  obtain ⟨s, g⟩ := x
  obtain ⟨hmake, rfl⟩ := h
  unfold make at hmake
  split at hmake
  · cases hmake
  · next hn =>
    obtain rfl := Except.ok.inj hmake
    refine ⟨Nat.pos_of_ne_zero hn, ⟨?_, ?_, ?_, ?_, ?_, ?_, ?_⟩, ⟨?_, ?_, ?_, ?_, ?_⟩⟩ <;> simp

theorem spec_of_reachable {x : AsyncExecutor n θ × Ledger} (h : Reachable Initial Kept x) :
    0 < n ∧ Accounted x.1 x.2 ∧ Attended x.1 := by
  refine h.invariant (I := fun x => 0 < n ∧ Accounted x.1 x.2 ∧ Attended x.1)
    (fun _ => initial_spec) ?_
  rintro ⟨s, g⟩ ⟨a, e⟩ ⟨s', g'⟩ ⟨hn, hA, hT⟩ ⟨hstep, hg⟩
  obtain rfl : g' = g.after e := hg
  exact ⟨hn, hA.step hstep, hT.step hn hstep⟩

/-! ## Every accepted task runs once -/

/-- Wherever `mutex_` is free: an accepted task is queued, running on one worker, or
finished, and in no two of these; the queue is first in, first out; a `Submit` that finds
the executor stopping throws and enqueues nothing; a queued task has a worker or a
notification to come; and when every worker has exited, as the destructor waits for,
every accepted task has finished. -/
theorem runs_tasks_once {x : AsyncExecutor n θ × Ledger} (h : Reachable Initial Kept x) :
    (∀ i, i ∈ x.2.accepted ↔
      i ∈ x.1.tasks ∨ (∃ w, x.1.worker w = .running i) ∨ i ∈ x.2.finished) ∧
    (x.1.tasks.Nodup ∧ x.2.finished.Nodup ∧
      (∀ w w' i, x.1.worker w = .running i → x.1.worker w' = .running i → w = w') ∧
      (∀ i ∈ x.1.tasks, (∀ w, x.1.worker w ≠ .running i) ∧ i ∉ x.2.finished) ∧
      ∀ w i, x.1.worker w = .running i → i ∉ x.2.finished) ∧
    x.2.accepted = x.2.taken ++ x.1.tasks ∧
    (∀ t s' e, x.1.stopping = true → x.1.step (.submit t) = some (s', e) →
      e = .refused ⟨.logicError, "async executor is stopping"⟩ ∧ s'.tasks = x.1.tasks) ∧
    (x.1.tasks ≠ [] → ¬ x.1.Pending → ∃ w, x.1.worker w ≠ .asleep ∧ x.1.worker w ≠ .exited) ∧
    (x.1.destructor = .joining n → ∀ w, x.1.worker w = .exited) ∧
    ((∀ w, x.1.worker w = .exited) → x.1.tasks = [] ∧ ∀ i ∈ x.2.accepted, i ∈ x.2.finished) := by
  obtain ⟨hn, hA, hT⟩ := spec_of_reachable h
  have hmem : ∀ i, i ∈ x.2.accepted ↔
      i ∈ x.1.tasks ∨ (∃ w, x.1.worker w = .running i) ∨ i ∈ x.2.finished := by
    intro i
    rw [hA.fifo, List.mem_append, hA.taken_iff, or_comm]
  have hnodup := hA.nodup
  rw [hA.fifo, List.nodup_append] at hnodup
  have hqueued : ∀ i ∈ x.1.tasks, i ∉ x.2.taken := fun i hi htaken =>
    hnodup.2.2 i htaken i hi rfl
  refine ⟨hmem, ⟨hnodup.2.1, hA.finished_nodup, hA.alone,
      fun i hi => ⟨fun w hw => ?_, fun hf => ?_⟩,
    hA.not_finished⟩, hA.fifo, fun t s' e hstop hstep => ?_, fun hne hpending => ?_,
    fun hd w => hT.joined n hd w w.isLt, fun hexited => ?_⟩
  · exact hqueued i hi ((hA.taken_iff i).mpr (Or.inl ⟨w, hw⟩))
  · exact hqueued i hi ((hA.taken_iff i).mpr (Or.inr hf))
  · cases step_cases hstep with
    | refused => exact ⟨rfl, rfl⟩
    | accepted _ hrunning =>
      rw [hstop] at hrunning
      cases hrunning
  · exact (hT.attended hne).resolve_left hpending
  · have htasks := (hT.exited ⟨0, hn⟩ (hexited _)).2
    refine ⟨htasks, fun i hi => ?_⟩
    rcases (hmem i).mp hi with hq | ⟨w, hw⟩ | hf
    · rw [htasks] at hq
      cases hq
    · rw [hexited w] at hw
      cases hw
    · exact hf

/-- Two workers: a task is submitted and taken, the destructor stops the executor, and
both workers exit. -/
theorem runs_tasks_once_stopped : ∃ x : AsyncExecutor 2 (Fin 1) × Ledger,
    x.2.accepted = [0] ∧ (∀ w, x.1.worker w = .exited) ∧ x.1.tasks = [] ∧ 0 ∈ x.2.finished := by
  obtain ⟨s, hs⟩ : ∃ s : AsyncExecutor 2 (Fin 1), make 2 = .ok s := ⟨_, rfl⟩
  have hrun : ((run (s, {}) [.turn 0, .submit 0, .notifyOne 0 (some 0), .turn 0, .turn 1, .stop,
      .notifyAll, .turn 1, .finish 0, .turn 0]).any fun x =>
        decide (x.2.accepted = [0] ∧ ∀ w, x.1.worker w = .exited)) = true := by
    obtain rfl := Except.ok.inj hs
    decide
  obtain ⟨x, hx, hfacts⟩ := (Option.any_eq_true _ _).mp hrun
  obtain ⟨haccepted, hexited⟩ := of_decide_eq_true hfacts
  have hlast := (runs_tasks_once (reachable_of_run (.init ⟨hs, rfl⟩) hx)).2.2.2.2.2.2 hexited
  exact ⟨x, haccepted, hexited, hlast.1, hlast.2 0 (by simp [haccepted])⟩

end AsyncExecutor

end BufferManager
