/-
  Guarantees/AsyncCalls.lean --- every asynchronous call is made once, and its future gets
  what it returned or threw.

  `Log` keeps the tasks the executor accepted with their requests, the calls that workers
  began for them, and how these ended.  A task has come past a point of its course when it
  is finished or its worker is past that point; `Tracked` says that the log and the
  futures have what the tasks have come past.
-/
import BufferManager.Guarantees.AsyncTasks
import BufferManager.Manager.Async
import BufferManager.Refinement.Runs

set_option autoImplicit false

namespace BufferManager

open BufferManager.Lib

/-- The task that has been accepted. -/
def AsyncExecutor.Effect.accepts : AsyncExecutor.Effect → Option Nat
  | .accepted task => some task
  | .silent | .refused _ | .taken _ | .finished _ => none

/-- The call has begun. -/
def Stage.Begun : Stage → Prop
  | .outside => False
  | .calling | .called _ | .replied => True

/-- The call has ended. -/
def Stage.Ended : Stage → Prop
  | .outside | .calling => False
  | .called _ | .replied => True

/-- The future is ready. -/
def Stage.Replied (x : Stage) : Prop := x = .replied

namespace Async

/-- What has become of the requests. -/
structure Log where
  tasks : AsyncExecutor.Ledger := {}
  accepted : List (Nat × Request) := []
  begun : List (Nat × Request) := []
  ended : List (Nat × Reply) := []

variable {W : Nat} {R θ : Type}

/-- The log after an event. -/
def Log.after (g : Log) : Event W θ → Log
  | .submitted r e =>
      { g with
        tasks := g.tasks.after e
        accepted := g.accepted ++ (e.accepts.map (·, r)).toList }
  | .executor e => { g with tasks := g.tasks.after e }
  | .began task r out =>
      { g with
        begun := g.begun ++ [(task, r)]
        ended := g.ended ++ (out.reply.map (task, ·)).toList }
  | .ended task reply => { g with ended := g.ended ++ [(task, reply)] }
  | .machine _ _ | .replied _ => g

/-- The task is finished, or its worker is at a stage with a property. -/
def Passed (s : Async W R θ) (g : Log) (P : Stage → Prop) (i : Nat) : Prop :=
  i ∈ g.tasks.finished ∨ ∃ w, s.executor.worker w = .running i ∧ P (s.stage w)

variable [DecidableEq θ]

/-- The log and the futures have what the tasks have come past. -/
structure Tracked (s : Async W R θ) (g : Log) : Prop where
  accepted : g.accepted.map Prod.fst = g.tasks.accepted
  request : ∀ y ∈ g.accepted, s.request y.1 = some y.2
  begun : ∀ i, i ∈ g.begun.map Prod.fst ↔ s.Passed g Stage.Begun i
  begun_accepted : ∀ y ∈ g.begun, y ∈ g.accepted
  begun_nodup : (g.begun.map Prod.fst).Nodup
  ended : ∀ i, i ∈ g.ended.map Prod.fst ↔ s.Passed g Stage.Ended i
  ended_nodup : (g.ended.map Prod.fst).Nodup
  called : ∀ w i r, s.executor.worker w = .running i → s.stage w = .called r → (i, r) ∈ g.ended
  future : ∀ i, s.future i ≠ none ↔ s.Passed g Stage.Replied i
  future_ended : ∀ i r, s.future i = some r → (i, r) ∈ g.ended
  outside : ∀ w, (∀ i, s.executor.worker w ≠ .running i) → s.stage w = .outside
  quiet : ∀ w, s.stage w ≠ .calling → s.machine.Quiet (.inr w)

variable {s s' : Async W R θ} {g : Log} {P : Stage → Prop}

/-! ## Coming past a point -/

omit [DecidableEq θ] in
theorem Passed.congr {g' : Log} {i : Nat} (hfinished : g'.tasks.finished = g.tasks.finished)
    (hworker : ∀ w, s'.executor.worker w = .running i ↔ s.executor.worker w = .running i)
    (hstage : s'.stage = s.stage) : s'.Passed g' P i ↔ s.Passed g P i := by
  unfold Passed
  rw [hfinished, hstage]
  exact or_congr_right (exists_congr fun w => and_congr_left fun _ => hworker w)

omit [DecidableEq θ] in
/-- A worker comes from one stage of its task to another. -/
theorem passed_setStage {w : Fin W} {i j : Nat} {x : Stage} {g' : Log}
    (halone : ∀ u, s.executor.worker u = .running i → u = w)
    (hw : s.executor.worker w = .running i) (hexecutor : s'.executor = s.executor)
    (hstage : s'.stage = Function.update s.stage w x)
    (hfinished : g'.tasks.finished = g.tasks.finished) (hkeeps : P (s.stage w) → P x) :
    s'.Passed g' P j ↔ s.Passed g P j ∨ (j = i ∧ P x) := by
  unfold Passed
  rw [hfinished, hexecutor, hstage]
  constructor
  · rintro (hj | ⟨u, hu, hP⟩)
    · exact Or.inl (Or.inl hj)
    · by_cases huw : u = w
      · subst huw
        rw [Function.update_self] at hP
        exact Or.inr ⟨Worker.running.inj (hu.symm.trans hw), hP⟩
      · rw [Function.update_of_ne huw] at hP
        exact Or.inl (Or.inr ⟨u, hu, hP⟩)
  · rintro ((hj | ⟨u, hu, hP⟩) | ⟨rfl, hP⟩)
    · exact Or.inl hj
    · refine Or.inr ⟨u, hu, ?_⟩
      by_cases huw : u = w
      · subst huw
        rw [Function.update_self]
        exact hkeeps hP
      · rwa [Function.update_of_ne huw]
    · refine Or.inr ⟨w, hw, ?_⟩
      rwa [Function.update_self]

/-! ## What one step keeps -/

namespace Tracked

open AsyncExecutor (Accounted)

omit [DecidableEq θ] in
theorem request_lt (h : Tracked s g) (hA : Accounted s.executor g.tasks) {y : Nat × Request}
    (hy : y ∈ g.accepted) : y.1 < s.executor.made := by
  refine hA.fresh _ ?_
  rw [← h.accepted]
  exact List.mem_map_of_mem hy

/-- A submission. -/
theorem submit (h : Tracked s g) (hA : Accounted s.executor g.tasks) {t : θ} {r : Request}
    {x : AsyncExecutor W θ} {e : AsyncExecutor.Effect}
    (hx : s.executor.step (.submit t) = some (x, e)) :
    Tracked { s with
      executor := x
      request := Function.update s.request s.executor.made (some r) }
      (g.after (.submitted r e : Event W θ)) := by
  have hworker : x.worker = s.executor.worker := by
    cases AsyncExecutor.step_cases hx <;> rfl
  have hfinished : (g.tasks.after e).finished = g.tasks.finished := by
    cases AsyncExecutor.step_cases hx <;> rfl
  have hpassed : ∀ {P : Stage → Prop} {i : Nat}, Passed { s with
      executor := x
      request := Function.update s.request s.executor.made (some r) }
      (g.after (.submitted r e : Event W θ)) P i ↔ s.Passed g P i :=
    Passed.congr hfinished (fun w => by rw [hworker]) rfl
  have hrequest : ∀ y ∈ g.accepted ++ (e.accepts.map (·, r)).toList,
      Function.update s.request s.executor.made (some r) y.1 = some y.2 := by
    intro y hy
    rcases List.mem_append.mp hy with hold | hnew
    · rw [Function.update_of_ne (h.request_lt hA hold).ne, h.request y hold]
    · cases AsyncExecutor.step_cases hx with
      | refused => cases hnew
      | accepted =>
        obtain rfl := List.mem_singleton.mp hnew
        exact Function.update_self _ _ _
  have haccepted : (g.accepted ++ (e.accepts.map (·, r)).toList).map Prod.fst =
      (g.tasks.after e).accepted := by
    rw [List.map_append, h.accepted]
    cases AsyncExecutor.step_cases hx with
    | refused => exact List.append_nil _
    | accepted => rfl
  exact {
    accepted := haccepted
    request := hrequest
    begun := fun i => (h.begun i).trans hpassed.symm
    begun_accepted := fun y hy => List.mem_append_left _ (h.begun_accepted y hy)
    begun_nodup := h.begun_nodup
    ended := fun i => (h.ended i).trans hpassed.symm
    ended_nodup := h.ended_nodup
    called := fun w i r hw => h.called w i r (hworker ▸ hw)
    future := fun i => (h.future i).trans hpassed.symm
    future_ended := h.future_ended
    outside := fun w hw => h.outside w (hworker ▸ hw)
    quiet := h.quiet }

omit [DecidableEq θ] in
/-- A step of the executor that neither takes nor ends a task. -/
theorem idle (h : Tracked s g) {x : AsyncExecutor W θ}
    (hrun : ∀ w i, x.worker w = .running i ↔ s.executor.worker w = .running i) :
    Tracked { s with executor := x } g := by
  have hpassed : ∀ {P : Stage → Prop} {i : Nat},
      Passed { s with executor := x } g P i ↔ s.Passed g P i :=
    Passed.congr rfl (fun w => hrun w _) rfl
  exact {
    accepted := h.accepted
    request := h.request
    begun := fun i => (h.begun i).trans hpassed.symm
    begun_accepted := h.begun_accepted
    begun_nodup := h.begun_nodup
    ended := fun i => (h.ended i).trans hpassed.symm
    ended_nodup := h.ended_nodup
    called := fun w i r hw => h.called w i r ((hrun w i).mp hw)
    future := fun i => (h.future i).trans hpassed.symm
    future_ended := h.future_ended
    outside := fun w hw => h.outside w fun i hi => hw i ((hrun w i).mpr hi)
    quiet := h.quiet }

omit [DecidableEq θ] in
/-- A worker takes a task. -/
theorem take (h : Tracked s g) {w : Fin W} {task : Nat} {rest : List Nat}
    (hw : s.executor.worker w = .awake) :
    Tracked { s with executor := { s.executor with tasks := rest }.setWorker w (.running task) }
      (g.after (.executor (.taken task) : Event W θ)) := by
  have hstage : s.stage w = .outside := h.outside w (by simp [hw])
  have hrun : ∀ {P : Stage → Prop}, ¬ P .outside → ∀ u i,
      (Function.update s.executor.worker w (.running task) u = .running i ∧ P (s.stage u)) ↔
        (s.executor.worker u = .running i ∧ P (s.stage u)) := by
    intro P hP u i
    by_cases huw : u = w
    · subst huw
      simp [hstage, hP]
    · rw [Function.update_of_ne huw]
  have hpassed : ∀ {P : Stage → Prop} {i : Nat}, ¬ P .outside →
      (Passed { s with executor := { s.executor with tasks := rest }.setWorker w (.running task) }
        (g.after (.executor (.taken task) : Event W θ)) P i ↔ s.Passed g P i) :=
    fun hP => or_congr_right (exists_congr fun u => hrun hP u _)
  exact {
    accepted := h.accepted
    request := h.request
    begun := fun i => (h.begun i).trans (hpassed id).symm
    begun_accepted := h.begun_accepted
    begun_nodup := h.begun_nodup
    ended := fun i => (h.ended i).trans (hpassed id).symm
    ended_nodup := h.ended_nodup
    called := fun u i r hu hr => h.called u i r
      ((hrun (P := (· = .called r)) (by simp) u i).mp ⟨hu, hr⟩).1 hr
    future := fun i => (h.future i).trans (hpassed (by simp [Stage.Replied])).symm
    future_ended := h.future_ended
    outside := fun u hu => by
      by_cases huw : u = w
      · rw [huw, hstage]
      · exact h.outside u fun i hi => hu i (by simp [huw, hi])
    quiet := h.quiet }

omit [DecidableEq θ] in
/-- A worker's task returns. -/
theorem finish (h : Tracked s g) {w : Fin W} {task : Nat} (hw : s.executor.worker w = .running task)
    (hstage : s.stage w = .replied) :
    Tracked ({ s with executor := s.executor.setWorker w .awake }.setStage w .outside)
      (g.after (.executor (.finished task) : Event W θ)) := by
  have hpassed : ∀ {P : Stage → Prop} {i : Nat}, P .replied →
      (Passed ({ s with executor := s.executor.setWorker w .awake }.setStage w .outside)
        (g.after (.executor (.finished task) : Event W θ)) P i ↔ s.Passed g P i) := by
    intro P i hP
    change (i ∈ g.tasks.finished ++ [task] ∨ ∃ u, Function.update s.executor.worker w .awake u =
      .running i ∧ P (Function.update s.stage w .outside u)) ↔ _
    constructor
    · rintro (hi | ⟨u, hu, hPu⟩)
      · rcases List.mem_append.mp hi with hold | hnew
        · exact Or.inl hold
        · obtain rfl := List.mem_singleton.mp hnew
          exact Or.inr ⟨w, hw, by rwa [hstage]⟩
      · by_cases huw : u = w
        · rw [huw, Function.update_self] at hu
          cases hu
        · rw [Function.update_of_ne huw] at hu hPu
          exact Or.inr ⟨u, hu, hPu⟩
    · rintro (hi | ⟨u, hu, hPu⟩)
      · exact Or.inl (List.mem_append_left _ hi)
      · by_cases huw : u = w
        · obtain rfl := Worker.running.inj ((huw ▸ hu).symm.trans hw)
          exact Or.inl (List.mem_append_right _ (List.mem_singleton_self i))
        · exact Or.inr ⟨u, by rwa [Function.update_of_ne huw], by rwa [Function.update_of_ne huw]⟩
  exact {
    accepted := h.accepted
    request := h.request
    begun := fun i => (h.begun i).trans (hpassed trivial).symm
    begun_accepted := h.begun_accepted
    begun_nodup := h.begun_nodup
    ended := fun i => (h.ended i).trans (hpassed trivial).symm
    ended_nodup := h.ended_nodup
    called := fun u i r hu hr => by
      by_cases huw : u = w
      · simp [setStage, huw] at hr
      · simp only [setStage, AsyncExecutor.setWorker_worker, Function.update_of_ne huw] at hu hr
        exact h.called u i r hu hr
    future := fun i => (h.future i).trans (hpassed (P := Stage.Replied) rfl).symm
    future_ended := h.future_ended
    outside := fun u hu => by
      by_cases huw : u = w
      · simp [setStage, huw]
      · simp only [setStage, Function.update_of_ne huw]
        exact h.outside u fun i hi => hu i (by simp [setStage, huw, hi])
    quiet := fun u hu => by
      by_cases huw : u = w
      · exact h.quiet u (by simp [huw, hstage])
      · simp only [setStage, Function.update_of_ne huw] at hu
        exact h.quiet u hu }

omit [DecidableEq θ] in
/-- The task that a worker runs has come past nothing that its worker has not. -/
theorem passed_running (hA : Accounted s.executor g.tasks) {w : Fin W} {task : Nat}
    (hw : s.executor.worker w = .running task) : s.Passed g P task ↔ P (s.stage w) := by
  constructor
  · rintro (hi | ⟨u, hu, hP⟩)
    · exact absurd hi (hA.not_finished w task hw)
    · rwa [hA.alone u w task hu hw] at hP
  · exact fun hP => Or.inr ⟨w, hw, hP⟩

variable [Replacer R] {m : Machine R (θ ⊕ Fin W)} {out : Outcome} {w : Fin W} {task : Nat}

/-- A worker begins the call of its task. -/
theorem beginCall (h : Tracked s g) (hA : Accounted s.executor g.tasks) {r : Request}
    (hw : s.executor.worker w = .running task) (hstage : s.stage w = .outside)
    (hr : s.request task = some r) (hm : s.machine.step (r.action (.inr w)) = some (m, out)) :
    Tracked ({ s with machine := m }.setStage w (stageOf out))
      (g.after (.began task r out : Event W θ)) := by
  have hpassed : ∀ {P : Stage → Prop} {i : Nat}, ¬ P .outside →
      (Passed ({ s with machine := m }.setStage w (stageOf out))
        (g.after (.began task r out : Event W θ)) P i ↔
          s.Passed g P i ∨ (i = task ∧ P (stageOf out))) := fun hP =>
    passed_setStage (fun u hu => hA.alone u w task hu hw) hw rfl rfl rfl
      fun hin => absurd (hstage ▸ hin) hP
  have hbegun : Stage.Begun (stageOf out) := by
    unfold stageOf
    split <;> trivial
  have haccepted : (task, r) ∈ g.accepted := by
    have htaken : task ∈ g.tasks.accepted := by
      rw [hA.fifo]
      exact List.mem_append_left _ ((hA.taken_iff task).mpr (Or.inl ⟨w, hw⟩))
    rw [← h.accepted] at htaken
    obtain ⟨⟨i, r'⟩, hmem, rfl⟩ := List.mem_map.mp htaken
    obtain rfl : r' = r := Option.some.inj ((h.request _ hmem).symm.trans hr)
    exact hmem
  have hnew : task ∉ g.begun.map Prod.fst := fun hi => by
    simpa [hstage, Stage.Begun] using (passed_running hA hw).mp ((h.begun task).mp hi)
  have hnotEnded : task ∉ g.ended.map Prod.fst := fun hi => by
    simpa [hstage, Stage.Ended] using (passed_running hA hw).mp ((h.ended task).mp hi)
  exact {
    accepted := h.accepted
    request := h.request
    begun := fun i => by
      rw [hpassed id, ← h.begun]
      simp [Log.after, hbegun]
    begun_accepted := fun y hy => by
      rcases List.mem_append.mp hy with hold | hy
      · exact h.begun_accepted y hold
      · rwa [List.mem_singleton.mp hy]
    begun_nodup := by
      change ((g.begun ++ [(task, r)]).map Prod.fst).Nodup
      rw [List.map_append]
      exact h.begun_nodup.append (List.nodup_singleton task) (by simpa using hnew)
    ended := fun i => by
      rw [hpassed id, ← h.ended]
      unfold stageOf
      cases hreply : out.reply <;> simp [Log.after, hreply, Stage.Ended]
    ended_nodup := by
      cases hreply : out.reply with
      | none => simpa [Log.after, hreply] using h.ended_nodup
      | some reply =>
        simp only [Log.after, hreply, Option.map_some, Option.toList_some, List.map_append]
        exact h.ended_nodup.append (List.nodup_singleton task) (by simpa using hnotEnded)
    called := fun u i reply hu hcalled => by
      by_cases huw : u = w
      · obtain rfl : i = task := Worker.running.inj ((huw ▸ hu).symm.trans hw)
        cases hreply : out.reply with
        | none => simp [setStage, huw, stageOf, hreply] at hcalled
        | some reply' =>
          obtain rfl : reply' = reply := by simpa [setStage, huw, stageOf, hreply] using hcalled
          simp [Log.after, hreply]
      · simp only [setStage, Function.update_of_ne huw] at hcalled
        exact List.mem_append_left _ (h.called u i reply hu hcalled)
    future := fun i => by
      rw [hpassed (by simp [Stage.Replied]), ← h.future]
      unfold stageOf
      cases out.reply <;> simp [Stage.Replied, setStage]
    future_ended := fun i reply hi => List.mem_append_left _ (h.future_ended i reply hi)
    outside := fun u hu => by
      by_cases huw : u = w
      · exact absurd (huw ▸ hw) (hu task)
      · simp only [setStage, Function.update_of_ne huw]
        exact h.outside u hu
    quiet := fun u hu => by
      by_cases huw : u = w
      · cases hreply : out.reply with
        | none => simp [setStage, huw, stageOf, hreply] at hu
        | some reply =>
          rw [huw]
          exact Machine.quiet_of_begins hm (r.begins_action _) hreply
      · simp only [setStage, Function.update_of_ne huw] at hu
        refine (h.quiet u hu).step hm ?_
        rw [r.begins_action]
        simpa using Ne.symm huw }

/-- A call that ends has been going on. -/
theorem calling_of_resumes (h : Tracked s g) (hapart : s.machine.Apart)
    {action : Machine.Action (θ ⊕ Fin W)} {reply : Reply}
    (hm : s.machine.step action = some (m, out)) (hresumes : action.resumes = some (.inr w))
    (hreply : out.reply = some reply) : s.stage w = .calling := by
  by_contra hne
  exact (Machine.quiet_of_resumes hapart hm hresumes hreply).1 (h.quiet w hne)

/-- The call of a worker's task ends. -/
theorem endCall (h : Tracked s g) (hA : Accounted s.executor g.tasks) (hapart : s.machine.Apart)
    {action : Machine.Action (θ ⊕ Fin W)} {reply : Reply}
    (hm : s.machine.step action = some (m, out)) (hresumes : action.resumes = some (.inr w))
    (hw : s.executor.worker w = .running task) (hreply : out.reply = some reply) :
    Tracked ({ s with machine := m }.setStage w (.called reply))
      (g.after (.ended task reply : Event W θ)) := by
  obtain ⟨-, hquiet⟩ := Machine.quiet_of_resumes hapart hm hresumes hreply
  have hstage := h.calling_of_resumes hapart hm hresumes hreply
  have hbegins : action.begins = none := by
    cases action with
    | act action =>
      cases action with
      | resume => rfl
      | _ => cases hresumes
    | syncEnds => rfl
    | _ => cases hresumes
  have hpassed : ∀ {P : Stage → Prop} {i : Nat}, (P .calling → P (.called reply)) →
      (Passed ({ s with machine := m }.setStage w (.called reply))
        (g.after (.ended task reply : Event W θ)) P i ↔
          s.Passed g P i ∨ (i = task ∧ P (.called reply))) := fun hP =>
    passed_setStage (fun u hu => hA.alone u w task hu hw) hw rfl rfl rfl
      fun hin => hP (hstage ▸ hin)
  have hnew : task ∉ g.ended.map Prod.fst := fun hi => by
    simpa [hstage, Stage.Ended] using (passed_running hA hw).mp ((h.ended task).mp hi)
  have hbegun : task ∈ g.begun.map Prod.fst :=
    (h.begun task).mpr ((passed_running hA hw).mpr (by simp [hstage, Stage.Begun]))
  exact {
    accepted := h.accepted
    request := h.request
    begun := fun i => by
      rw [hpassed id, ← h.begun]
      exact ⟨Or.inl, fun hi => hi.elim id fun hi => hi.1 ▸ hbegun⟩
    begun_accepted := h.begun_accepted
    begun_nodup := h.begun_nodup
    ended := fun i => by
      rw [hpassed (fun hin => hin.elim), ← h.ended]
      simp [Log.after, Stage.Ended]
    ended_nodup := by
      change ((g.ended ++ [(task, reply)]).map Prod.fst).Nodup
      rw [List.map_append]
      exact h.ended_nodup.append (List.nodup_singleton task) (by simpa using hnew)
    called := fun u i reply' hu hr => by
      by_cases huw : u = w
      · obtain rfl : i = task := Worker.running.inj ((huw ▸ hu).symm.trans hw)
        obtain rfl : reply = reply' := by simpa [setStage, huw] using hr
        exact List.mem_append_right _ (List.mem_singleton_self _)
      · simp only [setStage, Function.update_of_ne huw] at hr
        exact List.mem_append_left _ (h.called u i reply' hu hr)
    future := fun i => by
      rw [hpassed (by simp [Stage.Replied]), ← h.future]
      simp [Stage.Replied, setStage]
    future_ended := fun i reply' hi => List.mem_append_left _ (h.future_ended i reply' hi)
    outside := fun u hu => by
      by_cases huw : u = w
      · exact absurd (huw ▸ hw) (hu task)
      · simp only [setStage, Function.update_of_ne huw]
        exact h.outside u hu
    quiet := fun u hu => by
      by_cases huw : u = w
      · exact huw ▸ hquiet
      · simp only [setStage, Function.update_of_ne huw] at hu
        exact (h.quiet u hu).step hm (by simp [hbegins]) }

/-- A step of the machine that neither begins nor ends the call of a task. -/
theorem machine (h : Tracked s g) {action : Machine.Action (θ ⊕ Fin W)}
    (hadmits : s.admits action = true) (hm : s.machine.step action = some (m, out)) :
    Tracked { s with machine := m } g where
  accepted := h.accepted
  request := h.request
  begun := h.begun
  begun_accepted := h.begun_accepted
  begun_nodup := h.begun_nodup
  ended := h.ended
  ended_nodup := h.ended_nodup
  called := h.called
  future := h.future
  future_ended := h.future_ended
  outside := h.outside
  quiet u hu := (h.quiet u hu).step hm fun hbegins => by simp [admits, hbegins] at hadmits

omit [DecidableEq θ] [Replacer R] in
/-- A worker makes the future of its task ready. -/
theorem makeReady (h : Tracked s g) (hA : Accounted s.executor g.tasks) {reply : Reply}
    (hw : s.executor.worker w = .running task) (hstage : s.stage w = .called reply) :
    Tracked ({ s with future := Function.update s.future task (some reply) }.setStage w .replied)
      (g.after (.replied task : Event W θ)) := by
  have hpassed : ∀ {P : Stage → Prop} {i : Nat}, (P (.called reply) → P .replied) →
      (Passed ({ s with future := Function.update s.future task (some reply) }.setStage w .replied)
        (g.after (.replied task : Event W θ)) P i ↔
          s.Passed g P i ∨ (i = task ∧ P .replied)) := fun hP =>
    passed_setStage (fun u hu => hA.alone u w task hu hw) hw rfl rfl rfl
      fun hin => hP (hstage ▸ hin)
  have hbegun : task ∈ g.begun.map Prod.fst :=
    (h.begun task).mpr ((passed_running hA hw).mpr (by simp [hstage, Stage.Begun]))
  have hended : task ∈ g.ended.map Prod.fst :=
    (h.ended task).mpr ((passed_running hA hw).mpr (by simp [hstage, Stage.Ended]))
  exact {
    accepted := h.accepted
    request := h.request
    begun := fun i => by
      rw [hpassed id, ← h.begun]
      exact ⟨Or.inl, fun hi => hi.elim id fun hi => hi.1 ▸ hbegun⟩
    begun_accepted := h.begun_accepted
    begun_nodup := h.begun_nodup
    ended := fun i => by
      rw [hpassed id, ← h.ended]
      exact ⟨Or.inl, fun hi => hi.elim id fun hi => hi.1 ▸ hended⟩
    ended_nodup := h.ended_nodup
    called := fun u i reply' hu hr => by
      by_cases huw : u = w
      · simp [setStage, huw] at hr
      · simp only [setStage, Function.update_of_ne huw] at hr
        exact h.called u i reply' hu hr
    future := fun i => by
      rw [hpassed (by simp [Stage.Replied]), ← h.future]
      by_cases hi : i = task <;> simp [setStage, hi, Stage.Replied]
    future_ended := fun i reply' hi => by
      by_cases hit : i = task
      · obtain rfl : reply = reply' := by simpa [setStage, hit] using hi
        exact hit ▸ h.called w task reply hw hstage
      · exact h.future_ended i reply' (by simpa [setStage, hit] using hi)
    outside := fun u hu => by
      by_cases huw : u = w
      · exact absurd (huw ▸ hw) (hu task)
      · simp only [setStage, Function.update_of_ne huw]
        exact h.outside u hu
    quiet := fun u hu => by
      by_cases huw : u = w
      · exact h.quiet u (by simp [huw, hstage])
      · simp only [setStage, Function.update_of_ne huw] at hu
        exact h.quiet u hu }

theorem step (h : Tracked s g) (hA : Accounted s.executor g.tasks) (hapart : s.machine.Apart)
    {action : Action W θ} {e : Event W θ} (hstep : s.step action = some (s', e)) :
    Tracked s' (g.after e) := by
  cases step_cases hstep with
  | submit t r x e _ _ hx => exact h.submit hA hx
  | executor action x e hsubmit hfinish hx =>
    cases AsyncExecutor.step_cases hx with
    | refused t | accepted t => exact absurd rfl (hsubmit t)
    | finishes u => exact absurd rfl (hfinish u)
    | takes u task rest hu => exact h.take hu
    | notified t u _ hu =>
      exact h.idle (AsyncExecutor.running_setWorker (s := { s.executor with notifying := _ })
        (by simp [hu]) (by simp))
    | exits u hu | sleeps u hu | wakes u hu =>
      exact h.idle (AsyncExecutor.running_setWorker (by simp [hu]) (by simp))
    | notifiesAll => exact h.idle fun _ _ => by simp
    | unheard | stops | joins => exact h.idle fun _ _ => Iff.rfl
  | finish w x e hstage hx =>
    cases AsyncExecutor.step_cases hx with
    | finishes _ task hw => exact h.finish hw hstage
  | begin w task r m out hw hstage hr hm => exact h.beginCall hA hw hstage hr hm
  | ended action w task reply m out _ hm hresumes hw hreply =>
    exact h.endCall hA hapart hm hresumes hw hreply
  | machine action m out hadmits hm _ => exact h.machine hadmits hm
  | reply w task reply hw hstage => exact h.makeReady hA hw hstage

end Tracked

/-! ## Runs -/

/-- What holds between two steps. -/
structure Consistent (s : Async W R θ) (g : Log) : Prop where
  executor : Reachable AsyncExecutor.Initial AsyncExecutor.Kept (s.executor, g.tasks)
  apart : s.machine.Apart
  tracked : Tracked s g

variable [Replacer R]

/-- A step of a run in which the log is kept. -/
def Kept : Async W R θ × Log → Action W θ × Event W θ → Async W R θ × Log → Prop :=
  Recorded (fun g _ l => g.after l.2) Trans

namespace Consistent

theorem initial [LawfulReplacer R] {n N : Nat} (h : s.Initial n N) : Consistent s {} := by
  obtain ⟨hmachine, hmake, hrequest, hfuture, hstage⟩ := h
  have hexecutor : Reachable AsyncExecutor.Initial AsyncExecutor.Kept
      (s.executor, ({} : Log).tasks) := .init ⟨hmake, rfl⟩
  obtain ⟨disk, hsim⟩ := Refinement.Sim.initial hmachine.1
  have hpc : ∀ t, s.machine.system.pc t = .idle := fun t =>
    (Protocol.Phase.suspended.inj (hsim.phase t)).symm
  have hpassed : ∀ {P : Stage → Prop} {i : Nat}, ¬ P .outside → ¬ s.Passed {} P i := by
    rintro P i hP (hi | ⟨w, -, hw⟩)
    · cases hi
    · exact hP (hstage w ▸ hw)
  exact ⟨hexecutor, .initial hmachine, {
    accepted := rfl
    request := fun y hy => by cases hy
    begun := fun i => by simpa using hpassed id
    begun_accepted := fun y hy => by cases hy
    begun_nodup := List.nodup_nil
    ended := fun i => by simpa using hpassed id
    ended_nodup := List.nodup_nil
    called := fun w i r _ hr => by simp [hstage] at hr
    future := fun i => by simpa [hfuture] using hpassed (by simp [Stage.Replied])
    future_ended := fun i r hi => by simp [hfuture] at hi
    outside := fun w _ => hstage w
    quiet := fun w _ => ⟨hpc _, by simp [Machine.InSync, hmachine.2]⟩ }⟩

theorem step (h : Consistent s g) {l : Action W θ × Event W θ} {g' : Log}
    (hstep : Kept (s, g) l (s', g')) : Consistent s' g' := by
  obtain ⟨action, e⟩ := l
  obtain ⟨⟨hstep, -⟩, rfl⟩ := hstep
  have hA := (AsyncExecutor.spec_of_reachable h.executor).2.1
  refine ⟨?_, ?_, h.tracked.step hA h.apart hstep⟩
  · cases step_cases hstep with
    | submit t r x e _ _ hx => exact h.executor.step (e := (.submit t, e)) ⟨hx, rfl⟩
    | executor action x e _ _ hx => exact h.executor.step (e := (action, e)) ⟨hx, rfl⟩
    | finish w x e _ hx => exact h.executor.step (e := (.finish w, e)) ⟨hx, rfl⟩
    | begin | ended | machine | reply => exact h.executor
  · cases step_cases hstep with
    | begin w task r m out _ _ _ hm => exact h.apart.step hm
    | ended action w task reply m out _ hm => exact h.apart.step hm
    | machine action m out _ hm => exact h.apart.step hm
    | submit | executor | finish | reply => exact h.apart

theorem of_reachable [LawfulReplacer R] {n N : Nat} {x : Async W R θ × Log}
    (h : Reachable (fun x => Initial n N x.1 ∧ x.2 = {}) Kept x) : Consistent x.1 x.2 := by
  refine h.invariant (I := fun x => Consistent x.1 x.2) ?_ ?_
  · rintro ⟨s, g⟩ ⟨hs, rfl⟩
    exact .initial hs
  · rintro ⟨s, g⟩ l ⟨s', g'⟩ hc hst
    exact hc.step hst

/-- A future that is ready stays as it is. -/
theorem future_step (h : Consistent s g) {action : Action W θ} {e : Event W θ} {i : Nat}
    {reply : Reply} (hstep : s.step action = some (s', e)) (hi : s.future i = some reply) :
    s'.future i = some reply := by
  cases step_cases hstep with
  | reply w task reply' hw hstage =>
    have hA := (AsyncExecutor.spec_of_reachable h.executor).2.1
    have hne : i ≠ task := by
      rintro rfl
      have hpassed := (h.tracked.future i).mp (by simp [hi])
      rw [Tracked.passed_running hA hw, hstage] at hpassed
      cases hpassed
    exact (Function.update_of_ne hne _ _).trans hi
  | submit | executor | finish | begin | ended | machine => exact hi

omit [Replacer R] in
/-- When no task waits and none runs, the futures are ready. -/
theorem ready_of_idle (h : Consistent s g) (htasks : s.executor.tasks = [])
    (hidle : ∀ w i, s.executor.worker w ≠ .running i) {y : Nat × Request}
    (hy : y ∈ g.accepted) : ∃ reply, s.future y.1 = some reply := by
  obtain ⟨-, hA, -⟩ := AsyncExecutor.spec_of_reachable h.executor
  refine Option.ne_none_iff_exists'.mp ((h.tracked.future y.1).mpr (Or.inl ?_))
  have haccepted : y.1 ∈ g.tasks.accepted := by
    rw [← h.tracked.accepted]
    exact List.mem_map_of_mem hy
  rw [hA.fifo, htasks, List.append_nil, hA.taken_iff] at haccepted
  refine haccepted.resolve_left ?_
  rintro ⟨w, hw⟩
  exact hidle w y.1 hw

end Consistent

/-- Every asynchronous call that `Submit` accepts is made at most once, for the request it
was submitted with; what a ready future holds is how the call ended, and stays; and when
the destructor has joined the workers, every accepted call has been made and its future is
ready. -/
theorem answers_requests_once [LawfulReplacer R] {n N : Nat} {x : Async W R θ × Log}
    (h : Reachable (fun x => Initial n N x.1 ∧ x.2 = {}) Kept x) :
    ((x.2.accepted.map Prod.fst).Nodup ∧ (x.2.begun.map Prod.fst).Nodup ∧
      (x.2.ended.map Prod.fst).Nodup) ∧
    (∀ y ∈ x.2.begun, y ∈ x.2.accepted) ∧
    (∀ y ∈ x.2.ended, y.1 ∈ x.2.begun.map Prod.fst) ∧
    (∀ i reply, x.1.future i = some reply → (i, reply) ∈ x.2.ended) ∧
    (∀ l x', Kept x l x' → ∀ i reply, x.1.future i = some reply → x'.1.future i = some reply) ∧
    (x.1.executor.destructor = .joining W →
      ∀ y ∈ x.2.accepted, y ∈ x.2.begun ∧ ∃ reply, x.1.future y.1 = some reply) := by
  have hc := Consistent.of_reachable h
  obtain ⟨hW, hA, hT⟩ := AsyncExecutor.spec_of_reachable hc.executor
  have hbegun : ∀ y ∈ x.2.ended, y.1 ∈ x.2.begun.map Prod.fst := by
    intro y hy
    rw [hc.tracked.begun]
    refine ((hc.tracked.ended y.1).mp (List.mem_map_of_mem hy)).imp_right ?_
    rintro ⟨w, hw, hstage⟩
    refine ⟨w, hw, ?_⟩
    revert hstage
    cases x.1.stage w <;> exact fun hs => by trivial
  refine ⟨⟨?_, hc.tracked.begun_nodup, hc.tracked.ended_nodup⟩, hc.tracked.begun_accepted, hbegun,
    hc.tracked.future_ended, fun l x' hst i reply hi => ?_, fun hjoined y hy => ?_⟩
  · rw [hc.tracked.accepted]
    exact hA.nodup
  · exact hc.future_step hst.1.1 hi
  · have hexited : ∀ w, x.1.executor.worker w = .exited := fun w => hT.joined W hjoined w w.isLt
    obtain ⟨reply, hreply⟩ := hc.ready_of_idle (hT.exited ⟨0, hW⟩ (hexited _)).2
      (fun w i hw => by simp [hexited] at hw) hy
    refine ⟨?_, reply, hreply⟩
    obtain ⟨⟨i, r⟩, hmem, hi⟩ := List.mem_map.mp (hbegun _ (hc.tracked.future_ended _ _ hreply))
    have hr := hc.tracked.request _ (hc.tracked.begun_accepted _ hmem)
    obtain rfl : i = y.1 := hi
    obtain rfl : y.2 = r := Option.some.inj ((hc.tracked.request y hy).symm.trans hr)
    exact hmem

/-- Follow a list of actions from construction and keep the log, as long as each is
possible and survived. -/
def runNew (frameCount maxPageCount : Nat) (actions : List (Action W θ)) :
    Option (Async W ClockReplacer θ × Log) :=
  match makeWithClock frameCount maxPageCount with
  | .ok s =>
      execute step (fun g _ l => g.after l.2) (fun _ l => l.2.survived = true) (s, {}) actions
  | .error _ => none

omit [DecidableEq θ] in
theorem initial_makeWithClock {n N : Nat} {s : Async W ClockReplacer θ}
    (h : makeWithClock n N = .ok s) : s.Initial n N := by
  unfold makeWithClock at h
  cases hsystem : System.makeWithClock n N (fun _ => Page.zero) with
  | error e =>
    rw [hsystem] at h
    cases h
  | ok system =>
    cases hexecutor : (AsyncExecutor.make W : Except Error (AsyncExecutor W θ)) with
    | error e =>
      rw [hsystem, hexecutor] at h
      cases h
    | ok executor =>
      rw [hsystem, hexecutor] at h
      obtain rfl := Except.ok.inj h
      exact ⟨⟨Refinement.initial_makeWithClock hsystem, rfl, rfl⟩, hexecutor, fun _ => rfl,
        fun _ => rfl, fun _ => rfl⟩

theorem reachable_of_runNew {n N : Nat} {actions : List (Action W θ)}
    {x : Async W ClockReplacer θ × Log} (h : runNew n N actions = some x) :
    Reachable (fun x => Initial n N x.1 ∧ x.2 = {}) Kept x := by
  unfold runNew at h
  split at h
  · next s hs =>
    refine (reachable_of_execute (.init ⟨initial_makeWithClock hs, rfl⟩) h).mono ?_
    exact fun _ _ _ hst => ⟨⟨hst.2.1, hst.1⟩, hst.2.2⟩
  · cases h

/-- One worker: a `NewPageAsync`, and the destructor. -/
theorem answers_requests_once_joined : ∃ x : Async 1 ClockReplacer (Fin 1) × Log,
    x.2.accepted = [(0, .call .newPage)] ∧ (0, .call .newPage) ∈ x.2.begun ∧
      ∃ reply, x.1.future 0 = some reply := by
  have hrun : ((runNew 1 1 [.submit (0 : Fin 1) (.call .newPage), .executor (.turn (0 : Fin 1)),
      .begin 0, .executor .stop, .reply 0, .executor (.finish 0), .executor (.notifyOne 0 none),
      .executor .notifyAll, .executor (.turn 0), .executor .join]).any fun x =>
        decide (x.1.executor.destructor = .joining 1 ∧ x.2.accepted = [(0, .call .newPage)])) =
          true := by
    decide +kernel
  obtain ⟨x, hx, hfacts⟩ := (Option.any_eq_true _ _).mp hrun
  obtain ⟨hjoined, haccepted⟩ := of_decide_eq_true hfacts
  have hlast := (answers_requests_once (reachable_of_runNew hx)).2.2.2.2.2 hjoined
    (0, .call .newPage) (by simp [haccepted])
  exact ⟨x, haccepted, hlast⟩

end Async

end BufferManager
