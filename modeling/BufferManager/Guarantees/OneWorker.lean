/-
  Guarantees/OneWorker.lean --- one worker serves the asynchronous calls in turn.

  With `async_worker_count == 1` a task is taken when the one before it has returned.  So the
  asynchronous calls are made in the order in which `Submit` accepted them, each after the one
  before it has ended, and their futures become ready in that order.
-/
import BufferManager.Guarantees.AsyncCalls

set_option autoImplicit false

namespace BufferManager

open BufferManager.Lib

namespace Async

/-- The task a worker is in, if its call has not begun. -/
def toBegin (task : Option Nat) : Stage → List Nat
  | .outside => task.toList
  | .calling | .called _ | .replied => []

/-- The task a worker is in, if its call goes on. -/
def toEnd (task : Option Nat) : Stage → List Nat
  | .calling => task.toList
  | .outside | .called _ | .replied => []

variable {R θ : Type}

/-- The worker and the log, one task after another: those that have been taken are those that
have begun, and the one that is about to; those that have begun are those that have ended, and
the one that goes on; those that have been taken are finished but for the last. -/
structure InTurn (s : Async 1 R θ) (g : Log) : Prop where
  begun : g.tasks.taken =
    g.begun.map Prod.fst ++ toBegin (s.executor.worker 0).task (s.stage 0)
  ended : g.begun.map Prod.fst =
    g.ended.map Prod.fst ++ toEnd (s.executor.worker 0).task (s.stage 0)
  finished : g.tasks.taken = g.tasks.finished ++ (s.executor.worker 0).task.toList

variable [DecidableEq θ] {s s' : Async 1 R θ} {g g' : Log}

omit [DecidableEq θ] in
/-- A step in which nothing happens to the worker's task. -/
theorem InTurn.same (h : InTurn s g)
    (htask : (s'.executor.worker 0).task = (s.executor.worker 0).task)
    (hstage : s'.stage = s.stage) (htaken : g'.tasks.taken = g.tasks.taken)
    (hfinished : g'.tasks.finished = g.tasks.finished) (hbegun : g'.begun = g.begun)
    (hended : g'.ended = g.ended) : InTurn s' g' where
  begun := by rw [htaken, hbegun, htask, hstage, h.begun]
  ended := by rw [hbegun, hended, htask, hstage, h.ended]
  finished := by rw [htaken, hfinished, htask, h.finished]

variable [Replacer R]

theorem InTurn.step (h : InTurn s g) (hc : Consistent s g) {action : Action 1 θ} {e : Event 1 θ}
    (hstep : s.step action = some (s', e)) : InTurn s' (g.after e) := by
  cases step_cases hstep with
  | submit t r x e _ _ hx =>
    cases AsyncExecutor.step_cases hx with
    | refused | accepted => exact h.same rfl rfl rfl rfl rfl rfl
  | executor action x e hsubmit hfinish hx =>
    cases AsyncExecutor.step_cases hx with
    | refused t | accepted t => exact absurd rfl (hsubmit t)
    | finishes u => exact absurd rfl (hfinish u)
    | takes u task rest hu =>
      obtain rfl : u = 0 := Subsingleton.elim _ _
      have hstage : s.stage 0 = .outside := hc.tracked.outside 0 (by simp [hu])
      obtain ⟨hbegun, hended, hfinished⟩ := h
      rw [hu, hstage] at hbegun hended
      rw [hu] at hfinished
      refine ⟨?_, ?_, ?_⟩
      · simpa [Log.after, AsyncExecutor.Ledger.after, AsyncExecutor.setWorker, hstage, toBegin,
          Worker.task] using hbegun
      · simpa [Log.after, AsyncExecutor.setWorker, hstage, toEnd] using hended
      · simpa [Log.after, AsyncExecutor.Ledger.after, AsyncExecutor.setWorker,
          Worker.task] using hfinished
    | notified t u _ hu | exits u hu | sleeps u hu | wakes u hu =>
      obtain rfl : u = 0 := Subsingleton.elim _ _
      exact h.same (by simp [AsyncExecutor.setWorker, hu, Worker.task]) rfl rfl rfl rfl rfl
    | notifiesAll =>
      refine h.same ?_ rfl rfl rfl rfl rfl
      change (AsyncExecutor.wakeWorker (s.executor.worker 0)).task = _
      cases s.executor.worker 0 <;> rfl
    | unheard | stops | joins => exact h.same rfl rfl rfl rfl rfl rfl
  | finish w x e hstage hx =>
    obtain rfl : w = 0 := Subsingleton.elim _ _
    cases AsyncExecutor.step_cases hx with
    | finishes _ task hw =>
      obtain ⟨hbegun, hended, hfinished⟩ := h
      rw [hw, hstage] at hbegun hended
      rw [hw] at hfinished
      refine ⟨?_, ?_, ?_⟩
      · simpa [Log.after, AsyncExecutor.Ledger.after, AsyncExecutor.setWorker, setStage, toBegin,
          Worker.task] using hbegun
      · simpa [Log.after, AsyncExecutor.setWorker, setStage, toEnd, Worker.task] using hended
      · simpa [Log.after, AsyncExecutor.Ledger.after, AsyncExecutor.setWorker, setStage,
          Worker.task] using hfinished
  | begin w task r m out hw hstage hr hm =>
    obtain rfl : w = 0 := Subsingleton.elim _ _
    obtain ⟨hbegun, hended, hfinished⟩ := h
    rw [hw, hstage] at hbegun hended
    rw [hw] at hfinished
    cases hreply : out.reply with
    | none =>
      exact ⟨by simpa [Log.after, setStage, stageOf, hreply, toBegin, Worker.task] using hbegun,
        by simpa [Log.after, setStage, stageOf, hreply, toEnd, hw, Worker.task] using hended,
        by simpa [Log.after, setStage, hw] using hfinished⟩
    | some reply =>
      exact ⟨by simpa [Log.after, setStage, stageOf, hreply, toBegin, Worker.task] using hbegun,
        by simpa [Log.after, setStage, stageOf, hreply, toEnd, Worker.task] using hended,
        by simpa [Log.after, setStage, hw] using hfinished⟩
  | ended action w task reply m out _ hm hresumes hw hreply =>
    obtain rfl : w = 0 := Subsingleton.elim _ _
    have hstage := hc.tracked.calling_of_resumes hc.apart hm hresumes hreply
    obtain ⟨hbegun, hended, hfinished⟩ := h
    rw [hw, hstage] at hbegun hended
    exact ⟨by simpa [Log.after, setStage, toBegin] using hbegun,
      by simpa [Log.after, setStage, toEnd, Worker.task] using hended, hfinished⟩
  | machine action m out hadmits hm _ => exact h.same rfl rfl rfl rfl rfl rfl
  | reply w task reply hw hstage =>
    obtain rfl : w = 0 := Subsingleton.elim _ _
    obtain ⟨hbegun, hended, hfinished⟩ := h
    rw [hstage] at hbegun hended
    exact ⟨by simpa [Log.after, setStage, toBegin] using hbegun,
      by simpa [Log.after, setStage, toEnd] using hended, hfinished⟩

omit [DecidableEq θ] in
theorem InTurn.initial [LawfulReplacer R] {n N : Nat} (h : s.Initial n N) : InTurn s {} := by
  obtain ⟨-, hmake, -, -, hstage⟩ := h
  have hworker : s.executor.worker 0 = .awake :=
    (congrArg (fun x : AsyncExecutor 1 θ => x.worker 0) (Except.ok.inj hmake)).symm
  refine ⟨?_, ?_, ?_⟩
  · rw [hstage, hworker]
    rfl
  · rw [hstage]
    rfl
  · rw [hworker]
    rfl

theorem InTurn.of_reachable [LawfulReplacer R] {n N : Nat} {x : Async 1 R θ × Log}
    (h : Reachable (fun x => Initial n N x.1 ∧ x.2 = {}) Kept x) : InTurn x.1 x.2 := by
  refine (h.invariant (I := fun x => Consistent x.1 x.2 ∧ InTurn x.1 x.2) ?_ ?_).2
  · rintro ⟨s, g⟩ ⟨hs, rfl⟩
    exact ⟨.initial hs, .initial hs⟩
  · rintro ⟨s, g⟩ ⟨action, e⟩ ⟨s', g'⟩ ⟨hc, hturn⟩ hst
    have hturn' := hturn.step hc hst.1.1
    obtain rfl : g' = g.after e := hst.2
    exact ⟨hc.step hst, hturn'⟩

/-- Lists of pairs with the same keys are the same if the keys determine the values. -/
theorem eq_of_map_fst {α β : Type} {value : α → Option β} {l l' : List (α × β)}
    (h : ∀ y ∈ l, value y.1 = some y.2) (h' : ∀ y ∈ l', value y.1 = some y.2)
    (heq : l.map Prod.fst = l'.map Prod.fst) : l = l' := by
  induction l generalizing l' with
  | nil => exact (List.map_eq_nil_iff.mp heq.symm).symm
  | cons y l ih =>
    cases l' with
    | nil => cases heq
    | cons y' l' =>
      obtain ⟨hkey, hrest⟩ := List.cons.inj heq
      have hvalue : some y.2 = some y'.2 := by
        rw [← h y List.mem_cons_self, hkey, h' y' List.mem_cons_self]
      rw [Prod.ext hkey (Option.some.inj hvalue),
        ih (fun z hz => h z (List.mem_cons_of_mem _ hz))
          (fun z hz => h' z (List.mem_cons_of_mem _ hz)) hrest]

/-- With one worker the asynchronous calls are made in the order in which they were accepted,
each after the one before it has ended, and their futures become ready in that order. -/
theorem one_worker_serves_in_turn [LawfulReplacer R] {n N : Nat} {x : Async 1 R θ × Log}
    (h : Reachable (fun x => Initial n N x.1 ∧ x.2 = {}) Kept x) :
    x.2.begun <+: x.2.accepted ∧
    (x.2.begun.map Prod.fst = x.2.ended.map Prod.fst ∨
      ∃ i, x.2.begun.map Prod.fst = x.2.ended.map Prod.fst ++ [i]) ∧
    x.2.accepted.Pairwise fun y z => x.1.future z.1 ≠ none → x.1.future y.1 ≠ none := by
  have hc := Consistent.of_reachable h
  obtain ⟨hbegun, hended, hfinished⟩ := InTurn.of_reachable h
  obtain ⟨-, hA, -⟩ := AsyncExecutor.spec_of_reachable hc.executor
  refine ⟨?_, ?_, ?_⟩
  · have hprefix : x.2.begun.map Prod.fst <+: x.2.accepted.map Prod.fst := by
      rw [hc.tracked.accepted, hA.fifo, hbegun, List.append_assoc]
      exact List.prefix_append _ _
    obtain ⟨l, hl, heq⟩ := List.prefix_map_iff.mp hprefix
    have hsame : x.2.begun = l :=
      eq_of_map_fst (fun y hy => hc.tracked.request y (hc.tracked.begun_accepted y hy))
        (fun y hy => hc.tracked.request y (hl.subset hy)) heq
    exact hsame ▸ hl
  · cases hgoing : toEnd (x.1.executor.worker 0).task (x.1.stage 0) with
    | nil =>
      rw [hgoing, List.append_nil] at hended
      exact Or.inl hended
    | cons i rest =>
      have hrest : rest = [] := by
        revert hgoing
        cases x.1.stage 0 with
        | calling => cases (x.1.executor.worker 0).task <;> simp [toEnd]
        | outside | called | replied => simp [toEnd]
      rw [hgoing, hrest] at hended
      exact Or.inr ⟨i, hended⟩
  · -- The futures of finished tasks are ready, those of queued ones are not.
    have hready : ∀ i ∈ x.2.tasks.finished, x.1.future i ≠ none := fun i hi =>
      (hc.tracked.future i).mpr (Or.inl hi)
    have hnot : ∀ i ∈ x.1.executor.tasks, ¬ x.1.future i ≠ none := by
      intro i hi hne
      have htaken : i ∈ x.2.tasks.taken := (hA.taken_iff i).mpr
        (((hc.tracked.future i).mp hne).symm.imp_left fun ⟨w, hw, _⟩ => ⟨w, hw⟩)
      have hnodup := hA.nodup
      rw [hA.fifo, List.nodup_append] at hnodup
      exact hnodup.2.2 i htaken i hi rfl
    have hpairs : (x.2.accepted.map Prod.fst).Pairwise
        fun i j => x.1.future j ≠ none → x.1.future i ≠ none := by
      rw [hc.tracked.accepted, hA.fifo, hfinished, List.append_assoc]
      refine List.pairwise_append.mpr ⟨?_, List.pairwise_append.mpr ⟨?_, ?_, ?_⟩, ?_⟩
      · exact List.pairwise_of_forall_mem_list fun i hi j _ _ => hready i hi
      · cases (x.1.executor.worker 0).task with
        | none => exact .nil
        | some i => exact List.pairwise_singleton _ _
      · exact List.pairwise_of_forall_mem_list fun i _ j hj hne => absurd hne (hnot j hj)
      · exact fun i _ j hj hne => absurd hne (hnot j hj)
      · exact fun i hi j _ _ => hready i hi
    exact List.pairwise_map.mp hpairs

/-- Two calls are accepted, and the first is answered. -/
theorem one_worker_serves_in_turn_first : ∃ x : Async 1 ClockReplacer (Fin 1) × Log,
    x.2.accepted = [(0, .call .newPage), (1, .call .flushAllPages)] ∧
      x.2.begun = [(0, .call .newPage)] ∧ x.2.begun <+: x.2.accepted := by
  have hrun : ((runNew 1 1 [.submit (0 : Fin 1) (.call .newPage), .executor (.turn (0 : Fin 1)),
      .begin 0, .executor (.notifyOne 0 none), .submit 0 (.call .flushAllPages), .reply 0]).any
        fun x => decide (x.2.accepted = [(0, .call .newPage), (1, .call .flushAllPages)] ∧
          x.2.begun = [(0, .call .newPage)])) = true := by
    decide +kernel
  obtain ⟨x, hx, hfacts⟩ := (Option.any_eq_true _ _).mp hrun
  obtain ⟨haccepted, hbegun⟩ := of_decide_eq_true hfacts
  exact ⟨x, haccepted, hbegun, (one_worker_serves_in_turn (reachable_of_runNew hx)).1⟩

end Async

end BufferManager
