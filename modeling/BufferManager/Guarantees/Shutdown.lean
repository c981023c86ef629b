/-
  Guarantees/Shutdown.lean --- every asynchronous call is answered, and the destructor of
  the executor returns.

  The work of a buffer manager is that of its machine, with what its workers, its queue,
  the notifications to come and its destructor have still to do; a task in the queue is
  worth what its call can bring.  Where nobody has a step to take, no thread is in a call:
  so no worker is in a task, the queue is empty, and what has been accepted is finished.
-/
import BufferManager.Guarantees.AsyncCalls
import BufferManager.Guarantees.Progress

set_option autoImplicit false

namespace BufferManager

open BufferManager.Lib BufferManager.Protocol BufferManager.Refinement

/-! ## The machine -/

namespace Refinement

variable {R τ : Type} [Replacer R] [LawfulReplacer R] [DecidableEq τ] {n N : Nat}
  {s s' : System R τ} {c : Cfg τ} {t : τ} {action : BufferManager.Action τ}

/-- A piece of a call that is suspended leaves its thread in the call. -/
theorem busy_of_suspended (hS : Sim n N s c) (hI : Owned n c) (hW : Within N c)
    (haction : (∃ call, action = .call t call) ∨ action = .resume t)
    (hstep : s.step action = some (s', .suspended)) : s'.pc t ≠ .idle := by
  have hbusy : ∀ {es : List (Event τ)} {c' : Cfg τ} {before : List (Note τ)},
      Path (StepBy n N (CompleteReplacer R) t) c es c' → Sim n N s' c' →
      es.filterMap Event.note = before ++ [] → (∀ y ∈ before, y.By t ∧ ¬ y.Ends) → es ≠ [] →
      s'.pc t ≠ .idle := by
    intro es c' before hpath hS' hnotes hbefore hne hidle
    rw [List.append_nil] at hnotes
    refine busy_of_path hpath (hnotes ▸ hbefore) hne ?_
    rw [hS'.phase, hidle]
  rcases haction with ⟨call, rfl⟩ | rfl
  · obtain ⟨es, c', hsim⟩ := call_simulated hS hI hW hstep
    exact hbusy hsim.path hsim.sim hsim.told.notes (notes_of_call call) (hsim.moves rfl)
  · obtain ⟨es, c', hsim⟩ := resume_simulated hS hI hW hstep
    exact hbusy hsim.path hsim.sim hsim.told.notes (notes_of_pc _) (hsim.moves rfl)

end Refinement

namespace Machine

variable {R τ : Type}

/-- A step of a thread in the midst of a call, other than a wakeup that nobody sent. -/
def Action.Advances (m : Machine R τ) : Action τ → Prop
  | .act action => action.Advances m.system
  | .lockFile _ | .syncEnds _ _ => True
  | .sync _ | .writeBack _ => False

variable [Fintype τ] [DecidableEq τ]

/-- The work that is left: each `Sync` takes two steps. -/
def work (m : Machine R τ) : Nat :=
  m.system.work + 2 * m.waiting.card + if m.fileMutex.isSome = true then 1 else 0

variable [Replacer R] [LawfulReplacer R] {n N : Nat} {m m' : Machine R τ} {t : τ}
  {action : Action τ} {out : Outcome}

theorem holds_step (h : Holds n N Wakeful m.system) (hstep : m.step action = some (m', out))
    (hlives : out ≠ .terminated) : Holds n N Wakeful m'.system := by
  cases step_cases hstep with
  | act action s' _ hadmits hact =>
    exact h.step (P := fun _ => True) (l := (action, out))
      (fun c e c' _ hst hs hW => Wakeful.step hst hs.owned hW) (fun _ _ => trivial) ⟨hact, hlives⟩
  | sync | lockFile | synced | syncFailed | writeBack => exact h

theorem work_lt_of_advances (h : Holds n N Wakeful m.system) (hadvances : action.Advances m)
    (hstep : m.step action = some (m', out)) : m'.work < m.work := by
  cases step_cases hstep with
  | act action s' _ hadmits hact =>
    obtain ⟨c, hS, hsound, -⟩ := h
    have hless := Refinement.work_lt_of_advances hS hsound.owned hsound.within hadvances hact
    unfold work
    dsimp only
    omega
  | lockFile t hwaits hfree =>
    have hcard := Finset.card_erase_add_one hwaits
    unfold work
    simp only [hfree, Option.isSome_none, Option.isSome_some, if_true, Bool.false_eq_true, if_false]
    omega
  | synced t hmutex | syncFailed t reason hmutex =>
    simp [work, hmutex, writeRest, writeBack]
  | sync | writeBack => exact hadvances.elim

/-- What a call brings, at most. -/
theorem work_of_begins (h : Holds n N Wakeful m.system) (hbegins : action.begins = some t)
    (hstep : m.step action = some (m', out)) :
    m'.work ≤ m.work + (callCost n (Fintype.card τ) + 2) := by
  cases step_cases hstep with
  | act action s' _ hadmits hact =>
    cases action with
    | call u call =>
      obtain ⟨c, hS, hsound, -⟩ := h
      have hle := work_of_call hS hsound.owned hsound.within hact
      unfold work callCost
      dsimp only
      omega
    | _ => cases hbegins
  | sync u hidle hout =>
    have hcard := Finset.card_insert_le u m.waiting
    unfold work
    dsimp only
    omega
  | lockFile | synced | syncFailed | writeBack => cases hbegins

/-- While a thread is in a call, one has a step to take. -/
theorem exists_advances (h : Holds n N Wakeful m.system) (hbusy : ¬ m.Quiet t) :
    ∃ (action : Action τ) (y : Machine R τ × Outcome), action.Advances m ∧
      m.step action = some y ∧ y.2.survived = true := by
  by_cases hpc : m.system.pc t = .idle
  · have hsync : m.InSync t := by
      by_contra hout
      exact hbusy ⟨hpc, hout⟩
    cases hmutex : m.fileMutex with
    | none =>
      have hwaits : t ∈ m.waiting := hsync.resolve_right (by simp [hmutex])
      exact ⟨.lockFile t, _, trivial, if_pos ⟨hwaits, hmutex⟩, rfl⟩
    | some u => exact ⟨.syncEnds u none, _, trivial, if_pos hmutex, rfl⟩
  · obtain ⟨c, hS, hsound, hW⟩ := h
    obtain ⟨u, hu, hawake⟩ := exists_awake hS hsound.owned hW hpc
    obtain ⟨action, ⟨s', out⟩, hadvances, hstep⟩ := System.exists_advances hu hawake
    have hadmits : m.admits action := by
      cases action with
      | call => exact hadvances.elim
      | _ => trivial
    refine ⟨.act action, ({ m with system := s' }, out), hadvances, ?_, ?_⟩
    · rw [step, if_pos hadmits, hstep]
      rfl
    · have hlives := survives_of_advances hadvances hstep
      cases out with
      | terminated => exact absurd rfl hlives
      | suspended | returned | threw | bytes => rfl

/-- A call that does not end where it begins goes on. -/
theorem busy_of_begins (h : Holds n N Wakeful m.system)
    (hbegins : action.begins = some t) (hstep : m.step action = some (m', out))
    (hreply : out.reply = none) : out = .suspended ∧ ¬ m'.Quiet t := by
  cases step_cases hstep with
  | act action s' _ hadmits hact =>
    cases action with
    | call u call =>
      obtain rfl := Option.some.inj hbegins
      obtain ⟨c, hS, hsound, -⟩ := h
      have hsuspended : out = .suspended := by
        simp only [System.step] at hact
        split at hact
        · have hends := settle_cases m.system u (System.start u call)
          rw [Option.some.inj hact] at hends
          rcases hends with rfl | ⟨-, ⟨r, rfl⟩ | ⟨e, rfl⟩⟩
          · rfl
          · cases hreply
          · cases hreply
        · cases hact
      subst hsuspended
      exact ⟨rfl, fun hquiet =>
        busy_of_suspended hS hsound.owned hsound.within (Or.inl ⟨call, rfl⟩) hact hquiet.1⟩
    | _ => cases hbegins
  | sync u hidle hout =>
    obtain rfl := Option.some.inj hbegins
    exact ⟨rfl, fun hquiet => hquiet.2 (Or.inl (Finset.mem_insert_self u _))⟩
  | lockFile | synced | syncFailed | writeBack => cases hbegins

/-- A call goes on until a step ends it. -/
theorem busy_step (h : Holds n N Wakeful m.system) (hbusy : ¬ m.Quiet t)
    (hstep : m.step action = some (m', out))
    (hends : action.resumes = some t → out.reply = none) : ¬ m'.Quiet t := by
  rintro ⟨hidle, hout⟩
  cases step_cases hstep with
  | act action s' _ hadmits hact =>
    by_cases hpc : m.system.pc t = .idle
    · exact hbusy ⟨hpc, hout⟩
    · by_cases hresume : action = .resume t
      · subst hresume
        obtain ⟨c, hS, hsound, -⟩ := h
        have hsuspended : out = .suspended := by
          obtain ⟨piece, -, hsettle⟩ := Option.map_eq_some_iff.mp hact
          have hcases := settle_cases m.system t piece
          rw [hsettle] at hcases
          have hnone := hends rfl
          rcases hcases with rfl | ⟨-, ⟨r, rfl⟩ | ⟨e, rfl⟩⟩
          · rfl
          · cases hnone
          · cases hnone
        subst hsuspended
        exact busy_of_suspended hS hsound.owned hsound.within (Or.inr rfl) hact hidle
      · have hsite := System.site_of_step hact hresume hpc
        rw [show s'.pc t = .idle from hidle] at hsite
        cases hold : m.system.pc t <;> simp [hold, Pc.site] at hsite hpc
  | sync u => exact hbusy ⟨hidle, fun hin => hout (hin.imp_left Finset.mem_insert_of_mem)⟩
  | lockFile u hwaits hfree =>
    refine hbusy ⟨hidle, fun hin => hout ?_⟩
    rcases hin with hw | hf
    · by_cases htu : t = u
      · exact Or.inr (congrArg some htu.symm)
      · exact Or.inl (Finset.mem_erase.mpr ⟨htu, hw⟩)
    · rw [hfree] at hf
      cases hf
  | synced u hmutex | syncFailed u reason hmutex =>
    refine hbusy ⟨hidle, fun hin => ?_⟩
    rcases hin with hw | hf
    · exact hout (Or.inl hw)
    · obtain rfl := Option.some.inj (hmutex.symm.trans hf)
      cases hends rfl
  | writeBack => exact hbusy ⟨hidle, hout⟩

end Machine

/-! ## The executor -/

/-- What is still to be done for a task whose call brings at most `cost`. -/
def Stage.weight (cost : Nat) : Stage → Nat
  | .outside => cost + 5
  | .calling => 4
  | .called _ => 3
  | .replied => 2

/-- What a worker has to do before it sleeps or returns. -/
def Worker.weight (cost : Nat) (x : Stage) : Worker → Nat
  | .awake => 1
  | .asleep | .exited => 0
  | .running _ => x.weight cost

/-- What the destructor has to do: `notify_all` gives each of the `W` workers a turn. -/
def Destructor.weight (W : Nat) : Destructor → Nat
  | .notCalled => 0
  | .notifying => 2 * W + 1
  | .joining k => W - k

namespace AsyncExecutor

/-- A step that goes on with what has begun: not a `Submit`, not the destructor's first
step, and not a wakeup that nobody sent. -/
def Action.Advances {W : Nat} {θ : Type} : Action W θ → Prop
  | .notifyOne _ _ | .turn _ | .finish _ | .notifyAll | .join => True
  | .submit _ | .wake _ | .stop => False

variable {W : Nat} {θ : Type} [Fintype θ] {s s' : AsyncExecutor W θ} {cost : Nat}
  {stage stage' : Fin W → Stage}

/-- The notifications that submitters have still to send. -/
def promised (notifying : θ → Bool) : Nat :=
  (Finset.univ.filter fun t => notifying t = true).card

/-- The work that is left, with the workers at their stages. -/
def work (s : AsyncExecutor W θ) (cost : Nat) (stage : Fin W → Stage) : Nat :=
  ∑ w, (s.worker w).weight cost (stage w) + (cost + 5) * s.tasks.length +
    2 * promised s.notifying + s.destructor.weight W

omit [Fintype θ] in
/-- Only the worker that moves counts differently. -/
theorem weights_update (cost : Nat) (worker : Fin W → Worker) (stage stage' : Fin W → Stage)
    {w : Fin W} {x : Worker} {a b : Nat} (h : ∀ u, u ≠ w → stage' u = stage u)
    (hw : (worker w).weight cost (stage w) = a) (hx : x.weight cost (stage' w) = b) :
    ∑ u, (Function.update worker w x u).weight cost (stage' u) + a =
      ∑ u, (worker u).weight cost (stage u) + b := by
  have hsum := sum_add_of_ne (t := w)
    (f := fun u => (Function.update worker w x u).weight cost (stage' u))
    (g := fun u => (worker u).weight cost (stage u)) fun u hu => by
      rw [Function.update_of_ne hu, h u hu]
  rwa [Function.update_self, hw, hx] at hsum

omit [Fintype θ] in
theorem weights_wakeAll (s : AsyncExecutor W θ) (cost : Nat) (stage : Fin W → Stage) :
    ∑ u, (wakeWorker (s.worker u)).weight cost (stage u) ≤
      ∑ u, (s.worker u).weight cost (stage u) + W := by
  have hle : ∀ u, (wakeWorker (s.worker u)).weight cost (stage u) ≤
      (s.worker u).weight cost (stage u) + 1 := by
    intro u
    cases s.worker u <;> simp [wakeWorker, Worker.weight]
  refine (Finset.sum_le_sum fun u _ => hle u).trans ?_
  rw [Finset.sum_add_distrib]
  simp

variable [DecidableEq θ]

theorem promised_update {notifying : θ → Bool} {t : θ} (ht : notifying t = true) :
    promised (Function.update notifying t false) + 1 = promised notifying := by
  have hset : (Finset.univ.filter fun u => Function.update notifying t false u = true) =
      (Finset.univ.filter fun u => notifying u = true).erase t := by
    ext u
    by_cases hu : u = t
    · simp [hu]
    · simp [hu]
  rw [promised, hset, Finset.card_erase_add_one (by simp [ht]), promised]

/-- A step that goes on, the end of a task apart. -/
theorem work_lt (cost : Nat) (houtside : ∀ w, s.worker w = .awake → stage w = .outside)
    {action : Action W θ} {e : Effect} (hadvances : action.Advances)
    (hfinish : ∀ w, action ≠ .finish w) (hstep : s.step action = some (s', e)) :
    s'.work cost stage < s.work cost stage := by
  have hturn : ∀ (w : Fin W) (x : Worker) {a b : Nat}, (s.worker w).weight cost (stage w) = a →
      x.weight cost (stage w) = b →
      ∑ u, (Function.update s.worker w x u).weight cost (stage u) + a =
        ∑ u, (s.worker u).weight cost (stage u) + b :=
    fun w x _ _ => weights_update _ _ _ _ fun _ _ => rfl
  cases step_cases hstep with
  | refused | accepted | wakes | stops => exact hadvances.elim
  | finishes w => exact absurd rfl (hfinish w)
  | notified t w ht hw =>
    have hcard := promised_update ht
    have hsum := hturn w .awake (a := 0) (b := 1) (by rw [hw]; rfl) rfl
    simp only [work, setWorker_worker, setWorker_tasks, setWorker_notifying, setWorker_destructor]
    omega
  | unheard t ht hall =>
    have hcard := promised_update ht
    simp only [work]
    omega
  | exits w hw =>
    have hsum := hturn w .exited (a := 1) (b := 0) (by rw [hw]; rfl) rfl
    simp only [work, setWorker_worker, setWorker_tasks, setWorker_notifying, setWorker_destructor]
    omega
  | sleeps w hw =>
    have hsum := hturn w .asleep (a := 1) (b := 0) (by rw [hw]; rfl) rfl
    simp only [work, setWorker_worker, setWorker_tasks, setWorker_notifying, setWorker_destructor]
    omega
  | takes w task rest hw htasks =>
    have hsum := hturn w (.running task) (a := 1) (b := cost + 5) (by rw [hw]; rfl)
      (by rw [Worker.weight, houtside w hw, Stage.weight])
    simp only [work, setWorker_worker, setWorker_tasks, setWorker_notifying, setWorker_destructor,
      htasks, List.length_cons, Nat.mul_succ]
    omega
  | notifiesAll hd =>
    have hsum := weights_wakeAll s cost stage
    simp only [work, hd, Destructor.weight]
    omega
  | joins k hk hd hw =>
    simp only [work, hd, Destructor.weight]
    omega

end AsyncExecutor

/-! ## The buffer manager -/

namespace Async

variable {W : Nat} {R θ : Type}

/-- A step that goes on with what has begun. -/
def Action.Advances (s : Async W R θ) : Action W θ → Prop
  | .executor action => action.Advances
  | .begin _ | .reply _ => True
  | .machine action => action.Advances s.machine
  | .submit _ _ => False

variable [Fintype θ] [DecidableEq θ]

/-- What the call of a request brings to the machine, at most. -/
def requestCost (n W : Nat) (θ : Type) [Fintype θ] : Nat :=
  callCost n (Fintype.card (θ ⊕ Fin W)) + 2

/-- The work that is left. -/
def work (n : Nat) (s : Async W R θ) : Nat :=
  s.machine.work + s.executor.work (requestCost n W θ) s.stage

variable [Replacer R] [LawfulReplacer R] {n N : Nat} {s s' : Async W R θ} {g g' : Log}

/-- What keeps the threads going. -/
structure Sustained (n N : Nat) (s : Async W R θ) (g : Log) : Prop where
  consistent : Consistent s g
  holds : Holds n N Wakeful s.machine.system
  engaged : ∀ w, s.stage w = .calling → ¬ s.machine.Quiet (.inr w)
  joined : ∀ k, s.executor.destructor = .joining k → k ≤ W

namespace Sustained

theorem initial (h : s.Initial n N) : Sustained n N s {} := by
  have hmake := h.2.1
  unfold AsyncExecutor.make at hmake
  refine ⟨.initial h, wakeful_of_reachable (.init h.1.1), fun w hw => ?_, fun k hk => ?_⟩
  · rw [h.2.2.2.2] at hw
    cases hw
  · split at hmake
    · cases hmake
    · rw [← Except.ok.inj hmake] at hk
      cases hk

/-- A worker whose call goes on is in a task. -/
theorem exists_running (h : Sustained n N s g) {w : Fin W} (hw : s.stage w = .calling) :
    ∃ task, s.executor.worker w = .running task := by
  by_contra hnone
  rw [h.consistent.tracked.outside w (not_exists.mp hnone)] at hw
  cases hw

theorem engaged_step (h : Sustained n N s g) {action : Action W θ} {e : Event W θ}
    (hstep : s.step action = some (s', e)) {w : Fin W} (hw : s'.stage w = .calling) :
    ¬ s'.machine.Quiet (.inr w) := by
  have hother : ∀ {u : Fin W} {x : Stage}, x ≠ .calling →
      Function.update s.stage u x w = .calling → w ≠ u ∧ s.stage w = .calling := by
    intro u x hx hcalling
    by_cases huw : w = u
    · rw [huw, Function.update_self] at hcalling
      exact absurd hcalling hx
    · exact ⟨huw, by rwa [Function.update_of_ne huw] at hcalling⟩
  cases step_cases hstep with
  | submit | executor => exact h.engaged w hw
  | finish u => exact h.engaged w (hother (by simp) hw).2
  | reply u => exact h.engaged w (hother (by simp) hw).2
  | begin u task r m out _ _ _ hm =>
    by_cases huw : w = u
    · subst huw
      refine (Machine.busy_of_begins h.holds (r.begins_action _) hm ?_).2
      have hstage : stageOf out = .calling := by simpa [setStage] using hw
      unfold stageOf at hstage
      split at hstage
      · cases hstage
      · assumption
    · have hcalling : s.stage w = .calling := by simpa [setStage, huw] using hw
      exact Machine.busy_step h.holds (h.engaged w hcalling) hm fun hr => by simp at hr
  | ended action u task reply m out _ hm hresumes =>
    obtain ⟨huw, hcalling⟩ := hother (by simp) hw
    refine Machine.busy_step h.holds (h.engaged w hcalling) hm fun hr => ?_
    rw [hresumes] at hr
    exact absurd (Sum.inr.inj (Option.some.inj hr)).symm huw
  | machine action m out _ hm hends =>
    obtain ⟨task, htask⟩ := h.exists_running hw
    exact Machine.busy_step h.holds (h.engaged w hw) hm fun hr =>
      reply_eq_none_of_ends hends hr htask

theorem joined_step (h : Sustained n N s g) {action : AsyncExecutor.Action W θ}
    {x : AsyncExecutor W θ} {e : AsyncExecutor.Effect} (hx : s.executor.step action = some (x, e))
    {k : Nat} (hk : x.destructor = .joining k) : k ≤ W := by
  cases AsyncExecutor.step_cases hx with
  | refused | accepted | notified | unheard | exits | sleeps | takes | finishes | wakes =>
    exact h.joined k hk
  | stops => cases hk
  | notifiesAll =>
    obtain rfl := Destructor.joining.inj hk
    exact Nat.zero_le W
  | joins j hj =>
    obtain rfl := Destructor.joining.inj hk
    exact hj

theorem step (h : Sustained n N s g) {l : Action W θ × Event W θ}
    (hstep : Kept (s, g) l (s', g')) : Sustained n N s' g' := by
  refine ⟨h.consistent.step hstep, ?_, fun w hw => h.engaged_step hstep.1.1 hw, fun k hk => ?_⟩
  · obtain ⟨action, e⟩ := l
    obtain ⟨⟨hst, hsurvived⟩, -⟩ := hstep
    cases step_cases hst with
    | submit | executor | finish | reply => exact h.holds
    | begin w task r m out _ _ _ hm =>
      refine Machine.holds_step h.holds hm ?_
      cases hreply : out.reply with
      | none =>
        rw [(Machine.busy_of_begins h.holds (r.begins_action _) hm hreply).1]
        simp
      | some reply => exact Outcome.ne_terminated_of_reply hreply
    | ended action w task reply m out _ hm _ _ hreply =>
      exact Machine.holds_step h.holds hm (Outcome.ne_terminated_of_reply hreply)
    | machine action m out _ hm =>
      exact Machine.holds_step h.holds hm (Outcome.ne_terminated hsurvived)
  · obtain ⟨action, e⟩ := l
    cases step_cases hstep.1.1 with
    | submit t r x e _ _ hx => exact h.joined_step hx hk
    | executor action x e _ _ hx => exact h.joined_step hx hk
    | finish w x e _ hx => exact h.joined_step hx hk
    | begin | ended | machine | reply => exact h.joined k hk

omit [DecidableEq θ] [Replacer R] [LawfulReplacer R] in
/-- A worker comes from one stage of its task to another. -/
theorem work_setStage (cost : Nat) {a b : Nat} {w : Fin W} {task : Nat} {x : Stage}
    (hw : s.executor.worker w = .running task) (ha : (s.stage w).weight cost = a)
    (hb : x.weight cost = b) :
    s.executor.work cost (Function.update s.stage w x) + a = s.executor.work cost s.stage + b := by
  have hsum := AsyncExecutor.weights_update cost s.executor.worker s.stage
    (Function.update s.stage w x) (w := w) (x := .running task) (a := a) (b := b)
    (fun u hu => Function.update_of_ne hu _ _) (by rw [hw, Worker.weight, ha])
    (by rw [Worker.weight, Function.update_self, hb])
  rw [← hw, Function.update_eq_self] at hsum
  unfold AsyncExecutor.work
  omega

/-- Each step that goes on uses some work up. -/
theorem work_lt (h : Sustained n N s g) {action : Action W θ} {e : Event W θ}
    (hadvances : action.Advances s) (hstep : s.step action = some (s', e)) :
    s'.work n < s.work n := by
  cases step_cases hstep with
  | submit => exact hadvances.elim
  | executor action x e hsubmit hfinish hx =>
    have hless := AsyncExecutor.work_lt (requestCost n W θ)
      (fun w hw => h.consistent.tracked.outside w (by simp [hw])) hadvances hfinish hx
    simp only [work]
    omega
  | finish w x e hreplied hx =>
    cases AsyncExecutor.step_cases hx with
    | finishes _ task hw =>
      have hsum := AsyncExecutor.weights_update (requestCost n W θ) s.executor.worker
        s.stage (Function.update s.stage w .outside) (w := w) (x := .awake) (a := 2) (b := 1)
        (fun u hu => Function.update_of_ne hu _ _)
        (by rw [hw, Worker.weight, hreplied, Stage.weight]) rfl
      simp only [work, AsyncExecutor.work, setStage, AsyncExecutor.setWorker_worker,
        AsyncExecutor.setWorker_tasks, AsyncExecutor.setWorker_notifying,
        AsyncExecutor.setWorker_destructor]
      omega
  | begin w task r m out hw houtside _ hm =>
    have hbrings := Machine.work_of_begins h.holds (r.begins_action _) hm
    have hstage := work_setStage (requestCost n W θ) (x := stageOf out) hw rfl rfl
    have hle : (stageOf out).weight (requestCost n W θ) ≤ 4 := by
      unfold stageOf
      split <;> simp [Stage.weight]
    rw [houtside] at hstage
    simp only [work, setStage, Stage.weight, requestCost] at hstage hle ⊢
    omega
  | ended action w task reply m out _ hm hresumes hw hreply =>
    have hless := Machine.work_lt_of_advances h.holds hadvances hm
    have hbusy := (Machine.quiet_of_resumes h.consistent.apart hm hresumes hreply).1
    have hcalling : s.stage w = .calling := by
      by_contra hne
      exact hbusy (h.consistent.tracked.quiet w hne)
    have hstage := work_setStage (requestCost n W θ) (x := .called reply) (a := 4) (b := 3)
      hw (by rw [hcalling, Stage.weight]) rfl
    simp only [work, setStage]
    omega
  | machine action m out _ hm =>
    have hless := Machine.work_lt_of_advances h.holds hadvances hm
    simp only [work]
    omega
  | reply w task reply hw hcalled =>
    have hstage := work_setStage (requestCost n W θ) (x := .replied) (a := 3) (b := 2)
      hw (by rw [hcalled, Stage.weight]) rfl
    simp only [work, setStage]
    omega

end Sustained

/-! ## Where nobody has a step to take -/

/-- No thread is in a call, the calls that have been accepted are answered, and the
destructor of the executor has returned if it has been called. -/
structure Answered (s : Async W R θ) (g : Log) : Prop where
  quiet : ∀ t, s.machine.Quiet t
  ready : ∀ y ∈ g.accepted, ∃ reply, s.future y.1 = some reply
  destructor : s.executor.destructor = .notCalled ∨ s.executor.destructor = .joining W

omit [Fintype θ] [LawfulReplacer R] in
/-- A thread in no call can begin the call of a request. -/
theorem exists_begin {τ : Type} [DecidableEq τ] {m : Machine R τ} {t : τ} (h : m.Quiet t)
    (r : Request) : ∃ y, m.step (r.action t) = some y := by
  cases r with
  | call c =>
    have hadmits : m.admits (.call t c) := h.2
    exact ⟨_, by rw [Request.action, Machine.step, if_pos hadmits, System.step, if_pos h.1]; rfl⟩
  | sync => exact ⟨_, if_pos h⟩

namespace Sustained

/-- A step that somebody has to take. -/
def Goes (s : Async W R θ) : Prop :=
  ∃ (action : Action W θ) (y : Async W R θ × Event W θ), action.Advances s ∧
    s.step action = some y ∧ y.2.survived = true

omit [Fintype θ] [LawfulReplacer R] in
theorem goes_of_executor (action : AsyncExecutor.Action W θ) (hadvances : action.Advances)
    (hready : s.ready action = true) {y : AsyncExecutor W θ × AsyncExecutor.Effect}
    (hy : s.executor.step action = some y) : Goes s :=
  ⟨.executor action, _, hadvances, by rw [Async.step, if_pos hready, hy]; rfl, rfl⟩

theorem goes_of_busy (h : Sustained n N s g) {t : θ ⊕ Fin W} (hbusy : ¬ s.machine.Quiet t) :
    Goes s := by
  obtain ⟨action, ⟨m, out⟩, hadvances, hm, hsurvived⟩ := Machine.exists_advances h.holds hbusy
  have hadmits : s.admits action = true := by
    have hbegins : action.begins = none := by
      cases action with
      | act action =>
        cases action with
        | call => exact hadvances.elim
        | _ => rfl
      | sync => exact hadvances.elim
      | _ => rfl
    simp [admits, hbegins]
  refine ⟨.machine action, s.settle action m out, hadvances,
    by rw [Async.step, if_pos hadmits, hm]; rfl, ?_⟩
  unfold settle
  split
  · rfl
  · exact hsurvived

/-- A worker that is neither asleep nor gone has a step to take, or its call has. -/
theorem goes_of_worker (h : Sustained n N s g) {w : Fin W} (hasleep : s.executor.worker w ≠ .asleep)
    (hexited : s.executor.worker w ≠ .exited) : Goes s := by
  cases hw : s.executor.worker w with
  | asleep => exact absurd hw hasleep
  | exited => exact absurd hw hexited
  | awake =>
    have hturn : s.executor.step (.turn w) = some (s.executor.workerTurn w) := if_pos hw
    exact goes_of_executor (.turn w) trivial rfl hturn
  | running task =>
    cases hstage : s.stage w with
    | outside =>
      obtain ⟨-, hA, -⟩ := AsyncExecutor.spec_of_reachable h.consistent.executor
      have haccepted : task ∈ g.tasks.accepted := by
        rw [hA.fifo]
        exact List.mem_append_left _ ((hA.taken_iff task).mpr (Or.inl ⟨w, hw⟩))
      rw [← h.consistent.tracked.accepted] at haccepted
      obtain ⟨⟨i, r⟩, hmem, rfl⟩ := List.mem_map.mp haccepted
      have hquiet := h.consistent.tracked.quiet w (by simp [hstage])
      obtain ⟨⟨m, out⟩, hm⟩ := exists_begin hquiet r
      refine ⟨.begin w, ({ s with machine := m }.setStage w (stageOf out), .began i r out), trivial,
        ?_, rfl⟩
      simp [Async.step, hw, Worker.task, hstage, h.consistent.tracked.request _ hmem, hm]
    | calling => exact h.goes_of_busy (h.engaged w hstage)
    | called reply =>
      exact ⟨.reply w, _, trivial, by simp [Async.step, hw, Worker.task, hstage]; rfl, rfl⟩
    | replied =>
      have hfinish : s.executor.step (.finish w) =
          some (s.executor.setWorker w .awake, .finished task) := by simp [AsyncExecutor.step, hw]
      exact goes_of_executor (.finish w) trivial (by simp [ready, hstage, Stage.isReplied])
        hfinish

/-- Where nobody has a step to take, all is answered. -/
theorem goes_or_answered (h : Sustained n N s g) : Goes s ∨ Answered s g := by
  by_contra hboth
  obtain ⟨hstuck, hopen⟩ := not_or.mp hboth
  obtain ⟨hW, hA, hT⟩ := AsyncExecutor.spec_of_reachable h.consistent.executor
  have hquiet : ∀ t, s.machine.Quiet t := fun t => by
    by_contra hbusy
    exact hstuck (h.goes_of_busy hbusy)
  have hworker : ∀ w, s.executor.worker w = .asleep ∨ s.executor.worker w = .exited := fun w => by
    by_contra hw
    exact hstuck (h.goes_of_worker (not_or.mp hw).1 (not_or.mp hw).2)
  have hidle : ∀ w i, s.executor.worker w ≠ .running i := by
    intro w i hw
    rcases hworker w with hasleep | hexited
    · rw [hw] at hasleep
      cases hasleep
    · rw [hw] at hexited
      cases hexited
  have hnotifying : ∀ t, s.executor.notifying t ≠ true := by
    intro t ht
    by_cases hasleep : ∃ w, s.executor.worker w = .asleep
    · obtain ⟨w, hw⟩ := hasleep
      exact hstuck (goes_of_executor (.notifyOne t (some w)) trivial rfl
        (by simp [AsyncExecutor.step, ht, hw]; rfl))
    · exact hstuck (goes_of_executor (.notifyOne t none) trivial rfl
        (by simp [AsyncExecutor.step, ht, not_exists.mp hasleep]; rfl))
  have hdestructor : s.executor.destructor ≠ .notifying := fun hd =>
    hstuck (goes_of_executor .notifyAll trivial rfl (if_pos hd))
  have htasks : s.executor.tasks = [] := by
    by_contra hne
    rcases hT.attended hne with (⟨t, ht⟩ | hd) | ⟨w, hasleep, hexited⟩
    · exact hnotifying t ht
    · exact hdestructor hd
    · exact (hworker w).elim hasleep hexited
  refine hopen ⟨hquiet, fun y hy => h.consistent.ready_of_idle htasks hidle hy, ?_⟩
  cases hd : s.executor.destructor with
  | notCalled => exact Or.inl rfl
  | notifying => exact absurd hd hdestructor
  | joining k =>
    refine Or.inr (congrArg _ (le_antisymm (h.joined k hd) ?_))
    by_contra hlt
    have hk : k < W := not_le.mp hlt
    have hexited : s.executor.worker ⟨k, hk⟩ = .exited :=
      (hworker _).resolve_left (hT.woken k hd _)
    exact hstuck (goes_of_executor .join trivial rfl
      (by simp [AsyncExecutor.step, hd, hk, hexited]; rfl))

end Sustained

/-- The steps that go on with what has begun come to an end, whichever is taken next, and
until all is answered there is one to take. -/
def Settles (x : Async W R θ × Log) : Prop :=
  Lib.Settles (fun x x' => ∃ l : Action W θ × Event W θ, l.1.Advances x.1 ∧ Kept x l x')
    (fun x => Answered x.1 x.2) x

/-- Every asynchronous call that is accepted is answered, and the destructor of the
executor returns, in whatever state the threads, the workers and the disk are when the
clients have made their last call. -/
theorem every_request_is_answered {x : Async W R θ × Log}
    (h : Reachable (fun x => Initial n N x.1 ∧ x.2 = {}) Kept x) : Settles x := by
  have hsustained : Sustained n N x.1 x.2 := by
    refine h.invariant (I := fun x => Sustained n N x.1 x.2) ?_ ?_
    · rintro ⟨s, g⟩ ⟨hs, rfl⟩
      exact .initial hs
    · rintro ⟨s, g⟩ l ⟨s', g'⟩ hs hst
      exact hs.step hst
  refine Lib.Settles.of_measure (I := fun x => Sustained n N x.1 x.2) (fun x => x.1.work n)
    ?_ ?_ ?_ hsustained
  · rintro ⟨s, g⟩ hs hopen
    obtain ⟨action, ⟨s', e⟩, hadvances, hstep, hsurvived⟩ := hs.goes_or_answered.resolve_right hopen
    exact ⟨(s', g.after e), (action, e), hadvances, ⟨hstep, hsurvived⟩, rfl⟩
  · rintro ⟨s, g⟩ ⟨s', g'⟩ hs ⟨l, -, hst⟩
    exact hs.step hst
  · rintro ⟨s, g⟩ ⟨s', g'⟩ hs ⟨l, hadvances, hst⟩
    exact hs.work_lt hadvances hst.1.1

/-- One frame, two ids and two workers: one worker writes the page it evicts, the other
sleeps on that page, a `SyncAsync` waits in the queue, and the destructor has begun. -/
theorem every_request_is_answered_stopping : ∃ x : Async 2 ClockReplacer (Fin 1) × Log,
    x.1.machine.system.manager.asleep = {.inr 1} ∧ x.1.executor.tasks = [2] ∧
      x.1.executor.destructor = .notifying ∧ Settles x := by
  have hrun : ((runNew 1 2 [.machine (.act (.call (.inl (0 : Fin 1)) .newPage)),
      .machine (.act (.drop 0)), .submit 0 (.call .newPage), .executor (.notifyOne 0 none),
      .executor (.turn (0 : Fin 2)), .begin 0, .submit 0 (.call (.fetchPage 0)),
      .executor (.notifyOne 0 none), .executor (.turn 1), .begin 1, .submit 0 .sync,
      .executor .stop]).any fun x => decide (x.1.machine.system.manager.asleep = {.inr 1} ∧
        x.1.executor.tasks = [2] ∧ x.1.executor.destructor = .notifying)) = true := by
    decide +kernel
  obtain ⟨x, hx, hfacts⟩ := (Option.any_eq_true _ _).mp hrun
  obtain ⟨hasleep, htasks, hdestructor⟩ := of_decide_eq_true hfacts
  exact ⟨x, hasleep, htasks, hdestructor, every_request_is_answered (reachable_of_runNew hx)⟩

end Async

end BufferManager
