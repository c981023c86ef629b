/-
  Guarantees/Progress.lean --- the threads never block one another for good.

  The work of a system bounds how many steps its threads can still take.  Only a call
  that begins adds to it, and by no more than a constant; a wakeup that nobody sent is the
  only step of a thread that need not use any up.  While some thread is in a call, some
  thread has a step to take: a sleeper's reason is the window of a thread that is awake.
-/
import BufferManager.Guarantees.Wakeups
import BufferManager.Protocol.Progress

set_option autoImplicit false

namespace BufferManager

open BufferManager.Lib BufferManager.Protocol BufferManager.Refinement

/-! ## The work that is left -/

/-- The frame holds a page, or is being rid of one. -/
def FrameState.occupied : FrameState → Bool
  | .resident | .evicting => true
  | .free | .loading => false

/-- The thread is in one of the waits on `state_changed_`. -/
def Pc.waits : Pc → Bool
  | .waitPage _ | .waitFrame _ => true
  | _ => false

namespace System

variable {R τ : Type}

/-- The pages that are out of memory. -/
def out (s : System R τ) (p : Nat) : Bool := decide ((s.entry p).state = .nonResident)

/-- The live guards and the frames with pages. -/
def occupied (s : System R τ) : Nat :=
  s.guards.countP (·.valid) +
    (List.range s.manager.frameCount).countP fun f => (s.manager.frameMeta f).state.occupied

variable [Fintype τ]

/-- The stages that all calls have still before them. -/
def stages (s : System R τ) : Nat := ∑ t, (s.pc t).stages

/-- The turns that all calls have still to take. -/
def turns (s : System R τ) : Nat := ∑ t, (s.pc t).turns s.out

/-- What is to be done, in units that exceed the number of threads. -/
def labour (s : System R τ) : Nat :=
  (Fintype.card τ + 1) *
    ((6 * Fintype.card τ + 1) * (3 * s.stages + s.occupied) + s.turns)

variable [DecidableEq τ]

/-- The threads that have been notified and have not taken `mutex_` yet. -/
def notified (s : System R τ) : Nat :=
  (Finset.univ.filter fun t => (s.pc t).waits = true ∧ t ∉ s.manager.asleep).card

/-- The work that is left. -/
def work (s : System R τ) : Nat := s.labour + s.notified

theorem notified_le (s : System R τ) : s.notified ≤ Fintype.card τ := Finset.card_le_univ _

end System

/-- A step of a thread in the midst of a call, other than a wakeup that nobody sent. -/
def Action.Advances {R τ : Type} (s : System R τ) : Action τ → Prop
  | .resume t => t ∉ s.manager.asleep
  | .transfer _ | .failRead _ _ _ | .failWrite _ _ _ => True
  | _ => False

/-! ## The work in the protocol -/

namespace Refinement

variable {R τ : Type} [Replacer R] [LawfulReplacer R] [Fintype τ] [DecidableEq τ] {n N : Nat}
  {s s' : System R τ} {c c' : Cfg τ} {t : τ} {out : Outcome}

omit [Fintype τ] [DecidableEq τ] in
theorem Sim.out_eq (hS : Sim n N s c) : s.out = c.out := by
  funext p
  unfold System.out Cfg.out
  rw [decide_eq_decide]
  exact hS.state_nonResident p

omit [Fintype τ] [DecidableEq τ] in
theorem Sim.occupied_eq (hS : Sim n N s c) : s.occupied = c.occupied n := by
  unfold System.occupied Cfg.occupied
  rw [hS.guards, hS.rep.frameCount]
  congr 1
  refine List.countP_congr fun f _ => ?_
  rw [hS.rep.frameMeta]
  cases c.frame f <;> rfl

omit [DecidableEq τ] in
theorem Sim.labour_eq (hS : Sim n N s c) : s.labour = c.labour n := by
  have hstages : s.stages = c.stages :=
    Finset.sum_congr rfl fun t _ => by rw [hS.phase, Phase.stages]
  have hturns : s.turns = c.turns :=
    Finset.sum_congr rfl fun t _ => by rw [hS.phase, Phase.turns, hS.out_eq]
  unfold System.labour Cfg.labour
  rw [hstages, hturns, hS.occupied_eq]

theorem work_lt_of_eases (hS : Sim n N s c) (hS' : Sim n N s' c') (h : Eases n c c') :
    s'.work < s.work := by
  have hnotified := s'.notified_le
  unfold Eases at h
  unfold System.work
  rw [hS.labour_eq, hS'.labour_eq]
  omega

/-- A thread that falls asleep again has taken its notification, if it had one. -/
theorem work_of_dozes (hS : Sim n N s c) (hS' : Sim n N s' c')
    (hothers : ∀ u, u ≠ t → s'.pc u = s.pc u) (h : Dozes n t c c') :
    s'.work + (if t ∈ s.manager.asleep then 0 else 1) = s.work := by
  have hwaits : ∀ pc, (Phase.suspended pc).Waits → pc.waits = true := by
    intro pc hpc
    cases pc with
    | waitPage | waitFrame => rfl
    | idle | evicting | reading | writing | nextFlush => exact hpc.elim
  have hbefore : (s.pc t).waits = true := hwaits _ (hS.phase t ▸ h.before)
  have hasleep : t ∈ s'.manager.asleep := by
    rw [hS'.rep.asleep]
    exact h.asleep _ (hS'.phase t)
  have hset : (Finset.univ.filter fun u => (s'.pc u).waits = true ∧ u ∉ s'.manager.asleep) =
      (Finset.univ.filter fun u => (s.pc u).waits = true ∧ u ∉ s.manager.asleep).erase t := by
    ext u
    by_cases hu : u = t
    · subst hu
      simp [hasleep]
    · have hiff := h.others u hu
      simp [hu, hothers u hu, hS.rep.asleep, hS'.rep.asleep, hiff]
  unfold System.work System.notified
  rw [hS.labour_eq, hS'.labour_eq, h.labour, hset]
  by_cases hawake : t ∈ s.manager.asleep
  · rw [if_pos hawake, Finset.erase_eq_of_notMem (by simp [hawake])]
    rfl
  · have hmem : t ∈ Finset.univ.filter fun u =>
        (s.pc u).waits = true ∧ u ∉ s.manager.asleep := by simp [hbefore, hawake]
    have hpos := Finset.card_pos.mpr ⟨t, hmem⟩
    rw [if_neg hawake, Finset.card_erase_of_mem hmem]
    omega

omit [Replacer R] [LawfulReplacer R] [Fintype τ] in
/-- How a locked piece of a call ends. -/
theorem settle_cases (s : System R τ) (t : τ) (piece : Locked R τ Next) :
    (s.settle t piece).2 = .suspended ∨ (s.settle t piece).1.pc t = .idle ∧
      ((∃ r, (s.settle t piece).2 = .returned r) ∨ ∃ e, (s.settle t piece).2 = .threw e) := by
  unfold System.settle
  split
  · exact Or.inl rfl
  · exact Or.inr ⟨Function.update_self _ _ _, Or.inl ⟨_, rfl⟩⟩
  · exact Or.inr ⟨Function.update_self _ _ _, Or.inl ⟨_, rfl⟩⟩
  · exact Or.inr ⟨Function.update_self _ _ _, Or.inr ⟨_, rfl⟩⟩

omit [Fintype τ] [DecidableEq τ] in
/-- The end of a call is one note of its thread. -/
theorem notes_of_end (creates : Bool) (deletes : Option Nat)
    (h : (∃ r, out = .returned r) ∨ ∃ e, out = .threw e) :
    ∃ y : Note τ, out.notes t creates deletes = [y] ∧ y.By t ∧ y.Ends := by
  rcases h with ⟨r, rfl⟩ | ⟨e, rfl⟩
  · cases r with
    | unit =>
      cases deletes with
      | none => exact ⟨_, rfl, rfl, trivial⟩
      | some p => exact ⟨_, rfl, rfl, trivial⟩
    | guard g =>
      cases creates with
      | true => exact ⟨_, rfl, rfl, trivial⟩
      | false => exact ⟨_, rfl, rfl, trivial⟩
  · exact ⟨_, rfl, rfl, trivial⟩

omit [Fintype τ] [DecidableEq τ] in
theorem notes_of_pc (pc : Pc) : ∀ y ∈ pc.notes t, y.By t ∧ ¬ y.Ends := by
  intro y hy
  obtain ⟨p, -, rfl⟩ := List.mem_map.mp hy
  exact ⟨rfl, id⟩

omit [Fintype τ] [DecidableEq τ] in
theorem notes_of_call (call : Call) : ∀ y ∈ call.notes t, y.By t ∧ ¬ y.Ends := by
  intro y hy
  cases call with
  | newPage => cases hy
  | flushAllPages | fetchPage p | flushPage p | deletePage p =>
    obtain rfl := List.mem_singleton.mp hy
    exact ⟨rfl, id⟩

/-! ## Steps and the work -/

omit [Replacer R] [LawfulReplacer R] [Fintype τ] in
theorem pc_of_settle {piece : Locked R τ Next} {u : τ} (hu : u ≠ t) :
    (s.settle t piece).1.pc u = s.pc u := by
  unfold System.settle
  split <;> exact Function.update_of_ne hu _ _

/-- A thread that goes on uses something up, unless it wakes unnotified. -/
theorem work_of_resume (hS : Sim n N s c) (hI : Owned n c) (hW : Within N c)
    (hstep : s.step (.resume t) = some (s', out)) :
    s'.work + (if t ∈ s.manager.asleep then 0 else 1) ≤ s.work := by
  obtain ⟨es, c', hsim⟩ := resume_simulated hS hI hW hstep
  obtain ⟨piece, hpiece, hsettle⟩ := Option.map_eq_some_iff.mp hstep
  have hbusy : c.phase t ≠ .suspended .idle := by
    rw [hS.phase]
    intro hidle
    rw [Phase.suspended.inj hidle] at hpiece
    cases hpiece
  have hothers : ∀ u, u ≠ t → s'.pc u = s.pc u := by
    intro u hu
    have hsame : (s.settle t piece).1.pc u = s.pc u := pc_of_settle hu
    rw [← hsame, hsettle]
  have hends := settle_cases s t piece
  rw [hsettle] at hends
  have heases : Eases n c c' → s'.work + (if t ∈ s.manager.asleep then 0 else 1) ≤ s.work := by
    intro h
    have := work_lt_of_eases hS hsim.sim h
    split <;> omega
  have hnotes := hsim.told.notes
  rcases hends with rfl | ⟨hidle, hout⟩
  · rw [show Outcome.suspended.notes t _ _ = [] from rfl, List.append_nil] at hnotes
    rcases eases_or_dozes_of_path hsim.path hI hbusy (hnotes ▸ notes_of_pc (s.pc t))
      (hsim.moves rfl) with h | h
    · exact heases h
    · exact (work_of_dozes hS hsim.sim hothers h).le
  · obtain ⟨y, hy, hby, -⟩ := notes_of_end (t := t) (s.pc t).isNewPage (s.pc t).deletes hout
    rw [hy] at hnotes
    exact heases (eases_of_path_end hsim.path hI hbusy (by rw [hsim.sim.phase, hidle]) hnotes
      (notes_of_pc (s.pc t)) hby)

/-- What a call brings, at most: the threads that it notifies are in it. -/
theorem work_of_call (hS : Sim n N s c) (hI : Owned n c) (hW : Within N c) {call : Call}
    (hstep : s.step (.call t call) = some (s', out)) :
    s'.work ≤ s.work + (callLabour n (Fintype.card τ) + Fintype.card τ) := by
  obtain ⟨es, c', hsim⟩ := call_simulated hS hI hW hstep
  simp only [System.step] at hstep
  split at hstep
  · next hidle =>
    have hends := settle_cases s t (System.start t call)
    rw [Option.some.inj hstep] at hends
    have hlast : out.notes t call.isNewPage call.deletes = [] ∨
        ∃ y, out.notes t call.isNewPage call.deletes = [y] ∧ y.By t ∧ y.Ends ∧
          c'.phase t = .suspended .idle := by
      rcases hends with rfl | ⟨hidle', hout⟩
      · exact Or.inl rfl
      · obtain ⟨y, hy, hby, hyends⟩ := notes_of_end (t := t) call.isNewPage call.deletes hout
        exact Or.inr ⟨y, hy, hby, hyends, by rw [hsim.sim.phase, hidle']⟩
    have hlabour := labour_le_of_call hsim.path hI (by rw [hS.phase, hidle]) hsim.told.notes
      (notes_of_call call) hlast
    have hnotified := s'.notified_le
    unfold System.work
    rw [hS.labour_eq, hsim.sim.labour_eq]
    omega
  · cases hstep

/-- A step of the disk is a turn of a thread that does not wait. -/
theorem work_lt_of_disk (hS : Sim n N s c) (hS' : Sim n N s' c') (hI : Owned n c) {e : Event τ}
    (h : Step n N (CompleteReplacer R) c e c') (hnote : ∀ y, e.note = some y → y.By t)
    (hothers : ∀ u, u ≠ t → s'.pc u = s.pc u) (hbusy : s.pc t ≠ .idle)
    (hwaits : ¬ (Phase.suspended (s.pc t)).Waits) : s'.work < s.work := by
  rcases h.eases hI hnote (by rw [hS.phase]; exact fun h => hbusy (Phase.suspended.inj h))
    (fun u hu => by rw [hS.phase, hS'.phase, hothers u hu]) with heases | hdozes
  · exact work_lt_of_eases hS hS' heases
  · exact absurd (hS.phase t ▸ hdozes.before) hwaits

omit [Replacer R] [LawfulReplacer R] [Fintype τ] in
/-- A transfer moves the thread whose it is, which neither waits nor is in no call. -/
theorem of_transfer (h : s.transfer t = some s') :
    (∀ u, u ≠ t → s'.pc u = s.pc u) ∧ s.pc t ≠ .idle ∧ ¬ (Phase.suspended (s.pc t)).Waits := by
  unfold System.transfer at h
  split at h
  · next hpc =>
    obtain rfl := Option.some.inj h
    exact ⟨fun u hu => Function.update_of_ne hu _ _, by simp [hpc], by simp [hpc, Phase.Waits]⟩
  · next hpc =>
    obtain rfl := Option.some.inj h
    exact ⟨fun u hu => Function.update_of_ne hu _ _, by simp [hpc], by simp [hpc, Phase.Waits]⟩
  · next hpc =>
    obtain rfl := Option.some.inj h
    exact ⟨fun u hu => Function.update_of_ne hu _ _, by simp [hpc], by simp [hpc, Phase.Waits]⟩
  · cases h

omit [Replacer R] [LawfulReplacer R] [Fintype τ] in
theorem of_failRead {left : Page} {e : Error} (h : s.failRead t left e = some s') :
    (∀ u, u ≠ t → s'.pc u = s.pc u) ∧ s.pc t ≠ .idle ∧ ¬ (Phase.suspended (s.pc t)).Waits := by
  unfold System.failRead at h
  split at h
  · next hpc =>
    obtain rfl := Option.some.inj h
    exact ⟨fun u hu => Function.update_of_ne hu _ _, by simp [hpc], by simp [hpc, Phase.Waits]⟩
  · cases h

omit [Replacer R] [LawfulReplacer R] [Fintype τ] in
theorem of_failWrite {k : Nat} {e : Error} (h : s.failWrite t k e = some s') :
    (∀ u, u ≠ t → s'.pc u = s.pc u) ∧ s.pc t ≠ .idle ∧ ¬ (Phase.suspended (s.pc t)).Waits := by
  unfold System.failWrite at h
  split at h
  · next hpc =>
    obtain rfl := Option.some.inj h
    exact ⟨fun u hu => Function.update_of_ne hu _ _, by simp [hpc], by simp [hpc, Phase.Waits]⟩
  · next hpc =>
    obtain rfl := Option.some.inj h
    exact ⟨fun u hu => Function.update_of_ne hu _ _, by simp [hpc], by simp [hpc, Phase.Waits]⟩
  · cases h

/-- Each step that advances uses some work up. -/
theorem work_lt_of_advances (hS : Sim n N s c) (hI : Owned n c) (hW : Within N c)
    {action : Action τ} (hadvances : action.Advances s)
    (hstep : s.step action = some (s', out)) : s'.work < s.work := by
  cases action with
  | resume t =>
    have hresume := work_of_resume hS hI hW hstep
    rwa [if_neg hadvances] at hresume
  | transfer t =>
    obtain ⟨s₁, hs₁, heq⟩ := Option.map_eq_some_iff.mp hstep
    obtain ⟨rfl, rfl⟩ := Prod.mk.inj heq
    obtain ⟨e, c', hst, hS', hnote, -⟩ := transfer_simulated hS hs₁
    obtain ⟨hothers, hbusy, hwaits⟩ := of_transfer hs₁
    refine work_lt_of_disk hS hS' hI hst (fun y hy => ?_) hothers hbusy hwaits
    have hmem : y ∈ (s.pc t).copies.toList.map (.copied t) := by
      rw [← hnote, hy]
      exact List.mem_singleton_self y
    obtain ⟨p, -, rfl⟩ := List.mem_map.mp hmem
    rfl
  | failRead t left e =>
    obtain ⟨s₁, hs₁, heq⟩ := Option.map_eq_some_iff.mp hstep
    obtain ⟨rfl, rfl⟩ := Prod.mk.inj heq
    obtain ⟨c', hst, hS'⟩ := failRead_simulated hS hs₁
    obtain ⟨hothers, hbusy, hwaits⟩ := of_failRead hs₁
    exact work_lt_of_disk hS hS' hI hst (fun y hy => by cases hy) hothers hbusy hwaits
  | failWrite t k e =>
    obtain ⟨s₁, hs₁, heq⟩ := Option.map_eq_some_iff.mp hstep
    obtain ⟨rfl, rfl⟩ := Prod.mk.inj heq
    obtain ⟨c', hst, hS'⟩ := failWrite_simulated hS hs₁
    obtain ⟨hothers, hbusy, hwaits⟩ := of_failWrite hs₁
    exact work_lt_of_disk hS hS' hI hst (fun y hy => by cases hy) hothers hbusy hwaits
  | call | read | write | markDirty | drop | destroy | moveConstruct | moveAssign =>
    exact hadvances.elim

/-! ## Guards and the work -/

omit [Replacer R] [LawfulReplacer R] in
/-- A step that leaves the threads, the states and the number of live guards alone. -/
theorem work_congr (hpc : s'.pc = s.pc) (hasleep : s'.manager.asleep = s.manager.asleep)
    (hentry : ∀ p, (s'.entry p).state = (s.entry p).state)
    (hcount : s'.manager.frameCount = s.manager.frameCount)
    (hframe : ∀ f, (s'.manager.frameMeta f).state = (s.manager.frameMeta f).state)
    (hguards : s'.guards.countP (·.valid) = s.guards.countP (·.valid)) : s'.work = s.work := by
  unfold System.work System.labour System.notified System.stages System.turns System.occupied
    System.out
  simp only [hpc, hasleep, hentry, hcount, hframe, hguards]

omit [Replacer R] [LawfulReplacer R] in
theorem work_of_mark {g : PageGuard} (h : s.markGuard g = (s', out)) : s'.work = s.work := by
  unfold System.markGuard at h
  split at h
  · by_cases hstale : (s.manager.frameMeta g.frameId).pageId ≠ some g.pageId ∨
        (s.manager.frameMeta g.frameId).state ≠ .resident
    · have hm : Manager.markDirty g.pageId g.frameId s.manager =
          .error ⟨.logicError, "cannot mark a nonresident page dirty"⟩ s.manager := by
        change (if _ then _ else _ : Locked R τ Unit) s.manager = _
        rw [if_pos hstale]
        rfl
      rw [hm] at h
      obtain rfl := (Prod.mk.inj h).1
      rfl
    · rw [markDirty_ok hstale] at h
      obtain rfl := (Prod.mk.inj h).1
      refine work_congr rfl rfl (fun _ => rfl) rfl (fun f => ?_) rfl
      by_cases hf : f = g.frameId
      · subst hf
        simp
      · simp [hf]
  · obtain rfl := (Prod.mk.inj h).1
    rfl

theorem work_of_drop (hS : Sim n N s c) (hI : Owned n c) {slot : Nat} {g : PageGuard}
    (hg : s.guards[slot]? = some g) {failure : Option Error}
    (h : s.dropGuard slot g = (s', failure)) : s'.work ≤ s.work := by
  by_cases hv : g.valid = true
  · obtain ⟨c', hstep, hS', -⟩ := dropGuard_simulated hS hI hg hv h
    exact (work_lt_of_eases hS hS' (hstep.eases_of_dropped rfl)).le
  · rw [System.dropGuard, if_neg hv] at h
    obtain rfl := (Prod.mk.inj h).1
    exact le_rfl

omit [Replacer R] [LawfulReplacer R] in
/-- A guard that is moved over an empty one. -/
theorem work_of_move {slot source : Nat} {g g' : PageGuard} (hne : slot ≠ source)
    (hg : s.guards[slot]? = some g) (hv : g.valid = false) (hg' : s.guards[source]? = some g') :
    (s.moveGuard source slot g').work = s.work := by
  refine work_congr rfl rfl (fun _ => rfl) rfl (fun _ => rfl) ?_
  have hfirst := countP_set_valid hg g'
  have hmoved : (s.guards.set slot g')[source]? = some g' := by rw [List.getElem?_set_ne hne, hg']
  have hsecond := countP_set_valid hmoved {}
  simp only [hv, Bool.false_eq_true, if_false] at hfirst hsecond
  change ((s.guards.set slot g').set source {}).countP (·.valid) = _
  omega

omit [Fintype τ] in
theorem guards_of_drop (hS : Sim n N s c) (hI : Owned n c) {slot : Nat} {g : PageGuard}
    (hg : s.guards[slot]? = some g) {failure : Option Error}
    (h : s.dropGuard slot g = (s', failure)) :
    (∃ g₁, s'.guards[slot]? = some g₁ ∧ g₁.valid = false) ∧
      ∀ source, slot ≠ source → s'.guards[source]? = s.guards[source]? := by
  by_cases hv : g.valid = true
  · obtain ⟨c', -, -, hguards⟩ := dropGuard_simulated hS hI hg hv h
    have hlt := (List.getElem?_eq_some_iff.mp hg).1
    refine ⟨⟨{}, by simp [hguards, hlt], rfl⟩, fun source hne => ?_⟩
    rw [hguards, List.getElem?_set_ne hne]
  · rw [System.dropGuard, if_neg hv] at h
    obtain rfl := (Prod.mk.inj h).1
    exact ⟨⟨g, hg, by simpa using hv⟩, fun _ _ => rfl⟩

end Refinement

/-! ## Counting the steps of a run -/

/-- The calls that have begun, the wakeups that nobody sent, and the steps that threads
have taken in the midst of their calls. -/
structure Tally where
  calls : Nat := 0
  spurious : Nat := 0
  steps : Nat := 0
  deriving DecidableEq

/-- What a call costs, at most: a constant of the number of frames `n` and the number of
threads `T`. -/
def callCost (n T : Nat) : Nat := callLabour n T + T

namespace System

variable {R τ : Type} [DecidableEq τ]

/-- The counts after a step. -/
def tally (g : Tally) (s : System R τ) (l : Action τ × Outcome) : Tally :=
  match l.1 with
  | .call _ _ => { g with calls := g.calls + 1 }
  | .resume t =>
      { g with
        spurious := g.spurious + if t ∈ s.manager.asleep then 1 else 0
        steps := g.steps + 1 }
  | .transfer _ | .failRead _ _ _ | .failWrite _ _ _ => { g with steps := g.steps + 1 }
  | _ => g

/-- The calls and the unsent wakeups pay for the steps and for the work that is left. -/
def Paid [Fintype τ] (n : Nat) (s : System R τ) (g : Tally) : Prop :=
  g.steps + s.work ≤ callCost n (Fintype.card τ) * g.calls + g.spurious

end System

namespace Refinement

variable {R τ : Type} [Replacer R] [LawfulReplacer R] [Fintype τ] [DecidableEq τ] {n N : Nat}
  {s s' : System R τ} {c : Cfg τ} {g : Tally}

omit [Replacer R] [LawfulReplacer R] in
theorem paid_of_le (hp : s.Paid n g) (h : s'.work ≤ s.work) : s'.Paid n g := by
  unfold System.Paid at hp ⊢
  omega

theorem paid_of_step (hS : Sim n N s c) (hI : Owned n c) (hW : Within N c) (hp : s.Paid n g)
    {l : Action τ × Outcome} (hstep : s.step l.1 = some (s', l.2)) :
    s'.Paid n (System.tally g s l) := by
  have hturn : s'.work < s.work → s'.Paid n { g with steps := g.steps + 1 } := by
    intro hlt
    unfold System.Paid at hp ⊢
    dsimp only
    omega
  obtain ⟨action, out⟩ := l
  cases action with
  | call t call =>
    have hcall := work_of_call hS hI hW hstep
    unfold System.Paid callCost at hp ⊢
    dsimp only [System.tally]
    rw [Nat.mul_succ]
    omega
  | resume t =>
    have hresume := work_of_resume hS hI hW hstep
    unfold System.Paid at hp ⊢
    dsimp only [System.tally]
    split at hresume <;> split <;> omega
  | transfer t =>
    have hadvances : (Action.transfer t).Advances s := trivial
    exact hturn (work_lt_of_advances hS hI hW hadvances hstep)
  | failRead t left e =>
    have hadvances : (Action.failRead t left e).Advances s := trivial
    exact hturn (work_lt_of_advances hS hI hW hadvances hstep)
  | failWrite t k e =>
    have hadvances : (Action.failWrite t k e).Advances s := trivial
    exact hturn (work_lt_of_advances hS hI hW hadvances hstep)
  | read slot =>
    obtain ⟨gd, -, heq⟩ := Option.map_eq_some_iff.mp hstep
    split at heq <;> obtain ⟨rfl, rfl⟩ := Prod.mk.inj heq <;> exact hp
  | write slot page =>
    obtain ⟨gd, -, heq⟩ := Option.map_eq_some_iff.mp hstep
    split at heq
    · obtain ⟨rfl, rfl⟩ := Prod.mk.inj heq
      exact paid_of_le hp (work_congr rfl rfl (fun _ => rfl) rfl (fun _ => rfl) rfl).le
    · obtain ⟨rfl, rfl⟩ := Prod.mk.inj heq
      exact hp
  | markDirty slot =>
    obtain ⟨gd, -, heq⟩ := Option.map_eq_some_iff.mp hstep
    exact paid_of_le hp (work_of_mark heq).le
  | drop slot =>
    obtain ⟨gd, hg, heq⟩ := Option.map_eq_some_iff.mp hstep
    cases hdrop : s.dropGuard slot gd with
    | mk s₁ failure =>
      have hle := work_of_drop hS hI hg hdrop
      rw [hdrop] at heq
      cases failure <;> obtain ⟨rfl, rfl⟩ := Prod.mk.inj heq <;> exact paid_of_le hp hle
  | destroy slot =>
    obtain ⟨gd, hg, heq⟩ := Option.map_eq_some_iff.mp hstep
    cases hdrop : s.dropGuard slot gd with
    | mk s₁ failure =>
      have hle := work_of_drop hS hI hg hdrop
      rw [hdrop] at heq
      cases failure <;> obtain ⟨rfl, rfl⟩ := Prod.mk.inj heq <;> exact paid_of_le hp hle
  | moveConstruct slot =>
    obtain ⟨gd, hg, heq⟩ := Option.map_eq_some_iff.mp hstep
    obtain ⟨rfl, rfl⟩ := Prod.mk.inj heq
    have hcount := countP_set_valid hg {}
    have hguards : (s.guards.set slot {} ++ [gd]).countP (·.valid) =
        s.guards.countP (·.valid) := by
      simp only [Bool.false_eq_true, if_false] at hcount
      simp only [List.countP_append, List.countP_singleton]
      omega
    refine paid_of_le hp (Nat.le_of_eq ?_)
    exact work_congr rfl rfl (fun _ => rfl) rfl (fun _ => rfl) hguards
  | moveAssign slot source =>
    simp only [System.step] at hstep
    split at hstep
    · next gd gd' hg hg' =>
      by_cases hne : slot = source
      · rw [if_pos hne] at hstep
        obtain ⟨rfl, rfl⟩ := Prod.mk.inj (Option.some.inj hstep)
        exact hp
      · rw [if_neg hne] at hstep
        cases hdrop : s.dropGuard slot gd with
        | mk s₁ failure =>
          have hle := work_of_drop hS hI hg hdrop
          obtain ⟨⟨g₁, hg₁, hv⟩, hrest⟩ := guards_of_drop hS hI hg hdrop
          rw [hdrop] at hstep
          cases failure with
          | none =>
            obtain ⟨rfl, rfl⟩ := Prod.mk.inj (Option.some.inj hstep)
            refine paid_of_le hp ((work_of_move hne hg₁ hv ?_).le.trans hle)
            rw [hrest source hne, hg']
          | some e =>
            obtain ⟨rfl, rfl⟩ := Prod.mk.inj (Option.some.inj hstep)
            exact paid_of_le hp hle
    · cases hstep

/-- Nothing is to be done at construction. -/
theorem work_of_initial (h : System.Initial n N s) : s.work = 0 := by
  obtain ⟨disk, hS⟩ := Sim.initial h
  have hpc : ∀ t, s.pc t = .idle := fun t => (Phase.suspended.inj (hS.phase t)).symm
  have hnotified : s.notified = 0 := by
    rw [System.notified, Finset.card_eq_zero, Finset.filter_eq_empty_iff]
    simp [hpc, Pc.waits]
  have hlabour : (Cfg.initial N disk : Cfg τ).labour n = 0 := by
    simp [Cfg.labour, Cfg.stages, Cfg.turns, Cfg.occupied, Cfg.initial, Phase.stages, Pc.stages,
      Phase.turns, Pc.turns, Use.occupied]
  rw [System.work, hS.labour_eq, hlabour, hnotified]

end Refinement

/-! ## The cost of a call -/

section

variable {R τ : Type} [Replacer R] [LawfulReplacer R] [Fintype τ] [DecidableEq τ] {n N : Nat}

/-- In every run the threads take at most `callCost` steps for each call that has begun,
and one for each wakeup that nobody sent, whatever the order of the steps, however the
transfers end and whatever the clients do with their guards. -/
theorem steps_le_of_calls {x : System R τ × Tally}
    (h : Reachable (fun x => System.Initial n N x.1 ∧ x.2 = {})
      (Under (fun _ _ => True) (Recorded System.tally System.Trans)) x) :
    x.2.steps ≤ callCost n (Fintype.card τ) * x.2.calls + x.2.spurious := by
  have hpaid : Holds n N (fun _ => True) x.1 ∧ x.1.Paid n x.2 := by
    refine h.invariant (I := fun x => Holds n N (fun _ => True) x.1 ∧ x.1.Paid n x.2) ?_ ?_
    · rintro ⟨s, g⟩ ⟨hs, rfl⟩
      obtain ⟨disk, hS⟩ := Sim.initial hs
      refine ⟨⟨_, hS, Sound.initial disk, trivial⟩, ?_⟩
      rw [System.Paid, work_of_initial hs]
      exact Nat.zero_le _
    · rintro ⟨s, g⟩ l ⟨s', g'⟩ ⟨hs, hp⟩ ⟨-, hst, hg⟩
      obtain rfl : g' = _ := hg
      refine ⟨hs.step (P := fun _ => True) (fun _ _ _ _ _ _ _ => trivial) (fun _ _ => trivial) hst,
        ?_⟩
      obtain ⟨c, hS, hsound, -⟩ := hs
      exact paid_of_step hS hsound.owned hsound.within hp hst.1
  exact (Nat.le_add_right _ _).trans hpaid.2

end

/-- One frame and two ids: thread `1` sleeps on page `0`, wakes without a notification, and
fetches the page after thread `0` has dropped the other. -/
theorem steps_le_of_calls_evicting : ∃ g : Tally, g = ⟨3, 1, 6⟩ ∧
    g.steps ≤ callCost 1 (Fintype.card (Fin 2)) * g.calls + g.spurious := by
  obtain ⟨x, hreach, hx⟩ := exists_of_runRecordedNew (n := 1) (N := 2)
    (P := fun x : System ClockReplacer (Fin 2) × Tally => x.2 = ⟨3, 1, 6⟩)
    (show (System.runRecordedNew System.tally (fun _ _ => True) {} 1 2 [.call (0 : Fin 2) .newPage,
      .drop 0, .call 0 .newPage, .call 1 (.fetchPage 0), .resume 1, .transfer 0, .resume 0,
      .drop 1, .resume 1, .transfer 1, .resume 1]).any _ = true by decide +kernel)
  exact ⟨x.2, hx, steps_le_of_calls hreach⟩

/-! ## Every call comes to an end -/

namespace System

variable {R τ : Type} [Replacer R] [DecidableEq τ]

/-- The threads end their calls, whichever of them takes the next step and however the
transfers end: until all are done there is a step to take, and steps cannot be taken for
ever. -/
def Settles (s : System R τ) : Prop :=
  Lib.Settles (fun s s' => ∃ (action : Action τ) (out : Outcome), action.Advances s ∧
    s.step action = some (s', out)) (fun s => ∀ t, s.pc t = .idle) s

/-- A thread in a call that is awake has a step to take. -/
theorem exists_advances {s : System R τ} {t : τ} (hbusy : s.pc t ≠ .idle)
    (hawake : t ∉ s.manager.asleep) :
    ∃ (action : Action τ) (y : System R τ × Outcome), action.Advances s ∧
      s.step action = some y := by
  have hresume : ∀ piece : Locked R τ Next, Manager.resume t (s.pc t) = some piece →
      ∃ (action : Action τ) (y : System R τ × Outcome), action.Advances s ∧
        s.step action = some y :=
    fun piece hpiece => ⟨.resume t, s.settle t piece, hawake, by simp [System.step, hpiece]⟩
  have htransfer : ∀ s' : System R τ, s.transfer t = some s' →
      ∃ (action : Action τ) (y : System R τ × Outcome), action.Advances s ∧
        s.step action = some y :=
    fun s' hs' => ⟨.transfer t, (s', .suspended), trivial, by simp [System.step, hs']⟩
  cases hpc : s.pc t with
  | idle => exact absurd hpc hbusy
  | waitPage v => exact hresume _ (by rw [hpc]; rfl)
  | waitFrame a => cases a <;> exact hresume _ (by rw [hpc]; rfl)
  | nextFlush p rest => exact hresume _ (by rw [hpc]; rfl)
  | evicting a ev io =>
    cases io with
    | running => exact htransfer _ (by unfold System.transfer; rw [hpc])
    | done | failed => cases a <;> exact hresume _ (by rw [hpc]; rfl)
  | reading p f io =>
    cases io with
    | running => exact htransfer _ (by unfold System.transfer; rw [hpc])
    | done | failed => exact hresume _ (by rw [hpc]; rfl)
  | writing p f epoch caller io =>
    cases io with
    | running => exact htransfer _ (by unfold System.transfer; rw [hpc])
    | done | failed => exact hresume _ (by rw [hpc]; rfl)

end System

namespace Refinement

variable {R τ : Type} [Replacer R] [LawfulReplacer R] [Fintype τ] [DecidableEq τ] {n N : Nat}
  {s s' : System R τ} {c : Cfg τ} {out : Outcome}

omit [Fintype τ] in
/-- While a thread is in a call, one that is in a call is awake. -/
theorem exists_awake (hS : Sim n N s c) (hI : Owned n c) (hW : Wakeful c) {t : τ}
    (hbusy : s.pc t ≠ .idle) : ∃ u, s.pc u ≠ .idle ∧ u ∉ s.manager.asleep := by
  by_cases ht : t ∈ s.manager.asleep
  · have hwaits : s.Waits t := by
      rw [hS.rep.asleep] at ht
      exact hS.waits hI (hW t ht)
    obtain ⟨u, w, hw⟩ := hS.window_of_waits hI hwaits
    refine ⟨u, ?_, fun hu => ?_⟩
    · intro hidle
      rw [hidle] at hw
      cases hw
    · -- A thread in a window does not wait.
      rw [hS.rep.asleep] at hu
      rcases hS.waits hI (hW u hu) with ⟨v, hv, -⟩ | ⟨a, f, ha, -⟩
      · rw [hv] at hw
        cases hw
      · rw [ha] at hw
        cases hw
  · exact ⟨t, hbusy, ht⟩

omit [LawfulReplacer R] [Fintype τ] in
theorem survives_of_advances {action : Action τ} (h : action.Advances s)
    (hstep : s.step action = some (s', out)) : out ≠ .terminated := by
  have hsuspended : ∀ {x : Option (System R τ)}, x.map (·, Outcome.suspended) = some (s', out) →
      out ≠ .terminated := by
    intro x hx
    obtain ⟨s₁, -, heq⟩ := Option.map_eq_some_iff.mp hx
    obtain rfl := (Prod.mk.inj heq).2
    simp
  cases action with
  | resume t =>
    obtain ⟨piece, -, hsettle⟩ := Option.map_eq_some_iff.mp hstep
    have hends := settle_cases s t piece
    rw [hsettle] at hends
    rcases hends with rfl | ⟨-, ⟨r, rfl⟩ | ⟨e, rfl⟩⟩ <;> simp
  | transfer t => exact hsuspended hstep
  | failRead t left e => exact hsuspended hstep
  | failWrite t k e => exact hsuspended hstep
  | call | read | write | markDirty | drop | destroy | moveConstruct | moveAssign => exact h.elim

theorem settles_of_holds (h : Holds n N Wakeful s) : s.Settles := by
  refine Lib.Settles.of_measure (I := Holds n N Wakeful) System.work ?_ ?_ ?_ h
  · rintro s ⟨c, hS, hsound, hW⟩ hbusy
    obtain ⟨t, ht⟩ := not_forall.mp hbusy
    obtain ⟨u, hu, hawake⟩ := exists_awake hS hsound.owned hW ht
    obtain ⟨action, ⟨s', out⟩, hadvances, hstep⟩ := System.exists_advances hu hawake
    exact ⟨s', action, out, hadvances, hstep⟩
  · rintro s s' h ⟨action, out, hadvances, hstep⟩
    exact h.step (P := fun _ => True) (l := (action, out))
      (fun c e c' _ hst hs hW => Wakeful.step hst hs.owned hW) (fun _ _ => trivial)
      ⟨hstep, survives_of_advances hadvances hstep⟩
  · rintro s s' ⟨c, hS, hsound, -⟩ ⟨action, out, hadvances, hstep⟩
    exact work_lt_of_advances hS hsound.owned hsound.within hadvances hstep

end Refinement

variable {R τ : Type} [Replacer R] [LawfulReplacer R] [Fintype τ] [DecidableEq τ] {n N : Nat}
  {s : System R τ}

/-- Nothing that can have happened leaves the threads in a deadlock or lets them go on for
ever: from every state their calls all end, if no more are begun. -/
theorem every_call_ends (h : Reachable (System.Initial n N) System.Trans s) : s.Settles :=
  settles_of_holds (wakeful_of_reachable h)

/-- One frame and two ids: a thread sleeps on the page whose eviction writes. -/
theorem every_call_ends_evicting : ∃ s : System ClockReplacer (Fin 2),
    s.manager.asleep = {1} ∧ s.Settles := by
  obtain ⟨s, hreach, hasleep⟩ := exists_of_runNew (n := 1) (N := 2)
    (P := fun s : System ClockReplacer (Fin 2) => s.manager.asleep = {1})
    (show (System.runNew (fun _ _ => True) 1 2 [.call (0 : Fin 2) .newPage, .drop 0,
      .call 0 .newPage, .call 1 (.fetchPage 0)]).any _ = true by decide +kernel)
  exact ⟨s, hasleep, every_call_ends hreach.of_under⟩

end BufferManager
