/-
  Store/Operations.lean --- the operations of a page store, done by the system.

  A call is followed from its beginning to its end, with the error of the transfer that
  has failed in it; a use of a guard is one step, and a change two.  `Finishes` says that
  a call comes to an end whatever its transfers do.
-/
import BufferManager.Lib.Transition
import BufferManager.Manager.Sequential
import BufferManager.Store.PageStore

set_option autoImplicit false

namespace BufferManager

open BufferManager.Lib

/-- The step of an operation that is one use of a guard. -/
def Operation.action : Operation → Option (Action Unit)
  | .call _ | .write _ _ => none
  | .read slot => some (.read slot)
  | .drop slot => some (.drop slot)
  | .destroy slot => some (.destroy slot)
  | .moveConstruct slot => some (.moveConstruct slot)
  | .moveAssign slot source => some (.moveAssign slot source)

/-- The action is of a call that has begun. -/
def Action.GoesOn : Action Unit → Prop
  | .resume _ | .transfer _ | .failRead _ _ _ | .failWrite _ _ _ => True
  | _ => False

namespace System

variable {R : Type}

/-- What the client gets back from a step that ended in `s`. -/
def answer (s : System R Unit) : Outcome → Option Answer
  | .suspended => none
  | .returned .unit => some .unit
  | .returned (.guard g) => some (.guard g.pageId (s.bytes g.frameId))
  | .bytes page => some (.bytes page)
  | .threw e => some (.threw e)
  | .terminated => some .terminated

theorem answer_ne_none {s : System R Unit} {out : Outcome} {answer : Answer}
    (h : s.answer out = some answer) : out ≠ .suspended := by
  rintro rfl
  cases h

variable [Replacer R]

/-- An operation, with the error of a transfer that has failed in it, and its answer. -/
inductive Performs (s : System R Unit) :
    (Operation × Option Error) × Answer → System R Unit → Prop where
  | call {call : Call} {failure : Option Error} {s' : System R Unit} {out : Outcome}
      {answer : Answer} : s.Executes call failure s' out → s'.answer out = some answer →
      Performs s ((.call call, failure), answer) s'
  | use {op : Operation} {action : Action Unit} {s' : System R Unit} {out : Outcome}
      {answer : Answer} : op.action = some action → s.step action = some (s', out) →
      s'.answer out = some answer → Performs s ((op, none), answer) s'
  | write {slot : Nat} {page : Page} {r : Result} {m s' : System R Unit} {out : Outcome}
      {answer : Answer} : s.step (.write slot page) = some (m, .returned r) →
      m.step (.markDirty slot) = some (s', out) → s'.answer out = some answer →
      Performs s ((.write slot page, none), answer) s'
  | writeThrew {slot : Nat} {page : Page} {s' : System R Unit} {e : Error} :
      s.step (.write slot page) = some (s', .threw e) →
      Performs s ((.write slot page, none), .threw e) s'

/-- The call that has come to this outcome ends, however its transfers do. -/
inductive Finishes : System R Unit → Outcome → Prop where
  | ended {s : System R Unit} {out : Outcome} : out ≠ .suspended → Finishes s out
  | goesOn {s : System R Unit} : (∃ action y, action.GoesOn ∧ s.step action = some y) →
      (∀ action s' out, action.GoesOn → s.step action = some (s', out) → Finishes s' out) →
      Finishes s .suspended

/-- Do an operation, a call through a list of actions. -/
def follow (s : System R Unit) :
    Operation × List (Action Unit) → Option (((Operation × Option Error) × Answer) × System R Unit)
  | (.call call, l) => (s.execute call l).bind fun y =>
      (y.2.1.answer y.2.2).map fun a => (((.call call, y.1), a), y.2.1)
  | (.write slot page, _) =>
      match s.step (.write slot page) with
      | some (m, .returned _) => (m.step (.markDirty slot)).bind fun y =>
          (y.1.answer y.2).map fun a => (((.write slot page, none), a), y.1)
      | some (m, .threw e) => some (((.write slot page, none), .threw e), m)
      | _ => none
  | (op, _) => op.action.bind fun action => (s.step action).bind fun y =>
      (y.1.answer y.2).map fun a => (((op, none), a), y.1)

/-- Do one operation after another, as long as no page has too many guards. -/
def followAll (s : System R Unit) :
    List (Operation × List (Action Unit)) →
      Option (List ((Operation × Option Error) × Answer) × System R Unit)
  | [] => some ([], s)
  | x :: xs =>
      if s.FewGuards then
        (s.follow x).bind fun y => (y.2.followAll xs).map fun z => (y.1 :: z.1, z.2)
      else none

theorem performs_of_follow {s s' : System R Unit} {x : Operation × List (Action Unit)}
    {l : (Operation × Option Error) × Answer} (h : s.follow x = some (l, s')) :
    s.Performs l s' := by
  unfold follow at h
  split at h
  · obtain ⟨y, hy, hrest⟩ := Option.bind_eq_some_iff.mp h
    obtain ⟨a, ha, heq⟩ := Option.map_eq_some_iff.mp hrest
    obtain ⟨rfl, rfl⟩ := Prod.mk.inj heq
    exact .call (executes_of_execute hy) ha
  · split at h
    · next hwrite =>
      obtain ⟨y, hy, hrest⟩ := Option.bind_eq_some_iff.mp h
      obtain ⟨a, ha, heq⟩ := Option.map_eq_some_iff.mp hrest
      obtain ⟨rfl, rfl⟩ := Prod.mk.inj heq
      exact .write hwrite hy ha
    · next hwrite =>
      obtain ⟨rfl, rfl⟩ := Prod.mk.inj (Option.some.inj h)
      exact .writeThrew hwrite
    · cases h
  · obtain ⟨action, haction, hrest⟩ := Option.bind_eq_some_iff.mp h
    obtain ⟨y, hy, hrest⟩ := Option.bind_eq_some_iff.mp hrest
    obtain ⟨a, ha, heq⟩ := Option.map_eq_some_iff.mp hrest
    obtain ⟨rfl, rfl⟩ := Prod.mk.inj heq
    exact .use haction hy ha

/-- What has been followed is a run. -/
theorem path_of_followAll {s s' : System R Unit} {xs : List (Operation × List (Action Unit))}
    {ls : List ((Operation × Option Error) × Answer)} (h : s.followAll xs = some (ls, s')) :
    Path (Under (fun s _ => s.FewGuards) Performs) s ls s' := by
  induction xs generalizing s ls with
  | nil =>
    obtain ⟨rfl, rfl⟩ := Prod.mk.inj (Option.some.inj h)
    exact .nil s
  | cons x xs ih =>
    rw [followAll] at h
    split at h
    · next hfew =>
      obtain ⟨y, hy, hrest⟩ := Option.bind_eq_some_iff.mp h
      obtain ⟨z, hz, heq⟩ := Option.map_eq_some_iff.mp hrest
      obtain ⟨rfl, rfl⟩ := Prod.mk.inj heq
      exact .cons ⟨hfew, performs_of_follow hy⟩ (ih hz)
    · cases h

/-- A call that is over has not gone on. -/
theorem Executes.eq_of_ends {s m s' : System R Unit} {call : Call} {failure : Option Error}
    {out out' : Outcome} (hstep : s.step (.call () call) = some (m, out)) (hout : out ≠ .suspended)
    (h : s.Executes call failure s' out') : failure = none ∧ s' = m ∧ out' = out := by
  induction h with
  | begin hstep' =>
    obtain ⟨rfl, rfl⟩ := Prod.mk.inj (Option.some.inj (hstep'.symm.trans hstep))
    exact ⟨rfl, rfl, rfl⟩
  | resume _ _ ih | transfer _ _ ih | failRead _ _ _ _ ih | failWrite _ _ _ _ ih =>
    exact absurd ih.2.2.symm hout

/-- A suspended call goes on. -/
theorem exists_goesOn {s : System R Unit} (hbusy : s.pc () ≠ .idle) :
    ∃ action y, Action.GoesOn action ∧ s.step action = some y := by
  have hresume : ∀ {piece : Locked R Unit Next}, Manager.resume () (s.pc ()) = some piece →
      ∃ action y, Action.GoesOn action ∧ s.step action = some y := by
    intro piece h
    exact ⟨.resume (), s.settle () piece, trivial, by rw [step, h]; rfl⟩
  have htransfer : ∀ {s' : System R Unit}, s.transfer () = some s' →
      ∃ action y, Action.GoesOn action ∧ s.step action = some y := by
    intro s' h
    exact ⟨.transfer (), (s', .suspended), trivial, by rw [step, h]; rfl⟩
  cases hpc : s.pc () with
  | idle => exact absurd hpc hbusy
  | waitPage v => exact hresume (by rw [hpc]; rfl)
  | nextFlush p rest => exact hresume (by rw [hpc]; rfl)
  | waitFrame a => cases a <;> exact hresume (by rw [hpc]; rfl)
  | evicting a ev io =>
    cases io with
    | running => exact htransfer (by rw [transfer, hpc])
    | done | failed => cases a <;> exact hresume (by rw [hpc]; rfl)
  | reading p f io =>
    cases io with
    | running => exact htransfer (by rw [transfer, hpc])
    | done | failed => exact hresume (by rw [hpc]; rfl)
  | writing p f epoch caller io =>
    cases io with
    | running => exact htransfer (by rw [transfer, hpc])
    | done | failed => exact hresume (by rw [hpc]; rfl)

/-! ## Calls that end in their first piece -/

section

variable {s : System R Unit} {m m' : Manager R Unit} {call : Call} {e : Error} {p : Nat}

theorem step_call (hidle : s.pc () = .idle) :
    s.step (.call () call) = some (s.settle () (start () call)) := by
  rw [step, if_pos hidle]

theorem step_call_threw (hidle : s.pc () = .idle) (h : start () call s.manager = .error e m) :
    ∃ s', s.step (.call () call) = some (s', .threw e) := by
  rw [step_call hidle, settle_error h]
  exact ⟨_, rfl⟩

theorem step_call_unit (hidle : s.pc () = .idle)
    (h : start () call s.manager = .ok (.returned .unit) m) :
    ∃ s', s.step (.call () call) = some (s', .returned .unit) := by
  rw [step_call hidle, settle_unit h]
  exact ⟨_, rfl⟩

theorem start_newPage_noIds (hinv : m.pageTable.Inv) (h : m.pageTable.upcoming = []) :
    start () .newPage m = .error ⟨.runtimeError, "maximum number of pages reached"⟩ m := by
  have hids : Manager.allocatePageId m =
      .error ⟨.runtimeError, "maximum number of pages reached"⟩ m := by
    refine attempt_error ?_
    rw [PageTable.allocatePageId_error hinv h]
    rfl
  exact bind_of_error hids

omit [Replacer R] in
theorem pageState_invalid (hp : m.pageTable.maxPageCount ≤ p) :
    Manager.pageState p m = .error ⟨.outOfRange, "invalid page id"⟩ m := by
  refine attempt_error ?_
  rw [PageTable.state_error hp]
  rfl

omit [Replacer R] in
theorem pageState_unused (hp : p < m.pageTable.maxPageCount)
    (h : (m.pageTable.pages p).state = .unused) : Manager.pageState p m = .ok .unused m := by
  refine attempt_ok ?_
  rw [PageTable.state_ok hp, h]
  rfl

/-- A visit of a page whose state cannot be read. -/
theorem visit_of_error {v : Visit} (h : Manager.pageState v.pageId m = .error e m) :
    Manager.visit () v m = .error e m := by
  cases v with
  | fetchPage p | flushPage p caller | deletePage p => exact bind_of_error h

theorem fetchPage_unused (h : Manager.pageState p m = .ok .unused m) :
    start () (.fetchPage p) m = .error ⟨.logicError, "cannot fetch an unused page"⟩ m :=
  bind_of_ok h

theorem flushPage_unused (h : Manager.pageState p m = .ok .unused m) :
    start () (.flushPage p) m = .error ⟨.logicError, "cannot flush an unused page"⟩ m :=
  bind_of_ok h

theorem deletePage_unused (h : Manager.pageState p m = .ok .unused m) :
    start () (.deletePage p) m = .ok (.returned .unit) m :=
  bind_of_ok h

end

end System

end BufferManager
