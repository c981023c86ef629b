/-
  Manager/System.lean --- the buffer manager with its threads, its guards and
  its disk.

  Source: `src/buffer_manager.cc`, the constructor, `PageGuard` and the public
  calls; `src/storage/disk_manager.cc`, `ReadPage` and `WritePage`.

  A step is a piece of a call between two releases of `mutex_`, an instant of an
  unlocked transfer, or an operation on a guard.  Threads, the moments at which
  they are resumed, and the failures of the disk are chosen by the environment, so
  a run of the system is any interleaving.  A thread may be resumed from a wait
  without a notification, as a condition variable allows.

  A `WritePage` copies the frame's bytes at one instant; a failing one has copied a
  prefix.  A failing `ReadPage` leaves the frame with any contents.
-/
import BufferManager.Manager.Calls
import BufferManager.Replacement.ClockReplacer

set_option autoImplicit false

namespace BufferManager

open BufferManager.Lib

/-- The system: the manager, the pages on disk, where each thread is, and the
`PageGuard` objects the clients have, each with its own slot. -/
structure System (R τ : Type) where
  manager : Manager R τ
  disk : Nat → Page
  pc : τ → Pc
  guards : List PageGuard

/-- The public calls. -/
inductive Call where
  | newPage
  | fetchPage (pageId : Nat)
  | flushPage (pageId : Nat)
  | flushAllPages
  | deletePage (pageId : Nat)
  deriving DecidableEq, Repr

/-- What the environment may let happen next. -/
inductive Action (τ : Type) where
  /-- A thread that is in no call begins one. -/
  | call (t : τ) (c : Call)
  /-- A suspended thread takes `mutex_` again. -/
  | resume (t : τ)
  /-- A running transfer moves all its bytes and is about to return. -/
  | transfer (t : τ)
  /-- A running `ReadPage` throws, leaving `left` in the frame. -/
  | failRead (t : τ) (left : Page) (e : Error)
  /-- A running `WritePage` throws after copying `k` bytes. -/
  | failWrite (t : τ) (k : Nat) (e : Error)
  /-- A look at the bytes of `guard.page()`. -/
  | read (slot : Nat)
  /-- A change of the bytes of `guard.page()`. -/
  | write (slot : Nat) (page : Page)
  | markDirty (slot : Nat)
  | drop (slot : Nat)
  /-- `~PageGuard`. -/
  | destroy (slot : Nat)
  /-- A new guard is move-constructed from the one in `slot`. -/
  | moveConstruct (slot : Nat)
  /-- The guard in `source` is move-assigned to the one in `slot`. -/
  | moveAssign (slot source : Nat)

/-- How a step ends for the code that made it. -/
inductive Outcome where
  /-- The call goes on later, or the step was the disk's. -/
  | suspended
  | returned (result : Result)
  /-- The bytes a reader saw. -/
  | bytes (page : Page)
  | threw (e : Error)
  /-- `std::terminate`. -/
  | terminated

/-- The exception a step threw. -/
def Outcome.error : Outcome → Option Error
  | .threw e => some e
  | _ => none

theorem Outcome.error_eq_some {out : Outcome} {e : Error} (h : out.error = some e) :
    out = .threw e := by
  cases out <;> cases h
  rfl

/-- What a step returned. -/
def Outcome.result : Outcome → Option Result
  | .returned r => some r
  | _ => none

theorem Outcome.result_eq_some {out : Outcome} {r : Result} (h : out.result = some r) :
    out = .returned r := by
  cases out <;> cases h
  rfl

namespace System

variable {R τ : Type} [Replacer R] [DecidableEq τ]

/-! ## Calls -/

omit [Replacer R] in
/-- Run a locked piece of a call of thread `t` and put down how it ended. -/
def settle (s : System R τ) (t : τ) (piece : Locked R τ Next) : System R τ × Outcome :=
  match piece s.manager with
  | .ok (.suspended pc) m =>
      ({ s with manager := m, pc := Function.update s.pc t pc }, .suspended)
  | .ok (.returned (.guard g)) m =>
      ({ s with
          manager := m
          pc := Function.update s.pc t .idle
          guards := s.guards ++ [g] }, .returned (.guard g))
  | .ok (.returned .unit) m =>
      ({ s with manager := m, pc := Function.update s.pc t .idle }, .returned .unit)
  | .error e m =>
      ({ s with manager := m, pc := Function.update s.pc t .idle }, .threw e)

section

variable {s : System R τ} {t : τ} {x : Locked R τ Next} {m : Manager R τ}

omit [Replacer R] in
theorem settle_suspended {pc : Pc} (h : x s.manager = .ok (.suspended pc) m) :
    s.settle t x =
      ({ s with manager := m, pc := Function.update s.pc t pc }, .suspended) := by
  rw [settle, h]

omit [Replacer R] in
theorem settle_guard {g : PageGuard} (h : x s.manager = .ok (.returned (.guard g)) m) :
    s.settle t x =
      ({ s with
          manager := m
          pc := Function.update s.pc t .idle
          guards := s.guards ++ [g] }, .returned (.guard g)) := by
  rw [settle, h]

omit [Replacer R] in
theorem settle_unit (h : x s.manager = .ok (.returned .unit) m) :
    s.settle t x =
      ({ s with manager := m, pc := Function.update s.pc t .idle }, .returned .unit) := by
  rw [settle, h]

omit [Replacer R] in
theorem settle_error {e : Error} (h : x s.manager = .error e m) :
    s.settle t x =
      ({ s with manager := m, pc := Function.update s.pc t .idle }, .threw e) := by
  rw [settle, h]

omit [Replacer R] in
/-- What a piece leaves behind, however it ends. -/
theorem settle_manager {P : Manager R τ → Prop}
    (h : wp x (fun _ => P) (fun _ => P) s.manager) : P (s.settle t x).1.manager := by
  unfold wp at h
  unfold settle
  split at h
  · next next m hm =>
    rw [hm]
    cases next with
    | suspended pc => exact h
    | returned r => cases r <;> exact h
  · next e m hm =>
    rw [hm]
    exact h

end

/-- The first locked piece of a call. -/
def start (t : τ) : Call → Locked R τ Next
  | .newPage => Manager.newPage t
  | .fetchPage p => Manager.visit t (.fetchPage p)
  | .flushPage p => Manager.visit t (.flushPage p .flushPage)
  | .flushAllPages => Manager.flushAllPages
  | .deletePage p => Manager.visit t (.deletePage p)

/-! ## The disk -/

omit [Replacer R] in
/-- The bytes in a frame. -/
def bytes (s : System R τ) (frameId : Nat) : Page := s.manager.frameAllocator.frames frameId

omit [Replacer R] in
/-- A store into a frame without `mutex_`: by a guard's holder or by `ReadPage`. -/
def setBytes (s : System R τ) (frameId : Nat) (page : Page) : System R τ :=
  { s with manager := { s.manager with
      frameAllocator := s.manager.frameAllocator.setPage frameId page } }

omit [Replacer R] in
/-- A store into a page on disk. -/
def setDisk (s : System R τ) (pageId : Nat) (page : Page) : System R τ :=
  { s with disk := Function.update s.disk pageId page }

omit [Replacer R] in
/-- Thread `t` is at `pc` now. -/
def setPc (s : System R τ) (t : τ) (pc : Pc) : System R τ :=
  { s with pc := Function.update s.pc t pc }

omit [Replacer R] in
/-- The instant at which a running transfer moves its bytes. -/
def transfer (s : System R τ) (t : τ) : Option (System R τ) :=
  match s.pc t with
  | .evicting a ev .running =>
      some ((s.setDisk ev.oldPageId (s.bytes ev.frameId)).setPc t (.evicting a ev .done))
  | .reading p f .running =>
      some ((s.setBytes f (s.disk p)).setPc t (.reading p f .done))
  | .writing p f epoch caller .running =>
      some ((s.setDisk p (s.bytes f)).setPc t (.writing p f epoch caller .done))
  | _ => none

omit [Replacer R] in
/-- A running `ReadPage` throws. -/
def failRead (s : System R τ) (t : τ) (left : Page) (e : Error) : Option (System R τ) :=
  match s.pc t with
  | .reading p f .running => some ((s.setBytes f left).setPc t (.reading p f (.failed e)))
  | _ => none

omit [Replacer R] in
/-- A running `WritePage` throws with `k` bytes copied. -/
def failWrite (s : System R τ) (t : τ) (k : Nat) (e : Error) : Option (System R τ) :=
  match s.pc t with
  | .evicting a ev .running =>
      some ((s.setDisk ev.oldPageId
        (Page.overwrite k (s.bytes ev.frameId) (s.disk ev.oldPageId))).setPc t
          (.evicting a ev (.failed e)))
  | .writing p f epoch caller .running =>
      some ((s.setDisk p (Page.overwrite k (s.bytes f) (s.disk p))).setPc t
        (.writing p f epoch caller (.failed e)))
  | _ => none

/-! ## Guards -/

/-- What the accessors of an empty guard throw. -/
def emptyGuard : Error := ⟨.logicError, "page guard is empty"⟩

omit [Replacer R] in
/-- The guard in a slot is overwritten. -/
def setGuard (s : System R τ) (slot : Nat) (g : PageGuard) : System R τ :=
  { s with guards := s.guards.set slot g }

/-- `PageGuard::Drop` on the guard `g` in `slot`: the guard is emptied before the
manager is told. -/
def dropGuard (s : System R τ) (slot : Nat) (g : PageGuard) : System R τ × Option Error :=
  if g.valid = true then
    let s := s.setGuard slot {}
    match Manager.dropPageGuard g.pageId g.frameId s.manager with
    | .ok () m => ({ s with manager := m }, none)
    | .error e m => ({ s with manager := m }, some e)
  else (s, none)

omit [DecidableEq τ] in
theorem dropGuard_pc (s : System R τ) (slot : Nat) (g : PageGuard) :
    (s.dropGuard slot g).1.pc = s.pc := by
  unfold dropGuard
  split
  · dsimp only
    split <;> rfl
  · rfl

omit [Replacer R] in
/-- `PageGuard::MarkDirty` on the guard `g`. -/
def markGuard (s : System R τ) (g : PageGuard) : System R τ × Outcome :=
  if g.valid = true then
    match Manager.markDirty g.pageId g.frameId s.manager with
    | .ok () m => ({ s with manager := m }, .returned .unit)
    | .error e m => ({ s with manager := m }, .threw e)
  else (s, .threw emptyGuard)

omit [Replacer R] in
/-- A guard object that has just been emptied by a move is put into `slot`, and
what it held goes to `slot'`. -/
def moveGuard (s : System R τ) (slot slot' : Nat) (g : PageGuard) : System R τ :=
  (s.setGuard slot' g).setGuard slot {}

/-! ## Steps -/

/-- One step, if the environment's choice is possible. -/
def step (s : System R τ) : Action τ → Option (System R τ × Outcome)
  | .call t c => if s.pc t = .idle then some (s.settle t (start t c)) else none
  | .resume t => (Manager.resume t (s.pc t)).map (s.settle t)
  | .transfer t => (s.transfer t).map (·, .suspended)
  | .failRead t left e => (s.failRead t left e).map (·, .suspended)
  | .failWrite t k e => (s.failWrite t k e).map (·, .suspended)
  | .read slot => s.guards[slot]?.map fun g =>
      if g.valid = true then (s, .bytes (s.bytes g.frameId)) else (s, .threw emptyGuard)
  | .write slot page => s.guards[slot]?.map fun g =>
      if g.valid = true then (s.setBytes g.frameId page, .returned .unit)
      else (s, .threw emptyGuard)
  | .markDirty slot => s.guards[slot]?.map s.markGuard
  | .drop slot => s.guards[slot]?.map fun g =>
      match s.dropGuard slot g with
      | (s, none) => (s, .returned .unit)
      | (s, some e) => (s, .threw e)
  | .destroy slot => s.guards[slot]?.map fun g =>
      match s.dropGuard slot g with
      | (s, none) => (s, .returned .unit)
      | (s, some _) => (s, .terminated)
  | .moveConstruct slot => s.guards[slot]?.map fun g =>
      ({ s with guards := s.guards.set slot {} ++ [g] }, .returned .unit)
  | .moveAssign slot source =>
      match s.guards[slot]?, s.guards[source]? with
      | some g, some g' =>
          if slot = source then some (s, .returned .unit)
          else match s.dropGuard slot g with
            | (s, none) => some (s.moveGuard source slot g', .returned .unit)
            | (s, some _) => some (s, .terminated)
      | _, _ => none

/-- A step that throws, found by evaluation. -/
theorem exists_step_of_error {s : System R τ} {action : Action τ} {e : Error}
    (h : (s.step action).bind (·.2.error) = some e) :
    ∃ s', s.step action = some (s', .threw e) := by
  obtain ⟨⟨s', out⟩, hs', herror⟩ := Option.bind_eq_some_iff.mp h
  obtain rfl := Outcome.error_eq_some herror
  exact ⟨s', hs'⟩

/-- The constructor, with `DiskManagerOptions` and the worker count of the executor
left out: `disk` is what the file holds. -/
def make (frameCount maxPageCount : Nat) (replacer : R) (disk : Nat → Page) :
    Except Error (System R τ) := do
  let frameAllocator ← FrameAllocator.make frameCount
  let pageTable ← PageTable.make maxPageCount
  return {
    manager := {
      frameCount := frameCount
      frameAllocator := frameAllocator
      pageTable := pageTable
      replacer := replacer
      frameMeta := fun _ => {}
      asleep := ∅ }
    disk := disk
    pc := fun _ => .idle
    guards := [] }

/-- The constructor without a replacer of the client's: it makes a `ClockReplacer`. -/
def makeWithClock {τ : Type} (frameCount maxPageCount : Nat) (disk : Nat → Page) :
    Except Error (System ClockReplacer τ) := do
  let replacer ← ClockReplacer.make frameCount
  make frameCount maxPageCount replacer disk

/-! ## Runs -/

omit [DecidableEq τ] in
/-- A manager as constructed, over a replacer that has seen no frame. -/
def Initial [LawfulReplacer R] (frameCount maxPageCount : Nat) (s : System R τ) : Prop :=
  ∃ (replacer : R) (disk : Nat → Page), LawfulReplacer.Inv frameCount replacer ∧
    LawfulReplacer.present replacer = ∅ ∧ make frameCount maxPageCount replacer disk = .ok s

/-- A step that the process survives. -/
def Trans (s : System R τ) (l : Action τ × Outcome) (s' : System R τ) : Prop :=
  s.step l.1 = some (s', l.2) ∧ l.2 ≠ .terminated

/-- Follow a list of actions, as long as each is possible, survived and allowed. -/
def run (ok : System R τ → Action τ × Outcome → Prop) [∀ s l, Decidable (ok s l)]
    (s : System R τ) : List (Action τ) → Option (System R τ)
  | [] => some s
  | action :: rest =>
      match s.step action with
      | none | some (_, .terminated) => none
      | some (s', out) => if ok s (action, out) then s'.run ok rest else none

/-- Follow a list of actions from construction, over a file of zeros. -/
def runNew (ok : System ClockReplacer τ → Action τ × Outcome → Prop) [∀ s l, Decidable (ok s l)]
    (frameCount maxPageCount : Nat) (actions : List (Action τ)) :
    Option (System ClockReplacer τ) :=
  match makeWithClock frameCount maxPageCount (fun _ => Page.zero) with
  | .ok s => s.run ok actions
  | .error _ => none

end System

end BufferManager
