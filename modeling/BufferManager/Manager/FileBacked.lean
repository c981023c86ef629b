/-
  Manager/FileBacked.lean --- the system over its file, a `pread` or `pwrite` at a time.

  Source: `src/buffer_manager.cc`, the calls of `ReadPage` and `WritePage` that run without
  `mutex_`; `src/storage/disk_manager.cc`, `ReadPage`, `WritePage` and their loops.

  `System` lets a transfer move all its bytes at one instant.  Here a thread enters
  `ReadPage` or `WritePage`, takes the turns of the loop, and leaves it; between any two of
  these steps the other threads do theirs, transfers of other pages, and flushes of the
  same page, among them.  A `pread` and a `pwrite` look at the file and the frame as they
  are when they run.
-/
import BufferManager.Manager.Hazards
import BufferManager.Storage.Turns

set_option autoImplicit false

namespace BufferManager

open BufferManager.Lib

/-- A `ReadPage` or `WritePage` that runs, with its page and its frame. -/
inductive Transfer where
  | read (pageId frameId : Nat)
  | write (pageId frameId : Nat)
  deriving DecidableEq, Repr

/-- The transfer a thread is in. -/
def Pc.running : Pc → Option Transfer
  | .reading p f .running => some (.read p f)
  | .evicting _ ev .running => some (.write ev.oldPageId ev.frameId)
  | .writing p f _ _ .running => some (.write p f)
  | _ => none

/-- The thread's transfer is at `io`. -/
def Pc.withIo (io : Io) : Pc → Pc
  | .reading p f _ => .reading p f io
  | .evicting a ev _ => .evicting a ev io
  | .writing p f epoch caller _ => .writing p f epoch caller io
  | pc => pc

/-- The step is one of an unlocked transfer. -/
def Action.ofDisk {τ : Type} : Action τ → Bool
  | .transfer _ | .failRead _ _ _ | .failWrite _ _ _ => true
  | _ => false

/-- The variables of a loop that has been entered: `offset`, and `total_read` or
`total_written`. -/
structure Progress where
  offset : Nat
  total : Nat
  deriving DecidableEq, Repr

/-- The system over its file; `progress` is there for the threads that have entered the loop
of their transfer. -/
structure FileBacked (R τ : Type) where
  manager : Manager R τ
  file : File
  pc : τ → Pc
  guards : List PageGuard
  progress : τ → Option Progress

namespace FileBacked

/-- What may happen next. -/
inductive Action (τ : Type) where
  /-- A step of the system that is not the disk's. -/
  | act (action : BufferManager.Action τ)
  /-- A thread begins its transfer, up to the loop. -/
  | enter (t : τ)
  /-- A thread takes a turn of the loop; `result` is how its system call ends. -/
  | turn (t : τ) (result : SysResult)

variable {R τ : Type}

/-- The system, with the pages that the file holds. -/
def view (options : DiskManagerOptions) (x : FileBacked R τ) : System R τ :=
  ⟨x.manager, pageAt options x.file, x.pc, x.guards⟩

/-- The bytes in a frame. -/
def bytes (x : FileBacked R τ) (f : Nat) : Page := x.manager.frameAllocator.frames f

/-- A store into a frame. -/
def setBytes (x : FileBacked R τ) (f : Nat) (page : Page) : FileBacked R τ :=
  { x with manager := { x.manager with
      frameAllocator := x.manager.frameAllocator.setPage f page } }

/-- What is left behind by a step of the system that is not the disk's. -/
def withSystem (x : FileBacked R τ) (s : System R τ) : FileBacked R τ :=
  { x with manager := s.manager, pc := s.pc, guards := s.guards }

variable [DecidableEq τ]

/-- Thread `t` has got so far in its loop. -/
def setProgress (x : FileBacked R τ) (t : τ) (progress : Progress) : FileBacked R τ :=
  { x with progress := Function.update x.progress t (some progress) }

/-- The transfer of thread `t` is about to return or to throw. -/
def ended (x : FileBacked R τ) (t : τ) (io : Io) : FileBacked R τ :=
  { x with
    pc := Function.update x.pc t ((x.pc t).withIo io)
    progress := Function.update x.progress t none }

/-! ## Steps -/

/-- A thread runs `ReadPage` or `WritePage` up to its loop. -/
def enter (options : DiskManagerOptions) (x : FileBacked R τ) (t : τ) :
    Option (FileBacked R τ) :=
  match (x.pc t).running, x.progress t with
  | some (.read p f), none =>
      match beginRead options p (x.bytes f) with
      | .ok offset page => some ((x.setBytes f page).setProgress t ⟨offset, 0⟩)
      | .error e page => some ((x.setBytes f page).ended t (.failed e))
  | some (.write p _), none =>
      match beginWrite options p with
      | .ok offset => some (x.setProgress t ⟨offset, 0⟩)
      | .error e => some (x.ended t (.failed e))
  | _, _ => none

/-- A thread takes a turn of the loop it is in. -/
def turn (x : FileBacked R τ) (t : τ) (result : SysResult) : Option (FileBacked R τ) :=
  match (x.pc t).running, x.progress t with
  | some (.read _ f), some progress =>
      match readTurn x.file progress.offset result progress.total (x.bytes f).bytes with
      | .ok (some total) b =>
          some ((x.setBytes f (Page.ofBytes b)).setProgress t { progress with total })
      | .ok none b => some ((x.setBytes f (Page.ofBytes b)).ended t .done)
      | .error e b => some ((x.setBytes f (Page.ofBytes b)).ended t (.failed e))
  | some (.write _ f), some progress =>
      match writeTurn (x.bytes f).bytes progress.offset result progress.total x.file with
      | .ok (some total) file =>
          some ({ x with file }.setProgress t { progress with total })
      | .ok none file => some ({ x with file }.ended t .done)
      | .error e file => some ({ x with file }.ended t (.failed e))
  | _, _ => none

variable [Replacer R]

/-- One step, if it is possible. -/
def step (options : DiskManagerOptions) (x : FileBacked R τ) :
    Action τ → Option (FileBacked R τ × Outcome)
  | .act action =>
      if action.ofDisk = true then none
      else ((x.view options).step action).map fun y => (x.withSystem y.1, y.2)
  | .enter t => (x.enter options t).map (·, .suspended)
  | .turn t result => (x.turn t result).map (·, .suspended)

/-- A step that the process survives. -/
def Trans (options : DiskManagerOptions) (x : FileBacked R τ) (l : Action τ × Outcome)
    (x' : FileBacked R τ) : Prop :=
  x.step options l.1 = some (x', l.2) ∧ l.2 ≠ .terminated

omit [DecidableEq τ] in
/-- A manager as constructed, over any file. -/
def Initial [LawfulReplacer R] (frameCount : Nat) (options : DiskManagerOptions)
    (x : FileBacked R τ) : Prop :=
  System.Initial frameCount options.maxPageCount.toNat (x.view options) ∧
    ∀ t, x.progress t = none

/-- The constructor, over a file that has been opened. -/
def makeWithClock {τ : Type} (frameCount : Nat) (options : DiskManagerOptions) (file : File) :
    Except Error (FileBacked ClockReplacer τ) :=
  (System.makeWithClock frameCount options.maxPageCount.toNat (pageAt options file)).map
    fun s : System ClockReplacer τ => ⟨s.manager, file, s.pc, s.guards, fun _ => none⟩

/-- What can happen in one step. -/
inductive Cases (options : DiskManagerOptions) (x : FileBacked R τ) :
    Action τ → Outcome → FileBacked R τ → Prop where
  | act (action : BufferManager.Action τ) (s : System R τ) (out : Outcome) :
      action.ofDisk = false → (x.view options).step action = some (s, out) →
      Cases options x (.act action) out (x.withSystem s)
  | beganRead (t : τ) (p f : Nat) : (x.pc t).running = some (.read p f) → x.progress t = none →
      Cases options x (.enter t) .suspended
        ((x.setBytes f Page.zero).setProgress t ⟨options.pageStart p, 0⟩)
  | beganWrite (t : τ) (p f : Nat) : (x.pc t).running = some (.write p f) → x.progress t = none →
      Cases options x (.enter t) .suspended (x.setProgress t ⟨options.pageStart p, 0⟩)
  | readMoved (t : τ) (p f : Nat) (result : SysResult) (progress : Progress) (total : Nat)
      (b : Buffer) : (x.pc t).running = some (.read p f) → x.progress t = some progress →
      readTurn x.file progress.offset result progress.total (x.bytes f).bytes =
        .ok (some total) b →
      Cases options x (.turn t result) .suspended
        ((x.setBytes f (Page.ofBytes b)).setProgress t { progress with total })
  | readEnded (t : τ) (p f : Nat) (result : SysResult) (progress : Progress) (b : Buffer) :
      (x.pc t).running = some (.read p f) → x.progress t = some progress →
      readTurn x.file progress.offset result progress.total (x.bytes f).bytes = .ok none b →
      Cases options x (.turn t result) .suspended
        ((x.setBytes f (Page.ofBytes b)).ended t .done)
  | readThrew (action : Action τ) (t : τ) (p f : Nat) (page : Page) (e : Error) :
      action = .enter t ∨ (∃ result, action = .turn t result) →
      (x.pc t).running = some (.read p f) →
      Cases options x action .suspended ((x.setBytes f page).ended t (.failed e))
  | writeMoved (t : τ) (p f : Nat) (result : SysResult) (progress : Progress) (total : Nat)
      (file : File) : (x.pc t).running = some (.write p f) → x.progress t = some progress →
      writeTurn (x.bytes f).bytes progress.offset result progress.total x.file =
        .ok (some total) file →
      Cases options x (.turn t result) .suspended
        ({ x with file }.setProgress t { progress with total })
  | writeEnded (t : τ) (p f : Nat) (result : SysResult) (progress : Progress) (file : File) :
      (x.pc t).running = some (.write p f) → x.progress t = some progress →
      writeTurn (x.bytes f).bytes progress.offset result progress.total x.file = .ok none file →
      Cases options x (.turn t result) .suspended ({ x with file }.ended t .done)
  | writeThrew (action : Action τ) (t : τ) (p f : Nat) (e : Error) :
      action = .enter t ∨ (∃ result, action = .turn t result) →
      (x.pc t).running = some (.write p f) →
      Cases options x action .suspended (x.ended t (.failed e))

variable {options : DiskManagerOptions} {x x' : FileBacked R τ} {t : τ}

theorem enter_cases (h : x.enter options t = some x') :
    Cases options x (.enter t) .suspended x' := by
  unfold enter at h
  split at h
  · next p f hrunning hprogress =>
    split at h
    · next offset page hbegin =>
      obtain rfl := Option.some.inj h
      obtain ⟨rfl, rfl⟩ := beginRead_ok hbegin
      exact .beganRead t p f hrunning hprogress
    · next e page hbegin =>
      obtain rfl := Option.some.inj h
      exact .readThrew _ t p f page e (Or.inl rfl) hrunning
  · next p f hrunning hprogress =>
    split at h
    · next offset hbegin =>
      obtain rfl := Option.some.inj h
      obtain rfl := beginWrite_eq_ok hbegin
      exact .beganWrite t p f hrunning hprogress
    · next e hbegin =>
      obtain rfl := Option.some.inj h
      exact .writeThrew _ t p f e (Or.inl rfl) hrunning
  · cases h

theorem turn_cases {result : SysResult} (h : x.turn t result = some x') :
    Cases options x (.turn t result) .suspended x' := by
  unfold turn at h
  split at h
  · next p f progress hrunning hprogress =>
    split at h
    · next total b hturn =>
      obtain rfl := Option.some.inj h
      exact .readMoved t p f result progress total b hrunning hprogress hturn
    · next b hturn =>
      obtain rfl := Option.some.inj h
      exact .readEnded t p f result progress b hrunning hprogress hturn
    · next e b hturn =>
      obtain rfl := Option.some.inj h
      exact .readThrew _ t p f _ e (Or.inr ⟨result, rfl⟩) hrunning
  · next p f progress hrunning hprogress =>
    split at h
    · next total file hturn =>
      obtain rfl := Option.some.inj h
      exact .writeMoved t p f result progress total file hrunning hprogress hturn
    · next file hturn =>
      obtain rfl := Option.some.inj h
      exact .writeEnded t p f result progress file hrunning hprogress hturn
    · next e file hturn =>
      obtain rfl := Option.some.inj h
      obtain rfl := (writeTurn_wp _ _ _ _ _).error hturn
      exact .writeThrew _ t p f e (Or.inr ⟨result, rfl⟩) hrunning
  · cases h

theorem step_cases {action : Action τ} {out : Outcome}
    (h : x.step options action = some (x', out)) : Cases options x action out x' := by
  cases action with
  | act action =>
    simp only [step] at h
    split at h
    · cases h
    · next hdisk =>
      obtain ⟨⟨s, out'⟩, hstep, heq⟩ := Option.map_eq_some_iff.mp h
      obtain ⟨rfl, rfl⟩ := Prod.mk.inj heq
      exact .act action s _ (Bool.not_eq_true _ ▸ hdisk) hstep
  | enter t =>
    obtain ⟨x₁, hx₁, heq⟩ := Option.map_eq_some_iff.mp h
    obtain ⟨rfl, rfl⟩ := Prod.mk.inj heq
    exact enter_cases hx₁
  | turn t result =>
    obtain ⟨x₁, hx₁, heq⟩ := Option.map_eq_some_iff.mp h
    obtain ⟨rfl, rfl⟩ := Prod.mk.inj heq
    exact turn_cases hx₁

end FileBacked

/-! ## Transfers of the system -/

namespace System

variable {R τ : Type} [DecidableEq τ] {s : System R τ} {t : τ} {p f : Nat}

theorem transfer_read (h : (s.pc t).running = some (.read p f)) :
    s.transfer t = some ((s.setBytes f (s.disk p)).setPc t ((s.pc t).withIo .done)) := by
  unfold Pc.running at h
  unfold transfer
  split at h
  · next hpc =>
    obtain ⟨rfl, rfl⟩ := Transfer.read.inj (Option.some.inj h)
    rw [hpc]
    rfl
  · cases h
  · cases h
  · cases h

theorem transfer_write (h : (s.pc t).running = some (.write p f)) :
    s.transfer t = some ((s.setDisk p (s.bytes f)).setPc t ((s.pc t).withIo .done)) := by
  unfold Pc.running at h
  unfold transfer
  split at h
  · cases h
  · next hpc =>
    obtain ⟨rfl, rfl⟩ := Transfer.write.inj (Option.some.inj h)
    rw [hpc]
    rfl
  · next hpc =>
    obtain ⟨rfl, rfl⟩ := Transfer.write.inj (Option.some.inj h)
    rw [hpc]
    rfl
  · cases h

theorem failRead_read (h : (s.pc t).running = some (.read p f)) (left : Page) (e : Error) :
    s.failRead t left e =
      some ((s.setBytes f left).setPc t ((s.pc t).withIo (.failed e))) := by
  unfold Pc.running at h
  unfold failRead
  split at h
  · next hpc =>
    obtain ⟨rfl, rfl⟩ := Transfer.read.inj (Option.some.inj h)
    rw [hpc]
    rfl
  · cases h
  · cases h
  · cases h

theorem failWrite_write (h : (s.pc t).running = some (.write p f)) (k : Nat) (e : Error) :
    s.failWrite t k e =
      some ((s.setDisk p (Page.overwrite k (s.bytes f) (s.disk p))).setPc t
        ((s.pc t).withIo (.failed e))) := by
  unfold Pc.running at h
  unfold failWrite
  split at h
  · cases h
  · next hpc =>
    obtain ⟨rfl, rfl⟩ := Transfer.write.inj (Option.some.inj h)
    rw [hpc]
    rfl
  · next hpc =>
    obtain ⟨rfl, rfl⟩ := Transfer.write.inj (Option.some.inj h)
    rw [hpc]
    rfl
  · cases h

/-! ## Steps that are not the disk's -/

variable [Replacer R]

omit [DecidableEq τ] in
theorem dropGuard_disk (s : System R τ) (slot : Nat) (g : PageGuard) :
    (s.dropGuard slot g).1.disk = s.disk := by
  unfold dropGuard
  split
  · dsimp only
    split <;> rfl
  · rfl

/-- A step that is not the disk's leaves the disk alone. -/
theorem step_disk {s s' : System R τ} {action : Action τ}
    (hdisk : action.ofDisk = false) {out : Outcome} (h : s.step action = some (s', out)) :
    s'.disk = s.disk := by
  have hsettle : ∀ {t : τ} {piece : Locked R τ Next}, s.settle t piece = (s', out) →
      s'.disk = s.disk := by
    intro t piece hend
    unfold settle at hend
    split at hend <;> obtain ⟨rfl, -⟩ := Prod.mk.inj hend <;> rfl
  cases action with
  | transfer | failRead | failWrite => cases hdisk
  | call t call =>
    simp only [step] at h
    split at h
    · exact hsettle (Option.some.inj h)
    · cases h
  | resume t =>
    obtain ⟨piece, -, heq⟩ := Option.map_eq_some_iff.mp h
    exact hsettle heq
  | read slot | write slot page =>
    obtain ⟨g, -, heq⟩ := Option.map_eq_some_iff.mp h
    split at heq <;> obtain ⟨rfl, -⟩ := Prod.mk.inj heq <;> rfl
  | markDirty slot =>
    obtain ⟨g, -, heq⟩ := Option.map_eq_some_iff.mp h
    unfold markGuard at heq
    split at heq
    · split at heq <;> obtain ⟨rfl, -⟩ := Prod.mk.inj heq <;> rfl
    · obtain ⟨rfl, -⟩ := Prod.mk.inj heq
      rfl
  | drop slot | destroy slot =>
    obtain ⟨g, -, heq⟩ := Option.map_eq_some_iff.mp h
    have hdropped := dropGuard_disk s slot g
    cases hdrop : s.dropGuard slot g with
    | mk s₁ failure =>
      rw [hdrop] at heq hdropped
      cases failure <;> obtain ⟨rfl, -⟩ := Prod.mk.inj heq <;> exact hdropped
  | moveConstruct slot =>
    obtain ⟨g, -, heq⟩ := Option.map_eq_some_iff.mp h
    obtain ⟨rfl, -⟩ := Prod.mk.inj heq
    rfl
  | moveAssign slot source =>
    simp only [step] at h
    split at h
    · next g g' _ _ =>
      split at h
      · obtain ⟨rfl, -⟩ := Prod.mk.inj (Option.some.inj h)
        rfl
      · have hdropped := dropGuard_disk s slot g
        cases hdrop : s.dropGuard slot g with
        | mk s₁ failure =>
          rw [hdrop] at h hdropped
          cases failure <;> obtain ⟨rfl, -⟩ := Prod.mk.inj (Option.some.inj h) <;> exact hdropped
    · cases h

omit [DecidableEq τ] [Replacer R] in
theorem makeWithClock_disk {n N : Nat} {disk : Nat → Page} {s : System ClockReplacer τ}
    (h : System.makeWithClock n N disk = .ok s) : s.disk = disk := by
  unfold System.makeWithClock System.make at h
  cases hr : ClockReplacer.make n with
  | error e =>
    rw [hr] at h
    cases h
  | ok r =>
    rw [hr] at h
    cases hfa : FrameAllocator.make n with
    | error e =>
      rw [hfa] at h
      cases h
    | ok fa =>
      rw [hfa] at h
      cases hpt : PageTable.make N with
      | error e =>
        rw [hpt] at h
        cases h
      | ok pt =>
        rw [hpt] at h
        obtain rfl := Except.ok.inj h
        rfl

end System

end BufferManager
