/-
  Protocol/Step.lean --- the protocol the buffer manager's threads follow.

  An abstract account of `Manager/System.lean`: the page table is a place for each
  page and the sequence of ids to hand out, the frame metadata a use for each
  frame, the bitmap a set, the replacer the two sets it promises to keep.  A piece
  of a call that runs under `mutex_` is cut further, into the decisions it takes;
  `Phase` names where a thread is between two of them.  Each rule of `Step` is one
  decision, touches at most one page, one frame and one thread, and says in its
  label what an account of the run has to know.
-/
import BufferManager.Manager.Trace

set_option autoImplicit false

namespace BufferManager.Protocol

/-! ## Pages and frames -/

/-- Where a page is. -/
inductive Place where
  | unused
  | nonResident
  | loading (f : Nat)
  | resident (f : Nat)
  | evicting (f : Nat)
  deriving DecidableEq

/-- The frame a place names. -/
def Place.frame : Place → Option Nat
  | .unused | .nonResident => none
  | .loading f | .resident f | .evicting f => some f

/-- The page table's entry for a place. -/
def Place.entry : Place → Entry
  | .unused => {}
  | .nonResident => ⟨.nonResident, none⟩
  | .loading f => ⟨.loading, some f⟩
  | .resident f => ⟨.resident, some f⟩
  | .evicting f => ⟨.evicting, some f⟩

/-- The page in a resident frame.  `listed` says that the page table names the
frame; it does not when a `NewPage` found its id taken and left the frame behind. -/
structure Tenant where
  page : Nat
  pins : Nat
  dirty : Bool
  epoch : Nat
  listed : Bool
  deriving DecidableEq

/-- What a frame is used for. -/
inductive Use where
  | free
  | loading (p : Nat)
  | resident (r : Tenant)
  | evicting (p : Nat) (dirty : Bool) (epoch : Nat)
  deriving DecidableEq

/-- The metadata of a frame in that use. -/
def Use.meta : Use → FrameMeta
  | .free => {}
  | .loading p => ⟨some p, 1, false, 0, .loading⟩
  | .resident r => ⟨some r.page, r.pins, r.dirty, r.epoch, .resident⟩
  | .evicting p dirty epoch => ⟨some p, 0, dirty, epoch, .evicting⟩

/-- The place that names frame `f` in this use, with its page. -/
def Use.place (f : Nat) : Use → Option (Nat × Place)
  | .free => none
  | .loading p => some (p, .loading f)
  | .resident r => if r.listed = true then some (r.page, .resident f) else none
  | .evicting p _ _ => some (p, .evicting f)

/-- The frame is being loaded or evicted. -/
def Use.transient : Use → Prop
  | .loading _ | .evicting _ _ _ => True
  | .free | .resident _ => False

/-- The page is being loaded or evicted. -/
def Place.transient : Place → Prop
  | .loading _ | .evicting _ => True
  | .unused | .nonResident | .resident _ => False

/-- The end of a `FlushPage`'s write of `p` at `epoch`: the page is clean unless
the frame has another page, is not resident, or was marked dirty since. -/
def Use.cleaned (p epoch : Nat) : Use → Use
  | .resident r =>
      if r.page = p ∧ r.epoch = epoch then .resident { r with dirty := false } else .resident r
  | u => u

theorem Use.cleaned_cases (p epoch : Nat) (u : Use) :
    (∃ r, u = .resident r ∧ r.page = p ∧ r.epoch = epoch ∧
      u.cleaned p epoch = .resident { r with dirty := false }) ∨ u.cleaned p epoch = u := by
  cases u with
  | resident r =>
    by_cases h : r.page = p ∧ r.epoch = epoch
    · exact Or.inl ⟨r, rfl, h.1, h.2, if_pos h⟩
    · exact Or.inr (if_neg h)
  | _ => exact Or.inr rfl

/-! ## Threads -/

/-- Where a thread is: suspended between two locked pieces, or inside one. -/
inductive Phase where
  | suspended (pc : Pc)
  /-- At the top of the loop over `State(page_id)`. -/
  | visiting (v : Visit)
  /-- At the top of the loop of `AcquireFrame...Locked`. -/
  | acquiring (a : Acquirer)
  /-- With a frame it has just been given. -/
  | holding (a : Acquirer) (f : Nat)
  /-- After a `WritePage`, about to unpin. -/
  | unpinning (p f : Nat) (caller : FlushCaller) (failure : Option Error)
  /-- A `FlushPage` has returned to its caller. -/
  | flushed (caller : FlushCaller)
  /-- In the catch block of `NewPage`. -/
  | unwinding (p : Nat) (e : Error)
  deriving DecidableEq

/-- The visit is a client's call, not a part of `FlushAllPages`. -/
def Visit.IsCall : Visit → Prop
  | .flushPage _ caller => caller = .flushPage
  | .fetchPage _ | .deletePage _ => True

/-- The frame a thread has to itself, and its use. -/
def Phase.claim : Phase → Option (Nat × Use)
  | .holding _ f => some (f, .free)
  | .suspended (.evicting _ ev _) =>
      some (ev.frameId, .evicting ev.oldPageId ev.dirty ev.dirtyEpoch)
  | .suspended (.reading p f _) => some (f, .loading p)
  | _ => none

/-- The page and the frame of a `FlushPage`'s write, from its pin to its unpin. -/
def Phase.writes : Phase → Option (Nat × Nat)
  | .suspended (.writing p f _ _ _) => some (p, f)
  | .unpinning p f _ _ => some (p, f)
  | _ => none

/-- The page a call that acquires a frame, or holds one, wants it for. -/
def Phase.acquires : Phase → Option Nat
  | .suspended (.waitFrame a) => some a.pageId
  | .suspended (.evicting a _ _) => some a.pageId
  | .acquiring a => some a.pageId
  | .holding a _ => some a.pageId
  | .unwinding p _ => some p
  | _ => none

/-- The id a `NewPage` in progress has reserved. -/
def Phase.reserves : Phase → Option Nat
  | .suspended (.waitFrame (.newPage p)) => some p
  | .suspended (.evicting (.newPage p) _ _) => some p
  | .acquiring (.newPage p) => some p
  | .holding (.newPage p) _ => some p
  | .unwinding p _ => some p
  | _ => none

/-! ## Configurations and labels -/

/-- A configuration of the protocol. -/
structure Cfg (τ : Type) where
  place : Nat → Place
  upcoming : List Nat
  frame : Nat → Use
  allocated : Finset Nat
  present : Set Nat
  evictable : Set Nat
  bytes : Nat → Page
  disk : Nat → Page
  asleep : Finset τ
  phase : τ → Phase
  guards : List PageGuard

/-- What a step tells. -/
inductive Event (τ : Type) where
  | silent
  /-- A client's call on a page id began. -/
  | called (t : τ) (v : Visit)
  /-- A call ended, otherwise than by `created` or `deleted`. -/
  | ended (t : τ) (r : Except Error Result)
  /-- `NewPage` returned its guard. -/
  | created (t : τ) (p f : Nat)
  /-- `DeletePage` returned; `reserved` says whether a `NewPage` had the id. -/
  | deleted (t : τ) (p : Nat) (reserved : Prop)
  /-- `FetchPage` began to load a page. -/
  | loadBegan (t : τ) (p : Nat) (reserved : Prop)
  /-- `FlushPage` pinned a frame that had `pins` pins. -/
  | flushPinned (pins : Nat)
  /-- `NewPage` had a frame and could not make its page resident. -/
  | installBlocked (t : τ) (p : Nat)
  /-- A `WritePage` of `p` moved its bytes. -/
  | copied (t : τ) (p : Nat)
  /-- A `WritePage` of `p` has completed. -/
  | wrote (t : τ) (p : Nat)
  /-- `FlushAllPages` took its snapshot; `evicting` says whether a dirty frame was
  being evicted. -/
  | snapshot (t : τ) (pages : List Nat) (evicting : Prop)
  | changed (slot p : Nat) (page : Page)
  /-- `MarkDirty`; `clash` says whether the frame's epoch came back to one that a
  `FlushPage` had captured. -/
  | marked (slot p : Nat) (clash : Prop)
  | dropped (slot : Nat) (failure : Option Error)
  | moved (source slot : Nat)

/-- What has to be known of the state in which a locked piece begins, for the
events of its path that an assumption may exclude. -/
structure Hazards where
  /-- A `FlushPage` pins a frame whose count is full. -/
  overflow : Prop
  /-- A `NewPage` with a frame finds its id taken. -/
  blocked : Prop
  /-- A `FetchPage` begins to load a reserved page. -/
  loads : Prop
  /-- A `DeletePage` frees a reserved id. -/
  deletes : Prop
  /-- A snapshot is taken while a dirty frame is being evicted. -/
  misses : Prop
  /-- A frame's epoch comes back to a captured one. -/
  clash : Prop
  /-- The call has a reason to throw this error. -/
  fails : Error → Prop

/-- The event is harmless, or the hazard it is an instance of was there. -/
def Event.Explained {τ : Type} (h : Hazards) : Event τ → Prop
  | .flushPinned pins => pins = maxPinCount → h.overflow
  | .installBlocked _ _ => h.blocked
  | .loadBegan _ _ reserved => reserved → h.loads
  | .deleted _ _ reserved => reserved → h.deletes
  | .snapshot _ _ evicting => evicting → h.misses
  | .marked _ _ clash => clash → h.clash
  | _ => True

/-- What an observer notes of an event. -/
def Event.note {τ : Type} : Event τ → Option (Note τ)
  | .called t v => some (.called t v)
  | .ended t (.error _) => some (.failed t)
  | .ended t (.ok _) => some (.returned t)
  | .created t p _ => some (.created t p)
  | .deleted t p _ => some (.deleted t p)
  | .copied t p => some (.copied t p)
  | .wrote t p => some (.wrote t p)
  | .snapshot t _ _ => some (.flushAll t)
  | .changed slot p page => some (.changed slot p page)
  | .marked slot p _ => some (.marked slot p)
  | .dropped slot _ => some (.dropped slot)
  | .moved source slot => some (.moved source slot)
  | .silent | .loadBegan _ _ _ | .flushPinned _ | .installBlocked _ _ => none

/-- An account of the notes after an event: what is not noted leaves no trace. -/
def Event.enter {γ τ : Type} (upd : γ → Note τ → γ) (g : γ) (e : Event τ) : γ :=
  e.note.elim g (upd g)

namespace Cfg

variable {τ : Type}

/-- Some `NewPage` in progress has reserved `p`. -/
def Reserved (c : Cfg τ) (p : Nat) : Prop := ∃ t, (c.phase t).reserves = some p

/-- Some frame is being loaded or evicted. -/
def HasTransient (n : Nat) (c : Cfg τ) : Prop := ∃ f, f < n ∧ (c.frame f).transient

/-- No frame is free, none is in transition, and the replacer has none to choose. -/
structure Full (n : Nat) (complete : Prop) (c : Cfg τ) : Prop where
  allocated : ∀ f, f < n → f ∈ c.allocated
  settled : ¬ c.HasTransient n
  unevictable : complete → c.evictable = ∅

/-- Frame `f` has no pin to give back, or the replacer does not know it. -/
def Unpinnable (c : Cfg τ) (f : Nat) : Prop :=
  ∀ r, c.frame f = .resident r → r.pins = 0 ∨ f ∉ c.present

/-- The page of a resident, dirty frame. -/
def dirtyPage (c : Cfg τ) (f : Nat) : Option Nat :=
  match c.frame f with
  | .resident r => if r.dirty = true then some r.page else none
  | _ => none

/-- The pages `FlushAllPages` collects. -/
def dirtyPages (n : Nat) (c : Cfg τ) : List Nat := (List.range n).filterMap c.dirtyPage

/-- Some dirty frame is being evicted. -/
def EvictsDirty (c : Cfg τ) : Prop := ∃ f p epoch, c.frame f = .evicting p true epoch

/-- Some `FlushPage` that is writing `p` from `f` has captured `epoch`. -/
def Captured (c : Cfg τ) (p f epoch : Nat) : Prop :=
  ∃ t caller io, c.phase t = .suspended (.writing p f epoch caller io)

variable [DecidableEq τ]

/-- The thread goes to another phase. -/
@[simp] def goto (c : Cfg τ) (t : τ) (ph : Phase) : Cfg τ :=
  { c with phase := Function.update c.phase t ph }

/-- `state_changed_.notify_all()`. -/
@[simp] def notify (c : Cfg τ) : Cfg τ := { c with asleep := ∅ }

/-- Frame `f` gets another use. -/
@[simp] def setUse (c : Cfg τ) (f : Nat) (u : Use) : Cfg τ :=
  { c with frame := Function.update c.frame f u }

/-- Page `p` gets another place. -/
@[simp] def setPlace (c : Cfg τ) (p : Nat) (x : Place) : Cfg τ :=
  { c with place := Function.update c.place p x }

/-- The replacer gets to know `f` and may not choose it. -/
@[simp] def enlist (c : Cfg τ) (f : Nat) : Cfg τ :=
  { c with present := insert f c.present, evictable := c.evictable \ {f} }

/-- The replacer forgets `f`. -/
@[simp] def delist (c : Cfg τ) (f : Nat) : Cfg τ :=
  { c with present := c.present \ {f}, evictable := c.evictable \ {f} }

/-- Frame `f` is handed to the caller's use. -/
@[simp] def allocate (c : Cfg τ) (f : Nat) : Cfg τ := { c with allocated := insert f c.allocated }

/-- Frame `f` is returned to the allocator. -/
@[simp] def release (c : Cfg τ) (f : Nat) : Cfg τ :=
  { c with frame := Function.update c.frame f .free, allocated := c.allocated.erase f }

/-- The id `p` can be handed out again, before all others. -/
@[simp] def freeId (c : Cfg τ) (p : Nat) : Cfg τ :=
  { c with place := Function.update c.place p .unused, upcoming := p :: c.upcoming }

/-- Frame `f` gets other bytes. -/
@[simp] def setBytes (c : Cfg τ) (f : Nat) (page : Page) : Cfg τ :=
  { c with bytes := Function.update c.bytes f page }

/-- Page `p` gets other bytes on disk. -/
@[simp] def setDisk (c : Cfg τ) (p : Nat) (page : Page) : Cfg τ :=
  { c with disk := Function.update c.disk p page }

/-- A client gets a guard. -/
@[simp] def addGuard (c : Cfg τ) (p f : Nat) : Cfg τ :=
  { c with guards := c.guards ++ [⟨true, p, f⟩] }

end Cfg

/-! ## Endings -/

/-- Where a thread is after a piece of a call. -/
def phaseOf : Next → Phase
  | .returned _ => .suspended .idle
  | .suspended pc => .suspended pc

/-- The guard a piece of a call hands to its client. -/
def guardsOf : Next → List PageGuard
  | .returned (.guard g) => [g]
  | .returned .unit | .suspended _ => []

/-- What the end of a piece tells. -/
def eventOf {τ : Type} (t : τ) : Next → Event τ
  | .returned r => .ended t (.ok r)
  | .suspended _ => .silent

/-- Where an acquisition that throws `e` leaves its thread. -/
def failPhase : Acquirer → Error → Phase
  | .newPage p, e => .unwinding p e
  | .fetchPage _, _ => .suspended .idle

/-- What an acquisition that throws `e` tells. -/
def failEvent {τ : Type} (t : τ) : Acquirer → Error → Event τ
  | .newPage _, _ => .silent
  | .fetchPage _, e => .ended t (.error e)

/-- Where a `FlushPage` whose frame is unpinned goes. -/
def unpinPhase (caller : FlushCaller) : Option Error → Phase
  | none => .flushed caller
  | some _ => .suspended .idle

/-- What the unpin tells. -/
def unpinEvent {τ : Type} (t : τ) : Option Error → Event τ
  | none => .silent
  | some e => .ended t (.error e)

/-- The event ends a call or a write, or tells nothing. -/
def Event.Plain {τ : Type} : Event τ → Prop
  | .silent | .ended _ _ | .wrote _ _ => True
  | _ => False

section

variable {τ : Type} (t : τ)

theorem plain_eventOf (next : Next) : (eventOf t next).Plain := by
  cases next <;> trivial

theorem plain_failEvent (a : Acquirer) (e : Error) : (failEvent t a e).Plain := by
  cases a <;> trivial

theorem plain_unpinEvent (failure : Option Error) : (unpinEvent t failure).Plain := by
  cases failure <;> trivial

theorem plain_evictDone (ev : Eviction) :
    (if ev.dirty = true then Event.wrote t ev.oldPageId else .silent).Plain := by
  split <;> trivial

end

/-- Where a `FlushPage` leaves its thread that has returned. -/
theorem phaseOf_flushReturn (caller : FlushCaller) :
    phaseOf (Manager.flushReturn caller) = .suspended .idle ∨
      ∃ p rest, caller = .flushAllPages (p :: rest) ∧
        phaseOf (Manager.flushReturn caller) = .suspended (.nextFlush p rest) := by
  rcases caller with - | rest
  · exact Or.inl rfl
  · cases rest with
    | nil => exact Or.inl rfl
    | cons p rest => exact Or.inr ⟨p, rest, rfl, rfl⟩

/-- The thread is at no transfer that has failed. -/
def Phase.Unfailed : Phase → Prop
  | .suspended pc => pc.failure = none
  | _ => True

@[simp] theorem unfailed_suspended (pc : Pc) :
    (Phase.suspended pc).Unfailed ↔ pc.failure = none := Iff.rfl

@[simp] theorem unfailed_visiting (v : Visit) : (Phase.visiting v).Unfailed := trivial

@[simp] theorem unfailed_acquiring (a : Acquirer) : (Phase.acquiring a).Unfailed := trivial

@[simp] theorem unfailed_holding (a : Acquirer) (f : Nat) : (Phase.holding a f).Unfailed := trivial

@[simp] theorem unfailed_unpinning (p f : Nat) (caller : FlushCaller) (failure : Option Error) :
    (Phase.unpinning p f caller failure).Unfailed := trivial

@[simp] theorem unfailed_flushed (caller : FlushCaller) : (Phase.flushed caller).Unfailed := trivial

@[simp] theorem unfailed_unwinding (p : Nat) (e : Error) : (Phase.unwinding p e).Unfailed := trivial

@[simp] theorem unfailed_failPhase (a : Acquirer) (e : Error) : (failPhase a e).Unfailed := by
  cases a <;> simp [failPhase, Pc.failure]

@[simp] theorem unfailed_unpinPhase (caller : FlushCaller) (failure : Option Error) :
    (unpinPhase caller failure).Unfailed := by
  cases failure <;> simp [unpinPhase, Pc.failure]

@[simp] theorem unfailed_flushReturn (caller : FlushCaller) :
    (phaseOf (Manager.flushReturn caller)).Unfailed := by
  rcases phaseOf_flushReturn caller with h | ⟨p, rest, -, h⟩ <;> simp [h, Pc.failure]

@[simp] theorem failure_running : Io.running.failure = none := rfl

/-- The unlocked window of an eviction begins with its write, if there is one. -/
@[simp] theorem failure_evicting (dirty : Bool) :
    (if dirty = true then Io.running else Io.done).failure = none := by
  cases dirty <;> rfl

/-- `NewPage` and the loop over `State(page_id)` end a call without effect. -/
inductive Leaves {τ : Type} (c : Cfg τ) : Visit → Error → Prop where
  | invalid (v : Visit) : c.place v.pageId = .unused →
      Leaves c v ⟨.outOfRange, "invalid page id"⟩
  | fetchUnused (p : Nat) : c.place p = .unused →
      Leaves c (.fetchPage p) ⟨.logicError, "cannot fetch an unused page"⟩
  | flushUnused (p : Nat) (caller : FlushCaller) : c.place p = .unused →
      Leaves c (.flushPage p caller) ⟨.logicError, "cannot flush an unused page"⟩
  | pinOverflow (p f : Nat) (r : Tenant) : c.place p = .resident f → c.frame f = .resident r →
      r.pins = maxPinCount → Leaves c (.fetchPage p) ⟨.overflowError, "pin count overflow"⟩
  | deletePinned (p f : Nat) (r : Tenant) : c.place p = .resident f →
      c.frame f = .resident r → r.pins ≠ 0 →
      Leaves c (.deletePage p) ⟨.logicError, "cannot delete a pinned page"⟩

/-- `UnpinFrameLocked(f)`, and how it ends. -/
inductive Unpin {τ : Type} [DecidableEq τ] (c : Cfg τ) (f : Nat) :
    Cfg τ → Option Error → Prop where
  | kept (r : Tenant) (k : Nat) : c.frame f = .resident r → r.pins = k + 2 →
      Unpin c f (c.setUse f (.resident { r with pins := k + 1 })) none
  | last (r : Tenant) : c.frame f = .resident r → r.pins = 1 → f ∈ c.present →
      Unpin c f { c.setUse f (.resident { r with pins := 0 }) with
        evictable := insert f c.evictable } none
  | unknown (r : Tenant) (e : Error) : c.frame f = .resident r → r.pins = 1 → f ∉ c.present →
      Unpin c f (c.setUse f (.resident { r with pins := 0 })) (some e)
  | refused (e : Error) : (∀ r, c.frame f = .resident r → r.pins = 0) → Unpin c f c (some e)

/-! ## The steps -/

/-- The protocol's steps, over `n` frames and `N` page ids.  `complete` says that the
replacer declines to choose only when it has no choice. -/
inductive Step {τ : Type} [DecidableEq τ] (n N : Nat) (complete : Prop) :
    Cfg τ → Event τ → Cfg τ → Prop where
  /- A call begins or goes on. -/
  | visit {c : Cfg τ} (t : τ) (v : Visit) : c.phase t = .suspended .idle → Visit.IsCall v →
      Step n N complete c (.called t v) (c.goto t (.visiting v))
  | noIds {c : Cfg τ} (t : τ) : c.phase t = .suspended .idle → c.upcoming = [] →
      Step n N complete c (.ended t (.error ⟨.runtimeError, "maximum number of pages reached"⟩)) c
  | reserve {c : Cfg τ} (t : τ) (p : Nat) (rest : List Nat) :
      c.phase t = .suspended .idle → c.upcoming = p :: rest → p < N →
      Step n N complete c .silent
        (({ c with upcoming := rest }.setPlace p .nonResident).goto t (.acquiring (.newPage p)))
  | snapshot {c : Cfg τ} (t : τ) : c.phase t = .suspended .idle →
      Step n N complete c (.snapshot t (c.dirtyPages n) c.EvictsDirty)
        (c.goto t (.flushed (.flushAllPages (c.dirtyPages n))))
  | wakePage {c : Cfg τ} (t : τ) (v : Visit) : c.phase t = .suspended (.waitPage v) →
      Step n N complete c .silent ({ c with asleep := c.asleep.erase t }.goto t (.visiting v))
  | wakeFrame {c : Cfg τ} (t : τ) (a : Acquirer) : c.phase t = .suspended (.waitFrame a) →
      Step n N complete c .silent ({ c with asleep := c.asleep.erase t }.goto t (.acquiring a))
  | nextFlush {c : Cfg τ} (t : τ) (p : Nat) (rest : List Nat) :
      c.phase t = .suspended (.nextFlush p rest) →
      Step n N complete c .silent (c.goto t (.visiting (.flushPage p (.flushAllPages rest))))
  /- The loop over `State(page_id)`. -/
  | leave {c : Cfg τ} (t : τ) (v : Visit) (e : Error) : c.phase t = .visiting v → Leaves c v e →
      Step n N complete c (.ended t (.error e)) (c.goto t (.suspended .idle))
  | sleepPage {c : Cfg τ} (t : τ) (v : Visit) : c.phase t = .visiting v →
      (c.place v.pageId).transient →
      Step n N complete c .silent
        ({ c with asleep := insert t c.asleep }.goto t (.suspended (.waitPage v)))
  | pin {c : Cfg τ} (t : τ) (p f : Nat) (r : Tenant) : c.phase t = .visiting (.fetchPage p) →
      c.place p = .resident f → c.frame f = .resident r → r.pins ≠ maxPinCount →
      Step n N complete c (.ended t (.ok (.guard ⟨true, p, f⟩)))
        ((((c.setUse f (.resident { r with pins := r.pins + 1 })).enlist f).addGuard p f).goto t
          (.suspended .idle))
  | seek {c : Cfg τ} (t : τ) (p : Nat) : c.phase t = .visiting (.fetchPage p) →
      c.place p = .nonResident → p < N →
      Step n N complete c .silent (c.goto t (.acquiring (.fetchPage p)))
  | skipFlush {c : Cfg τ} (t : τ) (p : Nat) (caller : FlushCaller) :
      c.phase t = .visiting (.flushPage p caller) →
      (c.place p = .nonResident ∨ ∃ f r, c.place p = .resident f ∧ c.frame f = .resident r ∧
        r.dirty = false) →
      Step n N complete c .silent (c.goto t (.flushed caller))
  | flushReturn {c : Cfg τ} (t : τ) (caller : FlushCaller) : c.phase t = .flushed caller →
      Step n N complete c (eventOf t (Manager.flushReturn caller))
        (c.goto t (phaseOf (Manager.flushReturn caller)))
  | capture {c : Cfg τ} (t : τ) (p f : Nat) (r : Tenant) (caller : FlushCaller) :
      c.phase t = .visiting (.flushPage p caller) →
      c.place p = .resident f → c.frame f = .resident r → r.dirty = true →
      Step n N complete c (.flushPinned r.pins)
        ({ c.setUse f (.resident { r with pins := (r.pins + 1) % 2 ^ 32 }) with
            evictable := c.evictable \ {f} }.goto t
          (.suspended (.writing p f r.epoch caller .running)))
  | deleteUnused {c : Cfg τ} (t : τ) (p : Nat) : c.phase t = .visiting (.deletePage p) →
      c.place p = .unused →
      Step n N complete c (.deleted t p False) (c.goto t (.suspended .idle))
  | deleteResident {c : Cfg τ} (t : τ) (p f : Nat) (r : Tenant) :
      c.phase t = .visiting (.deletePage p) →
      c.place p = .resident f → c.frame f = .resident r → r.pins = 0 →
      Step n N complete c (.deleted t p (c.Reserved p))
        (((((c.delist f).release f).freeId p).notify).goto t (.suspended .idle))
  | deleteNonResident {c : Cfg τ} (t : τ) (p : Nat) : c.phase t = .visiting (.deletePage p) →
      c.place p = .nonResident →
      Step n N complete c (.deleted t p (c.Reserved p))
        (((c.freeId p).notify).goto t (.suspended .idle))
  /- The loop of `AcquireFrame...Locked`. -/
  | recheck {c : Cfg τ} (t : τ) (p : Nat) : c.phase t = .acquiring (.fetchPage p) →
      c.place p ≠ .nonResident →
      Step n N complete c .silent (c.goto t (.visiting (.fetchPage p)))
  | tookFrame {c : Cfg τ} (t : τ) (a : Acquirer) (f : Nat) : c.phase t = .acquiring a →
      f < n → f ∉ c.allocated →
      Step n N complete c .silent ((c.allocate f).goto t (.holding a f))
  | evictBegin {c : Cfg τ} (t : τ) (a : Acquirer) (f : Nat) (r : Tenant) :
      c.phase t = .acquiring a → f ∈ c.evictable →
      c.place r.page = .resident f → c.frame f = .resident r → r.pins = 0 →
      Step n N complete c .silent
        ((((c.delist f).setPlace r.page (.evicting f)).setUse f
            (.evicting r.page r.dirty r.epoch)).goto t
          (.suspended (.evicting a ⟨f, r.page, r.dirty, r.epoch⟩
            (if r.dirty = true then .running else .done))))
  | sleepFrame {c : Cfg τ} (t : τ) (a : Acquirer) : c.phase t = .acquiring a →
      c.HasTransient n →
      Step n N complete c .silent
        ({ c with asleep := insert t c.asleep }.goto t (.suspended (.waitFrame a)))
  | noFrame {c : Cfg τ} (t : τ) (a : Acquirer) : c.phase t = .acquiring a →
      (∀ f, f < n → f ∈ c.allocated) → ¬ c.HasTransient n → (complete → c.evictable = ∅) →
      Step n N complete c (failEvent t a ⟨.runtimeError, "no frame available"⟩)
        (c.goto t (failPhase a ⟨.runtimeError, "no frame available"⟩))
  | evictDone {c : Cfg τ} (t : τ) (a : Acquirer) (ev : Eviction) :
      c.phase t = .suspended (.evicting a ev .done) →
      Step n N complete c (if ev.dirty = true then .wrote t ev.oldPageId else .silent)
        ((((c.setPlace ev.oldPageId .nonResident).setUse ev.frameId .free).notify).goto t
          (.holding a ev.frameId))
  | evictFail {c : Cfg τ} (t : τ) (a : Acquirer) (ev : Eviction) (e : Error) :
      c.phase t = .suspended (.evicting a ev (.failed e)) →
      Step n N complete c (failEvent t a e)
        ({ (c.setPlace ev.oldPageId (.resident ev.frameId)).setUse ev.frameId
              (.resident ⟨ev.oldPageId, 0, ev.dirty, ev.dirtyEpoch, true⟩) with
            present := insert ev.frameId c.present
            evictable := insert ev.frameId c.evictable
            asleep := ∅ }.goto t (failPhase a e))
  /- With a frame. -/
  | create {c : Cfg τ} (t : τ) (p f : Nat) : c.phase t = .holding (.newPage p) f →
      c.place p = .nonResident →
      Step n N complete c (.created t p f)
        (((((((c.setBytes f Page.zero).setUse f (.resident ⟨p, 1, true, 1, true⟩)).setPlace p
          (.resident f)).enlist f).notify).addGuard p f).goto t (.suspended .idle))
  | block {c : Cfg τ} (t : τ) (p f : Nat) (e : Error) : c.phase t = .holding (.newPage p) f →
      c.place p ≠ .nonResident → e ∈ PageTable.setResidentErrors →
      Step n N complete c (.installBlocked t p)
        (((c.setBytes f Page.zero).setUse f (.resident ⟨p, 1, true, 1, false⟩)).goto t
          (.unwinding p e))
  | loadBegin {c : Cfg τ} (t : τ) (p f : Nat) : c.phase t = .holding (.fetchPage p) f →
      c.place p = .nonResident →
      Step n N complete c (.loadBegan t p (c.Reserved p))
        (((c.setPlace p (.loading f)).setUse f (.loading p)).goto t
          (.suspended (.reading p f .running)))
  | surplus {c : Cfg τ} (t : τ) (p f : Nat) : c.phase t = .holding (.fetchPage p) f →
      c.place p ≠ .nonResident →
      Step n N complete c .silent (((c.release f).notify).goto t (.visiting (.fetchPage p)))
  /- The catch block of `NewPage`. -/
  | rollback {c : Cfg τ} (t : τ) (p : Nat) (e : Error) : c.phase t = .unwinding p e →
      c.place p = .nonResident →
      Step n N complete c (.ended t (.error e))
        (((c.freeId p).notify).goto t (.suspended .idle))
  | abandon {c : Cfg τ} (t : τ) (p : Nat) (e : Error) : c.phase t = .unwinding p e →
      c.place p ≠ .nonResident →
      Step n N complete c (.ended t (.error e)) ((c.notify).goto t (.suspended .idle))
  /- After a load or a write. -/
  | loaded {c : Cfg τ} (t : τ) (p f : Nat) : c.phase t = .suspended (.reading p f .done) →
      Step n N complete c (.ended t (.ok (.guard ⟨true, p, f⟩)))
        ((((((c.setUse f (.resident ⟨p, 1, false, 0, true⟩)).setPlace p
          (.resident f)).enlist f).notify).addGuard p f).goto t (.suspended .idle))
  | loadFailed {c : Cfg τ} (t : τ) (p f : Nat) (e : Error) :
      c.phase t = .suspended (.reading p f (.failed e)) →
      Step n N complete c (.ended t (.error e))
        ((((c.release f).setPlace p .nonResident).notify).goto t (.suspended .idle))
  | written {c : Cfg τ} (t : τ) (p f epoch : Nat) (caller : FlushCaller) :
      c.phase t = .suspended (.writing p f epoch caller .done) →
      Step n N complete c (.wrote t p)
        ((c.setUse f ((c.frame f).cleaned p epoch)).goto t (.unpinning p f caller none))
  | writeFailed {c : Cfg τ} (t : τ) (p f epoch : Nat) (caller : FlushCaller) (e : Error) :
      c.phase t = .suspended (.writing p f epoch caller (.failed e)) →
      Step n N complete c .silent (c.goto t (.unpinning p f caller (some e)))
  | unpinned {c c' : Cfg τ} (t : τ) (p f : Nat) (caller : FlushCaller) (failure : Option Error) :
      c.phase t = .unpinning p f caller failure → Unpin c f c' none →
      Step n N complete c (unpinEvent t failure) ((c'.notify).goto t (unpinPhase caller failure))
  | unpinThrew {c c' : Cfg τ} (t : τ) (p f : Nat) (caller : FlushCaller)
      (failure : Option Error) (e : Error) :
      c.phase t = .unpinning p f caller failure → Unpin c f c' (some e) →
      Step n N complete c (.ended t (.error e)) (c'.goto t (.suspended .idle))
  /- The disk. -/
  | evictCopy {c : Cfg τ} (t : τ) (a : Acquirer) (ev : Eviction) :
      c.phase t = .suspended (.evicting a ev .running) →
      Step n N complete c (.copied t ev.oldPageId)
        ((c.setDisk ev.oldPageId (c.bytes ev.frameId)).goto t (.suspended (.evicting a ev .done)))
  | evictCopyFailed {c : Cfg τ} (t : τ) (a : Acquirer) (ev : Eviction) (k : Nat) (e : Error) :
      c.phase t = .suspended (.evicting a ev .running) →
      Step n N complete c .silent
        ((c.setDisk ev.oldPageId
          (Page.overwrite k (c.bytes ev.frameId) (c.disk ev.oldPageId))).goto t
            (.suspended (.evicting a ev (.failed e))))
  | writeCopy {c : Cfg τ} (t : τ) (p f epoch : Nat) (caller : FlushCaller) :
      c.phase t = .suspended (.writing p f epoch caller .running) →
      Step n N complete c (.copied t p)
        ((c.setDisk p (c.bytes f)).goto t (.suspended (.writing p f epoch caller .done)))
  | writeCopyFailed {c : Cfg τ} (t : τ) (p f epoch : Nat) (caller : FlushCaller) (k : Nat)
      (e : Error) : c.phase t = .suspended (.writing p f epoch caller .running) →
      Step n N complete c .silent
        ((c.setDisk p (Page.overwrite k (c.bytes f) (c.disk p))).goto t
          (.suspended (.writing p f epoch caller (.failed e))))
  | readCopy {c : Cfg τ} (t : τ) (p f : Nat) : c.phase t = .suspended (.reading p f .running) →
      Step n N complete c .silent
        ((c.setBytes f (c.disk p)).goto t (.suspended (.reading p f .done)))
  | readCopyFailed {c : Cfg τ} (t : τ) (p f : Nat) (left : Page) (e : Error) :
      c.phase t = .suspended (.reading p f .running) →
      Step n N complete c .silent
        ((c.setBytes f left).goto t (.suspended (.reading p f (.failed e))))
  /- Guards. -/
  | change {c : Cfg τ} (slot : Nat) (g : PageGuard) (page : Page) : c.guards[slot]? = some g →
      g.valid = true →
      Step n N complete c (.changed slot g.pageId page) (c.setBytes g.frameId page)
  | mark {c : Cfg τ} (slot : Nat) (g : PageGuard) (r : Tenant) : c.guards[slot]? = some g →
      g.valid = true → c.frame g.frameId = .resident r → r.page = g.pageId →
      Step n N complete c
        (.marked slot g.pageId (c.Captured g.pageId g.frameId ((r.epoch + 1) % 2 ^ 64)))
        (c.setUse g.frameId
          (.resident { r with dirty := true, epoch := (r.epoch + 1) % 2 ^ 64 }))
  | drop {c c' : Cfg τ} (slot : Nat) (g : PageGuard) (failure : Option Error) :
      c.guards[slot]? = some g → g.valid = true → (c.frame g.frameId).meta.pageId = some g.pageId →
      Unpin { c with guards := c.guards.set slot {} } g.frameId c' failure →
      Step n N complete c (.dropped slot failure)
        (match failure with | none => c'.notify | some _ => c')
  | dropStale {c : Cfg τ} (slot : Nat) (g : PageGuard) (e : Error) :
      c.guards[slot]? = some g → g.valid = true → (c.frame g.frameId).meta.pageId ≠ some g.pageId →
      Step n N complete c (.dropped slot (some e)) { c with guards := c.guards.set slot {} }
  | move {c : Cfg τ} (slot : Nat) (g : PageGuard) : c.guards[slot]? = some g →
      Step n N complete c (.moved slot c.guards.length)
        { c with guards := c.guards.set slot {} ++ [g] }
  | assign {c : Cfg τ} (slot source : Nat) (g g' : PageGuard) : slot ≠ source →
      c.guards[slot]? = some g → g.valid = false → c.guards[source]? = some g' →
      Step n N complete c (.moved source slot)
        { c with guards := (c.guards.set slot g').set source {} }

end BufferManager.Protocol
