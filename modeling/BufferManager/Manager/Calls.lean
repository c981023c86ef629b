/-
  Manager/Calls.lean --- the public calls, cut at the releases of `mutex_`.

  Source: `src/buffer_manager.cc`, `NewPage` to `DeletePage` and the two
  `AcquireFrame...Locked` functions.

  A call gives up `mutex_` where it waits on `state_changed_`, where it unlocks
  around `ReadPage` or `WritePage`, and where `FlushAllPages` has finished one
  `FlushPage` and not begun the next.  `Pc` names these places with the local
  variables that are live there.  A piece of a call that runs under the lock ends
  in `Next`: the call has returned, or it is suspended at one of these places.  An
  exception thrown by the piece is the exception the call throws.

  The clean eviction of a victim has an unlocked window too, an empty one: its
  `Io` is `done` from the start.
-/
import BufferManager.Manager.Locked

set_option autoImplicit false

namespace BufferManager

open BufferManager.Lib

/-- The progress of an unlocked `ReadPage` or `WritePage`: still transferring,
about to return, or about to throw. -/
inductive Io where
  | running
  | done
  | failed (e : Error)
  deriving DecidableEq, Repr

/-- How the transfer ended, once it has. -/
def Io.outcome : Io → Option (Option Error)
  | .running => none
  | .done => some none
  | .failed e => some (some e)

/-- The caller of `AcquireFrameLocked` or `AcquireFrameForFetchLocked` with its
page id. -/
inductive Acquirer where
  | newPage (pageId : Nat)
  | fetchPage (pageId : Nat)
  deriving DecidableEq, Repr

/-- The page a caller wants a frame for. -/
def Acquirer.pageId : Acquirer → Nat
  | .newPage p | .fetchPage p => p

/-- A `FlushPage` call stands alone, or `FlushAllPages` made it and has the rest
of its snapshot to flush. -/
inductive FlushCaller where
  | flushPage
  | flushAllPages (rest : List Nat)
  deriving DecidableEq, Repr

/-- A call whose loop looks at `page_table_.State(page_id)`. -/
inductive Visit where
  | fetchPage (pageId : Nat)
  | flushPage (pageId : Nat) (caller : FlushCaller)
  | deletePage (pageId : Nat)
  deriving DecidableEq, Repr

/-- The page a call looks at. -/
def Visit.pageId : Visit → Nat
  | .fetchPage p => p
  | .flushPage p _ => p
  | .deletePage p => p

/-- The locals of the eviction window: `frame_id`, `old_page_id`, `dirty` and
`dirty_epoch`. -/
structure Eviction where
  frameId : Nat
  oldPageId : Nat
  dirty : Bool
  dirtyEpoch : Nat
  deriving DecidableEq, Repr

/-- Where a thread is when it does not hold `mutex_`. -/
inductive Pc where
  | idle
  /-- `state_changed_.wait(lock)` in the loop over `State(page_id)`. -/
  | waitPage (v : Visit)
  /-- `state_changed_.wait(lock)` in `AcquireFrame...Locked`. -/
  | waitFrame (a : Acquirer)
  /-- The unlocked window of an eviction. -/
  | evicting (a : Acquirer) (ev : Eviction) (io : Io)
  /-- `disk_manager_.ReadPage(page_id, &frame)`. -/
  | reading (pageId frameId : Nat) (io : Io)
  /-- `disk_manager_.WritePage(page_id, page)` in `FlushPage`. -/
  | writing (pageId frameId capturedDirtyEpoch : Nat) (caller : FlushCaller) (io : Io)
  /-- `FlushAllPages` before its call `FlushPage(page_id)`. -/
  | nextFlush (pageId : Nat) (rest : List Nat)
  deriving DecidableEq, Repr

/-- What a call returns. -/
inductive Result where
  | unit
  | guard (g : PageGuard)
  deriving DecidableEq, Repr

/-- How a piece of a call under the lock ends. -/
inductive Next where
  | returned (result : Result)
  | suspended (pc : Pc)
  deriving DecidableEq, Repr

/-- How a turn of `AcquireFrame...Locked` ends: with a frame, or giving up the
lock at `pc`. -/
inductive Acquired where
  | frame (frameId : Nat)
  | suspended (pc : Pc)
  deriving DecidableEq, Repr

namespace Manager

variable {R τ : Type} [Replacer R] [DecidableEq τ]

omit [Replacer R] in
/-- `state_changed_.wait(lock)`: fall asleep and give up the lock at `pc`. -/
def wait (t : τ) (pc : Pc) : Locked R τ Pc := do
  modify fun s => { s with asleep := insert t s.asleep }
  return pc

omit [Replacer R] in
/-- The return from `state_changed_.wait(lock)`, by a notification or without
one. -/
def wake (t : τ) : Locked R τ Unit :=
  modify fun s => { s with asleep := s.asleep.erase t }

/-! ## AcquireFrameLocked and AcquireFrameForFetchLocked -/

omit [Replacer R] [DecidableEq τ] in
/-- The checks on a victim and its two changes of state, up to `lock.unlock()`. -/
def beginEviction (frameId : Nat) : Locked R τ Eviction := do
  let m ← metaOf frameId
  match m.pageId with
  | none => throw ⟨.logicError, "victim frame has no page"⟩
  | some oldPageId =>
      if m.pinCount ≠ 0 then
        throw ⟨.logicError, "replacer selected a pinned frame"⟩
      else if m.state ≠ .resident then
        throw ⟨.logicError, "victim frame is not resident"⟩
      else do
        setEvicting oldPageId
        setMeta frameId { m with state := .evicting }
        let _ ← framePage frameId
        return ⟨frameId, oldPageId, m.dirty, m.dirtyEpoch⟩

/-- One turn of the loop of `AcquireFrameLocked`: the part that
`AcquireFrameForFetchLocked` repeats word for word. -/
def acquireFrameLocked (t : τ) (a : Acquirer) : Locked R τ Acquired := do
  match ← allocateFrame with
  | some frameId => return .frame frameId
  | none =>
      match ← victim with
      | none =>
          if ← hasTransientFrameLocked then
            return .suspended (← wait t (.waitFrame a))
          else
            throw ⟨.runtimeError, "no frame available"⟩
      | some frameId => do
          let ev ← beginEviction frameId
          return .suspended (.evicting a ev (if ev.dirty then .running else .done))

/-- One turn of the loop of `AcquireFrameForFetchLocked`. -/
def acquireFrameForFetchLocked (t : τ) (pageId : Nat) : Locked R τ (Option Acquired) := do
  if (← pageState pageId) ≠ .nonResident then
    return none
  else
    return some (← acquireFrameLocked t (.fetchPage pageId))

/-- The end of the eviction window, after `lock.lock()`: the catch block when the
write failed, else the victim's page leaves memory. -/
def finishEviction (ev : Eviction) (failure : Option Error) : Locked R τ Unit :=
  match failure with
  | some e => do
      restoreEvictedFrameLocked ev.frameId ev.oldPageId ev.dirty ev.dirtyEpoch
      notifyAll
      throw e
  | none => do
      setNonResident ev.oldPageId
      setMeta ev.frameId {}
      notifyAll

omit [Replacer R] [DecidableEq τ] in
/-- The end of `AcquireFrameForFetchLocked` after an eviction: the frame, unless
another thread got to the page first. -/
def keepIfNonResident (pageId frameId : Nat) : Locked R τ (Option Acquired) := do
  if (← pageState pageId) = .nonResident then
    return some (.frame frameId)
  else do
    freeFrame frameId
    notifyAll
    return none

/-! ## NewPage -/

omit [DecidableEq τ] in
/-- The body of `NewPage`'s try block once it has a frame. -/
def installNewPage (pageId frameId : Nat) : Locked R τ Next := do
  let _ ← framePage frameId
  storePage frameId Page.zero
  setMeta frameId ⟨some pageId, 1, true, 1, .resident⟩
  setResident pageId frameId
  recordAccess frameId
  setEvictable frameId false
  notifyAll
  return .returned (.guard (← makeGuardLocked pageId frameId))

omit [Replacer R] [DecidableEq τ] in
/-- `NewPage`'s catch block. -/
def newPageHandler (pageId : Nat) (e : Error) : Locked R τ Next := do
  if (← pageState pageId) = .nonResident then freePageId pageId else pure ()
  notifyAll
  throw e

omit [DecidableEq τ] in
/-- `NewPage`'s try statement around an acquisition of a frame. -/
def newPageTry (pageId : Nat) (acquire : Locked R τ Acquired) : Locked R τ Next :=
  tryCatch (do
    match ← acquire with
    | .suspended pc => return .suspended pc
    | .frame frameId => installNewPage pageId frameId)
    (newPageHandler pageId)

/-- `NewPage`. -/
def newPage (t : τ) : Locked R τ Next := do
  let pageId ← allocatePageId
  newPageTry pageId (acquireFrameLocked t (.newPage pageId))

/-! ## FetchPage -/

omit [Replacer R] [DecidableEq τ] in
/-- The `kNonResident` case of `FetchPage` from its frame to `lock.unlock()`. -/
def beginLoad (pageId frameId : Nat) : Locked R τ Next := do
  setLoading pageId frameId
  setMeta frameId ⟨some pageId, 1, false, 0, .loading⟩
  let _ ← framePage frameId
  return .suspended (.reading pageId frameId .running)

/-- The loop of `FetchPage`, for at most `turns` turns under one lock.  The loop
goes round only when `AcquireFrameForFetchLocked` returns `nullopt`, and then the
page is in another state than `kNonResident`, so one turn is enough
(`fetchLoop_turns`). -/
def fetchLoop (t : τ) (pageId : Nat) : (turns : Nat) → Locked R τ Next
  | 0 => return .suspended (.waitPage (.fetchPage pageId))
  | turns + 1 => do
      match ← pageState pageId with
      | .unused => throw ⟨.logicError, "cannot fetch an unused page"⟩
      | .resident => do
          let frameId ← residentFrame pageId
          pinResidentFrameLocked pageId frameId
          return .returned (.guard (← makeGuardLocked pageId frameId))
      | .loading | .evicting => return .suspended (← wait t (.waitPage (.fetchPage pageId)))
      | .nonResident => do
          match ← acquireFrameForFetchLocked t pageId with
          | none => fetchLoop t pageId turns
          | some (.suspended pc) => return .suspended pc
          | some (.frame frameId) => beginLoad pageId frameId

/-- `FetchPage` from the top of its loop. -/
def fetchPage (t : τ) (pageId : Nat) : Locked R τ Next := fetchLoop t pageId 1

omit [Replacer R] [DecidableEq τ] in
/-- A look at a page changes nothing. -/
theorem pageState_cases (pageId : Nat) (s : Manager R τ) :
    (∃ state, (pageState pageId : Locked R τ PageState) s = .ok state s) ∨
      ∃ e, (pageState pageId : Locked R τ PageState) s = .error e s := by
  cases h : s.pageTable.state pageId with
  | ok state =>
    refine Or.inl ⟨state, attempt_ok ?_⟩
    rw [h]
    rfl
  | error e =>
    refine Or.inr ⟨e, attempt_error ?_⟩
    rw [h]
    rfl

/-- The loop does not go round under one lock: `AcquireFrameForFetchLocked` looks at the
page once more, which is still `kNonResident`. -/
theorem fetchLoop_turns (t : τ) (pageId turns : Nat) :
    (fetchLoop t pageId (turns + 1) : Locked R τ Next) = fetchPage t pageId := by
  funext s
  rw [fetchPage, fetchLoop, fetchLoop]
  rcases pageState_cases pageId s with ⟨state, hread⟩ | ⟨e, hread⟩
  · rw [bind_of_ok hread, bind_of_ok hread]
    cases state with
    | nonResident =>
      dsimp only
      rw [acquireFrameForFetchLocked, bind_assoc, bind_assoc, bind_of_ok hread, bind_of_ok hread]
      simp only [ne_eq, not_true_eq_false, if_false, bind_assoc, pure_bind]
      refine congrFun (bind_congr fun acquired => ?_) s
      cases acquired <;> rfl
    | _ => rfl
  · rw [bind_of_error hread, bind_of_error hread]

/-- `FetchPage` from inside `AcquireFrameForFetchLocked`. -/
def fetchPageWith (t : τ) (pageId : Nat) (acquire : Locked R τ (Option Acquired)) :
    Locked R τ Next := do
  match ← acquire with
  | none => fetchPage t pageId
  | some (.suspended pc) => return .suspended pc
  | some (.frame frameId) => beginLoad pageId frameId

omit [DecidableEq τ] in
/-- The end of `FetchPage`'s load, after `lock.lock()`: the catch block when the
read failed, else the page becomes resident. -/
def finishLoad (pageId frameId : Nat) (failure : Option Error) : Locked R τ Next :=
  match failure with
  | some e => do
      setMeta frameId {}
      freeFrame frameId
      setNonResident pageId
      notifyAll
      throw e
  | none => do
      let m ← metaOf frameId
      setMeta frameId { m with state := .resident, dirty := false, dirtyEpoch := 0 }
      setResident pageId frameId
      recordAccess frameId
      setEvictable frameId false
      notifyAll
      return .returned (.guard (← makeGuardLocked pageId frameId))

/-! ## FlushPage and FlushAllPages -/

/-- The return from a `FlushPage`, to the client or to `FlushAllPages`'s loop. -/
def flushReturn : FlushCaller → Next
  | .flushPage => .returned .unit
  | .flushAllPages [] => .returned .unit
  | .flushAllPages (pageId :: rest) => .suspended (.nextFlush pageId rest)

/-- `FlushPage` from the top of its loop. -/
def flushPage (t : τ) (pageId : Nat) (caller : FlushCaller) : Locked R τ Next := do
  match ← pageState pageId with
  | .unused => throw ⟨.logicError, "cannot flush an unused page"⟩
  | .nonResident => return flushReturn caller
  | .loading | .evicting => return .suspended (← wait t (.waitPage (.flushPage pageId caller)))
  | .resident => do
      let frameId ← residentFrame pageId
      let m ← metaOf frameId
      if m.dirty = false then
        return flushReturn caller
      else if m.pageId ≠ some pageId ∨ m.state ≠ .resident then
        throw ⟨.logicError, "inconsistent resident page metadata"⟩
      else do
        -- `++meta.pin_count` on a `std::uint32_t`, unchecked here
        setMeta frameId { m with pinCount := (m.pinCount + 1) % 2 ^ 32 }
        setEvictable frameId false
        let _ ← framePage frameId
        return .suspended (.writing pageId frameId m.dirtyEpoch caller .running)

omit [DecidableEq τ] in
/-- The end of `FlushPage`'s write, after `lock.lock()`. -/
def finishFlush (pageId frameId capturedDirtyEpoch : Nat) (caller : FlushCaller)
    (failure : Option Error) : Locked R τ Next :=
  match failure with
  | some e => do
      unpinFrameLocked frameId
      notifyAll
      throw e
  | none => do
      let m ← metaOf frameId
      if m.pageId = some pageId ∧ m.state = .resident ∧ m.dirtyEpoch = capturedDirtyEpoch then
        setMeta frameId { m with dirty := false }
      else pure ()
      unpinFrameLocked frameId
      notifyAll
      return flushReturn caller

omit [Replacer R] [DecidableEq τ] in
/-- The pages `FlushAllPages` collects: those of the resident, dirty frames, in
the order of the frames. -/
def dirtyPages (s : Manager R τ) : List Nat :=
  (List.range s.frameCount).filterMap fun f =>
    let m := s.frameMeta f
    if m.state = .resident ∧ m.dirty = true then m.pageId else none

omit [Replacer R] [DecidableEq τ] in
/-- `FlushAllPages`, its locked part. -/
def flushAllPages : Locked R τ Next := do
  return flushReturn (.flushAllPages (← get).dirtyPages)

/-! ## DeletePage -/

/-- `DeletePage` from the top of its loop. -/
def deletePage (t : τ) (pageId : Nat) : Locked R τ Next := do
  match ← pageState pageId with
  | .unused => return .returned .unit
  | .loading | .evicting => return .suspended (← wait t (.waitPage (.deletePage pageId)))
  | .resident => do
      let frameId ← residentFrame pageId
      let m ← metaOf frameId
      if m.pageId ≠ some pageId ∨ m.state ≠ .resident then
        throw ⟨.logicError, "inconsistent resident page metadata"⟩
      else if m.pinCount ≠ 0 then
        throw ⟨.logicError, "cannot delete a pinned page"⟩
      else do
        removeFrame frameId
        setMeta frameId {}
        freeFrame frameId
        setNonResident pageId
        freePageId pageId
        notifyAll
        return .returned .unit
  | .nonResident => do
      freePageId pageId
      notifyAll
      return .returned .unit

/-! ## Entering and re-entering a call -/

/-- The loop over `State(page_id)` of a call. -/
def visit (t : τ) : Visit → Locked R τ Next
  | .fetchPage p => fetchPage t p
  | .flushPage p caller => flushPage t p caller
  | .deletePage p => deletePage t p

/-- What a thread runs when it takes `mutex_` again at `pc`; nothing while it is
in no call or its transfer is still running. -/
def resume (t : τ) : Pc → Option (Locked R τ Next)
  | .idle => none
  | .waitPage v => some do
      wake t
      visit t v
  | .waitFrame (.newPage p) => some do
      wake t
      newPageTry p (acquireFrameLocked t (.newPage p))
  | .waitFrame (.fetchPage p) => some do
      wake t
      fetchPageWith t p (acquireFrameForFetchLocked t p)
  | .evicting (.newPage p) ev io => io.outcome.map fun failure =>
      newPageTry p do
        finishEviction ev failure
        return .frame ev.frameId
  | .evicting (.fetchPage p) ev io => io.outcome.map fun failure =>
      fetchPageWith t p do
        finishEviction ev failure
        keepIfNonResident p ev.frameId
  | .reading p f io => io.outcome.map fun failure => finishLoad p f failure
  | .writing p f epoch caller io => io.outcome.map fun failure =>
      finishFlush p f epoch caller failure
  | .nextFlush p rest => some (flushPage t p (.flushAllPages rest))

end Manager

end BufferManager
