/-
  Manager/Locked.lean --- the buffer manager's fields and the functions that run
  with `mutex_` held.

  Source: `include/buffer_manager/buffer_manager.h` and the private members of
  `src/buffer_manager.cc`.

  A piece of code between two releases of `mutex_` is a program in
  `EStateM Error (Manager R τ)`: it changes the fields and may throw, and what it
  changed before throwing stays changed.  `state_changed_` is the set of threads
  asleep on it; `notify_all` empties the set.  `lock.owns_lock()` holds wherever
  the source tests it, since these programs run under the lock by construction.

  `R` is the type of the replacer and `τ` the type of threads.
-/
import BufferManager.Lib.ErrorState
import BufferManager.Page.FrameAllocator
import BufferManager.Page.PageTable
import BufferManager.Replacement.Replacer

set_option autoImplicit false

namespace BufferManager

open BufferManager.Lib

/-- `enum class BufferManager::FrameState`. -/
inductive FrameState where
  | free
  | loading
  | resident
  | evicting
  deriving DecidableEq, Repr

/-- `struct BufferManager::FrameMeta`; `pin_count` is a `std::uint32_t` and
`dirty_epoch` a `std::uint64_t`. -/
structure FrameMeta where
  pageId : Option Nat := none
  pinCount : Nat := 0
  dirty : Bool := false
  dirtyEpoch : Nat := 0
  state : FrameState := .free
  deriving DecidableEq, Repr

/-- `class PageGuard`.  `valid` is `buffer_manager_ != nullptr`; `page_` always is
the address of frame `frame_id_`'s bytes and is not kept apart. -/
structure PageGuard where
  valid : Bool := false
  pageId : Nat := 0
  frameId : Nat := 0
  deriving DecidableEq, Repr

/-- The fields of `class BufferManager` that `mutex_` protects, and the threads
asleep on `state_changed_`.  `frameCount` is `frame_meta_.size()`. -/
structure Manager (R τ : Type) where
  frameCount : Nat
  frameAllocator : FrameAllocator
  pageTable : PageTable
  replacer : R
  frameMeta : Nat → FrameMeta
  asleep : Finset τ

/-- Code that runs with `mutex_` held. -/
abbrev Locked (R τ α : Type) : Type := EStateM Error (Manager R τ) α

/-- `numeric_limits<uint32_t>::max()`, the largest pin count. -/
def maxPinCount : Nat := 2 ^ 32 - 1

namespace Manager

variable {R τ : Type}

/-! ## Calls on the members -/

/-- `frame_allocator_.AllocateFrame()`. -/
def allocateFrame : Locked R τ (Option Nat) :=
  attempt fun s => .ok (s.frameAllocator.allocateFrame.1,
    { s with frameAllocator := s.frameAllocator.allocateFrame.2 })

/-- `frame_allocator_.FreeFrame(frame_id)`. -/
def freeFrame (frameId : Nat) : Locked R τ Unit :=
  attempt fun s => do
    let fa ← s.frameAllocator.freeFrame frameId
    return ((), { s with frameAllocator := fa })

/-- `frame_allocator_.page(frame_id)`, for the check it makes. -/
def framePage (frameId : Nat) : Locked R τ Page :=
  attempt fun s => do
    let page ← s.frameAllocator.page frameId
    return (page, s)

/-- A store through the reference `frame_allocator_.page(frame_id)`. -/
def storePage (frameId : Nat) (page : Page) : Locked R τ Unit :=
  modify fun s => { s with frameAllocator := s.frameAllocator.setPage frameId page }

/-- `page_table_.AllocatePageId()`. -/
def allocatePageId : Locked R τ Nat :=
  attempt fun s => do
    let (pageId, pt) ← s.pageTable.allocatePageId
    return (pageId, { s with pageTable := pt })

/-- `page_table_.FreePageId(page_id)`. -/
def freePageId (pageId : Nat) : Locked R τ Unit :=
  attempt fun s => do
    let pt ← s.pageTable.freePageId pageId
    return ((), { s with pageTable := pt })

/-- `page_table_.State(page_id)`. -/
def pageState (pageId : Nat) : Locked R τ PageState :=
  attempt fun s => do
    let state ← s.pageTable.state pageId
    return (state, s)

/-- `*page_table_.FrameForPage(page_id)`, at the call sites, which have just seen
the page resident. -/
def residentFrame (pageId : Nat) : Locked R τ Nat :=
  attempt fun s => do
    let frame ← s.pageTable.frameForPage pageId
    return (frame.getD 0, s)

/-- `page_table_.SetLoading(page_id, frame_id)`. -/
def setLoading (pageId frameId : Nat) : Locked R τ Unit :=
  attempt fun s => do
    let pt ← s.pageTable.setLoading pageId frameId
    return ((), { s with pageTable := pt })

/-- `page_table_.SetResident(page_id, frame_id)`. -/
def setResident (pageId frameId : Nat) : Locked R τ Unit :=
  attempt fun s => do
    let pt ← s.pageTable.setResident pageId frameId
    return ((), { s with pageTable := pt })

/-- `page_table_.SetNonResident(page_id)`. -/
def setNonResident (pageId : Nat) : Locked R τ Unit :=
  attempt fun s => do
    let pt ← s.pageTable.setNonResident pageId
    return ((), { s with pageTable := pt })

/-- `page_table_.SetEvicting(page_id)`. -/
def setEvicting (pageId : Nat) : Locked R τ Unit :=
  attempt fun s => do
    let pt ← s.pageTable.setEvicting pageId
    return ((), { s with pageTable := pt })

/-- `frame_meta_[frame_id]`. -/
def metaOf (frameId : Nat) : Locked R τ FrameMeta := do
  return (← get).frameMeta frameId

/-- Assignment to `frame_meta_[frame_id]`. -/
def setMeta (frameId : Nat) (m : FrameMeta) : Locked R τ Unit :=
  modify fun s => { s with frameMeta := Function.update s.frameMeta frameId m }

/-- `state_changed_.notify_all()`. -/
def notifyAll : Locked R τ Unit :=
  modify fun s => { s with asleep := ∅ }

section Replacer

variable [Replacer R]

/-- `replacer_->RecordAccess(frame_id)`. -/
def recordAccess (frameId : Nat) : Locked R τ Unit :=
  attempt fun s => do
    let r ← Replacer.recordAccess s.replacer frameId
    return ((), { s with replacer := r })

/-- `replacer_->SetEvictable(frame_id, evictable)`. -/
def setEvictable (frameId : Nat) (evictable : Bool) : Locked R τ Unit :=
  attempt fun s => do
    let r ← Replacer.setEvictable s.replacer frameId evictable
    return ((), { s with replacer := r })

/-- `replacer_->Victim()`. -/
def victim : Locked R τ (Option Nat) :=
  attempt fun s => do
    let (choice, r) ← Replacer.victim s.replacer
    return (choice, { s with replacer := r })

/-- `replacer_->Remove(frame_id)`. -/
def removeFrame (frameId : Nat) : Locked R τ Unit :=
  attempt fun s => do
    let r ← Replacer.remove s.replacer frameId
    return ((), { s with replacer := r })

end Replacer

/-! ## The private members -/

/-- Some frame is being loaded or evicted: the test of `HasTransientFrameLocked`. -/
def hasTransient (s : Manager R τ) : Bool :=
  (List.range s.frameCount).any fun f =>
    (s.frameMeta f).state == .loading || (s.frameMeta f).state == .evicting

/-- `HasTransientFrameLocked`. -/
def hasTransientFrameLocked : Locked R τ Bool := do
  return (← get).hasTransient

/-- `MakeGuardLocked`. -/
def makeGuardLocked (pageId frameId : Nat) : Locked R τ PageGuard := do
  let _ ← framePage frameId
  return ⟨true, pageId, frameId⟩

variable [Replacer R]

/-- `PinResidentFrameLocked`. -/
def pinResidentFrameLocked (pageId frameId : Nat) : Locked R τ Unit := do
  let m ← metaOf frameId
  if m.pageId ≠ some pageId ∨ m.state ≠ .resident then
    throw ⟨.logicError, "inconsistent resident page metadata"⟩
  else if m.pinCount = maxPinCount then
    throw ⟨.overflowError, "pin count overflow"⟩
  else do
    setMeta frameId { m with pinCount := m.pinCount + 1 }
    recordAccess frameId
    setEvictable frameId false

/-- `UnpinFrameLocked`. -/
def unpinFrameLocked (frameId : Nat) : Locked R τ Unit := do
  let m ← metaOf frameId
  if m.state ≠ .resident then
    throw ⟨.logicError, "cannot unpin a nonresident frame"⟩
  else if m.pinCount = 0 then
    throw ⟨.logicError, "pin count underflow"⟩
  else do
    setMeta frameId { m with pinCount := m.pinCount - 1 }
    if m.pinCount - 1 = 0 then setEvictable frameId true else pure ()

/-- `DropPageGuard`. -/
def dropPageGuard (pageId frameId : Nat) : Locked R τ Unit := do
  let m ← metaOf frameId
  if m.pageId ≠ some pageId then
    throw ⟨.logicError, "page guard refers to the wrong page"⟩
  else do
    unpinFrameLocked frameId
    notifyAll

omit [Replacer R] in
/-- `MarkDirty`; `dirty_epoch` wraps at `2 ^ 64`. -/
def markDirty (pageId frameId : Nat) : Locked R τ Unit := do
  let m ← metaOf frameId
  if m.pageId ≠ some pageId ∨ m.state ≠ .resident then
    throw ⟨.logicError, "cannot mark a nonresident page dirty"⟩
  else
    setMeta frameId { m with dirty := true, dirtyEpoch := (m.dirtyEpoch + 1) % 2 ^ 64 }

/-- `RestoreEvictedFrameLocked`. -/
def restoreEvictedFrameLocked (frameId pageId : Nat) (dirty : Bool) (dirtyEpoch : Nat) :
    Locked R τ Unit := do
  let state ← pageState pageId
  if state = .evicting then do
    setNonResident pageId
    setResident pageId frameId
  else pure ()
  setMeta frameId ⟨some pageId, 0, dirty, dirtyEpoch, .resident⟩
  recordAccess frameId
  setEvictable frameId true

end Manager

end BufferManager
