/-
  Manager/Failures.lean --- why a call throws.

  `Fails` lists the reasons in terms of the state in which the failing piece of the
  call takes `mutex_`: a transfer that has failed, no id or no frame to hand out, a
  page in the wrong state, a pin that cannot be taken or given back.  The checks of
  the source that the structures' agreement makes idle are not among them.
-/
import BufferManager.Manager.Hazards

set_option autoImplicit false

namespace BufferManager.System

variable {R τ : Type}

/-- The loop over `State(page_id)` turns a visit away. -/
inductive Refuses (s : System R τ) : Visit → Error → Prop where
  | invalid (v : Visit) : (s.entry v.pageId).state = .unused →
      Refuses s v ⟨.outOfRange, "invalid page id"⟩
  | fetchUnused (p : Nat) : (s.entry p).state = .unused →
      Refuses s (.fetchPage p) ⟨.logicError, "cannot fetch an unused page"⟩
  | flushUnused (p : Nat) (caller : FlushCaller) : (s.entry p).state = .unused →
      Refuses s (.flushPage p caller) ⟨.logicError, "cannot flush an unused page"⟩
  | pinOverflow (p f : Nat) : s.entry p = ⟨.resident, some f⟩ →
      (s.manager.frameMeta f).pinCount = maxPinCount →
      Refuses s (.fetchPage p) ⟨.overflowError, "pin count overflow"⟩
  | deletePinned (p f : Nat) : s.entry p = ⟨.resident, some f⟩ →
      (s.manager.frameMeta f).pinCount ≠ 0 →
      Refuses s (.deletePage p) ⟨.logicError, "cannot delete a pinned page"⟩

/-- A call looks for a frame. -/
inductive Seeks (s : System R τ) : Action τ → Prop where
  | newPage (t : τ) : Seeks s (.call t .newPage)
  | fetchPage {action : Action τ} (p : Nat) : s.visits action = some (.fetchPage p) →
      (s.entry p).state = .nonResident → Seeks s action
  | again {t : τ} (a : Acquirer) : s.pc t = .waitFrame a → Seeks s (.resume t)

variable [Replacer R] [LawfulReplacer R]

/-- No frame is free, none is in transition, and the replacer has none to choose. -/
structure Full (s : System R τ) : Prop where
  allocated : ∀ f, f < s.manager.frameCount → f ∈ s.manager.frameAllocator.allocated
  settled : ∀ f, f < s.manager.frameCount → (s.manager.frameMeta f).state ≠ .loading ∧
    (s.manager.frameMeta f).state ≠ .evicting
  unevictable : CompleteReplacer R → LawfulReplacer.evictable s.manager.replacer = ∅

/-- Frame `f` has no pin to give back, or the replacer does not know it. -/
def Unpinnable (s : System R τ) (f : Nat) : Prop :=
  (s.manager.frameMeta f).state = .resident →
    (s.manager.frameMeta f).pinCount = 0 ∨ f ∉ LawfulReplacer.present s.manager.replacer

/-- The call that takes `mutex_` with this action has a reason to throw this error. -/
inductive Fails (s : System R τ) : Action τ → Error → Prop where
  /-- Its transfer has failed. -/
  | disk {t : τ} {e : Error} : (s.pc t).failure = some e → Fails s (.resume t) e
  | noIds (t : τ) : s.manager.pageTable.upcoming = [] →
      Fails s (.call t .newPage) ⟨.runtimeError, "maximum number of pages reached"⟩
  | noFrame {action : Action τ} : s.Seeks action → s.Full →
      Fails s action ⟨.runtimeError, "no frame available"⟩
  /-- A `NewPage` with a frame finds its id taken. -/
  | blocked {action : Action τ} {e : Error} : s.InstallBlocked action →
      e ∈ PageTable.setResidentErrors → Fails s action e
  | refused {action : Action τ} {v : Visit} {e : Error} : s.visits action = some v →
      s.Refuses v e → Fails s action e
  /-- `FetchPage` looks at its page again before it takes a frame. -/
  | recheck {t : τ} {p : Nat} {e : Error} : s.pc t = .waitFrame (.fetchPage p) →
      s.Refuses (.fetchPage p) e → Fails s (.resume t) e
  /-- `FetchPage` has evicted a victim in vain. -/
  | lostRace {t : τ} {p : Nat} {ev : Eviction} {e : Error} :
      s.pc t = .evicting (.fetchPage p) ev .done → s.Refuses (.fetchPage p) e →
      Fails s (.resume t) e
  | unpin {t : τ} {p f epoch : Nat} {caller : FlushCaller} {io : Io} {e : Error} :
      s.pc t = .writing p f epoch caller io → s.Unpinnable f → Fails s (.resume t) e

end BufferManager.System
