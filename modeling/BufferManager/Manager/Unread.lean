/-
  Manager/Unread.lean --- what runs under `mutex_` does not look at the bytes in the frames.

  `AgreeOff U m m'` says of two managers that they differ in nothing but the bytes in frames
  of `U`.  Every piece of a call ends in the same way from both, and leaves managers that
  again differ in nothing else: one lemma for each function, in the order of the source.
-/
import BufferManager.Lib.Relational
import BufferManager.Manager.System

set_option autoImplicit false

namespace BufferManager

open BufferManager.Lib

/-! ## Frames -/

namespace FrameAllocator

/-- The allocators differ in nothing but the bytes in frames of `U`. -/
structure AgreeOff (U : Set Nat) (fa fa' : FrameAllocator) : Prop where
  frameCount : fa.frameCount = fa'.frameCount
  allocatedCount : fa.allocatedCount = fa'.allocatedCount
  nextSearchWord : fa.nextSearchWord = fa'.nextSearchWord
  allocationBitmap : fa.allocationBitmap = fa'.allocationBitmap
  frames : ∀ f, f ∉ U → fa.frames f = fa'.frames f

variable {U : Set Nat} {fa fa' : FrameAllocator}

/-- The other allocator is this one with other bytes. -/
theorem AgreeOff.eq (h : AgreeOff U fa fa') : fa' = { fa with frames := fa'.frames } := by
  cases fa
  cases fa'
  obtain ⟨rfl, rfl, rfl, rfl, -⟩ := h
  rfl

theorem findWord_frames (fa : FrameAllocator) (frames : Nat → Page) (remaining probe : Nat) :
    { fa with frames }.findWord remaining probe = fa.findWord remaining probe := by
  induction remaining generalizing probe with
  | zero => rfl
  | succ remaining ih =>
    rw [findWord, findWord, ih]
    rfl

theorem allocateFrame_frames (fa : FrameAllocator) (frames : Nat → Page) :
    { fa with frames }.allocateFrame =
      (fa.allocateFrame.1, { fa.allocateFrame.2 with frames }) := by
  unfold allocateFrame
  dsimp only
  rw [findWord_frames]
  split
  · rfl
  · cases fa.findWord fa.allocationBitmap.length 0 <;> rfl

theorem allocateFrame_same_frames (fa : FrameAllocator) :
    fa.allocateFrame.2.frames = fa.frames := by
  unfold allocateFrame
  split
  · rfl
  · cases fa.findWord fa.allocationBitmap.length 0 <;> rfl

theorem AgreeOff.allocateFrame (h : AgreeOff U fa fa') :
    fa.allocateFrame.1 = fa'.allocateFrame.1 ∧
      AgreeOff U fa.allocateFrame.2 fa'.allocateFrame.2 := by
  have hother := allocateFrame_frames fa fa'.frames
  rw [← h.eq] at hother
  rw [hother]
  refine ⟨rfl, rfl, rfl, rfl, rfl, fun f hf => ?_⟩
  rw [allocateFrame_same_frames]
  exact h.frames f hf

/-- Frames in which the same bytes are stored agree there. -/
theorem AgreeOff.setPage (h : AgreeOff U fa fa') (f : Nat) (page : Page) :
    AgreeOff U (fa.setPage f page) (fa'.setPage f page) := by
  refine { h with frames := fun g hg => ?_ }
  unfold FrameAllocator.setPage
  dsimp only
  by_cases hgf : g = f
  · rw [hgf, Function.update_self, Function.update_self]
  · rw [Function.update_of_ne hgf, Function.update_of_ne hgf, h.frames g hg]

theorem AgreeOff.validate (h : AgreeOff U fa fa') (f : Nat) :
    fa.validateAllocatedFrameId f = fa'.validateAllocatedFrameId f := by
  rw [h.eq]
  rfl

theorem AgreeOff.freeFrame (h : AgreeOff U fa fa') (f : Nat) :
    (∃ e, fa.freeFrame f = .error e ∧ fa'.freeFrame f = .error e) ∨
      ∃ x x', fa.freeFrame f = .ok x ∧ fa'.freeFrame f = .ok x' ∧ AgreeOff U x x' := by
  have hvalid := h.validate f
  unfold FrameAllocator.freeFrame
  cases hcheck : fa.validateAllocatedFrameId f with
  | error e =>
    rw [← hvalid, hcheck]
    exact Or.inl ⟨e, rfl, rfl⟩
  | ok u =>
    rw [← hvalid, hcheck]
    refine Or.inr ⟨_, _, rfl, rfl, h.frameCount, ?_, rfl, ?_, h.frames⟩
    · dsimp only
      rw [h.allocatedCount]
    · dsimp only
      rw [word, word, h.allocationBitmap]

theorem AgreeOff.page (h : AgreeOff U fa fa') (f : Nat) :
    (∃ e, fa.page f = .error e ∧ fa'.page f = .error e) ∨
      ∃ x x', fa.page f = .ok x ∧ fa'.page f = .ok x' := by
  have hvalid := h.validate f
  unfold FrameAllocator.page
  cases hcheck : fa.validateAllocatedFrameId f with
  | error e =>
    rw [← hvalid, hcheck]
    exact Or.inl ⟨e, rfl, rfl⟩
  | ok u =>
    rw [← hvalid, hcheck]
    exact Or.inr ⟨_, _, rfl, rfl⟩

end FrameAllocator

namespace Manager

variable {R τ : Type} {U : Set Nat} {α : Type}

/-- The managers differ in nothing but the bytes in frames of `U`. -/
structure AgreeOff (U : Set Nat) (m m' : Manager R τ) : Prop where
  frameCount : m.frameCount = m'.frameCount
  frameAllocator : m.frameAllocator.AgreeOff U m'.frameAllocator
  pageTable : m.pageTable = m'.pageTable
  replacer : m.replacer = m'.replacer
  frameMeta : m.frameMeta = m'.frameMeta
  asleep : m.asleep = m'.asleep

theorem AgreeOff.refl (m : Manager R τ) : AgreeOff U m m :=
  ⟨rfl, ⟨rfl, rfl, rfl, rfl, fun _ _ => rfl⟩, rfl, rfl, rfl, rfl⟩

theorem AgreeOff.mono {U' : Set Nat} {m m' : Manager R τ} (h : AgreeOff U m m') (hU : U ⊆ U') :
    AgreeOff U' m m' :=
  { h with frameAllocator := { h.frameAllocator with
      frames := fun f hf => h.frameAllocator.frames f fun hx => hf (hU hx) } }

/-- What `x` does does not depend on the bytes in frames, whichever they are. -/
abbrev Unread (U : Set Nat) (x : Locked R τ α) : Prop := Respects (AgreeOff U) x

/-! ## Calls on the members -/

theorem unread_allocateFrame : Unread U (allocateFrame : Locked R τ (Option Nat)) := by
  intro m m' h
  obtain ⟨hframe, hallocator⟩ := h.frameAllocator.allocateFrame
  exact ⟨hframe, { h with frameAllocator := hallocator }⟩

theorem unread_freeFrame (f : Nat) : Unread U (freeFrame f : Locked R τ Unit) := by
  intro m m' h
  unfold freeFrame attempt
  dsimp only
  rcases h.frameAllocator.freeFrame f with ⟨e, he, he'⟩ | ⟨fa, fa', hfa, hfa', hagree⟩
  · rw [he, he']
    exact ⟨rfl, h⟩
  · rw [hfa, hfa']
    exact ⟨rfl, { h with frameAllocator := hagree }⟩

/-- The page that the check gives back is not looked at. -/
theorem agree_framePage (f : Nat) :
    Agree (AgreeOff U) (fun _ _ => True) (framePage f : Locked R τ Page) (framePage f) := by
  intro m m' h
  unfold framePage attempt
  dsimp only
  rcases h.frameAllocator.page f with ⟨e, he, he'⟩ | ⟨x, x', hx, hx'⟩
  · rw [he, he']
    exact ⟨rfl, h⟩
  · rw [hx, hx']
    exact ⟨trivial, h⟩

theorem unread_storePage (f : Nat) (page : Page) :
    Unread U (storePage f page : Locked R τ Unit) :=
  .modify fun _ _ h => { h with frameAllocator := h.frameAllocator.setPage f page }

theorem unread_allocatePageId : Unread U (allocatePageId : Locked R τ Nat) :=
  .attempt_bind (fun _ _ h => by rw [h.pageTable])
    fun _ _ c h => ⟨c.1, _, _, rfl, rfl, { h with pageTable := rfl }⟩

theorem unread_freePageId (p : Nat) : Unread U (freePageId p : Locked R τ Unit) :=
  .attempt_bind (fun _ _ h => by rw [h.pageTable])
    fun _ _ _ h => ⟨(), _, _, rfl, rfl, { h with pageTable := rfl }⟩

theorem unread_pageState (p : Nat) : Unread U (pageState p : Locked R τ PageState) :=
  .attempt_bind (fun _ _ h => by rw [h.pageTable]) fun _ _ c h => ⟨c, _, _, rfl, rfl, h⟩

theorem unread_residentFrame (p : Nat) : Unread U (residentFrame p : Locked R τ Nat) :=
  .attempt_bind (fun _ _ h => by rw [h.pageTable]) fun _ _ c h => ⟨c.getD 0, _, _, rfl, rfl, h⟩

theorem unread_setLoading (p f : Nat) : Unread U (setLoading p f : Locked R τ Unit) :=
  .attempt_bind (fun _ _ h => by rw [h.pageTable])
    fun _ _ _ h => ⟨(), _, _, rfl, rfl, { h with pageTable := rfl }⟩

theorem unread_setResident (p f : Nat) : Unread U (setResident p f : Locked R τ Unit) :=
  .attempt_bind (fun _ _ h => by rw [h.pageTable])
    fun _ _ _ h => ⟨(), _, _, rfl, rfl, { h with pageTable := rfl }⟩

theorem unread_setNonResident (p : Nat) : Unread U (setNonResident p : Locked R τ Unit) :=
  .attempt_bind (fun _ _ h => by rw [h.pageTable])
    fun _ _ _ h => ⟨(), _, _, rfl, rfl, { h with pageTable := rfl }⟩

theorem unread_setEvicting (p : Nat) : Unread U (setEvicting p : Locked R τ Unit) :=
  .attempt_bind (fun _ _ h => by rw [h.pageTable])
    fun _ _ _ h => ⟨(), _, _, rfl, rfl, { h with pageTable := rfl }⟩

theorem unread_metaOf (f : Nat) : Unread U (metaOf f : Locked R τ FrameMeta) :=
  .view fun _ _ h => by rw [h.frameMeta]

theorem unread_setMeta (f : Nat) (w : FrameMeta) : Unread U (setMeta f w : Locked R τ Unit) :=
  .modify fun _ _ h => { h with frameMeta := by rw [h.frameMeta] }

theorem unread_notifyAll : Unread U (notifyAll : Locked R τ Unit) :=
  .modify fun _ _ h => { h with asleep := rfl }

theorem unread_hasTransientFrameLocked :
    Unread U (hasTransientFrameLocked : Locked R τ Bool) :=
  .view fun _ _ h => by rw [hasTransient, hasTransient, h.frameCount, h.frameMeta]

theorem unread_makeGuardLocked (p f : Nat) :
    Unread U (makeGuardLocked p f : Locked R τ PageGuard) :=
  .bind_unread (agree_framePage f) (.pure _)

section Replacer

variable [Replacer R]

theorem unread_recordAccess (f : Nat) : Unread U (recordAccess f : Locked R τ Unit) :=
  .attempt_bind (fun _ _ h => by rw [h.replacer])
    fun _ _ _ h => ⟨(), _, _, rfl, rfl, { h with replacer := rfl }⟩

theorem unread_setEvictable (f : Nat) (b : Bool) :
    Unread U (setEvictable f b : Locked R τ Unit) :=
  .attempt_bind (fun _ _ h => by rw [h.replacer])
    fun _ _ _ h => ⟨(), _, _, rfl, rfl, { h with replacer := rfl }⟩

theorem unread_victim : Unread U (victim : Locked R τ (Option Nat)) :=
  .attempt_bind (fun _ _ h => by rw [h.replacer])
    fun _ _ c h => ⟨c.1, _, _, rfl, rfl, { h with replacer := rfl }⟩

theorem unread_removeFrame (f : Nat) : Unread U (removeFrame f : Locked R τ Unit) :=
  .attempt_bind (fun _ _ h => by rw [h.replacer])
    fun _ _ _ h => ⟨(), _, _, rfl, rfl, { h with replacer := rfl }⟩

end Replacer

/-! ## The private members -/

variable [Replacer R]

theorem unread_pinResidentFrameLocked (p f : Nat) :
    Unread U (pinResidentFrameLocked p f : Locked R τ Unit) :=
  .bind (unread_metaOf f) fun _ =>
    .ite (fun _ => .throw _) fun _ =>
      .ite (fun _ => .throw _) fun _ =>
        .bind (unread_setMeta f _) fun _ =>
          .bind (unread_recordAccess f) fun _ => unread_setEvictable f false

theorem unread_unpinFrameLocked (f : Nat) : Unread U (unpinFrameLocked f : Locked R τ Unit) :=
  .bind (unread_metaOf f) fun _ =>
    .ite (fun _ => .throw _) fun _ =>
      .ite (fun _ => .throw _) fun _ =>
        .bind (unread_setMeta f _) fun _ =>
          .ite (fun _ => unread_setEvictable f true) fun _ => .pure ()

theorem unread_dropPageGuard (p f : Nat) : Unread U (dropPageGuard p f : Locked R τ Unit) :=
  .bind (unread_metaOf f) fun _ =>
    .ite (fun _ => .throw _) fun _ =>
      .bind (unread_unpinFrameLocked f) fun _ => unread_notifyAll

omit [Replacer R] in
theorem unread_markDirty (p f : Nat) : Unread U (markDirty p f : Locked R τ Unit) :=
  .bind (unread_metaOf f) fun _ =>
    .ite (fun _ => .throw _) fun _ => unread_setMeta f _

theorem unread_restoreEvictedFrameLocked (f p : Nat) (dirty : Bool) (epoch : Nat) :
    Unread U (restoreEvictedFrameLocked f p dirty epoch : Locked R τ Unit) := by
  have hrest : Unread U (do
      setMeta f ⟨some p, 0, dirty, epoch, .resident⟩
      recordAccess f
      setEvictable f true : Locked R τ Unit) :=
    .bind (unread_setMeta f _) fun _ => .bind (unread_recordAccess f) fun _ =>
      unread_setEvictable f true
  refine .bind (unread_pageState p) fun _ => .ite (fun _ => ?_) fun _ => hrest
  exact .bind (unread_setNonResident p) fun _ => .bind (unread_setResident p f) fun _ => hrest

/-! ## Acquiring a frame -/

variable [DecidableEq τ]

omit [Replacer R] in
theorem unread_wait (t : τ) (pc : Pc) : Unread U (wait t pc : Locked R τ Pc) :=
  .bind (.modify fun _ _ h => { h with asleep := by rw [h.asleep] }) fun _ => .pure pc

omit [Replacer R] in
theorem unread_wake (t : τ) : Unread U (wake t : Locked R τ Unit) :=
  .modify fun _ _ h => { h with asleep := by rw [h.asleep] }

omit [Replacer R] [DecidableEq τ] in
theorem unread_beginEviction (f : Nat) : Unread U (beginEviction f : Locked R τ Eviction) := by
  refine .bind (unread_metaOf f) fun m => ?_
  cases m.pageId with
  | none => exact .throw _
  | some p =>
    refine .ite (fun _ => .throw _) fun _ => .ite (fun _ => .throw _) fun _ => ?_
    exact .bind (unread_setEvicting p) fun _ => .bind (unread_setMeta f _) fun _ =>
      .bind_unread (agree_framePage f) (.pure _)

theorem unread_acquireFrameLocked (t : τ) (a : Acquirer) :
    Unread U (acquireFrameLocked t a : Locked R τ Acquired) := by
  refine .bind unread_allocateFrame fun frame => ?_
  cases frame with
  | some f => exact .pure _
  | none =>
    refine .bind unread_victim fun choice => ?_
    cases choice with
    | some f => exact .bind (unread_beginEviction f) fun _ => .pure _
    | none =>
      refine .bind unread_hasTransientFrameLocked fun _ => .ite (fun _ => ?_) fun _ => ?_
      · exact .bind (unread_wait t _) fun _ => .pure _
      · exact .throw _

theorem unread_acquireFrameForFetchLocked (t : τ) (p : Nat) :
    Unread U (acquireFrameForFetchLocked t p : Locked R τ (Option Acquired)) :=
  .bind (unread_pageState p) fun _ =>
    .ite (fun _ => .pure none) fun _ =>
      .bind (unread_acquireFrameLocked t (.fetchPage p)) fun _ => .pure _

omit [DecidableEq τ] in
theorem unread_finishEviction (ev : Eviction) (failure : Option Error) :
    Unread U (finishEviction ev failure : Locked R τ Unit) := by
  cases failure with
  | some e =>
    exact .bind (unread_restoreEvictedFrameLocked _ _ _ _) fun _ =>
      .bind unread_notifyAll fun _ => .throw e
  | none =>
    exact .bind (unread_setNonResident _) fun _ => .bind (unread_setMeta _ _) fun _ =>
      unread_notifyAll

omit [Replacer R] [DecidableEq τ] in
theorem unread_keepIfNonResident (p f : Nat) :
    Unread U (keepIfNonResident p f : Locked R τ (Option Acquired)) :=
  .bind (unread_pageState p) fun _ =>
    .ite (fun _ => .pure _) fun _ =>
      .bind (unread_freeFrame f) fun _ => .bind unread_notifyAll fun _ => .pure none

/-! ## NewPage -/

omit [DecidableEq τ] in
theorem unread_installNewPage (p f : Nat) :
    Unread U (installNewPage p f : Locked R τ Next) :=
  .bind_unread (agree_framePage f) <| .bind (unread_storePage f Page.zero) fun _ =>
    .bind (unread_setMeta f _) fun _ => .bind (unread_setResident p f) fun _ =>
      .bind (unread_recordAccess f) fun _ => .bind (unread_setEvictable f false) fun _ =>
        .bind unread_notifyAll fun _ => .bind (unread_makeGuardLocked p f) fun _ => .pure _

omit [Replacer R] [DecidableEq τ] in
theorem unread_newPageHandler (p : Nat) (e : Error) :
    Unread U (newPageHandler p e : Locked R τ Next) := by
  have hrest : Unread U (do
      notifyAll
      throw e : Locked R τ Next) := .bind unread_notifyAll fun _ => .throw e
  exact .bind (unread_pageState p) fun _ =>
    .ite (fun _ => .bind (unread_freePageId p) fun _ => hrest) fun _ => hrest

omit [DecidableEq τ] in
theorem unread_newPageTry (p : Nat) {acquire : Locked R τ Acquired} (h : Unread U acquire) :
    Unread U (newPageTry p acquire : Locked R τ Next) := by
  refine .tryCatch (.bind h fun acquired => ?_) (unread_newPageHandler p)
  cases acquired with
  | frame f => exact unread_installNewPage p f
  | suspended pc => exact .pure _

theorem unread_newPage (t : τ) : Unread U (newPage t : Locked R τ Next) :=
  .bind unread_allocatePageId fun p =>
    unread_newPageTry p (unread_acquireFrameLocked t (.newPage p))

/-! ## FetchPage -/

omit [Replacer R] [DecidableEq τ] in
theorem unread_beginLoad (p f : Nat) : Unread U (beginLoad p f : Locked R τ Next) :=
  .bind (unread_setLoading p f) fun _ => .bind (unread_setMeta f _) fun _ =>
    .bind_unread (agree_framePage f) (.pure _)

theorem unread_fetchLoop (t : τ) (p turns : Nat) :
    Unread U (fetchLoop t p turns : Locked R τ Next) := by
  induction turns with
  | zero => exact .pure _
  | succ turns ih =>
    refine .bind (unread_pageState p) fun state => ?_
    cases state with
    | unused => exact .throw _
    | resident =>
      exact .bind (unread_residentFrame p) fun f =>
        .bind (unread_pinResidentFrameLocked p f) fun _ =>
          .bind (unread_makeGuardLocked p f) fun _ => .pure _
    | loading | evicting => exact .bind (unread_wait t _) fun _ => .pure _
    | nonResident =>
      refine .bind (unread_acquireFrameForFetchLocked t p) fun acquired => ?_
      rcases acquired with - | f | pc
      · exact ih
      · exact unread_beginLoad p f
      · exact .pure _

theorem unread_fetchPageWith (t : τ) (p : Nat) {acquire : Locked R τ (Option Acquired)}
    (h : Unread U acquire) : Unread U (fetchPageWith t p acquire : Locked R τ Next) := by
  refine .bind h fun acquired => ?_
  rcases acquired with - | f | pc
  · exact unread_fetchLoop t p 1
  · exact unread_beginLoad p f
  · exact .pure _

omit [DecidableEq τ] in
theorem unread_finishLoad (p f : Nat) (failure : Option Error) :
    Unread U (finishLoad p f failure : Locked R τ Next) := by
  cases failure with
  | some e =>
    exact .bind (unread_setMeta f _) fun _ => .bind (unread_freeFrame f) fun _ =>
      .bind (unread_setNonResident p) fun _ => .bind unread_notifyAll fun _ => .throw e
  | none =>
    exact .bind (unread_metaOf f) fun m => .bind (unread_setMeta f _) fun _ =>
      .bind (unread_setResident p f) fun _ => .bind (unread_recordAccess f) fun _ =>
        .bind (unread_setEvictable f false) fun _ => .bind unread_notifyAll fun _ =>
          .bind (unread_makeGuardLocked p f) fun _ => .pure _

/-! ## FlushPage, FlushAllPages and DeletePage -/

theorem unread_flushPage (t : τ) (p : Nat) (caller : FlushCaller) :
    Unread U (flushPage t p caller : Locked R τ Next) := by
  refine .bind (unread_pageState p) fun state => ?_
  cases state with
  | unused => exact .throw _
  | nonResident => exact .pure _
  | loading | evicting => exact .bind (unread_wait t _) fun _ => .pure _
  | resident =>
    refine .bind (unread_residentFrame p) fun f => .bind (unread_metaOf f) fun m => ?_
    refine .ite (fun _ => .pure _) fun _ => .ite (fun _ => .throw _) fun _ => ?_
    exact .bind (unread_setMeta f _) fun _ => .bind (unread_setEvictable f false) fun _ =>
      .bind_unread (agree_framePage f) (.pure _)

omit [DecidableEq τ] in
theorem unread_finishFlush (p f epoch : Nat) (caller : FlushCaller) (failure : Option Error) :
    Unread U (finishFlush p f epoch caller failure : Locked R τ Next) := by
  cases failure with
  | some e =>
    exact .bind (unread_unpinFrameLocked f) fun _ => .bind unread_notifyAll fun _ => .throw e
  | none =>
    have hrest : Unread U (do
        unpinFrameLocked f
        notifyAll
        return flushReturn caller : Locked R τ Next) :=
      .bind (unread_unpinFrameLocked f) fun _ => .bind unread_notifyAll fun _ => .pure _
    exact .bind (unread_metaOf f) fun _ =>
      .ite (fun _ => .bind (unread_setMeta f _) fun _ => hrest) fun _ => hrest

omit [Replacer R] [DecidableEq τ] in
theorem unread_flushAllPages : Unread U (flushAllPages : Locked R τ Next) :=
  .view fun _ _ h => by rw [dirtyPages, dirtyPages, h.frameCount, h.frameMeta]

theorem unread_deletePage (t : τ) (p : Nat) : Unread U (deletePage t p : Locked R τ Next) := by
  refine .bind (unread_pageState p) fun state => ?_
  cases state with
  | unused => exact .pure _
  | loading | evicting => exact .bind (unread_wait t _) fun _ => .pure _
  | resident =>
    refine .bind (unread_residentFrame p) fun f => .bind (unread_metaOf f) fun m => ?_
    refine .ite (fun _ => .throw _) fun _ => .ite (fun _ => .throw _) fun _ => ?_
    exact .bind (unread_removeFrame f) fun _ => .bind (unread_setMeta f _) fun _ =>
      .bind (unread_freeFrame f) fun _ => .bind (unread_setNonResident p) fun _ =>
        .bind (unread_freePageId p) fun _ => .bind unread_notifyAll fun _ => .pure _
  | nonResident =>
    exact .bind (unread_freePageId p) fun _ => .bind unread_notifyAll fun _ => .pure _

/-! ## Entering and re-entering a call -/

theorem unread_visit (t : τ) (v : Visit) : Unread U (visit t v : Locked R τ Next) := by
  cases v with
  | fetchPage p => exact unread_fetchLoop t p 1
  | flushPage p caller => exact unread_flushPage t p caller
  | deletePage p => exact unread_deletePage t p

theorem unread_resume {t : τ} {pc : Pc} {piece : Locked R τ Next}
    (h : resume t pc = some piece) : Unread U piece := by
  have hended : ∀ {io : Io} {x : Option Error → Locked R τ Next},
      (∀ failure, Unread U (x failure)) →
      io.outcome.map x = some piece → Unread U piece := by
    intro io x hx hmap
    obtain ⟨failure, -, rfl⟩ := Option.map_eq_some_iff.mp hmap
    exact hx failure
  cases pc with
  | idle => cases h
  | waitPage v =>
    obtain rfl := Option.some.inj h
    exact .bind (unread_wake t) fun _ => unread_visit t v
  | waitFrame a =>
    cases a with
    | newPage p =>
      obtain rfl := Option.some.inj h
      exact .bind (unread_wake t) fun _ => unread_newPageTry p (unread_acquireFrameLocked t _)
    | fetchPage p =>
      obtain rfl := Option.some.inj h
      exact .bind (unread_wake t) fun _ =>
        unread_fetchPageWith t p (unread_acquireFrameForFetchLocked t p)
  | evicting a ev io =>
    cases a with
    | newPage p =>
      exact hended (fun failure => unread_newPageTry p
        (.bind (unread_finishEviction ev failure) fun _ => .pure _)) h
    | fetchPage p =>
      exact hended (fun failure => unread_fetchPageWith t p
        (.bind (unread_finishEviction ev failure) fun _ => unread_keepIfNonResident p _)) h
  | reading p f io => exact hended (unread_finishLoad p f) h
  | writing p f epoch caller io => exact hended (unread_finishFlush p f epoch caller) h
  | nextFlush p rest =>
    obtain rfl := Option.some.inj h
    exact unread_flushPage t p _

theorem unread_start (t : τ) (call : Call) :
    Unread U (System.start t call : Locked R τ Next) := by
  cases call with
  | newPage => exact unread_newPage t
  | fetchPage p => exact unread_visit t (.fetchPage p)
  | flushPage p => exact unread_visit t (.flushPage p .flushPage)
  | flushAllPages => exact unread_flushAllPages
  | deletePage p => exact unread_visit t (.deletePage p)

end Manager

/-! ## The system -/

/-- The step looks at bytes of pages, or changes some, without `mutex_`. -/
def Action.movesBytes {τ : Type} : Action τ → Bool
  | .transfer _ | .failRead _ _ _ | .failWrite _ _ _ | .read _ | .write _ _ => true
  | _ => false

namespace System

variable {R τ : Type} {U : Set Nat}

/-- The systems differ in nothing but the bytes on disk and in frames of `U`. -/
structure AgreeOff (U : Set Nat) (s s' : System R τ) : Prop where
  manager : s.manager.AgreeOff U s'.manager
  pc : s.pc = s'.pc
  guards : s.guards = s'.guards

variable {s s' : System R τ}

theorem AgreeOff.symm (h : AgreeOff U s s') :
    AgreeOff U s' s := by
  obtain ⟨⟨hcount, ⟨ha, hb, hc, hd, hframes⟩, htable, hreplacer, hmeta, hasleep⟩, hpc, hguards⟩ := h
  exact ⟨⟨hcount.symm, ⟨ha.symm, hb.symm, hc.symm, hd.symm, fun f hf => (hframes f hf).symm⟩,
    htable.symm, hreplacer.symm, hmeta.symm, hasleep.symm⟩, hpc.symm, hguards.symm⟩

theorem AgreeOff.setGuard (h : AgreeOff U s s') (slot : Nat) (g : PageGuard) :
    AgreeOff U (s.setGuard slot g) (s'.setGuard slot g) :=
  { h with guards := congrArg (fun l : List PageGuard => l.set slot g) h.guards }

theorem AgreeOff.setBytes (h : AgreeOff U s s') (f : Nat) (page : Page) :
    AgreeOff U (s.setBytes f page) (s'.setBytes f page) :=
  { h with manager := { h.manager with
      frameAllocator := h.manager.frameAllocator.setPage f page } }

theorem AgreeOff.setDisk (h : AgreeOff U s s') (p q : Nat) (page page' : Page) :
    AgreeOff U (s.setDisk p page) (s'.setDisk q page') :=
  ⟨h.manager, h.pc, h.guards⟩

theorem AgreeOff.setPc [DecidableEq τ] (h : AgreeOff U s s') (t : τ) (pc : Pc) :
    AgreeOff U (s.setPc t pc) (s'.setPc t pc) :=
  { h with pc := congrArg (fun pc₀ : τ → Pc => Function.update pc₀ t pc) h.pc }

/-- A piece of a call ends in the same way in both. -/
theorem AgreeOff.settle [DecidableEq τ] (h : AgreeOff U s s') (t : τ) {piece : Locked R τ Next}
    (hpiece : Manager.Unread U piece) :
    (s.settle t piece).2 = (s'.settle t piece).2 ∧
      AgreeOff U (s.settle t piece).1 (s'.settle t piece).1 := by
  have hend := hpiece s.manager s'.manager h.manager
  cases hp : piece s.manager with
  | ok next m =>
    obtain ⟨m', hp', hm⟩ := hend.ok hp
    cases next with
    | suspended pc =>
      rw [settle_suspended hp, settle_suspended hp']
      exact ⟨rfl, hm, by rw [h.pc], h.guards⟩
    | returned r =>
      cases r with
      | unit =>
        rw [settle_unit hp, settle_unit hp']
        exact ⟨rfl, hm, by rw [h.pc], h.guards⟩
      | guard g =>
        rw [settle_guard hp, settle_guard hp']
        exact ⟨rfl, hm, by rw [h.pc], by rw [h.guards]⟩
  | error e m =>
    obtain ⟨m', hp', hm⟩ := hend.error hp
    rw [settle_error hp, settle_error hp']
    exact ⟨rfl, hm, by rw [h.pc], h.guards⟩

theorem AgreeOff.markGuard (h : AgreeOff U s s') (g : PageGuard) :
    (s.markGuard g).2 = (s'.markGuard g).2 ∧ AgreeOff U (s.markGuard g).1 (s'.markGuard g).1 := by
  unfold System.markGuard
  split
  · have hend := Manager.unread_markDirty (U := U) g.pageId g.frameId s.manager s'.manager h.manager
    cases hp : Manager.markDirty g.pageId g.frameId s.manager with
    | ok u m =>
      obtain ⟨m', hp', hm⟩ := hend.ok hp
      rw [hp']
      exact ⟨rfl, { h with manager := hm }⟩
    | error e m =>
      obtain ⟨m', hp', hm⟩ := hend.error hp
      rw [hp']
      exact ⟨rfl, { h with manager := hm }⟩
  · exact ⟨rfl, h⟩

variable [Replacer R]

theorem AgreeOff.dropGuard (h : AgreeOff U s s') (slot : Nat) (g : PageGuard) :
    (s.dropGuard slot g).2 = (s'.dropGuard slot g).2 ∧
      AgreeOff U (s.dropGuard slot g).1 (s'.dropGuard slot g).1 := by
  unfold System.dropGuard
  split
  · have hempty := h.setGuard slot {}
    have hend := Manager.unread_dropPageGuard (U := U) g.pageId g.frameId _ _ hempty.manager
    dsimp only
    cases hp : Manager.dropPageGuard g.pageId g.frameId (s.setGuard slot {}).manager with
    | ok u m =>
      obtain ⟨m', hp', hm⟩ := hend.ok hp
      rw [hp']
      exact ⟨rfl, { hempty with manager := hm }⟩
    | error e m =>
      obtain ⟨m', hp', hm⟩ := hend.error hp
      rw [hp']
      exact ⟨rfl, { hempty with manager := hm }⟩
  · exact ⟨rfl, h⟩

/-- What is done with `mutex_` held, or to guards alone, is done in the same way in both. -/
theorem AgreeOff.step [DecidableEq τ] (h : AgreeOff U s s') {action : Action τ}
    (haction : action.movesBytes = false) {s₁ : System R τ} {out : Outcome}
    (hstep : s.step action = some (s₁, out)) :
    ∃ s₁', s'.step action = some (s₁', out) ∧ AgreeOff U s₁ s₁' := by
  have hsame : ∀ {x x' : System R τ × Outcome}, x.2 = x'.2 ∧ AgreeOff U x.1 x'.1 → x = (s₁, out) →
      ∃ s₁', some x' = some (s₁', out) ∧ AgreeOff U s₁ s₁' := by
    rintro x ⟨s₂, out'⟩ ⟨hout, hagree⟩ rfl
    obtain rfl : out = out' := hout
    exact ⟨s₂, rfl, hagree⟩
  have hslot : ∀ {slot : Nat} {k k' : PageGuard → System R τ × Outcome},
      s.guards[slot]?.map k = some (s₁, out) →
      (∀ g, (k g).2 = (k' g).2 ∧ AgreeOff U (k g).1 (k' g).1) →
      ∃ s₁', s'.guards[slot]?.map k' = some (s₁', out) ∧ AgreeOff U s₁ s₁' := by
    intro slot k k' hmap hk
    obtain ⟨g, hg, heq⟩ := Option.map_eq_some_iff.mp hmap
    rw [← h.guards, hg]
    exact hsame (hk g) heq
  cases action with
  | transfer | failRead | failWrite | read | write => cases haction
  | call t call =>
    simp only [System.step] at hstep ⊢
    rw [← h.pc]
    split at hstep
    · next hidle =>
      rw [if_pos hidle]
      exact hsame (h.settle t (Manager.unread_start t call)) (Option.some.inj hstep)
    · cases hstep
  | resume t =>
    obtain ⟨piece, hpiece, hsettle⟩ := Option.map_eq_some_iff.mp hstep
    simp only [System.step]
    rw [← h.pc, hpiece]
    exact hsame (h.settle t (Manager.unread_resume hpiece)) hsettle
  | markDirty slot => exact hslot hstep h.markGuard
  | drop slot | destroy slot =>
    refine hslot hstep fun g => ?_
    obtain ⟨hfailure, hagree⟩ := h.dropGuard slot g
    cases hdrop : s.dropGuard slot g with
    | mk s₂ failure =>
      cases hdrop' : s'.dropGuard slot g with
      | mk s₂' failure' =>
        rw [hdrop, hdrop'] at hfailure hagree
        obtain rfl : failure = failure' := hfailure
        cases failure <;> exact ⟨rfl, hagree⟩
  | moveConstruct slot =>
    refine hslot hstep fun g => ⟨rfl, h.manager, h.pc, ?_⟩
    dsimp only
    rw [h.guards]
  | moveAssign slot source =>
    simp only [System.step] at hstep ⊢
    rw [← h.guards]
    split at hstep
    · next g g' _ _ =>
      split at hstep
      · next hself =>
        rw [if_pos hself]
        exact hsame (x := (s, .returned .unit)) ⟨rfl, h⟩ (Option.some.inj hstep)
      · next hother =>
        rw [if_neg hother]
        obtain ⟨hfailure, hagree⟩ := h.dropGuard slot g
        cases hdrop : s.dropGuard slot g with
        | mk s₂ failure =>
          cases hdrop' : s'.dropGuard slot g with
          | mk s₂' failure' =>
            rw [hdrop, hdrop'] at hfailure hagree
            obtain rfl : failure = failure' := hfailure
            rw [hdrop] at hstep
            cases failure with
            | none =>
              refine hsame (x := (s₂.moveGuard source slot g', .returned .unit)) ⟨rfl, ?_⟩
                (Option.some.inj hstep)
              exact (AgreeOff.setGuard hagree slot g').setGuard source {}
            | some e =>
              exact hsame (x := (s₂, .terminated)) ⟨rfl, hagree⟩ (Option.some.inj hstep)
    · cases hstep

end System

end BufferManager
