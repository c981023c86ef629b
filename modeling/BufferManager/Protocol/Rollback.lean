/-
  Protocol/Rollback.lean --- one thread, and what a call of it has changed so far.

  `Underway` compares the configuration in the midst of a call with the one before it,
  by the phase of the only thread.  It is kept by every step of a call, and where a call
  throws it says that the configuration is as before (`Underway.fails`); where the read
  of a `FetchPage` has failed, the victim that gave its frame is out of memory.
-/
import BufferManager.Protocol.Contents

set_option autoImplicit false

namespace BufferManager.Protocol

open BufferManager.Lib

variable {n N : Nat} {complete : Prop} {c₀ c c' : Cfg Unit} {e : Event Unit} {a : Acquirer}

/-! ## Before and after -/

/-- What a call leaves alone: the guards, the bytes of frames in use, and on disk all but
pages that are dirty in memory. -/
structure Spared (c₀ c : Cfg Unit) : Prop where
  guards : c.guards = c₀.guards
  bytes : ∀ f, c₀.frame f ≠ .free → c.frame f ≠ .free → (∀ p, c.frame f ≠ .loading p) →
    c.bytes f = c₀.bytes f
  disk : ∀ p, c.disk p = c₀.disk p ∨
    ∃ f r, c₀.place p = .resident f ∧ c₀.frame f = .resident r ∧ r.dirty = true

/-- Pages, frames and ids are as before. -/
structure Same (c₀ c : Cfg Unit) : Prop where
  place : c.place = c₀.place
  frame : c.frame = c₀.frame
  upcoming : c.upcoming = c₀.upcoming

/-- A frame that can be evicted. -/
structure Victim (c₀ : Cfg Unit) (f : Nat) (r : Tenant) : Prop where
  place : c₀.place r.page = .resident f
  frame : c₀.frame f = .resident r
  unpinned : r.pins = 0
  listed : r.listed = true

/-- The ids after the first step of a call that acquires a frame. -/
def Begun (c₀ c : Cfg Unit) : Acquirer → Prop
  | .newPage p => c₀.upcoming = p :: c.upcoming ∧ c₀.place p = .unused
  | .fetchPage p => c.upcoming = c₀.upcoming ∧ c₀.place p = .nonResident

/-- The places after that step. -/
def placesOf (c₀ : Cfg Unit) : Acquirer → Nat → Place
  | .newPage p => Function.update c₀.place p .nonResident
  | .fetchPage _ => c₀.place

/-- Frame `f` has been taken: it was free, or a victim has been evicted from it. -/
def Taken (c₀ : Cfg Unit) (a : Acquirer) (f : Nat) (place : Nat → Place) (frame : Nat → Use) :
    Prop :=
  (c₀.frame f = .free ∧ place = placesOf c₀ a ∧ frame = c₀.frame) ∨
    ∃ r, Victim c₀ f r ∧ place = Function.update (placesOf c₀ a) r.page .nonResident ∧
      frame = Function.update c₀.frame f .free

/-- What a call other than `FlushAllPages` has changed of the pages and frames so far. -/
def Changed (c₀ c : Cfg Unit) : Phase → Prop
  | .suspended .idle | .visiting (.fetchPage _) | .visiting (.deletePage _)
  | .visiting (.flushPage _ .flushPage) => Same c₀ c
  | .acquiring a => Begun c₀ c a ∧ c.place = placesOf c₀ a ∧ c.frame = c₀.frame
  | .unwinding p _ =>
      Begun c₀ c (.newPage p) ∧ c.place = placesOf c₀ (.newPage p) ∧ c.frame = c₀.frame
  | .suspended (.evicting a ev io) => Begun c₀ c a ∧
      Victim c₀ ev.frameId ⟨ev.oldPageId, 0, ev.dirty, ev.dirtyEpoch, true⟩ ∧
      (io = .running → ev.dirty = true) ∧
      c.place = Function.update (placesOf c₀ a) ev.oldPageId (.evicting ev.frameId) ∧
      c.frame = Function.update c₀.frame ev.frameId
        (.evicting ev.oldPageId ev.dirty ev.dirtyEpoch)
  | .holding a f => Begun c₀ c a ∧ Taken c₀ a f c.place c.frame
  | .suspended (.reading p f _) => Begun c₀ c (.fetchPage p) ∧ ∃ place frame,
      Taken c₀ (.fetchPage p) f place frame ∧ c.place = Function.update place p (.loading f) ∧
        c.frame = Function.update frame f (.loading p)
  | .suspended (.writing p f _ .flushPage _) | .unpinning p f .flushPage (some _) =>
      c.upcoming = c₀.upcoming ∧ c.place = c₀.place ∧ c₀.place p = .resident f ∧
        ∃ r, c₀.frame f = .resident r ∧ r.dirty = true ∧
          c.frame = Function.update c₀.frame f (.resident { r with pins := r.pins + 1 })
  | .unpinning _ _ .flushPage none | .flushed .flushPage =>
      c.place = c₀.place ∧ c.upcoming = c₀.upcoming
  | _ => False

/-- No page and no frame is in transition. -/
structure Still (c₀ : Cfg Unit) : Prop where
  place : ∀ p, ¬ (c₀.place p).transient
  frame : ∀ f, ¬ (c₀.frame f).transient

/-- A call is under way that began in `c₀`. -/
structure Underway (c₀ c : Cfg Unit) : Prop where
  still : Still c₀
  spared : Spared c₀ c
  changed : Changed c₀ c (c.phase ())

/-- Where a call that throws leaves the pages, the frames and the ids. -/
def Undone (c₀ c c' : Cfg Unit) (e : Error) : Prop :=
  Same c₀ c' ∨ ∃ p f r, c.phase () = .suspended (.reading p f (.failed e)) ∧ Victim c₀ f r ∧
    c'.place = Function.update c₀.place r.page .nonResident ∧
    c'.frame = Function.update c₀.frame f .free ∧ c'.upcoming = c₀.upcoming

/-- Where the thread is in no call, nothing is in transition. -/
theorem Still.of_idle (hI : Owned n c) (hidle : c.phase () = .suspended .idle) : Still c := by
  have hframe : ∀ f, ¬ (c.frame f).transient := by
    intro f hf
    obtain ⟨t, ht⟩ := hI.transient_claimed f hf
    rw [hidle] at ht
    cases ht
  refine ⟨fun p hp => ?_, hframe⟩
  cases hplace : c.place p with
  | loading f | evicting f =>
    have huse := hI.use_of_place p f (by rw [hplace]; rfl)
    rw [hplace] at huse
    have hnot := hframe f
    cases hu : c.frame f with
    | free => rw [hu] at huse; cases huse
    | resident r =>
      rw [hu] at huse
      simp only [Use.place] at huse
      split at huse <;> cases huse
    | loading | evicting =>
      rw [hu] at hnot
      exact hnot trivial
  | _ =>
    rw [hplace] at hp
    exact hp

theorem Underway.start (hI : Owned n c) (hidle : c.phase () = .suspended .idle) :
    Underway c c := by
  refine ⟨.of_idle hI hidle, ⟨rfl, fun _ _ _ _ => rfl, fun _ => Or.inl rfl⟩, ?_⟩
  rw [hidle]
  exact ⟨rfl, rfl, rfl⟩

/-! ## Steps of a call -/

/-- The event is a step of a call, and neither begins a `FlushAllPages` nor pins a frame
whose count is full. -/
def Event.Inner : Event Unit → Prop
  | .snapshot _ _ _ | .changed _ _ _ | .marked _ _ _ | .dropped _ _ | .moved _ _ => False
  | .flushPinned pins => pins ≠ maxPinCount
  | _ => True

/-- A client gets a guard. -/
def Event.Grants : Event Unit → Prop
  | .ended _ (.ok (.guard _)) | .created _ _ _ => True
  | _ => False

/-- The use has bytes that count. -/
def Use.Kept (u : Use) : Prop := u ≠ .free ∧ ∀ p, u ≠ .loading p

namespace Spared

/-- A step that keeps the bytes of the frames in use. -/
theorem next (hS : Spared c₀ c) (hguards : c'.guards = c.guards)
    (hbytes : ∀ f, (c'.frame f).Kept → (c.frame f).Kept ∧ c'.bytes f = c.bytes f)
    (hdisk : ∀ p, c'.disk p = c.disk p ∨
      ∃ f r, c₀.place p = .resident f ∧ c₀.frame f = .resident r ∧ r.dirty = true) :
    Spared c₀ c' where
  guards := hguards.trans hS.guards
  bytes f hf hfree hloading := by
    obtain ⟨⟨hfree', hloading'⟩, hsame⟩ := hbytes f ⟨hfree, hloading⟩
    exact hsame.trans (hS.bytes f hf hfree' hloading')
  disk p := by
    rcases hdisk p with hsame | hdirty
    · rw [hsame]
      exact hS.disk p
    · exact Or.inr hdirty

/-- The same where one frame gets another use. -/
theorem update (hS : Spared c₀ c) (hguards : c'.guards = c.guards) {f : Nat} {u : Use}
    (hframe : c'.frame = Function.update c.frame f u) (hu : u.Kept → (c.frame f).Kept)
    (hbytes : c'.bytes = c.bytes) (hdisk : c'.disk = c.disk) : Spared c₀ c' := by
  refine hS.next hguards (fun f' hf' => ⟨?_, congrFun hbytes f'⟩) fun p => Or.inl (congrFun hdisk p)
  by_cases hff : f' = f
  · subst hff
    rw [hframe, Function.update_self] at hf'
    exact hu hf'
  · rwa [hframe, Function.update_of_ne hff] at hf'

theorem same (hS : Spared c₀ c) (hguards : c'.guards = c.guards) (hframe : c'.frame = c.frame)
    (hbytes : c'.bytes = c.bytes) (hdisk : c'.disk = c.disk) : Spared c₀ c' := by
  refine hS.next hguards (fun f hf => ⟨?_, congrFun hbytes f⟩) fun p => Or.inl (congrFun hdisk p)
  rwa [hframe] at hf

end Spared

theorem Use.kept_resident (r : Tenant) : (Use.resident r).Kept := ⟨by simp, by simp⟩

theorem Unpin.kept_frame {f f' : Nat} {failure : Option Error} (h : Unpin c f c' failure)
    (hf' : (c'.frame f').Kept) : (c.frame f').Kept := by
  have hupdate : ∀ {r w : Tenant}, c.frame f = .resident r →
      (Function.update c.frame f (.resident w) f').Kept → (c.frame f').Kept := by
    intro r w hr hkept
    by_cases hff : f' = f
    · rw [hff, hr]
      exact Use.kept_resident r
    · rwa [Function.update_of_ne hff] at hkept
  cases h with
  | kept r k hr | last r hr | unknown r e hr => exact hupdate hr hf'
  | refused => exact hf'

namespace Underway

theorem spared_step (hU : Underway c₀ c) (h : Step n N complete c e c') (he : e.Inner)
    (hgrants : ¬ e.Grants) (hI : Owned n c) (hR : Reservations c) : Spared c₀ c' := by
  have hS := hU.spared
  have hchanged := hU.changed
  cases h with
  | visit | noIds | reserve | snapshot | wakePage | wakeFrame | nextFlush | leave | sleepPage | seek
  | skipFlush | deleteUnused | deleteNonResident | recheck | tookFrame | sleepFrame | flushReturn
  | noFrame | rollback | abandon | writeFailed => exact hS.same rfl rfl rfl rfl
  | pin | create | loaded => exact absurd trivial hgrants
  | capture t p f r caller hph hplace hr =>
    exact hS.update rfl rfl (fun _ => by rw [hr]; exact Use.kept_resident r) rfl rfl
  | deleteResident t p f r | surplus t p f | loadFailed t p f | evictDone t a ev =>
    exact hS.update rfl rfl (fun hu => absurd rfl hu.1) rfl rfl
  | evictBegin t a f r hph hev hplace hr =>
    exact hS.update rfl rfl (fun _ => by rw [hr]; exact Use.kept_resident r) rfl rfl
  | evictFail t a ev err hph =>
    refine hS.update rfl rfl (fun _ => ?_) rfl rfl
    rw [hI.claim_use t ev.frameId (.evicting ev.oldPageId ev.dirty ev.dirtyEpoch)
      (by rw [hph]; rfl)]
    exact ⟨by simp, by simp⟩
  | block t p f err hph hplace =>
    exact absurd (hR.nonResident t p (by rw [hph]; rfl)) hplace
  | loadBegin t p f => exact hS.update rfl rfl (fun hu => absurd rfl (hu.2 p)) rfl rfl
  | written t p f epoch caller hph =>
    refine hS.update rfl rfl (fun hu => ?_) rfl rfl
    cases hf : c.frame f with
    | resident r => exact Use.kept_resident r
    | free | loading | evicting => rwa [hf] at hu
  | @unpinned c₁ t p f caller failure hph hunpin =>
    refine hS.next ?_ (fun f' hf' => ⟨hunpin.kept_frame hf', ?_⟩) fun q => Or.inl ?_
    · simp [hunpin.frame_only]
    · simp [hunpin.frame_only]
    · simp [hunpin.frame_only]
  | @unpinThrew c₁ t p f caller failure err hph hunpin =>
    refine hS.next ?_ (fun f' hf' => ⟨hunpin.kept_frame hf', ?_⟩) fun q => Or.inl ?_
    · simp [hunpin.frame_only]
    · simp [hunpin.frame_only]
    · simp [hunpin.frame_only]
  | evictCopy t a ev hph | evictCopyFailed t a ev k err hph =>
    refine hS.next rfl (fun f hf => ⟨hf, rfl⟩) fun p => ?_
    by_cases hp : p = ev.oldPageId
    · rw [hph] at hchanged
      obtain ⟨-, hvictim, hdirty, -⟩ := hchanged
      exact Or.inr ⟨ev.frameId, _, by rw [hp]; exact hvictim.place, hvictim.frame, hdirty rfl⟩
    · exact Or.inl (Function.update_of_ne hp _ _)
  | writeCopy t p f epoch caller hph | writeCopyFailed t p f epoch caller k err hph =>
    refine hS.next rfl (fun f hf => ⟨hf, rfl⟩) fun q => ?_
    by_cases hq : q = p
    · rw [hph] at hchanged
      cases caller with
      | flushPage =>
        obtain ⟨-, -, hplace, r, hr, hdirty, -⟩ := hchanged
        exact Or.inr ⟨f, r, by rw [hq]; exact hplace, hr, hdirty⟩
      | flushAllPages rest => exact hchanged.elim
    · exact Or.inl (Function.update_of_ne hq _ _)
  | readCopy t p f hph | readCopyFailed t p f left err hph =>
    have huse := hI.claim_use t f (.loading p) (by rw [hph]; rfl)
    refine hS.next rfl (fun f' hf' => ⟨hf', Function.update_of_ne ?_ _ _⟩) fun q => Or.inl rfl
    rintro rfl
    exact hf'.2 p huse
  | change | mark | drop | dropStale | move | assign => exact he.elim

/-- What a call that acquires a frame wants it for is out of memory. -/
theorem placesOf_pageId (hB : Begun c₀ c a) : placesOf c₀ a a.pageId = .nonResident := by
  cases a with
  | newPage p => exact Function.update_self _ _ _
  | fetchPage p => exact hB.2

/-- A resident page was where it is before the call. -/
theorem place_of_resident (hB : Begun c₀ c a) {p f : Nat} (h : placesOf c₀ a p = .resident f) :
    c₀.place p = .resident f := by
  cases a with
  | newPage q =>
    have hpq : p ≠ q := by
      rintro rfl
      simp [placesOf] at h
    rwa [placesOf, Function.update_of_ne hpq] at h
  | fetchPage q => exact h

theorem placesOf_of_victim (hB : Begun c₀ c a) {f : Nat} {r : Tenant} (hv : Victim c₀ f r) :
    placesOf c₀ a r.page = .resident f := by
  cases a with
  | newPage q =>
    have hpq : r.page ≠ q := by
      intro hpq
      have hplace := hv.place
      rw [hpq, hB.2] at hplace
      cases hplace
    rw [placesOf, Function.update_of_ne hpq, hv.place]
  | fetchPage q => exact hv.place

/-- The page a frame has been taken for is out of memory still. -/
theorem place_of_taken (hB : Begun c₀ c a) {f : Nat} {place : Nat → Place} {frame : Nat → Use}
    (hT : Taken c₀ a f place frame) : place a.pageId = .nonResident := by
  rcases hT with ⟨-, rfl, -⟩ | ⟨r, hv, rfl, -⟩
  · exact placesOf_pageId hB
  · by_cases hpage : a.pageId = r.page
    · rw [hpage, Function.update_self]
    · rw [Function.update_of_ne hpage, placesOf_pageId hB]

theorem changed_step (hU : Underway c₀ c) (h : Step n N complete c e c') (he : e.Inner)
    (hends : e.ends = none) (hI : Owned n c) (hP : Pinned c) (hR : Reservations c) :
    Changed c₀ c' (c'.phase ()) := by
  have hC := hU.changed
  cases h with
  | visit t v hph hcall =>
    rw [hph] at hC
    cases v with
    | flushPage p caller =>
      obtain rfl : caller = .flushPage := hcall
      exact ⟨hC.place, hC.frame, hC.upcoming⟩
    | fetchPage p | deletePage p => exact ⟨hC.place, hC.frame, hC.upcoming⟩
  | noIds | leave | pin | deleteUnused | deleteResident | deleteNonResident | create | rollback
  | abandon | loaded | loadFailed | unpinThrew => cases hends
  | reserve t p rest hph hids =>
    rw [hph] at hC
    refine ⟨⟨?_, ?_⟩, ?_, hC.frame⟩
    · exact hC.upcoming.symm.trans hids
    · rw [← hC.place]
      exact hI.upcoming_unused p (hids ▸ List.mem_cons_self)
    · exact congrArg (fun x => Function.update x p Place.nonResident) hC.place
  | snapshot | change | mark | drop | dropStale | move | assign => exact he.elim
  | wakePage t v hph | wakeFrame t a hph =>
    rw [hph] at hC
    exact hC.elim
  | sleepPage t v hph htransient =>
    rw [hph] at hC
    cases v with
    | flushPage p caller =>
      cases caller with
      | flushPage => exact absurd (hC.place ▸ htransient) (hU.still.place p)
      | flushAllPages rest => exact hC.elim
    | fetchPage p | deletePage p => exact absurd (hC.place ▸ htransient) (hU.still.place p)
  | sleepFrame t a hph htransient =>
    rw [hph] at hC
    obtain ⟨-, -, hframe⟩ := hC
    obtain ⟨f, -, hf⟩ := htransient
    exact absurd (hframe ▸ hf) (hU.still.frame f)
  | nextFlush t p rest hph =>
    rw [hph] at hC
    exact hC.elim
  | seek t p hph hplace =>
    rw [hph] at hC
    refine ⟨⟨hC.upcoming, ?_⟩, hC.place, hC.frame⟩
    rw [← hC.place]
    exact hplace
  | skipFlush t p caller hph =>
    rw [hph] at hC
    cases caller with
    | flushPage => exact ⟨hC.place, hC.upcoming⟩
    | flushAllPages rest => exact hC.elim
  | flushReturn t caller hph =>
    rw [hph] at hC
    cases caller with
    | flushPage => cases hends
    | flushAllPages rest => exact hC.elim
  | capture t p f r caller hph hplace hr hdirty =>
    rw [hph] at hC
    cases caller with
    | flushPage =>
      have hle := hP.pins_le f r hr
      have hne : r.pins ≠ maxPinCount := he
      have hpins : (r.pins + 1) % 2 ^ 32 = r.pins + 1 := by
        rw [maxPinCount] at hle hne
        omega
      refine ⟨hC.upcoming, hC.place, by rw [← hC.place]; exact hplace, r, ?_, hdirty, ?_⟩
      · rw [← hC.frame]
        exact hr
      · simp only [Cfg.goto, Cfg.setUse, hpins, hC.frame]
    | flushAllPages rest => exact hC.elim
  | recheck t p hph hne =>
    rw [hph] at hC
    obtain ⟨hB, hplace, -⟩ := hC
    exact absurd ((congrFun hplace p).trans (placesOf_pageId hB)) hne
  | tookFrame t a f hph hlt hfree =>
    rw [hph] at hC
    obtain ⟨hB, hplace, hframe⟩ := hC
    refine ⟨hB, Or.inl ⟨?_, hplace, hframe⟩⟩
    rw [← hframe]
    by_contra hne
    exact hfree (hI.allocated_of_use hne)
  | evictBegin t a f r hph hev hplace hr hpins =>
    rw [hph] at hC
    obtain ⟨hB, hplaces, hframe⟩ := hC
    have hlisted := (hI.resident_use hplace hr).2
    have htenant : (⟨r.page, 0, r.dirty, r.epoch, true⟩ : Tenant) = r := by
      rw [← hpins, ← hlisted]
    refine ⟨hB, ?_, ?_, ?_, ?_⟩
    · rw [hplaces] at hplace
      exact ⟨place_of_resident hB hplace, by rw [htenant, ← hframe]; exact hr, rfl, rfl⟩
    · cases hdirty : r.dirty <;> simp
    · simp only [Cfg.goto, Cfg.setUse, Cfg.setPlace, Cfg.delist, hplaces]
    · simp only [Cfg.goto, Cfg.setUse, Cfg.setPlace, Cfg.delist, hframe]
  | noFrame t a hph =>
    rw [hph] at hC
    cases a with
    | newPage p => exact hC
    | fetchPage p => cases hends
  | evictDone t a ev hph =>
    rw [hph] at hC
    obtain ⟨hB, hv, -, hplace, hframe⟩ := hC
    refine ⟨hB, Or.inr ⟨_, hv, ?_, ?_⟩⟩
    · simp only [Cfg.goto, Cfg.setUse, Cfg.setPlace, Cfg.notify, hplace, Function.update_idem]
    · simp only [Cfg.goto, Cfg.setUse, Cfg.setPlace, Cfg.notify, hframe, Function.update_idem]
  | evictFail t a ev err hph =>
    rw [hph] at hC
    obtain ⟨hB, hv, -, hplace, hframe⟩ := hC
    cases a with
    | newPage p =>
      refine ⟨hB, ?_, ?_⟩
      · simp only [Cfg.goto, Cfg.setUse, Cfg.setPlace, hplace, Function.update_idem]
        exact Function.update_eq_self_iff.mpr (placesOf_of_victim hB hv).symm
      · simp only [Cfg.goto, Cfg.setUse, Cfg.setPlace, hframe, Function.update_idem]
        exact Function.update_eq_self_iff.mpr hv.frame.symm
    | fetchPage p => cases hends
  | block t p f err hph hne => exact absurd (hR.nonResident t p (by rw [hph]; rfl)) hne
  | loadBegin t p f hph =>
    rw [hph] at hC
    exact ⟨hC.1, c.place, c.frame, hC.2, rfl, rfl⟩
  | surplus t p f hph hne =>
    rw [hph] at hC
    exact absurd (place_of_taken hC.1 hC.2) hne
  | written t p f epoch caller hph =>
    rw [hph] at hC
    cases caller with
    | flushPage => exact ⟨hC.2.1, hC.1⟩
    | flushAllPages rest => exact hC.elim
  | writeFailed t p f epoch caller err hph =>
    rw [hph] at hC
    cases caller with
    | flushPage => exact hC
    | flushAllPages rest => exact hC.elim
  | @unpinned c₁ t p f caller failure hph hunpin =>
    rw [hph] at hC
    cases failure with
    | none =>
      cases caller with
      | flushPage =>
        obtain ⟨hplace, hupcoming⟩ := hC
        refine ⟨?_, ?_⟩
        · simp [hunpin.frame_only, hplace]
        · simp [hunpin.frame_only, hupcoming]
      | flushAllPages rest => exact hC.elim
    | some err => cases hends
  | evictCopy t a ev hph | evictCopyFailed t a ev k err hph =>
    rw [hph] at hC
    obtain ⟨hB, hv, -, hplace, hframe⟩ := hC
    exact ⟨hB, hv, by simp, hplace, hframe⟩
  | writeCopy t p f epoch caller hph | writeCopyFailed t p f epoch caller k err hph =>
    rw [hph] at hC
    cases caller with
    | flushPage => exact hC
    | flushAllPages rest => exact hC.elim
  | readCopy t p f hph | readCopyFailed t p f left err hph =>
    rw [hph] at hC
    exact hC

theorem step (hU : Underway c₀ c) (h : Step n N complete c e c') (he : e.Inner)
    (hends : e.ends = none) (hI : Owned n c) (hP : Pinned c) (hR : Reservations c) :
    Underway c₀ c' := by
  refine ⟨hU.still, hU.spared_step h he ?_ hI hR, hU.changed_step h he hends hI hP hR⟩
  intro hgrants
  cases e with
  | ended | created => cases hends
  | _ => exact hgrants

/-- A call that throws has undone what it did, but for the victim of a failed load. -/
theorem fails (hU : Underway c₀ c) (h : Step n N complete c e c') {err : Error}
    (he : e = .ended () (.error err)) (hI : Owned n c) (hP : Pinned c) (hR : Reservations c) :
    Spared c₀ c' ∧ Undone c₀ c c' err := by
  have hinner : e.Inner := by
    rw [he]
    trivial
  have hgrants : ¬ e.Grants := by
    rw [he]
    exact id
  refine ⟨hU.spared_step h hinner hgrants hI hR, ?_⟩
  have hC := hU.changed
  cases h with
  | noIds t hph =>
    rw [hph] at hC
    exact Or.inl hC
  | leave t v err' hph =>
    rw [hph] at hC
    cases v with
    | flushPage p caller =>
      cases caller with
      | flushPage => exact Or.inl ⟨hC.place, hC.frame, hC.upcoming⟩
      | flushAllPages rest => exact hC.elim
    | fetchPage p | deletePage p => exact Or.inl ⟨hC.place, hC.frame, hC.upcoming⟩
  | noFrame t a hph =>
    rw [hph] at hC
    cases a with
    | newPage p => cases he
    | fetchPage p => exact Or.inl ⟨hC.2.1, hC.2.2, hC.1.1⟩
  | evictFail t a ev err' hph =>
    rw [hph] at hC
    obtain ⟨hB, hv, -, hplace, hframe⟩ := hC
    cases a with
    | newPage p => cases he
    | fetchPage p =>
      refine Or.inl ⟨?_, ?_, hB.1⟩
      · simp only [Cfg.goto, Cfg.setUse, Cfg.setPlace, hplace, Function.update_idem]
        exact Function.update_eq_self_iff.mpr (placesOf_of_victim hB hv).symm
      · simp only [Cfg.goto, Cfg.setUse, Cfg.setPlace, hframe, Function.update_idem]
        exact Function.update_eq_self_iff.mpr hv.frame.symm
  | rollback t p err' hph hnon =>
    rw [hph] at hC
    obtain ⟨⟨hids, hunused⟩, hplace, hframe⟩ := hC
    refine Or.inl ⟨?_, hframe, hids.symm⟩
    simp only [Cfg.goto, Cfg.notify, Cfg.freeId, hplace, placesOf, Function.update_idem]
    exact Function.update_eq_self_iff.mpr hunused.symm
  | abandon t p err' hph hne => exact absurd (hR.nonResident t p (by rw [hph]; rfl)) hne
  | loadFailed t p f err' hph =>
    obtain ⟨-, hr⟩ := Event.ended.inj he
    obtain rfl := Except.error.inj hr
    have hC' := hC
    rw [hph] at hC'
    obtain ⟨hB, place, frame, hT, hplace, hframe⟩ := hC'
    have hplace' := place_of_taken hB hT
    have hfree : frame f = .free := by
      rcases hT with ⟨hf, -, rfl⟩ | ⟨r, -, -, rfl⟩
      · exact hf
      · exact Function.update_self _ _ _
    have hplaces : Function.update c.place p .nonResident = place := by
      rw [hplace, Function.update_idem]
      exact Function.update_eq_self_iff.mpr hplace'.symm
    have hframes : Function.update c.frame f .free = frame := by
      rw [hframe, Function.update_idem]
      exact Function.update_eq_self_iff.mpr hfree.symm
    rcases hT with ⟨-, rfl, rfl⟩ | ⟨r, hv, rfl, rfl⟩
    · exact Or.inl ⟨hplaces, hframes, hB.1⟩
    · exact Or.inr ⟨p, f, r, hph, hv, hplaces, hframes, hB.1⟩
  | @unpinned c₁ t p f caller failure hph hunpin =>
    rw [hph] at hC
    cases failure with
    | none => cases he
    | some err' =>
      cases caller with
      | flushAllPages rest => exact hC.elim
      | flushPage =>
        obtain ⟨hupcoming, hplace, hp, r, hr, -, hframe⟩ := hC
        have huse : c.frame f = .resident { r with pins := r.pins + 1 } := by
          rw [hframe, Function.update_self]
        have hlisted := (hI.resident_use ((congrFun hplace p).trans hp) huse).2
        obtain ⟨-, hframe', -⟩ := hunpin.listed hI huse hlisted rfl
        refine Or.inl ⟨?_, ?_, ?_⟩
        · simp [hunpin.frame_only, hplace]
        · simp only [Cfg.goto, Cfg.notify, hframe', hframe, Function.update_idem]
          exact Function.update_eq_self_iff.mpr hr.symm
        · simp [hunpin.frame_only, hupcoming]
  | @unpinThrew c₁ t p f caller failure err' hph hunpin =>
    obtain ⟨k, r, hr, -, hlisted, hpins, -⟩ :=
      hP.of_refs hI (refs_pos_of_writer (t := t) (p := p) (f := f) (by rw [hph]; rfl))
    cases (hunpin.listed hI hr hlisted hpins).1
  | flushReturn t caller =>
    rcases caller with - | rest
    · cases he
    · cases rest <;> cases he
  | evictDone t a ev => cases hd : ev.dirty <;> simp [hd] at he
  | _ => cases he

end Underway

end BufferManager.Protocol
