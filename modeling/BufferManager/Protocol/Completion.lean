/-
  Protocol/Completion.lean --- one thread, and how its calls come to an end.

  `Phase.work` falls with every step of a call, so a call ends.  `Returned` says what a
  call that returns has changed of the ids, of which pages are in use and of the guards,
  and when it could return; `Swept` follows a `FlushAllPages`, which changes none of them.
-/
import BufferManager.Protocol.Sequential

set_option autoImplicit false

namespace BufferManager

/-- The pages that the caller of a `FlushPage` has still to flush. -/
def FlushCaller.left : FlushCaller → Nat
  | .flushPage => 0
  | .flushAllPages rest => rest.length

/-- The transfer has still to move its bytes. -/
def Io.work : Io → Nat
  | .running => 1
  | .done | .failed _ => 0

end BufferManager

namespace BufferManager.Protocol

open BufferManager.Lib

variable {n N : Nat} {complete : Prop} {c₀ c c' : Cfg Unit} {e : Event Unit} {a : Acquirer}

/-! ## Work -/

/-- How many steps a call has still to take, at most. -/
def Phase.work : Phase → Nat
  | .suspended .idle => 0
  | .unwinding _ _ => 1
  | .suspended (.reading _ _ io) => 1 + io.work
  | .holding _ _ => 3
  | .suspended (.evicting _ _ io) => 4 + io.work
  | .acquiring _ => 6
  | .visiting (.fetchPage _) | .visiting (.deletePage _) => 7
  | .suspended (.waitPage _) | .suspended (.waitFrame _) => 8
  | .flushed caller => 1 + 8 * caller.left
  | .unpinning _ _ caller _ => 2 + 8 * caller.left
  | .suspended (.writing _ _ _ caller io) => 3 + io.work + 8 * caller.left
  | .visiting (.flushPage _ caller) => 5 + 8 * caller.left
  | .suspended (.nextFlush _ rest) => 6 + 8 * rest.length

/-- The call goes from one phase to the next without waiting. -/
def Phase.Runs : Phase → Prop
  | .suspended (.waitPage _) | .suspended (.waitFrame _) => False
  | _ => True

/-- A step of a call that neither ends it nor goes back leaves less to do. -/
theorem Step.drops (h : Step n N complete c e c') (hends : e.ends = none)
    (hguard : ∀ y, e.note = some y → ¬ y.OnGuard) (hbusy : c.phase () ≠ .suspended .idle)
    (hruns : (c.phase ()).Runs) (hruns' : (c'.phase ()).Runs)
    (hplace : ∀ p, (c.phase ()).acquires = some p → c.place p = .nonResident) :
    (c'.phase ()).work < (c.phase ()).work := by
  cases h with
  | visit t v hph | noIds t hph | reserve t p rest hph | snapshot t hph => exact absurd hph hbusy
  | wakePage t v hph | wakeFrame t a hph =>
    rw [hph] at hruns
    exact hruns.elim
  | sleepPage t v hph | sleepFrame t a hph => simp [Phase.Runs] at hruns'
  | recheck t p hph hne => exact absurd (hplace p (by rw [hph]; rfl)) hne
  | surplus t p f hph hne => exact absurd (hplace p (by rw [hph]; rfl)) hne
  | change | mark | drop | dropStale | move | assign => exact absurd trivial (hguard _ rfl)
  | leave | pin | deleteUnused | deleteResident | deleteNonResident | create | rollback | abandon
  | loaded | loadFailed | unpinThrew => cases hends
  | nextFlush t p rest hph | seek t p hph | tookFrame t a f hph | evictDone t a ev hph
  | block t p f err hph | loadBegin t p f hph | written t p f epoch caller hph
  | writeFailed t p f epoch caller err hph | evictCopy t a ev hph | evictCopyFailed t a ev k err hph
  | writeCopy t p f epoch caller hph | writeCopyFailed t p f epoch caller k err hph
  | readCopy t p f hph | readCopyFailed t p f left err hph =>
    rw [hph]
    simp [Phase.work, Io.work, FlushCaller.left]
  | skipFlush t p caller hph | capture t p f r caller hph =>
    rw [hph]
    simp [Phase.work, Io.work]
  | evictBegin t a f r hph =>
    rw [hph]
    cases r.dirty <;> simp [Phase.work, Io.work]
  | flushReturn t caller hph =>
    rw [hph]
    rcases phaseOf_flushReturn caller with hidle | ⟨p, rest, rfl, hnext⟩
    · simp [hidle, Phase.work]
    · simp [hnext, Phase.work, FlushCaller.left]
      omega
  | noFrame t a hph | evictFail t a ev err hph =>
    rw [hph]
    cases a with
    | newPage p => simp [failPhase, Phase.work, Io.work]
    | fetchPage p => cases hends
  | @unpinned c₁ t p f caller failure hph =>
    rw [hph]
    cases failure with
    | none => simp [unpinPhase, Phase.work]
    | some err => cases hends

namespace Underway

/-- What a call acquires a frame for is out of memory all the while. -/
theorem place_of_acquires (hU : Underway c₀ c) {p : Nat}
    (hacquires : (c.phase ()).acquires = some p) : c.place p = .nonResident := by
  have hC := hU.changed
  cases hph : c.phase () with
  | suspended pc =>
    rw [hph] at hacquires hC
    cases pc with
    | waitFrame a => exact hC.elim
    | evicting a ev io =>
      obtain rfl : a.pageId = p := Option.some.inj hacquires
      obtain ⟨hB, hv, -, hplace, -⟩ := hC
      have hne : a.pageId ≠ ev.oldPageId := by
        intro heq
        have hold := placesOf_of_victim hB hv
        rw [← show a.pageId = ev.oldPageId from heq, placesOf_pageId hB] at hold
        cases hold
      rw [hplace, Function.update_of_ne hne, placesOf_pageId hB]
    | _ => cases hacquires
  | acquiring a =>
    rw [hph] at hacquires hC
    obtain rfl : a.pageId = p := Option.some.inj hacquires
    rw [hC.2.1, placesOf_pageId hC.1]
  | holding a f =>
    rw [hph] at hacquires hC
    obtain rfl : a.pageId = p := Option.some.inj hacquires
    exact place_of_taken hC.1 hC.2
  | unwinding q err =>
    rw [hph] at hacquires hC
    obtain rfl : q = p := Option.some.inj hacquires
    rw [hC.2.1]
    exact placesOf_pageId hC.1
  | visiting | unpinning | flushed =>
    rw [hph] at hacquires
    cases hacquires

/-- A call under way does not wait. -/
theorem runs (hU : Underway c₀ c) : (c.phase ()).Runs := by
  have hC := hU.changed
  cases hph : c.phase () with
  | suspended pc =>
    cases pc with
    | waitPage | waitFrame =>
      rw [hph] at hC
      exact hC.elim
    | _ => trivial
  | _ => trivial

end Underway

/-! ## FlushAllPages -/

/-- Where a `FlushAllPages` is, and that the pages it has still to flush are in use. -/
def Sweeps (c₀ : Cfg Unit) : Phase → Prop
  | .suspended .idle => True
  | .flushed (.flushAllPages rest) => ∀ q ∈ rest, c₀.place q ≠ .unused
  | .suspended (.nextFlush p rest) | .visiting (.flushPage p (.flushAllPages rest))
  | .suspended (.writing p _ _ (.flushAllPages rest) _) | .unpinning p _ (.flushAllPages rest) _ =>
      ∀ q ∈ p :: rest, c₀.place q ≠ .unused
  | _ => False

/-- A `FlushAllPages` is under way that began in `c₀`. -/
structure Swept (c₀ c : Cfg Unit) : Prop where
  still : Still c₀
  place : c.place = c₀.place
  upcoming : c.upcoming = c₀.upcoming
  guards : c.guards = c₀.guards
  sweeps : Sweeps c₀ (c.phase ())

namespace Swept

theorem runs (hW : Swept c₀ c) : (c.phase ()).Runs := by
  have hS := hW.sweeps
  cases hph : c.phase () with
  | suspended pc =>
    cases pc with
    | waitPage | waitFrame =>
      rw [hph] at hS
      exact hS.elim
    | _ => trivial
  | _ => trivial

/-- A `FlushAllPages` acquires no frame. -/
theorem acquires (hW : Swept c₀ c) : (c.phase ()).acquires = none := by
  have hS := hW.sweeps
  cases hph : c.phase () with
  | suspended pc =>
    cases pc with
    | waitFrame | evicting =>
      rw [hph] at hS
      exact hS.elim
    | _ => rfl
  | acquiring | holding | unwinding =>
    rw [hph] at hS
    exact hS.elim
  | _ => rfl

/-- Nor does it make a page. -/
theorem reserves (hW : Swept c₀ c) : (c.phase ()).reserves = none := by
  have hS := hW.sweeps
  cases hph : c.phase () with
  | suspended pc =>
    cases pc with
    | waitFrame | evicting =>
      rw [hph] at hS
      exact hS.elim
    | _ => rfl
  | acquiring | holding | unwinding =>
    rw [hph] at hS
    exact hS.elim
  | _ => rfl

/-- A step that leaves the pages, the ids and the guards alone. -/
theorem next (hW : Swept c₀ c) (hplace : c'.place = c.place) (hupcoming : c'.upcoming = c.upcoming)
    (hguards : c'.guards = c.guards) (hsweeps : Sweeps c₀ (c'.phase ())) : Swept c₀ c' :=
  ⟨hW.still, hplace.trans hW.place, hupcoming.trans hW.upcoming, hguards.trans hW.guards, hsweeps⟩

theorem snapshot_used (hI : Owned n c) (hL : Listed c) {q : Nat} (hq : q ∈ c.dirtyPages n) :
    c.place q ≠ .unused := by
  obtain ⟨f, -, hf⟩ := List.mem_filterMap.mp hq
  unfold Cfg.dirtyPage at hf
  split at hf
  · next r hr =>
    split at hf
    · obtain rfl := Option.some.inj hf
      rw [hI.place_eq_resident hr (hL f r hr)]
      exact Place.noConfusion
    · cases hf
  · cases hf

/-- Every step of a `FlushAllPages` keeps the pages, the ids and the guards. -/
theorem step (hW : Swept c₀ c) (h : Step n N complete c e c')
    (hserves : Phase.Serves .flushAllPages (c'.phase ())) (hends : e.ends = none)
    (hguard : ∀ y, e.note = some y → ¬ y.OnGuard) (hI : Owned n c) (hL : Listed c) :
    Swept c₀ c' := by
  have hS := hW.sweeps
  cases h with
  | change | mark | drop | dropStale | move | assign => exact absurd trivial (hguard _ rfl)
  | noIds | leave | pin | deleteUnused | deleteResident | deleteNonResident | create | rollback
  | abandon | loaded | loadFailed | unpinThrew => cases hends
  | visit t v hph hcall =>
    cases v with
    | flushPage p caller =>
      obtain rfl : caller = .flushPage := hcall
      simp [Phase.Serves, Visit.origin] at hserves
    | fetchPage p | deletePage p => simp [Phase.Serves, Visit.origin] at hserves
  | reserve => simp [Phase.Serves, Acquirer.origin] at hserves
  | wakePage t v hph | wakeFrame t a hph | seek t p hph | recheck t p hph | tookFrame t a f hph
  | evictBegin t a f r hph | sleepFrame t a hph | noFrame t a hph | evictDone t a ev hph
  | evictFail t a ev err hph | block t p f err hph | loadBegin t p f hph | surplus t p f hph
  | evictCopy t a ev hph | evictCopyFailed t a ev k err hph | readCopy t p f hph
  | readCopyFailed t p f left err hph =>
    rw [hph] at hS
    exact hS.elim
  | snapshot t hph =>
    refine hW.next rfl rfl rfl fun q hq => ?_
    rw [← hW.place]
    exact snapshot_used hI hL hq
  | nextFlush t p rest hph =>
    rw [hph] at hS
    exact hW.next rfl rfl rfl hS
  | sleepPage t v hph htransient =>
    rw [hW.place] at htransient
    exact absurd htransient (hW.still.place v.pageId)
  | skipFlush t p caller hph =>
    rw [hph] at hS
    cases caller with
    | flushPage => exact hS.elim
    | flushAllPages rest => exact hW.next rfl rfl rfl fun q hq => hS q (List.mem_cons_of_mem p hq)
  | flushReturn t caller hph =>
    rw [hph] at hS
    rcases caller with - | rest
    · exact hS.elim
    · cases rest with
      | nil => cases hends
      | cons p rest => exact hW.next rfl rfl rfl hS
  | capture t p f r caller hph | written t p f epoch caller hph
  | writeFailed t p f epoch caller err hph | writeCopy t p f epoch caller hph
  | writeCopyFailed t p f epoch caller k err hph =>
    rw [hph] at hS
    cases caller with
    | flushPage => exact hS.elim
    | flushAllPages rest => exact hW.next rfl rfl rfl hS
  | @unpinned c₁ t p f caller failure hph hunpin =>
    rw [hph] at hS
    cases failure with
    | some err => cases hends
    | none =>
      cases caller with
      | flushPage => exact hS.elim
      | flushAllPages rest =>
        refine hW.next ?_ ?_ ?_ fun q hq => hS q (List.mem_cons_of_mem p hq)
        · simp [hunpin.frame_only]
        · simp [hunpin.frame_only]
        · simp [hunpin.frame_only]

/-- However it ends, a `FlushAllPages` has changed no page's place, no id and no guard. -/
theorem ends (hW : Swept c₀ c) (h : Step n N complete c e c') {y : Note Unit}
    (hnote : e.note = some y) (hends : y.Ends) :
    c'.place = c₀.place ∧ c'.upcoming = c₀.upcoming ∧ c'.guards = c₀.guards := by
  have hS := hW.sweeps
  suffices hsame : c'.place = c.place ∧ c'.upcoming = c.upcoming ∧ c'.guards = c.guards from
    ⟨hsame.1.trans hW.place, hsame.2.1.trans hW.upcoming, hsame.2.2.trans hW.guards⟩
  cases h with
  | noIds | leave | flushReturn | skipFlush | snapshot | visit => exact ⟨rfl, rfl, rfl⟩
  | unpinned t p f caller failure hph hunpin =>
    refine ⟨?_, ?_, ?_⟩
    · simp [hunpin.frame_only]
    · simp [hunpin.frame_only]
    · simp [hunpin.frame_only]
  | unpinThrew t p f caller failure err hph hunpin =>
    refine ⟨?_, ?_, ?_⟩
    · simp [hunpin.frame_only]
    · simp [hunpin.frame_only]
    · simp [hunpin.frame_only]
  | reserve | wakePage | wakeFrame | nextFlush | sleepPage | seek | capture | recheck | tookFrame
  | evictBegin | sleepFrame | block | loadBegin | surplus | writeFailed | evictCopyFailed
  | writeCopyFailed | readCopy | readCopyFailed => cases hnote
  | written | evictCopy | writeCopy | change | mark | drop | dropStale | move | assign =>
    cases hnote
    exact hends.elim
  | pin t p f r hph | deleteUnused t p hph | deleteResident t p f r hph
  | deleteNonResident t p hph | noFrame t a hph | evictDone t a ev hph | evictFail t a ev err hph
  | create t p f hph | rollback t p err hph | abandon t p err hph | loaded t p f hph
  | loadFailed t p f err hph =>
    rw [hph] at hS
    exact hS.elim

end Swept

/-! ## Nothing in the way -/

/-- A call has not to wait, and finds the pages as it left them. -/
structure Unhindered (c : Cfg Unit) : Prop where
  runs : (c.phase ()).Runs
  place : ∀ p, (c.phase ()).acquires = some p → c.place p = .nonResident
  used : ∀ p rest, c.phase () = .suspended (.nextFlush p rest) → c.place p ≠ .unused

theorem Underway.unhindered (hU : Underway c₀ c) : Unhindered c where
  runs := hU.runs
  place _ := hU.place_of_acquires
  used p rest hph := by
    have hC := hU.changed
    rw [hph] at hC
    exact hC.elim

theorem Swept.unhindered (hW : Swept c₀ c) : Unhindered c where
  runs := hW.runs
  place p hp := by
    rw [hW.acquires] at hp
    cases hp
  used p rest hph := by
    have hS := hW.sweeps
    rw [hph] at hS
    rw [hW.place]
    exact hS p List.mem_cons_self

/-! ## What a call has changed that returns -/

/-- The same pages are in use, and the same ids are to come. -/
structure SameIds (c₀ c : Cfg Unit) : Prop where
  unused : ∀ p, c.place p = .unused ↔ c₀.place p = .unused
  upcoming : c.upcoming = c₀.upcoming

/-- Some frame is free, or can be evicted. -/
def Room (n : Nat) (c₀ : Cfg Unit) : Prop :=
  ∃ f, f < n ∧ (c₀.frame f = .free ∨ ∃ r, c₀.frame f = .resident r ∧ r.pins = 0)

/-- What a call that returns has found and changed. -/
def Returned (n : Nat) (c₀ c' : Cfg Unit) (e : Event Unit) : Call → Prop
  | .newPage => ∃ p f, e = .created () p f ∧ c₀.upcoming = p :: c'.upcoming ∧
      (∀ q, c'.place q = .unused ↔ q ≠ p ∧ c₀.place q = .unused) ∧
      c'.guards = c₀.guards ++ [⟨true, p, f⟩] ∧ Room n c₀
  | .fetchPage p => ∃ f, (∀ t q g, e ≠ .created t q g) ∧ SameIds c₀ c' ∧
      c'.guards = c₀.guards ++ [⟨true, p, f⟩] ∧
      (Room n c₀ ∨ ∃ r, c₀.place p = .resident f ∧ c₀.frame f = .resident r ∧ r.pins ≠ 0)
  | .flushPage _ | .flushAllPages => (∀ t q g, e ≠ .created t q g) ∧ SameIds c₀ c' ∧
      c'.guards = c₀.guards
  | .deletePage p => (∀ t q g, e ≠ .created t q g) ∧ c'.guards = c₀.guards ∧
      (c₀.place p = .unused ∧ SameIds c₀ c' ∨
        c₀.place p ≠ .unused ∧
        (∀ f r, c₀.place p = .resident f → c₀.frame f = .resident r → r.pins = 0) ∧
        c'.upcoming = p :: c₀.upcoming ∧
        ∀ q, c'.place q = .unused ↔ q = p ∨ c₀.place q = .unused)

theorem Same.sameIds (h : Same c₀ c) : SameIds c₀ c :=
  ⟨fun p => by rw [h.place], h.upcoming⟩

/-- The victim that gives its frame stays in use. -/
theorem Taken.unused_iff {f : Nat} {place : Nat → Place} {frame : Nat → Use}
    (hT : Taken c₀ a f place frame) (hB : Begun c₀ c a) (q : Nat) :
    place q = .unused ↔ placesOf c₀ a q = .unused := by
  rcases hT with ⟨-, rfl, -⟩ | ⟨r, hv, rfl, -⟩
  · exact Iff.rfl
  · by_cases hq : q = r.page
    · subst hq
      rw [Function.update_self, Underway.placesOf_of_victim hB hv]
      simp
    · rw [Function.update_of_ne hq]

theorem Taken.room {f : Nat} {place : Nat → Place} {frame : Nat → Use}
    (hT : Taken c₀ a f place frame) (hf : f < n) : Room n c₀ := by
  rcases hT with ⟨hfree, -, -⟩ | ⟨r, hv, -, -⟩
  · exact ⟨f, hf, Or.inl hfree⟩
  · exact ⟨f, hf, Or.inr ⟨r, hv.frame, hv.unpinned⟩⟩

namespace Underway

/-- A call that throws leaves the same pages in use, and the same ids to come. -/
theorem sameIds_of_undone {err : Error} (h : Undone c₀ c c' err) : SameIds c₀ c' := by
  rcases h with hsame | ⟨p, f, r, -, hv, hplace, -, hupcoming⟩
  · exact hsame.sameIds
  · refine ⟨fun q => ?_, hupcoming⟩
    rw [hplace]
    by_cases hq : q = r.page
    · subst hq
      rw [Function.update_self, hv.place]
      simp
    · rw [Function.update_of_ne hq]

/-- What a call under way has changed when it returns. -/
theorem returns (hU : Underway c₀ c) (h : Step n N complete c e c') {call : Call}
    (hserves : Phase.Serves call (c.phase ())) (hcall : call ≠ .flushAllPages) {y : Note Unit}
    (hnote : e.note = some y) (hends : y.Ends) (hok : ∀ err, e ≠ .ended () (.error err))
    (hI : Owned n c) : Returned n c₀ c' e call := by
  have hC := hU.changed
  have hguards := hU.spared.guards
  cases h with
  | pin t p f r hph hplace hr hpins =>
    rw [hph] at hC hserves
    obtain rfl := hserves
    have hlt := hI.allocated_lt f (hI.allocated_of_use (f := f) (by simp [hr]))
    rw [hC.place] at hplace
    rw [hC.frame] at hr
    refine ⟨f, by simp, ⟨fun q => ?_, hC.upcoming⟩, ?_, ?_⟩
    · change c.place q = _ ↔ _
      rw [hC.place]
    · change c.guards ++ _ = _
      rw [hguards]
    · by_cases hzero : r.pins = 0
      · exact Or.inl ⟨f, hlt, Or.inr ⟨r, hr, hzero⟩⟩
      · exact Or.inr ⟨r, hplace, hr, hzero⟩
  | loaded t p f hph =>
    have hlt := (hI.claimed (t := t) (f := f) (u := .loading p) (by rw [hph]; rfl)).lt
    rw [hph] at hC hserves
    obtain rfl : call = .fetchPage p := hserves
    obtain ⟨hB, place, frame, hT, hplace, -⟩ := hC
    refine ⟨f, by simp, ⟨fun q => ?_, hB.1⟩, ?_, Or.inl (hT.room hlt)⟩
    · change Function.update c.place p (.resident f) q = _ ↔ _
      rw [hplace, Function.update_idem]
      by_cases hq : q = p
      · subst hq
        rw [Function.update_self, hB.2]
        simp
      · rw [Function.update_of_ne hq, hT.unused_iff hB]
        rfl
    · change c.guards ++ _ = _
      rw [hguards]
  | create t p f hph hplace =>
    have hlt := (hI.claimed (t := t) (f := f) (u := .free) (by rw [hph]; rfl)).lt
    rw [hph] at hC hserves
    obtain rfl : Acquirer.origin (.newPage p) = call := hserves
    obtain ⟨hB, hT⟩ := hC
    refine ⟨p, f, rfl, hB.1, fun q => ?_, ?_, hT.room hlt⟩
    · change Function.update c.place p (.resident f) q = _ ↔ _
      by_cases hq : q = p
      · subst hq
        rw [Function.update_self]
        simp
      · rw [Function.update_of_ne hq, hT.unused_iff hB, placesOf, Function.update_of_ne hq]
        simp [hq]
    · change c.guards ++ _ = _
      rw [hguards]
  | flushReturn t caller hph =>
    rw [hph] at hC hserves
    cases caller with
    | flushPage =>
      obtain ⟨p, rfl⟩ := hserves
      refine ⟨by simp [Manager.flushReturn, eventOf], ⟨fun q => ?_, hC.2⟩, hguards⟩
      change c.place q = _ ↔ _
      rw [hC.1]
    | flushAllPages rest => exact absurd hserves hcall
  | deleteUnused t p hph hplace =>
    rw [hph] at hC hserves
    obtain rfl : Visit.origin (.deletePage p) = call := hserves
    rw [hC.place] at hplace
    exact ⟨by simp, hguards, Or.inl ⟨hplace, ⟨fun q => by simp [hC.place], hC.upcoming⟩⟩⟩
  | deleteResident t p f r hph hplace hr hpins =>
    rw [hph] at hC hserves
    obtain rfl : Visit.origin (.deletePage p) = call := hserves
    rw [hC.place] at hplace
    rw [hC.frame] at hr
    refine ⟨by simp, hguards, Or.inr ⟨by simp [hplace], fun f' r' hp' hr' => ?_, ?_, fun q => ?_⟩⟩
    · obtain rfl : f = f' := Place.resident.inj (hplace.symm.trans hp')
      obtain rfl : r = r' := Use.resident.inj (hr.symm.trans hr')
      exact hpins
    · exact congrArg (p :: ·) hC.upcoming
    · change Function.update c.place p .unused q = _ ↔ _
      by_cases hq : q = p
      · simp [hq]
      · simp [hq, hC.place]
  | deleteNonResident t p hph hplace =>
    rw [hph] at hC hserves
    obtain rfl : Visit.origin (.deletePage p) = call := hserves
    rw [hC.place] at hplace
    refine ⟨by simp, hguards, Or.inr ⟨by simp [hplace], fun f r hp _ => ?_, ?_, fun q => ?_⟩⟩
    · rw [hplace] at hp
      cases hp
    · exact congrArg (p :: ·) hC.upcoming
    · change Function.update c.place p .unused q = _ ↔ _
      by_cases hq : q = p
      · simp [hq]
      · simp [hq, hC.place]
  | noIds | leave | rollback | abandon | loadFailed | unpinThrew => exact absurd rfl (hok _)
  | reserve | wakePage | wakeFrame | nextFlush | sleepPage | seek | capture | recheck | tookFrame
  | evictBegin | sleepFrame | block | loadBegin | surplus | writeFailed | evictCopyFailed
  | writeCopyFailed | readCopy | readCopyFailed | skipFlush => cases hnote
  | visit | snapshot | written | evictCopy | writeCopy | change | mark | drop | dropStale | move
  | assign =>
    cases hnote
    exact hends.elim
  | noFrame t a | evictFail t a =>
    cases a with
    | newPage p => cases hnote
    | fetchPage p => exact absurd rfl (hok _)
  | evictDone t a ev =>
    cases hd : ev.dirty with
    | true =>
      rw [hd] at hnote
      cases hnote
      exact hends.elim
    | false =>
      rw [hd] at hnote
      cases hnote
  | unpinned t p f caller failure =>
    cases failure with
    | none => cases hnote
    | some err => exact absurd rfl (hok err)

end Underway

end BufferManager.Protocol
