/-
  Guarantees/PinCounts.lean --- pin counts are exact, up to the unchecked increment.

  `FetchPage` refuses to pin a frame whose `pin_count` is full, whichever way it has come
  to its page; `FlushPage` pins it all the same, and its `++meta.pin_count` wraps to zero.
  While that does not happen every count is the number of live guards and of writing
  `FlushPage`s.
-/
import BufferManager.Guarantees.Exclusion

set_option autoImplicit false

namespace BufferManager

open BufferManager.Lib BufferManager.Protocol BufferManager.Refinement

/-- The frame a `FlushPage` is writing. -/
def Pc.flushes : Pc → Option Nat
  | .writing _ f _ _ _ => some f
  | _ => none

/-- The live guards on frame `f`. -/
def System.liveGuardsOn {R τ : Type} (s : System R τ) (f : Nat) : Nat :=
  s.guards.countP fun g => g.valid && g.frameId == f

/-- The `FlushPage` calls writing frame `f`. -/
def System.flushesOn {R τ : Type} [Fintype τ] (s : System R τ) (f : Nat) : Nat :=
  (Finset.univ.filter fun t => (s.pc t).flushes = some f).card

/-- The page that a suspended `FetchPage` looks at when it goes on: from its own wait, or
back from `AcquireFrameForFetchLocked`, which has slept or evicted a victim. -/
def Pc.fetches : Pc → Option Nat
  | .waitPage (.fetchPage p) | .waitFrame (.fetchPage p)
  | .evicting (.fetchPage p) _ .done => some p
  | _ => none

theorem Pc.fetches_eq_some {pc : Pc} {p : Nat} (h : pc.fetches = some p) :
    pc = .waitPage (.fetchPage p) ∨ pc = .waitFrame (.fetchPage p) ∨
      ∃ ev, pc = .evicting (.fetchPage p) ev .done := by
  unfold Pc.fetches at h
  split at h
  · obtain rfl := Option.some.inj h
    exact Or.inl rfl
  · obtain rfl := Option.some.inj h
    exact Or.inr (Or.inl rfl)
  · obtain rfl := Option.some.inj h
    exact Or.inr (Or.inr ⟨_, rfl⟩)
  · cases h

/-- The page that a step of `FetchPage` looks at. -/
def System.fetches {R τ : Type} (s : System R τ) : Action τ → Option Nat
  | .call _ (.fetchPage p) => some p
  | .resume t => (s.pc t).fetches
  | _ => none

/-- What a step from `s` to `s'` that was refused a pin on frame `f` of page `p` leaves
alone. -/
structure System.PinRefused {R τ : Type} (s s' : System R τ) (p f : Nat) : Prop where
  frameMeta : s'.manager.frameMeta f = s.manager.frameMeta f
  entry : s'.entry p = s.entry p
  bytes : s'.bytes f = s.bytes f
  replacer : s'.manager.replacer = s.manager.replacer
  disk : s'.disk = s.disk
  guards : s'.guards = s.guards

/-- What is thrown for a full count. -/
def pinOverflowError : Error := ⟨.overflowError, "pin count overflow"⟩

variable {R τ : Type} [Replacer R] [LawfulReplacer R] [Fintype τ] {n N : Nat}
  {s : System R τ} {c : Cfg τ}

namespace Refinement

theorem Sim.liveGuardsOn_eq (hS : Sim n N s c) (hI : Owned n c) (hP : Pinned c) {f : Nat}
    {r : Tenant} (hr : c.frame f = .resident r) : s.liveGuardsOn f = c.guardsOn r.page f := by
  rw [System.liveGuardsOn, Cfg.guardsOn, ← hS.guards]
  refine List.countP_congr fun g hg => ?_
  rw [guardOn_iff]
  simp only [Bool.and_eq_true, beq_iff_eq]
  constructor
  · rintro ⟨hv, rfl⟩
    obtain ⟨r', hr', hpage, -⟩ := hP.of_guard hI hg hv
    obtain rfl := Use.resident.inj (hr.symm.trans hr')
    exact ⟨hv, hpage.symm, rfl⟩
  · rintro ⟨hv, -, hf⟩
    exact ⟨hv, hf⟩

theorem Sim.flushesOn_eq (hS : Sim n N s c) (hI : Owned n c) (hP : Pinned c) {f : Nat}
    {r : Tenant} (hr : c.frame f = .resident r) : s.flushesOn f = c.writersOn r.page f := by
  rw [System.flushesOn, Cfg.writersOn]
  refine congrArg Finset.card (Finset.filter_congr fun t _ => ?_)
  have hwrites : ∀ p, (c.phase t).writes = some (p, f) → p = r.page := by
    intro p hp
    obtain ⟨k, r', hr', hpage, -⟩ := hP.of_refs hI (refs_pos_of_writer hp)
    obtain rfl := Use.resident.inj (hr.symm.trans hr')
    exact hpage.symm
  rw [hS.phase t] at hwrites ⊢
  cases hpc : s.pc t with
  | writing p g epoch caller io =>
    rw [hpc] at hwrites
    simp only [Pc.flushes, Phase.writes, Option.some.injEq, Prod.mk.injEq]
    constructor
    · rintro rfl
      exact ⟨hwrites p rfl, rfl⟩
    · exact fun h => h.2
  | _ => simp [Pc.flushes, Phase.writes]

/-- The count of a listed frame. -/
theorem Sim.pinCount_eq (hS : Sim n N s c) (hI : Owned n c) (hP : Pinned c) {p f : Nat}
    (hentry : s.entry p = ⟨.resident, some f⟩) :
    (s.manager.frameMeta f).pinCount = s.liveGuardsOn f + s.flushesOn f := by
  have hplace := hS.place_of_entry hentry
  obtain ⟨r, hr, rfl, hlisted⟩ := hI.resident hplace
  rw [hS.liveGuardsOn_eq hI hP hr, hS.flushesOn_eq hI hP hr, hS.rep.frameMeta, hr]
  exact hP.pins_eq f r hr hlisted

/-- It is a 32-bit number. -/
theorem Sim.pinCount_le (hS : Sim n N s c) (hP : Pinned c) (f : Nat) :
    (s.manager.frameMeta f).pinCount ≤ maxPinCount := by
  rw [hS.rep.frameMeta]
  cases hf : c.frame f with
  | resident r => exact hP.pins_le f r hf
  | loading p => exact (by decide : 1 ≤ maxPinCount)
  | free | evicting => exact Nat.zero_le _

variable [DecidableEq τ]

omit [Fintype τ] in
/-- `FetchPage` on a page whose frame has a full count. -/
theorem wp_fetchPage_full {m : Manager R τ} (hR : Represents n N m c) (hI : Owned n c) (t : τ)
    {p f : Nat} (hplace : c.place p = .resident f)
    (hpins : (m.frameMeta f).pinCount = maxPinCount) :
    wp (Manager.fetchPage t p : Locked R τ Next) (fun _ _ => False)
      (fun e m' => e = pinOverflowError ∧ m' = m) m := by
  obtain ⟨r, hr, rfl, -⟩ := hI.resident hplace
  rw [Manager.fetchPage, Manager.fetchLoop, wp_bind]
  refine hR.wp_pageState ?_ fun hunused => by simp [hplace] at hunused
  rw [hR.frameMeta, hr] at hpins
  simp only [hplace, Place.entry]
  exact hR.wp_pin_full hplace hr hpins ⟨rfl, rfl⟩

omit [Replacer R] [LawfulReplacer R] [Fintype τ] in
/-- What a piece throws is what the step throws. -/
theorem settle_of_throws {t : τ} {piece : Locked R τ Next} {e : Error}
    {P : Manager R τ → Prop} {s' : System R τ} {out : Outcome}
    (hwp : wp piece (fun _ _ => False) (fun e' m => e' = e ∧ P m) s.manager)
    (hsettle : s.settle t piece = (s', out)) :
    out = .threw e ∧ P s'.manager ∧ s'.disk = s.disk ∧ s'.guards = s.guards := by
  cases hm : piece s.manager with
  | ok next m => exact (hwp.ok hm).elim
  | error e' m =>
    obtain ⟨rfl, hP⟩ := hwp.error hm
    rw [System.settle_error hm] at hsettle
    obtain ⟨rfl, rfl⟩ := Prod.mk.inj hsettle
    exact ⟨rfl, hP, rfl, rfl⟩

omit [Fintype τ] in
/-- A `FetchPage` that has just been called, or has been waiting, throws on a full count,
with nothing changed but that a sleeper is awake. -/
theorem Sim.fetch_full (hS : Sim n N s c) (hI : Owned n c) {action : Action τ} {p f : Nat}
    {s' : System R τ} {out : Outcome} (hfetches : s.fetches action = some p)
    (hevicting : ∀ t ev, action = .resume t → s.pc t ≠ .evicting (.fetchPage p) ev .done)
    (hplace : c.place p = .resident f) (hpins : (s.manager.frameMeta f).pinCount = maxPinCount)
    (hstep : s.step action = some (s', out)) :
    out = .threw pinOverflowError ∧
      s'.manager = { s.manager with asleep := s'.manager.asleep } ∧ s'.disk = s.disk ∧
      s'.guards = s.guards := by
  have hasleep : ∀ m : Manager R τ, m = s.manager ∨ (∃ asleep, m = { s.manager with asleep }) →
      m = { s.manager with asleep := m.asleep } := by
    rintro m (rfl | ⟨asleep, rfl⟩) <;> rfl
  cases action with
  | call t call =>
    cases call with
    | fetchPage q =>
      obtain rfl := Option.some.inj hfetches
      simp only [System.step] at hstep
      split at hstep
      · obtain ⟨hout, hm, hrest⟩ := settle_of_throws
          (wp_fetchPage_full hS.rep hI t hplace hpins) (Option.some.inj hstep)
        exact ⟨hout, hasleep _ (Or.inl hm), hrest⟩
      · cases hstep
    | _ => cases hfetches
  | resume t =>
    have hwoken := hS.rep.wake t
    have hI' : Owned n { c with asleep := c.asleep.erase t } :=
      hI.congr rfl rfl rfl rfl rfl rfl fun _ => rfl
    obtain ⟨piece, hpiece, hsettle⟩ := Option.map_eq_some_iff.mp hstep
    have hwp : wp piece (fun _ _ => False) (fun e m => e = pinOverflowError ∧
        m = { s.manager with asleep := s.manager.asleep.erase t }) s.manager := by
      rcases Pc.fetches_eq_some hfetches with hpc | hpc | ⟨ev, hpc⟩
      · rw [hpc] at hpiece
        obtain rfl := Option.some.inj hpiece
        exact wp_fetchPage_full hwoken hI' t hplace hpins
      · rw [hpc] at hpiece
        obtain rfl := Option.some.inj hpiece
        -- the page is there, so no frame is looked for
        simp only [Manager.wake, Manager.fetchPageWith, Manager.acquireFrameForFetchLocked,
          wp_bind, wp_modify]
        refine hwoken.wp_pageState ?_ fun hunused => by simp [hplace] at hunused
        simp only [hplace, Place.entry]
        exact wp_fetchPage_full hwoken hI' t hplace hpins
      · exact absurd hpc (hevicting t ev rfl)
    obtain ⟨hout, hm, hrest⟩ := settle_of_throws hwp hsettle
    exact ⟨hout, hasleep _ (Or.inr ⟨_, hm⟩), hrest⟩
  | _ => cases hfetches

omit [Fintype τ] in
/-- One that has evicted a victim meanwhile gives the frame back first. -/
theorem Sim.fetch_full_evicting (hS : Sim n N s c) (hI : Owned n c) (hW : Within N c) {t : τ}
    {p f : Nat} {ev : Eviction} {s' : System R τ} {out : Outcome}
    (hpc : s.pc t = .evicting (.fetchPage p) ev .done) (hplace : c.place p = .resident f)
    (hpins : (s.manager.frameMeta f).pinCount = maxPinCount)
    (hstep : s.step (.resume t) = some (s', out)) :
    out = .threw pinOverflowError ∧ s.PinRefused s' p f := by
  have hph : c.phase t = .suspended (.evicting (.fetchPage p) ev .done) := by rw [hS.phase, hpc]
  have hC := hI.claimed (t := t) (f := ev.frameId)
    (u := .evicting ev.oldPageId ev.dirty ev.dirtyEpoch) (by rw [hph]; rfl)
  have hvictim := hI.place_of_claim (t := t) (by rw [hph]; rfl) rfl
  obtain ⟨r, hr, -, -⟩ := hI.resident hplace
  have hne : p ≠ ev.oldPageId := by
    rintro rfl
    rw [hplace] at hvictim
    cases hvictim
  have hframe : f ≠ ev.frameId := by
    rintro rfl
    cases hr.symm.trans hC.use
  have hplace' : (c.gaveBack t p ev).place p = .resident f := by
    simpa [Cfg.gaveBack, Cfg.evicted, hne] using hplace
  have hframe' : (c.gaveBack t p ev).frame f = c.frame f := by
    simp [Cfg.gaveBack, Cfg.evicted, hframe]
  obtain ⟨piece, hpiece, hsettle⟩ := Option.map_eq_some_iff.mp hstep
  rw [hpc] at hpiece
  obtain rfl := Option.some.inj hpiece
  obtain ⟨hout, ⟨hR, hreplacer⟩, hdisk, hguards⟩ := settle_of_throws
    (P := fun m => Represents n N m (c.gaveBack t p ev) ∧ m.replacer = s.manager.replacer)
    (hS.wp_lost_race hI hW hpc hne (by simp [hplace]) fun m hR hI' hreplacer => by
      refine (wp_fetchPage_full hR hI' t hplace' ?_).mono (fun _ _ h => h) ?_
      · rw [hR.frameMeta, hframe', ← hS.rep.frameMeta, hpins]
      · rintro e m' ⟨rfl, rfl⟩
        exact ⟨rfl, hR, hreplacer⟩) hsettle
  refine ⟨hout, ?_, ?_, ?_, hreplacer, hdisk, hguards⟩
  · rw [hR.frameMeta, hframe', hS.rep.frameMeta]
  · exact (hR.pages p).trans ((congrArg Place.entry (hplace'.trans hplace.symm)).trans
      (hS.rep.pages p).symm)
  · exact congrFun (hR.bytes.trans hS.rep.bytes.symm) f

omit [Fintype τ] in
/-- A full count makes `FetchPage` throw, whichever way it has come to its page. -/
theorem Sim.fetch_refused (hS : Sim n N s c) (hI : Owned n c) (hW : Within N c)
    {action : Action τ} {p f : Nat} {s' : System R τ} {out : Outcome}
    (hfetches : s.fetches action = some p) (hentry : s.entry p = ⟨.resident, some f⟩)
    (hpins : (s.manager.frameMeta f).pinCount = maxPinCount)
    (hstep : s.step action = some (s', out)) :
    out = .threw pinOverflowError ∧ s.PinRefused s' p f := by
  have hplace := hS.place_of_entry hentry
  by_cases hevicting : ∃ t ev, action = .resume t ∧ s.pc t = .evicting (.fetchPage p) ev .done
  · obtain ⟨t, ev, rfl, hpc⟩ := hevicting
    exact hS.fetch_full_evicting hI hW hpc hplace hpins hstep
  · obtain ⟨hout, hm, hdisk, hguards⟩ := hS.fetch_full hI hfetches
      (fun t ev ht hpc => hevicting ⟨t, ev, ht, hpc⟩) hplace hpins hstep
    exact ⟨hout, ⟨by rw [hm], by rw [System.entry, hm]; rfl, by rw [System.bytes, hm]; rfl,
      by rw [hm], hdisk, hguards⟩⟩

/-! ## A page with many guards -/

/-- One frame, whose page `0` is dirty and has `k` guards and as many pins. -/
structure Held (k : Nat) (s : System ClockReplacer (Fin 1)) : Prop where
  reachable : Reachable (System.Initial 1 1) (Under System.NoOverflow System.Trans) s
  idle : s.pc 0 = .idle
  entry : s.entry 0 = ⟨.resident, some 0⟩
  frameMeta : s.manager.frameMeta 0 = ⟨some 0, k, true, 1, .resident⟩
  guards : s.guards = List.replicate k ⟨true, 0, 0⟩

namespace Held

variable {k : Nat} {s : System ClockReplacer (Fin 1)}

/-- The protocol's view of it. -/
theorem view (h : Held k s) : ∃ c, Sim 1 1 s c ∧ Owned 1 c ∧ c.place 0 = .resident 0 ∧
    c.frame 0 = .resident ⟨0, k, true, 1, true⟩ := by
  obtain ⟨c, hS, hsound, -⟩ := pinned_of_reachable h.reachable
  have hplace := hS.place_of_entry h.entry
  obtain ⟨r, hr, hpage, hlisted⟩ := hsound.owned.resident hplace
  have hmeta := h.frameMeta
  rw [hS.rep.frameMeta, hr, Use.meta, FrameMeta.mk.injEq] at hmeta
  obtain ⟨-, hpins, hdirty, hepoch, -⟩ := hmeta
  refine ⟨c, hS, hsound.owned, hplace, ?_⟩
  rw [hr]
  cases r
  simp_all

/-- Its thread can call whatever it likes. -/
theorem step_call (h : Held k s) (call : Call) :
    s.step (.call 0 call) = some (s.settle 0 (System.start 0 call)) :=
  if_pos h.idle

/-- After `NewPage`. -/
theorem start : ∃ s, Held 1 s := by
  obtain ⟨s, hreach, hidle, hentry, hmeta, hguards⟩ := exists_of_runNew (n := 1) (N := 1)
    (P := fun s : System ClockReplacer (Fin 1) => s.pc 0 = .idle ∧
      s.entry 0 = ⟨.resident, some 0⟩ ∧
      s.manager.frameMeta 0 = ⟨some 0, 1, true, 1, .resident⟩ ∧ s.guards = [⟨true, 0, 0⟩])
    (show (System.runNew System.NoOverflow 1 1 [.call (0 : Fin 1) .newPage]).any _ = true by
      decide +kernel)
  exact ⟨s, hreach, hidle, hentry, hmeta, hguards⟩

/-- `FetchPage` adds a guard and a pin. -/
theorem fetch (h : Held k s) (hk : k ≠ maxPinCount) : ∃ s, Held (k + 1) s := by
  obtain ⟨c, hS, hI, hplace, hr⟩ := h.view
  have hwp : wp (Manager.fetchPage (0 : Fin 1) 0 : Locked ClockReplacer (Fin 1) Next)
      (fun next m => next = .returned (.guard ⟨true, 0, 0⟩) ∧ Represents 1 1 m
        ((c.setUse 0 (.resident ⟨0, k + 1, true, 1, true⟩)).enlist 0))
      (fun _ _ => False) s.manager := by
    rw [Manager.fetchPage, Manager.fetchLoop, wp_bind]
    refine hS.rep.wp_pageState ?_ fun hunused => by simp [hplace] at hunused
    simp only [hplace, Place.entry]
    exact hS.rep.wp_pin (r := ⟨0, k, true, 1, true⟩) hI hplace hr hk fun m hR => ⟨rfl, hR⟩
  cases hm : Manager.fetchPage (0 : Fin 1) 0 s.manager with
  | error e m => exact (hwp.error hm).elim
  | ok next m =>
    obtain ⟨rfl, hR⟩ := hwp.ok hm
    have hstep := h.step_call (.fetchPage 0)
    rw [System.settle_guard (x := System.start 0 (.fetchPage 0)) hm] at hstep
    have hok : s.NoOverflow (.call 0 (.fetchPage 0), .returned (.guard ⟨true, 0, 0⟩)) := by
      rintro ⟨p, caller, f, hvisits, -⟩
      cases hvisits
    refine ⟨_, h.reachable.step (e := (_, _)) ⟨hok, hstep, by simp⟩, by simp, ?_, ?_, ?_⟩
    · refine (hR.pages 0).trans ?_
      simp [hplace, Place.entry]
    · refine (hR.frameMeta 0).trans ?_
      simp [Use.meta]
    · rw [List.replicate_succ', ← h.guards]

/-- Any number of guards up to the largest count. -/
theorem reaches (hk : 1 ≤ k) (hle : k ≤ maxPinCount) : ∃ s, Held k s := by
  induction k, hk using Nat.le_induction with
  | base => exact start
  | succ k hk ih =>
    obtain ⟨s, h⟩ := ih (by omega)
    exact h.fetch (by omega)

/-- `FlushPage` pins once more. -/
theorem flush (h : Held k s) : ∃ s', System.Trans s (.call 0 (.flushPage 0), .suspended) s' ∧
    s'.entry 0 = ⟨.resident, some 0⟩ ∧
    (s'.manager.frameMeta 0).pinCount = (k + 1) % 2 ^ 32 ∧ s'.guards = s.guards ∧
    s'.pc 0 = .writing 0 0 1 .flushPage .running := by
  obtain ⟨c, hS, hI, hplace, hr⟩ := h.view
  have hwp := hS.rep.wp_capture (t := (0 : Fin 1)) (r := ⟨0, k, true, 1, true⟩) hI hplace hr rfl rfl
    .flushPage (E := fun _ _ => False) (Q := fun next m =>
      next = .suspended (.writing 0 0 1 .flushPage .running) ∧ Represents 1 1 m
        { c.setUse 0 (.resident ⟨0, (k + 1) % 2 ^ 32, true, 1, true⟩) with
          evictable := c.evictable \ {0} }) fun m hR => ⟨rfl, hR⟩
  cases hm : Manager.flushPage (0 : Fin 1) 0 .flushPage s.manager with
  | error e m => exact (hwp.error hm).elim
  | ok next m =>
    obtain ⟨rfl, hR⟩ := hwp.ok hm
    have hstep := h.step_call (.flushPage 0)
    rw [System.settle_suspended (x := System.start 0 (.flushPage 0)) hm] at hstep
    refine ⟨_, ⟨hstep, by simp⟩, ?_, ?_, rfl, by simp⟩
    · refine (hR.pages 0).trans ?_
      simp [hplace, Place.entry]
    · refine (congrArg FrameMeta.pinCount (hR.frameMeta 0)).trans ?_
      simp [Use.meta]

end Held

end Refinement

variable [DecidableEq τ]

/-- As long as no `FlushPage` pins a frame whose count is full, the count of every
frame that holds a page is the number of live guards on it and of `FlushPage`s writing
it; and a `FetchPage` that would take it past its limit throws and leaves the count, the
page and the replacer as they are, with all else if it has not evicted a victim. -/
theorem pin_counts_exact
    (h : Reachable (System.Initial n N) (Under System.NoOverflow System.Trans) s) :
    (∀ p f, s.entry p = ⟨.resident, some f⟩ →
      (s.manager.frameMeta f).pinCount = s.liveGuardsOn f + s.flushesOn f ∧
        (s.manager.frameMeta f).pinCount ≤ maxPinCount) ∧
    ∀ action p f s' out, s.fetches action = some p →
      s.entry p = ⟨.resident, some f⟩ → (s.manager.frameMeta f).pinCount = maxPinCount →
      s.step action = some (s', out) →
      out = .threw pinOverflowError ∧ s.PinRefused s' p f ∧
        ((∀ t ev, action = .resume t → s.pc t ≠ .evicting (.fetchPage p) ev .done) →
          s'.manager = { s.manager with asleep := s'.manager.asleep }) := by
  obtain ⟨c, hS, hsound, hP⟩ := pinned_of_reachable h
  refine ⟨fun p f hentry => ⟨hS.pinCount_eq hsound.owned hP hentry, hS.pinCount_le hP f⟩, ?_⟩
  intro action p f s' out hfetches hentry hpins hstep
  obtain ⟨hout, hrefused⟩ :=
    hS.fetch_refused hsound.owned hsound.within hfetches hentry hpins hstep
  exact ⟨hout, hrefused, fun hevicting =>
    (hS.fetch_full hsound.owned hfetches hevicting (hS.place_of_entry hentry) hpins hstep).2.1⟩

/-- A guard and a `FlushPage` on one page; and `2 ^ 32 - 1` guards on one, which is fetched
once more. -/
theorem pin_counts_exact_flushing :
    (∃ s : System ClockReplacer (Fin 1),
      (s.manager.frameMeta 0).pinCount = 2 ∧ s.liveGuardsOn 0 + s.flushesOn 0 = 2) ∧
    ∃ s s' : System ClockReplacer (Fin 1),
      s.liveGuardsOn 0 + s.flushesOn 0 = 2 ^ 32 - 1 ∧
        s.step (.call 0 (.fetchPage 0)) = some (s', .threw pinOverflowError) ∧
        s.PinRefused s' 0 0 := by
  constructor
  · obtain ⟨s, hreach, hentry, hpins⟩ := exists_of_runNew (n := 1) (N := 1)
      (P := fun s : System ClockReplacer (Fin 1) =>
        s.entry 0 = ⟨.resident, some 0⟩ ∧ (s.manager.frameMeta 0).pinCount = 2)
      (show (System.runNew System.NoOverflow 1 1 [.call (0 : Fin 1) .newPage,
        .call 0 (.flushPage 0)]).any _ = true by decide +kernel)
    exact ⟨s, hpins, ((pin_counts_exact hreach).1 0 0 hentry).1.symm.trans hpins⟩
  · obtain ⟨s, h⟩ := Held.reaches (k := maxPinCount) (by decide) le_rfl
    have hpins : (s.manager.frameMeta 0).pinCount = maxPinCount := by rw [h.frameMeta]
    obtain ⟨hcounts, hrefuses⟩ := pin_counts_exact h.reachable
    obtain ⟨⟨s', out⟩, hstep⟩ : ∃ y, s.step (.call 0 (.fetchPage 0)) = some y :=
      ⟨_, h.step_call _⟩
    obtain ⟨rfl, hrefused, -⟩ := hrefuses _ 0 0 s' out rfl h.entry hpins hstep
    exact ⟨s, s', (hcounts 0 0 h.entry).1.symm.trans hpins, hstep, hrefused⟩

/-! ## The count that wraps -/

/-- With `2 ^ 32 - 1` guards on a page, a `FlushPage` of it takes the count to zero. -/
theorem pin_counts_wrap : ∃ s : System ClockReplacer (Fin 1),
    Reachable (System.Initial 1 1) System.Trans s ∧ s.entry 0 = ⟨.resident, some 0⟩ ∧
      (s.manager.frameMeta 0).pinCount = 0 ∧ s.liveGuardsOn 0 = 2 ^ 32 - 1 ∧
      s.flushesOn 0 = 1 := by
  obtain ⟨s, h⟩ := Held.reaches (k := maxPinCount) (by decide) le_rfl
  obtain ⟨s', hstep, hentry, hpins, hguards, hpc⟩ := h.flush
  refine ⟨s', h.reachable.of_under.step hstep, hentry, hpins, ?_, ?_⟩
  · rw [System.liveGuardsOn, hguards, h.guards, List.countP_replicate]
    rfl
  · rw [System.flushesOn, Finset.card_eq_one]
    refine ⟨0, ?_⟩
    ext t
    obtain rfl := Subsingleton.elim t 0
    simp [hpc, Pc.flushes]

end BufferManager
