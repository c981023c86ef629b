/-
  Refinement/Simulation.lean --- every step of the system is a path of the
  protocol.

  `Sim n N s c` relates the system to a configuration in which every thread is
  suspended.  `step_simulated` is the result: a step of the system runs a path of
  the protocol to a related configuration, the path is noted as the step is, and
  an event of the path that an assumption may exclude is explained by a hazard of
  the step.  What holds of every path of the protocol then holds of the system.
-/
import BufferManager.Manager.Failures
import BufferManager.Refinement.Sections

set_option autoImplicit false

namespace BufferManager

open BufferManager.Lib BufferManager.Protocol

/-- What is about to happen in a step, for the events of its path. -/
def System.hazards {R τ : Type} [Replacer R] [LawfulReplacer R] (s : System R τ)
    (action : Action τ) : Hazards where
  overflow := s.FlushOverflows action
  blocked := s.InstallBlocked action
  loads := s.LoadsReserved action
  deletes := s.DeletesReserved action
  misses := s.SnapshotMisses action
  clash := s.EpochReturns action
  fails := s.Fails action

namespace Refinement

open BufferManager.Manager

variable {R τ : Type} [Replacer R] [LawfulReplacer R]

/-- The system `s` is in the configuration `c`. -/
structure Sim (n N : Nat) (s : System R τ) (c : Cfg τ) : Prop where
  rep : Represents n N s.manager c
  disk : c.disk = s.disk
  phase : ∀ t, c.phase t = .suspended (s.pc t)
  guards : c.guards = s.guards

variable {n N : Nat} {s : System R τ} {c : Cfg τ} {t : τ}

namespace Sim

/-! ## Reading the fields -/

theorem entry_eq (hS : Sim n N s c) (p : Nat) : s.entry p = (c.place p).entry := hS.rep.pages p

theorem place_of_entry (hS : Sim n N s c) {p f : Nat} (h : s.entry p = ⟨.resident, some f⟩) :
    c.place p = .resident f := by
  rw [hS.entry_eq] at h
  cases hx : c.place p <;> simp [hx, Place.entry] at h
  rw [h]

theorem state_nonResident (hS : Sim n N s c) (p : Nat) :
    (s.entry p).state = .nonResident ↔ c.place p = .nonResident := by
  rw [hS.entry_eq, Represents.state_nonResident_iff]

theorem reserves_eq (hS : Sim n N s c) (t : τ) : (c.phase t).reserves = (s.pc t).reserves := by
  rw [hS.phase]
  cases hpc : s.pc t with
  | waitFrame a | evicting a => cases a <;> rfl
  | _ => rfl

theorem reserved_iff (hS : Sim n N s c) (p : Nat) : c.Reserved p ↔ s.Reserved p := by
  simp only [Cfg.Reserved, System.Reserved, hS.reserves_eq]

theorem hasFreeFrame (hS : Sim n N s c) (h : ∃ f, f < n ∧ f ∉ c.allocated) : s.HasFreeFrame := by
  simpa only [System.HasFreeFrame, hS.rep.frameCount, hS.rep.allocated] using h

theorem bytes_eq (hS : Sim n N s c) (f : Nat) : s.bytes f = c.bytes f :=
  congrFun hS.rep.bytes f

theorem flushOverflows (hS : Sim n N s c) {action : Action τ} {p f : Nat} {caller : FlushCaller}
    {r : Tenant} (hv : s.visits action = some (.flushPage p caller))
    (hplace : c.place p = .resident f) (hr : c.frame f = .resident r) (hdirty : r.dirty = true)
    (hpins : r.pins = maxPinCount) : s.FlushOverflows action := by
  refine ⟨p, caller, f, hv, ?_, ?_, ?_⟩
  · rw [hS.entry_eq, hplace]
    rfl
  · rw [hS.rep.frameMeta, hr]
    exact hdirty
  · rw [hS.rep.frameMeta, hr]
    exact hpins

theorem state_unused (hS : Sim n N s c) {p : Nat} (h : c.place p = .unused) :
    (s.entry p).state = .unused := by
  rw [hS.entry_eq, h]
  rfl

theorem entry_of_place (hS : Sim n N s c) {p f : Nat} (h : c.place p = .resident f) :
    s.entry p = ⟨.resident, some f⟩ := by
  rw [hS.entry_eq, h]
  rfl

theorem refuses (hS : Sim n N s c) {v : Visit} {e : Error} (h : Leaves c v e) : s.Refuses v e := by
  cases h with
  | invalid _ hp => exact .invalid v (hS.state_unused hp)
  | fetchUnused p hp => exact .fetchUnused p (hS.state_unused hp)
  | flushUnused p caller hp => exact .flushUnused p caller (hS.state_unused hp)
  | pinOverflow p f r hp hr hpins =>
    refine .pinOverflow p f (hS.entry_of_place hp) ?_
    rw [hS.rep.frameMeta, hr]
    exact hpins
  | deletePinned p f r hp hr hpins =>
    refine .deletePinned p f (hS.entry_of_place hp) ?_
    rw [hS.rep.frameMeta, hr]
    exact hpins

theorem full (hS : Sim n N s c) (h : c.Full n (CompleteReplacer R)) : s.Full := by
  refine ⟨fun f hf => ?_, fun f hf => ?_, fun hcomplete => ?_⟩
  · rw [hS.rep.allocated]
    exact h.allocated f (hS.rep.frameCount ▸ hf)
  · rw [hS.rep.frameMeta]
    have hnot : ¬ (c.frame f).transient := fun ht => h.settled ⟨f, hS.rep.frameCount ▸ hf, ht⟩
    cases hu : c.frame f <;> simp_all [Use.meta, Use.transient]
  · rw [hS.rep.evictable]
    exact h.unevictable hcomplete

theorem unpinnable (hS : Sim n N s c) {f : Nat} (h : c.Unpinnable f) : s.Unpinnable f := by
  intro hstate
  rw [hS.rep.frameMeta] at hstate ⊢
  rw [hS.rep.present]
  cases hu : c.frame f with
  | resident r => exact h r hu
  | _ =>
    rw [hu] at hstate
    cases hstate

theorem snapshotMisses (hS : Sim n N s c) (hI : Owned n c) (t : τ) (h : c.EvictsDirty) :
    s.SnapshotMisses (.call t .flushAllPages) := by
  obtain ⟨f, p, epoch, hf⟩ := h
  have hlt := hI.allocated_lt f (hI.allocated_of_use (by simp [hf]))
  refine ⟨t, f, rfl, by rw [hS.rep.frameCount]; exact hlt, ?_, ?_⟩ <;>
    rw [hS.rep.frameMeta, hf] <;> rfl

end Sim

/-! ## Entering a call -/

variable [DecidableEq τ]

/-- What a visit may run into is among the hazards `h`. -/
structure VisitExplained (h : Hazards) (n : Nat) (complete : Prop) (t : τ) (c : Cfg τ)
    (v : Visit) : Prop where
  overflow : ∀ p caller f r, v = .flushPage p caller → c.place p = .resident f →
    c.frame f = .resident r → r.dirty = true → r.pins = maxPinCount → h.overflow
  loads : ∀ p, v = .fetchPage p → (∃ f, f < n ∧ f ∉ c.allocated) → c.place p = .nonResident →
    ReservedByOther c t p → h.loads
  deletes : ∀ p, v = .deletePage p → ReservedByOther c t p → h.deletes
  leaves : ∀ e, Leaves c v e → h.fails e
  full : ∀ p, v = .fetchPage p → c.place p = .nonResident → c.Full n complete →
    h.fails ⟨.runtimeError, "no frame available"⟩

omit [DecidableEq τ] in
theorem Sim.visitExplained (hS : Sim n N s c) {a : Action τ} {v : Visit}
    (hv : s.visits a = some v) (t : τ) :
    VisitExplained (s.hazards a) n (CompleteReplacer R) t c v := by
  have hreserved : ∀ p, ReservedByOther c t p → s.Reserved p := fun p ⟨u, _, hu⟩ =>
    (hS.reserved_iff p).mp ⟨u, hu⟩
  refine ⟨?_, ?_, ?_, fun e he => .refused hv (hS.refuses he), ?_⟩
  · rintro p caller f r rfl hplace hr hdirty hpins
    exact hS.flushOverflows hv hplace hr hdirty hpins
  · rintro p rfl hfree hplace hres
    exact Or.inl ⟨p, hv, hS.hasFreeFrame hfree, (hS.state_nonResident p).mpr hplace,
      hreserved p hres⟩
  · rintro p rfl hres
    exact ⟨p, hv, hreserved p hres⟩
  · rintro p rfl hplace hfull
    exact .noFrame (.fetchPage p hv ((hS.state_nonResident p).mpr hplace)) (hS.full hfull)

/-- The piece `x` of a call of `t`, started in the fields `m`, runs a path from `c` and
ends as the rest of the call does that has noted `before`. -/
def RunsFrom (n N : Nat) (h : Hazards) (t : τ) (c : Cfg τ) (before : List (Note τ))
    (creates : Bool) (deletes : Option Nat) (x : Locked R τ Next) (m : Manager R τ) : Prop :=
  wp x
    (fun next m' => ∃ es c', Path (StepBy n N (CompleteReplacer R) t) c es c' ∧
      Represents n N m' c' ∧ Goes h t c before creates deletes next es c')
    (fun e m' => ∃ es c', Path (StepBy n N (CompleteReplacer R) t) c es c' ∧
      Represents n N m' c' ∧ Throws h t c before e es c') m

section

variable {h : Hazards} {earlier before : List (Note τ)} {creates : Bool} {deletes : Option Nat}
  {x : Locked R τ Next} {m : Manager R τ} {e : Event τ} {c₁ : Cfg τ}

/-- The first step of a piece is a decision that the fields do not show. -/
theorem RunsFrom.of_runs (hstep : StepBy n N (CompleteReplacer R) t c e c₁)
    (htold : Told h [e] earlier) (hguards : c₁.guards = c.guards)
    (hrun : Runs n N t c₁ x (Goes h t c₁ before creates deletes) (Throws h t c₁ before))
    (hR : Represents n N m c₁) : RunsFrom n N h t c (earlier ++ before) creates deletes x m := by
  refine (hrun m hR).mono ?_ ?_
  · rintro next m' ⟨es, c', hpath, hrep, hgoes⟩
    exact ⟨_, c', .cons hstep hpath, hrep, hgoes.after htold hguards⟩
  · rintro er m' ⟨es, c', hpath, hrep, ht⟩
    exact ⟨_, c', .cons hstep hpath, hrep, ht.after htold hguards⟩

/-- A visit, from the thread that is about to make it. -/
theorem visit_runs {d : Cfg τ} (hI : Owned n c) (hW : Within N c) {v : Visit}
    (hx : VisitExplained h n (CompleteReplacer R) t c v)
    (hstep : StepBy n N (CompleteReplacer R) t c e d)
    (htold : Told h [e] earlier) (hguards : d.guards = c.guards)
    (hph : d.phase t = .visiting v) (hplace : d.place = c.place) (hframe : d.frame = c.frame)
    (hallocated : d.allocated = c.allocated) (hevictable : d.evictable = c.evictable)
    (hR : Represents n N m d) :
    RunsFrom n N h t c earlier false (Pc.waitPage v).deletes (visit t v) m := by
  have hI₁ := Owned.step hstep.step hI
  have hW₁ := Within.step hstep.step hW
  have hothers : ∀ p, ReservedByOther d t p → ReservedByOther c t p := fun p hp =>
    hp.of_path (.single hstep)
  have hleaves : ∀ er, Leaves d v er → h.fails er := fun er her =>
    hx.leaves er (her.congr (by rw [hplace]) fun f _ => by rw [hframe])
  rw [← List.append_nil earlier]
  refine RunsFrom.of_runs hstep htold hguards ?_ hR
  cases v with
  | fetchPage p =>
    refine fetchPage_runs hI₁ hW₁ hph (fun hfree hp hres => ?_) hleaves fun hp hfull => ?_
    · rw [hallocated] at hfree
      rw [hplace] at hp
      exact hx.loads p rfl hfree hp (hothers p hres)
    · rw [hplace] at hp
      exact hx.full p rfl hp (hfull.congr hframe hallocated hevictable)
  | flushPage p caller =>
    refine flushPage_runs hI₁ hph (fun f r hp hr hdirty hpins => ?_) hleaves
    rw [hplace] at hp
    rw [hframe] at hr
    exact hx.overflow p caller f r rfl hp hr hdirty hpins
  | deletePage p =>
    refine deletePage_runs hI₁ hph (fun hres => ?_) hleaves
    exact hx.deletes p rfl (hothers p (reservedByOther (by rw [hph]; rfl) hres))

end

/-- The first piece of a call. -/
theorem start_runs (hS : Sim n N s c) (hI : Owned n c) (hW : Within N c) (hidle : s.pc t = .idle)
    (call : Call) :
    RunsFrom n N (s.hazards (.call t call)) t c (call.notes t) call.isNewPage call.deletes
      (System.start t call) s.manager := by
  have hph : c.phase t = .suspended .idle := by rw [hS.phase, hidle]
  have hvisit : ∀ v, Visit.IsCall v → s.visits (.call t call) = some v →
      RunsFrom n N (s.hazards (.call t call)) t c [.called t v] false (Pc.waitPage v).deletes
        (visit t v) s.manager := fun v hv hvisits =>
    visit_runs (d := c.goto t (.visiting v)) hI hW (hS.visitExplained hvisits t)
      ⟨.visit t v hph hv, by simp +contextual, by simp, rfl, by simp⟩
        ⟨rfl, by simp [Event.Explained]⟩ rfl
      (by simp) rfl rfl rfl rfl (hS.rep.goto _)
  cases call with
  | newPage =>
    exact newPage_runs hI hW hph (fun hids => System.Fails.noIds t (hS.rep.upcoming.trans hids))
      (fun _ => System.Fails.blocked)
      (fun hfull => System.Fails.noFrame (.newPage t) (hS.full hfull)) s.manager hS.rep
  | fetchPage p => exact hvisit (.fetchPage p) trivial rfl
  | flushPage p => exact hvisit (.flushPage p .flushPage) rfl rfl
  | deletePage p => exact hvisit (.deletePage p) trivial rfl
  | flushAllPages =>
    exact flushAllPages_runs hph (hS.snapshotMisses hI t) s.manager hS.rep

omit [DecidableEq τ] in
theorem told_evicted (h : Hazards) (t : τ) (a : Acquirer) (ev : Eviction) :
    Told h [if ev.dirty = true then (.wrote t ev.oldPageId : Event τ) else .silent]
      ((Pc.evicting a ev .done).notes t) := by
  cases hd : ev.dirty
  · exact ⟨by simp [Pc.notes, Pc.wrote, hd, Event.note], by simp [Event.Explained]⟩
  · exact ⟨by simp [Pc.notes, Pc.wrote, hd, Event.note], by simp [Event.Explained]⟩

/-- An acquisition that comes back from its eviction window. -/
theorem evicted_runs (hI : Owned n c) (h : Hazards) {a : Acquirer} {ev : Eviction} {io : Io}
    {failure : Option Error} (hph : c.phase t = .suspended (.evicting a ev io))
    (hio : io.outcome = some failure) (hcause : ∀ e, failure = some e → h.fails e) :
    Runs n N t c (finishEviction ev failure : Locked R τ Unit)
      (fun _ es c' => io = .done ∧ c'.guards = c.guards ∧
        Told h es ((Pc.evicting a ev io).notes t) ∧ c'.phase t = .holding a ev.frameId ∧
        c'.place = Function.update c.place ev.oldPageId .nonResident ∧
        c'.frame = Function.update c.frame ev.frameId .free)
      (Fails h t c a ((Pc.evicting a ev io).notes t)) := by
  refine (finishEviction_runs hI hph hio).mono ?_ ?_
  · rintro ⟨⟩ es c' - ⟨rfl, rfl, hguards, hphase, hplace⟩
    obtain rfl : io = .done := by
      cases io <;> simp [Io.outcome] at hio
      rfl
    exact ⟨rfl, hguards, told_evicted h t a ev, hphase, hplace⟩
  · rintro e es c' - ⟨rfl, rfl, hguards, hphase⟩
    obtain rfl : io = .failed e := by
      cases io <;> simp [Io.outcome] at hio
      rw [hio]
    refine ⟨hguards, ⟨?_, ?_⟩, hphase, hcause e rfl⟩
    · cases a <;> rfl
    · cases a <;> simp [failEvent, Event.Explained]

/-- The next piece of a suspended call. -/
theorem resume_runs (hS : Sim n N s c) (hI : Owned n c) (hW : Within N c)
    {piece : Locked R τ Next} (hpiece : resume t (s.pc t) = some piece) :
    RunsFrom n N (s.hazards (.resume t)) t c ((s.pc t).notes t) (s.pc t).isNewPage
      (s.pc t).deletes piece s.manager := by
  have hph := hS.phase t
  have hdisk : ∀ (io : Io) (failure : Option Error), (s.pc t).failure = io.failure →
      io.outcome = some failure → ∀ e, failure = some e → s.Fails (.resume t) e :=
    fun _ _ hio hout _ he => .disk (hio.trans (Io.failure_of_outcome hout he))
  cases hpc : s.pc t with
  | idle =>
    rw [hpc] at hpiece
    exact absurd hpiece (by simp [resume])
  | waitPage v =>
    rw [hpc] at hpiece hph
    obtain rfl := Option.some.inj hpiece
    unfold RunsFrom
    rw [wp_bind, wake, wp_modify]
    exact visit_runs (d := { c with asleep := c.asleep.erase t }.goto t (.visiting v)) hI hW
      (hS.visitExplained (a := .resume t) (by simp [System.visits, hpc]) t)
      ⟨.wakePage t v hph, by simp +contextual, by simp +contextual, rfl, by simp⟩
        (Told.silent _) rfl
      (by simp) rfl rfl rfl rfl ((hS.rep.wake t).goto _)
  | nextFlush p rest =>
    rw [hpc] at hpiece hph
    obtain rfl := Option.some.inj hpiece
    exact visit_runs (v := .flushPage p (.flushAllPages rest))
      (d := c.goto t (.visiting (.flushPage p (.flushAllPages rest)))) hI hW
      (hS.visitExplained (a := .resume t) (by simp [System.visits, hpc]) t)
      ⟨.nextFlush t p rest hph, by simp +contextual, by simp, rfl, by simp⟩ (Told.silent _) rfl
        (by simp)
      rfl rfl rfl rfl (hS.rep.goto _)
  | waitFrame a =>
    rw [hpc] at hpiece hph
    have hstep : StepBy n N (CompleteReplacer R) t c .silent
        ({ c with asleep := c.asleep.erase t }.goto t (.acquiring a)) :=
      ⟨.wakeFrame t a hph, by simp +contextual, by simp +contextual, rfl, by simp⟩
    have hI₁ := Owned.step hstep.step hI
    have hW₁ := Within.step hstep.step hW
    cases a with
    | newPage p =>
      obtain rfl := Option.some.inj hpiece
      unfold RunsFrom
      rw [wp_bind, wake, wp_modify]
      refine RunsFrom.of_runs hstep (Told.silent _) rfl (newPageTry_runs hI₁ hW₁
        (fun _ => System.Fails.blocked)
        (acquireFrameLocked_newPage hI₁ (by simp) (fun hfree hne => ?_)
          fun hfull => System.Fails.noFrame (.again _ hpc) (hS.full { hfull with })))
        ((hS.rep.wake t).goto _)
      refine ⟨t, rfl, ?_⟩
      rw [hpc]
      exact ⟨hS.hasFreeFrame hfree, fun h => hne ((hS.state_nonResident p).mp h)⟩
    | fetchPage p =>
      obtain rfl := Option.some.inj hpiece
      unfold RunsFrom
      rw [wp_bind, wake, wp_modify]
      refine RunsFrom.of_runs hstep (Told.silent _) rfl (fetchPageWith_runs hI₁ hW₁
        ((acquireFrameForFetchLocked_runs hI₁ hW₁ (by simp) (fun hfree hp hres => ?_)
          (fun hfull => System.Fails.noFrame (.again _ hpc) (hS.full { hfull with }))
          fun _ e he => System.Fails.recheck hpc (hS.refuses (he.congr rfl fun _ _ => rfl))).mono
          (fun _ _ _ _ h => h.1) fun _ _ _ _ h => h)) ((hS.rep.wake t).goto _)
      refine Or.inr ⟨t, rfl, ?_⟩
      rw [hpc]
      obtain ⟨u, -, hu⟩ := hres.of_path (.single hstep)
      exact ⟨hS.hasFreeFrame hfree, (hS.state_nonResident p).mpr hp,
        (hS.reserved_iff p).mp ⟨u, hu⟩⟩
  | evicting a ev io =>
    rw [hpc] at hpiece hph
    cases a with
    | newPage p =>
      obtain ⟨failure, hio, rfl⟩ := Option.map_eq_some_iff.mp hpiece
      refine newPageTry_runs hI hW (fun _ => System.Fails.blocked) ?_ s.manager hS.rep
      refine Simulates.bind (evicted_runs hI _ hph hio (hdisk io failure (by rw [hpc]; rfl) hio)) ?_
        fun _ _ _ _ hf => hf
      rintro ⟨⟩ es c₁ - ⟨rfl, hguards, htold, hphase, hplace, -⟩
      refine Simulates.pure ⟨hguards, by simpa using htold, hphase, fun hne => ⟨t, rfl, ?_⟩⟩
      rw [hpc]
      rw [hplace] at hne
      by_cases heq : p = ev.oldPageId
      · exact absurd (by simp [heq]) hne
      · refine ⟨heq, fun h => hne ?_⟩
        rw [Function.update_of_ne heq]
        exact (hS.state_nonResident p).mp h
    | fetchPage p =>
      obtain ⟨failure, hio, rfl⟩ := Option.map_eq_some_iff.mp hpiece
      refine fetchPageWith_runs hI hW ?_ s.manager hS.rep
      refine Simulates.bind (evicted_runs hI _ hph hio (hdisk io failure (by rw [hpc]; rfl) hio)) ?_
        fun _ _ _ _ hf => hf
      rintro ⟨⟩ es c₁ hpath ⟨rfl, hguards, htold, hphase, hplace, hframe⟩
      refine (keepIfNonResident_runs (h := s.hazards (.resume t)) (owned_of_path hpath hI)
        (within_of_path hpath hW) hphase (fun hp hres => Or.inr ⟨t, rfl, ?_⟩)
        fun hp e he =>
          System.Fails.lostRace hpc (hS.refuses (he.before_eviction hI hph hplace hframe hp))).mono
          ?_ ?_
      · rw [hpc]
        obtain ⟨u, -, hu⟩ := hres.of_path hpath
        refine ⟨?_, (hS.reserved_iff p).mp ⟨u, hu⟩⟩
        rw [hplace] at hp
        by_cases heq : p = ev.oldPageId
        · exact Or.inl heq
        · rw [Function.update_of_ne heq] at hp
          exact Or.inr ((hS.state_nonResident p).mpr hp)
      · intro r es' c' _ hr
        simpa using hr.after htold hguards
      · intro e es' c' _ hf
        simpa using hf.after htold hguards
  | reading p f io =>
    rw [hpc] at hpiece hph
    obtain ⟨failure, hio, rfl⟩ := Option.map_eq_some_iff.mp hpiece
    exact finishLoad_runs hI hph hio (hdisk io failure (by rw [hpc]; rfl) hio) s.manager hS.rep
  | writing p f epoch caller io =>
    rw [hpc] at hpiece hph
    obtain ⟨failure, hio, rfl⟩ := Option.map_eq_some_iff.mp hpiece
    exact finishFlush_runs hI _ hph hio (hdisk io failure (by rw [hpc]; rfl) hio)
      (fun e he => System.Fails.unpin hpc (hS.unpinnable he)) s.manager hS.rep

/-! ## Steps -/

/-- What the step of the system from `s`, related to `c`, does in the protocol. -/
structure Simulated (n N : Nat) (s : System R τ) (action : Action τ) (s' : System R τ)
    (out : Outcome) (c : Cfg τ) (es : List (Event τ)) (c' : Cfg τ) : Prop where
  path : Path (Step n N (CompleteReplacer R)) c es c'
  sim : Sim n N s' c'
  told : Told (s.hazards action) es (s.notes action out)

/-- What the piece of a call of thread `t` does in the protocol. -/
structure SimulatedBy (n N : Nat) (h : Hazards) (t : τ) (out : Outcome) (c : Cfg τ)
    (before : List (Note τ)) (creates : Bool) (deletes : Option Nat) (s' : System R τ)
    (es : List (Event τ)) (c' : Cfg τ) : Prop where
  path : Path (StepBy n N (CompleteReplacer R) t) c es c'
  sim : Sim n N s' c'
  told : Told h es (before ++ out.notes t creates deletes)
  threw : ∀ e, out = .threw e → h.fails e
  lands : ∀ g, out = .returned (.guard g) → c'.place g.pageId = .resident g.frameId
  clears : ∀ p, out = .returned .unit → deletes = some p → c'.place p = .unused
  lives : out ≠ .terminated
  /-- A call that goes on has moved. -/
  moves : out = .suspended → es ≠ []

/-- Where a path of thread `t` leads is related to the system in which `t` has moved. -/
theorem Sim.of_path (hS : Sim n N s c) {es : List (Event τ)} {c' : Cfg τ} {m : Manager R τ}
    {pc : Pc} {l : List PageGuard} (hpath : Path (StepBy n N (CompleteReplacer R) t) c es c')
    (hrep : Represents n N m c') (hphase : c'.phase t = .suspended pc)
    (hguards : c'.guards = c.guards ++ l) :
    Sim n N { s with
      manager := m
      pc := Function.update s.pc t pc
      guards := s.guards ++ l } c' := by
  refine ⟨hrep, ?_, fun u => ?_, by rw [hguards, hS.guards]⟩
  · refine Eq.trans (hpath.preserves (P := fun _ => True) (I := fun c₁ => c₁.disk = c.disk)
      (fun _ _ _ _ hs h => hs.disk.trans h) (fun _ _ => trivial) rfl) hS.disk
  · by_cases hu : u = t
    · subst hu
      simpa using hphase
    · rw [phase_of_path hpath hu, hS.phase]
      simp [hu]

/-- A piece of a call, with what is put down of its end. -/
theorem settle_simulated (hS : Sim n N s c) {h : Hazards} {before : List (Note τ)}
    {creates : Bool} {deletes : Option Nat} {piece : Locked R τ Next}
    (hrun : RunsFrom n N h t c before creates deletes piece s.manager) :
    ∃ es c', SimulatedBy n N h t (s.settle t piece).2 c before creates deletes
      (s.settle t piece).1 es c' := by
  cases hp : piece s.manager with
  | ok next m =>
    obtain ⟨es, c', hpath, hrep, hgoes⟩ := hrun.ok hp
    refine ⟨es, c', ?_⟩
    cases next with
    | suspended pc =>
      rw [System.settle_suspended hp]
      refine ⟨hpath, ?_, hgoes.told, by simp, by simp, by simp, by simp, fun _ => hgoes.moves⟩
      simpa [guardsOf] using hS.of_path hpath hrep hgoes.phase hgoes.guards
    | returned r =>
      cases r with
      | unit =>
        rw [System.settle_unit hp]
        refine ⟨hpath, ?_, hgoes.told, by simp, by simp, fun p _ hp => hgoes.lands p hp, by simp,
          by simp⟩
        simpa [guardsOf] using hS.of_path hpath hrep hgoes.phase hgoes.guards
      | guard g =>
        rw [System.settle_guard hp]
        refine ⟨hpath, hS.of_path hpath hrep hgoes.phase hgoes.guards, hgoes.told, by simp, ?_,
          by simp, by simp, by simp⟩
        rintro g' hg'
        obtain rfl : g = g' := by simpa using hg'
        exact hgoes.lands
  | error e m =>
    obtain ⟨es, c', hpath, hrep, ht⟩ := hrun.error hp
    rw [System.settle_error hp]
    refine ⟨es, c', hpath, ?_, ht.told, ?_, by simp, by simp, by simp, by simp⟩
    · have := hS.of_path (l := []) hpath hrep ht.phase (by simpa using ht.guards)
      simpa using this
    · rintro e' he'
      obtain rfl : e = e' := by simpa using he'
      exact ht.cause

theorem call_simulated (hS : Sim n N s c) (hI : Owned n c) (hW : Within N c) {call : Call}
    {s' : System R τ} {out : Outcome} (hstep : s.step (.call t call) = some (s', out)) :
    ∃ es c', SimulatedBy n N (s.hazards (.call t call)) t out c (call.notes t) call.isNewPage
      call.deletes s' es c' := by
  by_cases hidle : s.pc t = .idle
  · simp only [System.step, hidle, if_true, Option.some.injEq] at hstep
    have := settle_simulated hS (start_runs hS hI hW hidle call)
    rwa [hstep] at this
  · simp [System.step, hidle] at hstep

theorem resume_simulated (hS : Sim n N s c) (hI : Owned n c) (hW : Within N c)
    {s' : System R τ} {out : Outcome} (hstep : s.step (.resume t) = some (s', out)) :
    ∃ es c', SimulatedBy n N (s.hazards (.resume t)) t out c ((s.pc t).notes t)
      (s.pc t).isNewPage (s.pc t).deletes s' es c' := by
  obtain ⟨piece, hpiece, hsettle⟩ := Option.map_eq_some_iff.mp hstep
  have := settle_simulated hS (resume_runs hS hI hW hpiece)
  rwa [hsettle] at this

/-! ## The disk -/

/-- A transfer's instant: the disk or a frame changes, and thread `t` goes on. -/
theorem Sim.transferred (hS : Sim n N s c) {m : Manager R τ} {disk : Nat → Page} {pc : Pc}
    {d : Cfg τ} (hrep : Represents n N m d) (hdisk : d.disk = disk)
    (hphase : d.phase = c.phase) (hguards : d.guards = c.guards) :
    Sim n N { s with
      manager := m
      disk := disk
      pc := Function.update s.pc t pc } (d.goto t (.suspended pc)) := by
  refine ⟨hrep.goto _, hdisk, fun u => ?_, hguards.trans hS.guards⟩
  by_cases hu : u = t
  · subst hu
    simp
  · simpa [hu, hphase] using hS.phase u

/-- A step of the disk is one step of the protocol. -/
theorem transfer_simulated (hS : Sim n N s c) {s' : System R τ}
    (hstep : s.transfer t = some s') :
    ∃ e c', Step n N (CompleteReplacer R) c e c' ∧ Sim n N s' c' ∧
      e.note.toList = (s.pc t).copies.toList.map (.copied t) ∧ ∀ h, e.Explained h := by
  have hph := hS.phase t
  unfold System.transfer at hstep
  split at hstep
  · next a ev hpc =>
    rw [hpc] at hph ⊢
    obtain rfl := Option.some.inj hstep
    refine ⟨_, _, .evictCopy t a ev hph, ?_, rfl, by simp [Event.Explained]⟩
    refine hS.transferred (d := c.setDisk ev.oldPageId (c.bytes ev.frameId)) { hS.rep with } ?_
      rfl rfl
    simp [System.setDisk, hS.bytes_eq, hS.disk]
  · next p f hpc =>
    rw [hpc] at hph ⊢
    obtain rfl := Option.some.inj hstep
    refine ⟨_, _, .readCopy t p f hph, ?_, rfl, by simp [Event.Explained]⟩
    rw [hS.disk]
    exact hS.transferred (hS.rep.setBytes f (s.disk p)) hS.disk rfl rfl
  · next p f epoch caller hpc =>
    rw [hpc] at hph ⊢
    obtain rfl := Option.some.inj hstep
    refine ⟨_, _, .writeCopy t p f epoch caller hph, ?_, rfl, by simp [Event.Explained]⟩
    refine hS.transferred (d := c.setDisk p (c.bytes f)) { hS.rep with } ?_ rfl rfl
    simp [System.setDisk, hS.bytes_eq, hS.disk]
  · exact absurd hstep (by simp)

theorem failRead_simulated (hS : Sim n N s c) {s' : System R τ} {left : Page} {e : Error}
    (hstep : s.failRead t left e = some s') :
    ∃ c', Step n N (CompleteReplacer R) c .silent c' ∧ Sim n N s' c' := by
  have hph := hS.phase t
  unfold System.failRead at hstep
  split at hstep
  · next p f hpc =>
    rw [hpc] at hph
    obtain rfl := Option.some.inj hstep
    exact ⟨_, .readCopyFailed t p f left e hph,
      hS.transferred (hS.rep.setBytes f left) hS.disk rfl rfl⟩
  · exact absurd hstep (by simp)

theorem failWrite_simulated (hS : Sim n N s c) {s' : System R τ} {k : Nat} {e : Error}
    (hstep : s.failWrite t k e = some s') :
    ∃ c', Step n N (CompleteReplacer R) c .silent c' ∧ Sim n N s' c' := by
  have hph := hS.phase t
  unfold System.failWrite at hstep
  split at hstep
  · next a ev hpc =>
    rw [hpc] at hph
    obtain rfl := Option.some.inj hstep
    refine ⟨_, .evictCopyFailed t a ev k e hph, ?_⟩
    refine hS.transferred { hS.rep with } ?_ rfl rfl
    simp [System.setDisk, hS.bytes_eq, hS.disk]
  · next p f epoch caller hpc =>
    rw [hpc] at hph
    obtain rfl := Option.some.inj hstep
    refine ⟨_, .writeCopyFailed t p f epoch caller k e hph, ?_⟩
    refine hS.transferred { hS.rep with } ?_ rfl rfl
    simp [System.setDisk, hS.bytes_eq, hS.disk]
  · exact absurd hstep (by simp)

/-! ## Guards -/

omit [DecidableEq τ] in
theorem Sim.guard_eq (hS : Sim n N s c) {slot : Nat} {g : PageGuard}
    (hg : s.guards[slot]? = some g) : c.guards[slot]? = some g := by
  rw [hS.guards]
  exact hg

/-- `DropPageGuard` unpins the frame, or finds that it has another page. -/
theorem Represents.wp_dropPageGuard {m : Manager R τ} {Q : Unit → Manager R τ → Prop}
    {E : Error → Manager R τ → Prop} (h : Represents n N m c) (hI : Owned n c) {p f : Nat}
    (hok : ∀ c' m', (c.frame f).meta.pageId = some p → Unpin c f c' none →
      Represents n N m' c'.notify → Q () m')
    (herror : ∀ c' m' e, (c.frame f).meta.pageId = some p → Unpin c f c' (some e) →
      Represents n N m' c' → E e m')
    (hstale : ∀ e, (c.frame f).meta.pageId ≠ some p → E e m) :
    wp (dropPageGuard p f : Locked R τ Unit) Q E m := by
  rw [dropPageGuard, wp_bind, metaOf, wp_bind, wp_get, wp_pure, h.frameMeta]
  by_cases hp : (c.frame f).meta.pageId = some p
  · rw [if_neg (not_not.mpr hp), wp_bind]
    exact h.wp_unpinFrameLocked hI (fun c' m' hunpin hR => hok c' _ hp hunpin hR.notify)
      fun c' m' e hunpin hR => herror c' m' e hp hunpin hR
  · rw [if_pos hp, wp_throw]
    exact hstale _ hp

/-- Dropping a valid guard. -/
theorem dropGuard_simulated (hS : Sim n N s c) (hI : Owned n c) {slot : Nat} {g : PageGuard}
    (hg : s.guards[slot]? = some g) (hv : g.valid = true) {s' : System R τ}
    {failure : Option Error} (hdrop : s.dropGuard slot g = (s', failure)) :
    ∃ c', Step n N (CompleteReplacer R) c (.dropped slot failure) c' ∧ Sim n N s' c' ∧
      s'.guards = s.guards.set slot {} := by
  have hg' := hS.guard_eq hg
  have hR : Represents n N (s.setGuard slot {}).manager { c with guards := c.guards.set slot {} } :=
    { hS.rep with }
  have hI₁ : Owned n { c with guards := c.guards.set slot {} } :=
    hI.congr rfl rfl rfl rfl rfl rfl fun _ => rfl
  have hwp := hR.wp_dropPageGuard (p := g.pageId) (f := g.frameId) hI₁
    (Q := fun _ m' => ∃ c', Step n N (CompleteReplacer R) c (.dropped slot none) c' ∧
      Sim n N { s with
        manager := m'
        guards := s.guards.set slot {} } c')
    (E := fun e m' => ∃ c', Step n N (CompleteReplacer R) c (.dropped slot (some e)) c' ∧
      Sim n N { s with
        manager := m'
        guards := s.guards.set slot {} } c') ?_ ?_ ?_
  · simp only [System.dropGuard, hv, if_true] at hdrop
    cases hm : dropPageGuard g.pageId g.frameId (s.setGuard slot {}).manager with
    | ok u m =>
      simp only [hm] at hdrop
      obtain ⟨rfl, rfl⟩ := Prod.mk.inj hdrop
      obtain ⟨c', hstep, hsim⟩ := hwp.ok hm
      exact ⟨c', hstep, hsim, rfl⟩
    | error e m =>
      simp only [hm] at hdrop
      obtain ⟨rfl, rfl⟩ := Prod.mk.inj hdrop
      obtain ⟨c', hstep, hsim⟩ := hwp.error hm
      exact ⟨c', hstep, hsim, rfl⟩
  · intro c' m' hp hunpin hR'
    have hframe := hunpin.frame_only
    exact ⟨_, .drop slot g none hg' hv hp hunpin, hR', by simp [hframe, hS.disk],
      by simp [hframe, hS.phase], by simp [hframe, hS.guards]⟩
  · intro c' m' e hp hunpin hR'
    have hframe := hunpin.frame_only
    exact ⟨_, .drop slot g (some e) hg' hv hp hunpin, hR', by simp [hframe, hS.disk],
      by simp [hframe, hS.phase], by simp [hframe, hS.guards]⟩
  · intro e hp
    exact ⟨_, .dropStale slot g e hg' hv hp, { hS.rep with }, hS.disk, hS.phase,
      by simp [hS.guards]⟩

/-- A step that changes no configuration. -/
theorem Simulated.refl {action : Action τ} {s' : System R τ} {out : Outcome}
    (hsim : Sim n N s' c) (hnotes : s.notes action out = []) :
    Simulated n N s action s' out c [] c :=
  ⟨.nil c, hsim, by rw [hnotes]; rfl, by simp⟩

/-- A step that is one step of the protocol. -/
theorem Simulated.single {action : Action τ} {s' : System R τ} {out : Outcome} {e : Event τ}
    {c' : Cfg τ} (hstep : Step n N (CompleteReplacer R) c e c') (hsim : Sim n N s' c')
    (hnotes : s.notes action out = e.note.toList) (hexplained : e.Explained (s.hazards action)) :
    Simulated n N s action s' out c [e] c' := by
  refine ⟨.single hstep, hsim, ?_, by simpa using hexplained⟩
  rw [hnotes]
  cases h : e.note <;> simp [h]

theorem SimulatedBy.simulated {action : Action τ} {s' : System R τ} {out : Outcome}
    {es : List (Event τ)} {c' : Cfg τ} {before : List (Note τ)} {creates : Bool}
    {deletes : Option Nat}
    (h : SimulatedBy n N (s.hazards action) t out c before creates deletes s' es c')
    (hnotes : s.notes action out = before ++ out.notes t creates deletes) :
    Simulated n N s action s' out c es c' :=
  ⟨h.path.mono fun _ _ _ hst => hst.step, h.sim, hnotes ▸ h.told⟩

/-- Drop and `~PageGuard`, up to how they end. -/
theorem drop_simulated (hS : Sim n N s c) (hI : Owned n c) {slot : Nat} {g : PageGuard}
    (hg : s.guards[slot]? = some g) {s' : System R τ} {failure : Option Error}
    (hdrop : s.dropGuard slot g = (s', failure)) {a : Action τ} {o : Outcome}
    (hnotes : s.notes a o = (s.guards[slot]?.filter (·.valid)).toList.map
      fun _ => .dropped slot) :
    ∃ es c', Simulated n N s a s' o c es c' ∧
      ∀ e, failure = some e → .dropped slot (some e) ∈ es := by
  by_cases hv : g.valid = true
  · obtain ⟨c', hstep, hsim, -⟩ := dropGuard_simulated hS hI hg hv hdrop
    refine ⟨_, c', .single hstep hsim (by simp [hnotes, hg, hv, Event.note, Option.filter]) trivial,
      ?_⟩
    rintro e rfl
    exact List.mem_singleton_self _
  · rw [System.dropGuard, if_neg hv] at hdrop
    obtain ⟨rfl, rfl⟩ := Prod.mk.inj hdrop
    exact ⟨[], c, .refl hS (by simp [hnotes, hg, hv, Option.filter]), by simp⟩

/-- A guard that is move-assigned over an empty one. -/
theorem assign_simulated (hS : Sim n N s c) {slot source : Nat} {g g' : PageGuard}
    (hne : slot ≠ source) (hg : s.guards[slot]? = some g) (hv : g.valid = false)
    (hg' : s.guards[source]? = some g') :
    ∃ c', Step n N (CompleteReplacer R) c (.moved source slot) c' ∧
      Sim n N (s.moveGuard source slot g') c' :=
  ⟨_, .assign slot source g g' hne (hS.guard_eq hg) hv (hS.guard_eq hg'), { hS.rep with }, hS.disk,
    hS.phase, by simp [System.moveGuard, System.setGuard, hS.guards]⟩

/-- Move assignment, between two slots. -/
theorem moveAssign_simulated (hS : Sim n N s c) (hI : Owned n c) {slot source : Nat}
    {g g' : PageGuard} (hne : slot ≠ source) (hg : s.guards[slot]? = some g)
    (hg' : s.guards[source]? = some g') {s₁ : System R τ} {failure : Option Error}
    (hdrop : s.dropGuard slot g = (s₁, failure)) :
    match failure with
    | none => ∃ es c', Simulated n N s (.moveAssign slot source) (s₁.moveGuard source slot g')
        (.returned .unit) c es c'
    | some e => ∃ c', Simulated n N s (.moveAssign slot source) s₁ .terminated c
        [.dropped slot (some e)] c' := by
  by_cases hv : g.valid = true
  · obtain ⟨c₁, hstep, hsim, hguards⟩ := dropGuard_simulated hS hI hg hv hdrop
    cases failure with
    | none =>
      have hlt : slot < s.guards.length := (List.getElem?_eq_some_iff.mp hg).1
      have hg₁ : s₁.guards[slot]? = some {} := by simp [hguards, hlt]
      have hg₂ : s₁.guards[source]? = some g' := by
        rw [hguards, List.getElem?_set_ne hne]
        exact hg'
      obtain ⟨c', hstep', hsim'⟩ := assign_simulated hsim hne hg₁ rfl hg₂
      refine ⟨_, c', .cons hstep (.single hstep'), hsim', ⟨?_, by simp [Event.Explained]⟩⟩
      simp [System.notes, hne, hg, hv, Event.note, Option.filter]
    | some e =>
      refine ⟨c₁, .single hstep, hsim, ⟨?_, by simp [Event.Explained]⟩⟩
      simp [System.notes, hne, hg, hv, Event.note, Option.filter]
  · rw [System.dropGuard, if_neg hv] at hdrop
    obtain ⟨rfl, rfl⟩ := Prod.mk.inj hdrop
    obtain ⟨c', hstep, hsim⟩ := assign_simulated hS hne hg (by simpa using hv) hg'
    refine ⟨_, c', .single hstep hsim ?_ trivial⟩
    simp [System.notes, hne, hg, hv, Event.note, Option.filter]

omit [Replacer R] [LawfulReplacer R] [DecidableEq τ] in
/-- `MarkDirty` on the page a frame has. -/
theorem markDirty_ok {m : Manager R τ} {p f : Nat}
    (h : ¬ ((m.frameMeta f).pageId ≠ some p ∨ (m.frameMeta f).state ≠ .resident)) :
    markDirty p f m = .ok () { m with
      frameMeta := Function.update m.frameMeta f
        { m.frameMeta f with
          dirty := true
          dirtyEpoch := ((m.frameMeta f).dirtyEpoch + 1) % 2 ^ 64 } } := by
  change (if _ then _ else _ : Locked R τ Unit) m = _
  rw [if_neg h]
  rfl

/-- `MarkDirty` on a guard. -/
theorem mark_simulated (hS : Sim n N s c) {slot : Nat} {g : PageGuard}
    (hg : s.guards[slot]? = some g) {s' : System R τ} {out : Outcome}
    (hmark : s.markGuard g = (s', out)) :
    ∃ es c', Simulated n N s (.markDirty slot) s' out c es c' := by
  have hrefl : ∀ e, (s, Outcome.threw e) = (s', out) →
      ∃ es c', Simulated n N s (.markDirty slot) s' out c es c' := by
    rintro e h
    obtain ⟨rfl, rfl⟩ := Prod.mk.inj h
    exact ⟨[], c, .refl hS rfl⟩
  by_cases hv : g.valid = true
  · simp only [System.markGuard, hv, if_true] at hmark
    by_cases hstale : (s.manager.frameMeta g.frameId).pageId ≠ some g.pageId ∨
        (s.manager.frameMeta g.frameId).state ≠ .resident
    · have hm : markDirty g.pageId g.frameId s.manager =
          .error ⟨.logicError, "cannot mark a nonresident page dirty"⟩ s.manager := by
        change (if _ then _ else _ : Locked R τ Unit) s.manager = _
        rw [if_pos hstale]
        rfl
      rw [hm] at hmark
      exact hrefl _ hmark
    · rw [markDirty_ok hstale] at hmark
      obtain ⟨rfl, rfl⟩ := Prod.mk.inj hmark
      rw [hS.rep.frameMeta] at hstale
      obtain ⟨r, hr, hpage⟩ : ∃ r, c.frame g.frameId = .resident r ∧ r.page = g.pageId := by
        cases hr : c.frame g.frameId with
        | resident r => exact ⟨r, rfl, by simpa [hr, Use.meta] using hstale⟩
        | _ => simp [hr, Use.meta] at hstale
      refine ⟨_, _, .single (.mark slot g r (hS.guard_eq hg) hv hr hpage) ?_
        (by simp [System.notes, hg, Event.note]) ?_⟩
      · have hR := hS.rep.setUse g.frameId
          (.resident { r with
            dirty := true
            epoch := (r.epoch + 1) % 2 ^ 64 })
        refine ⟨?_, hS.disk, hS.phase, hS.guards⟩
        rw [hS.rep.frameMeta, hr]
        exact hR
      · rintro ⟨u, caller, io, hu⟩
        refine ⟨slot, g, u, caller, io, rfl, hg, ?_⟩
        rw [hS.rep.frameMeta, hr]
        exact Phase.suspended.inj ((hS.phase u).symm.trans hu)
  · rw [System.markGuard, if_neg hv] at hmark
    exact hrefl _ hmark

/-- A store through a guard. -/
theorem change_simulated (hS : Sim n N s c) {slot : Nat} {g : PageGuard} {page : Page}
    (hg : s.guards[slot]? = some g) (hv : g.valid = true) :
    Simulated n N s (.write slot page) (s.setBytes g.frameId page) (.returned .unit) c
      [.changed slot g.pageId page] (c.setBytes g.frameId page) :=
  .single (.change slot g page (hS.guard_eq hg) hv)
    ⟨hS.rep.setBytes g.frameId page, hS.disk, hS.phase, hS.guards⟩
    (by simp [System.notes, hg, Event.note]) trivial

/-- Every step of the system runs a path of the protocol. -/
theorem step_simulated (hS : Sim n N s c) (hI : Owned n c) (hW : Within N c) {action : Action τ}
    {s' : System R τ} {out : Outcome} (hstep : s.step action = some (s', out)) :
    ∃ es c', Simulated n N s action s' out c es c' ∧
      (out = .terminated → ∃ slot e, .dropped slot (some e) ∈ es) := by
  cases action with
  | call t call =>
    obtain ⟨es, c', h⟩ := call_simulated hS hI hW hstep
    exact ⟨es, c', h.simulated rfl, fun hout => absurd hout h.lives⟩
  | resume t =>
    obtain ⟨es, c', h⟩ := resume_simulated hS hI hW hstep
    exact ⟨es, c', h.simulated rfl, fun hout => absurd hout h.lives⟩
  | transfer t =>
    obtain ⟨s₁, hs₁, heq⟩ := Option.map_eq_some_iff.mp hstep
    obtain ⟨rfl, rfl⟩ := Prod.mk.inj heq
    obtain ⟨e, c', hst, hsim, hnote, hexplained⟩ := transfer_simulated hS hs₁
    exact ⟨[e], c', .single hst hsim hnote.symm (hexplained _), by simp⟩
  | failRead t left e =>
    obtain ⟨s₁, hs₁, heq⟩ := Option.map_eq_some_iff.mp hstep
    obtain ⟨rfl, rfl⟩ := Prod.mk.inj heq
    obtain ⟨c', hst, hsim⟩ := failRead_simulated hS hs₁
    exact ⟨_, c', .single hst hsim rfl trivial, by simp⟩
  | failWrite t k e =>
    obtain ⟨s₁, hs₁, heq⟩ := Option.map_eq_some_iff.mp hstep
    obtain ⟨rfl, rfl⟩ := Prod.mk.inj heq
    obtain ⟨c', hst, hsim⟩ := failWrite_simulated hS hs₁
    exact ⟨_, c', .single hst hsim rfl trivial, by simp⟩
  | read slot =>
    obtain ⟨g, hg, heq⟩ := Option.map_eq_some_iff.mp hstep
    split at heq <;> obtain ⟨rfl, rfl⟩ := Prod.mk.inj heq <;>
      exact ⟨[], c, .refl hS rfl, by simp⟩
  | write slot page =>
    obtain ⟨g, hg, heq⟩ := Option.map_eq_some_iff.mp hstep
    split at heq
    · next hv =>
      obtain ⟨rfl, rfl⟩ := Prod.mk.inj heq
      exact ⟨_, _, change_simulated hS hg hv, by simp⟩
    · obtain ⟨rfl, rfl⟩ := Prod.mk.inj heq
      exact ⟨[], c, .refl hS rfl, by simp⟩
  | markDirty slot =>
    obtain ⟨g, hg, heq⟩ := Option.map_eq_some_iff.mp hstep
    obtain ⟨es, c', h⟩ := mark_simulated hS hg heq
    refine ⟨es, c', h, ?_⟩
    rintro rfl
    simp only [System.markGuard] at heq
    split at heq
    · split at heq <;> simp at heq
    · simp at heq
  | drop slot =>
    obtain ⟨g, hg, heq⟩ := Option.map_eq_some_iff.mp hstep
    cases hdrop : s.dropGuard slot g with
    | mk s₁ failure =>
      obtain ⟨es, c', h, -⟩ := drop_simulated hS hI hg hdrop (a := .drop slot) (o := out) rfl
      rw [hdrop] at heq
      cases failure <;> obtain ⟨rfl, rfl⟩ := Prod.mk.inj heq <;> exact ⟨es, c', h, by simp⟩
  | destroy slot =>
    obtain ⟨g, hg, heq⟩ := Option.map_eq_some_iff.mp hstep
    cases hdrop : s.dropGuard slot g with
    | mk s₁ failure =>
      obtain ⟨es, c', h, hfailed⟩ :=
        drop_simulated hS hI hg hdrop (a := .destroy slot) (o := out) rfl
      rw [hdrop] at heq
      cases failure with
      | none =>
        obtain ⟨rfl, rfl⟩ := Prod.mk.inj heq
        exact ⟨es, c', h, by simp⟩
      | some e =>
        obtain ⟨rfl, rfl⟩ := Prod.mk.inj heq
        exact ⟨es, c', h, fun _ => ⟨slot, e, hfailed e rfl⟩⟩
  | moveConstruct slot =>
    obtain ⟨g, hg, heq⟩ := Option.map_eq_some_iff.mp hstep
    obtain ⟨rfl, rfl⟩ := Prod.mk.inj heq
    refine ⟨_, _, .single (.move slot g (hS.guard_eq hg)) ⟨{ hS.rep with }, hS.disk, hS.phase, ?_⟩
      ?_ trivial, by simp⟩
    · simp [hS.guards]
    · simp [System.notes, Event.note, hS.guards]
  | moveAssign slot source =>
    simp only [System.step] at hstep
    split at hstep
    · next g g' hg hg' =>
      by_cases hne : slot = source
      · rw [if_pos hne] at hstep
        obtain ⟨rfl, rfl⟩ := Prod.mk.inj (Option.some.inj hstep)
        exact ⟨[], c, .refl hS (by simp [System.notes, hne]), by simp⟩
      · rw [if_neg hne] at hstep
        cases hdrop : s.dropGuard slot g with
        | mk s₁ failure =>
          have h := moveAssign_simulated hS hI hne hg hg' hdrop
          rw [hdrop] at hstep
          cases failure with
          | none =>
            obtain ⟨rfl, rfl⟩ := Prod.mk.inj (Option.some.inj hstep)
            obtain ⟨es, c', h⟩ := h
            exact ⟨es, c', h, by simp⟩
          | some e =>
            obtain ⟨rfl, rfl⟩ := Prod.mk.inj (Option.some.inj hstep)
            obtain ⟨c', h⟩ := h
            exact ⟨_, c', h, fun _ => ⟨slot, e, List.mem_singleton_self _⟩⟩
    · exact absurd hstep (by simp)

end Refinement

end BufferManager
