/-
  Refinement/Sections.lean --- each locked piece of a call runs a path of the
  protocol.

  One theorem for each function of `Manager/Calls.lean`, in its order: from the
  phase in which the function is entered, whatever the fields that represent the
  configuration, the function runs a path of its thread's steps and ends where its
  result says.  `Owned` supplies what the source's own checks rely on.
-/
import BufferManager.Protocol.Ownership
import BufferManager.Refinement.Represents

set_option autoImplicit false

namespace BufferManager.Refinement

open BufferManager.Lib BufferManager.Manager BufferManager.Protocol

variable {R τ : Type} [Replacer R] [LawfulReplacer R] [DecidableEq τ]

attribute [local simp] Pc.failure

/-- A step of thread `t` under `mutex_`: the other threads stay where they are, none
of them falls asleep, the disk is not touched, and no transfer fails. -/
structure StepBy (n N : Nat) (complete : Prop) (t : τ) (c : Cfg τ) (e : Event τ) (c' : Cfg τ) :
    Prop where
  step : Step n N complete c e c'
  others : ∀ u, u ≠ t → c'.phase u = c.phase u
  sleepers : ∀ u, u ≠ t → u ∈ c'.asleep → u ∈ c.asleep
  disk : c'.disk = c.disk
  unfailed : (c'.phase t).Unfailed

/-- The piece `x` runs a path of thread `t` from `c`. -/
abbrev Runs {α : Type} (n N : Nat) (t : τ) (c : Cfg τ) (x : Locked R τ α)
    (Q : α → List (Event τ) → Cfg τ → Prop) (E : Error → List (Event τ) → Cfg τ → Prop) : Prop :=
  Simulates (Represents n N) (StepBy n N (CompleteReplacer R) t) c x Q E

variable {n N : Nat} {t : τ} {c : Cfg τ}

/-- Where `t` goes is not represented. -/
theorem Represents.goto {m : Manager R τ} (h : Represents n N m c) (ph : Phase) :
    Represents n N m (c.goto t ph) :=
  { h with }

/-! ## How a piece ends -/

/-- The outcome a piece of a call gives its step. -/
def outcomeOf : Next → Outcome
  | .returned r => .returned r
  | .suspended _ => .suspended

/-- The events are noted as `notes`, and a hazard explains each that needs one. -/
structure Told (h : Hazards) (es : List (Event τ)) (notes : List (Note τ)) : Prop where
  notes : es.filterMap Event.note = notes
  explained : ∀ e, e ∈ es → e.Explained h

/-- A guard that is handed out is on a resident page, and a deleted page is unused. -/
def Lands (deletes : Option Nat) (c' : Cfg τ) : Next → Prop
  | .returned (.guard g) => c'.place g.pageId = .resident g.frameId
  | .returned .unit => ∀ p, deletes = some p → c'.place p = .unused
  | .suspended _ => True

/-- A piece that did not throw, of a call that had noted `before`. -/
structure Goes (h : Hazards) (t : τ) (c : Cfg τ) (before : List (Note τ)) (creates : Bool)
    (deletes : Option Nat) (next : Next) (es : List (Event τ)) (c' : Cfg τ) : Prop where
  phase : c'.phase t = phaseOf next
  guards : c'.guards = c.guards ++ guardsOf next
  lands : Lands deletes c' next
  moves : es ≠ []
  told : Told h es (before ++ (outcomeOf next).notes t creates deletes)

/-- A piece that threw `e` out of its call. -/
structure Throws (h : Hazards) (t : τ) (c : Cfg τ) (before : List (Note τ)) (e : Error)
    (es : List (Event τ)) (c' : Cfg τ) : Prop where
  phase : c'.phase t = .suspended .idle
  guards : c'.guards = c.guards
  told : Told h es (before ++ [.failed t])
  cause : h.fails e

/-- An acquisition that did not throw: with a frame the configuration is `ready`. -/
structure Acquires (h : Hazards) (t : τ) (c : Cfg τ) (a : Acquirer) (before : List (Note τ))
    (ready : Cfg τ → Prop) (r : Acquired) (es : List (Event τ)) (c' : Cfg τ) : Prop where
  guards : c'.guards = c.guards
  told : Told h es before
  result : match r with
    | .frame f => c'.phase t = .holding a f ∧ ready c'
    | .suspended pc => c'.phase t = .suspended pc ∧ es ≠ []

/-- An acquisition that threw `e`. -/
structure Fails (h : Hazards) (t : τ) (c : Cfg τ) (a : Acquirer) (before : List (Note τ))
    (e : Error) (es : List (Event τ)) (c' : Cfg τ) : Prop where
  guards : c'.guards = c.guards
  told : Told h es (before ++ (failEvent t a e).note.toList)
  phase : c'.phase t = failPhase a e
  cause : h.fails e

omit [DecidableEq τ] in
theorem Told.append {h : Hazards} {es es' : List (Event τ)} {notes notes' : List (Note τ)}
    (h₁ : Told h es notes) (h₂ : Told h es' notes') : Told h (es ++ es') (notes ++ notes') := by
  refine ⟨by rw [List.filterMap_append, h₁.notes, h₂.notes], fun e he => ?_⟩
  rcases List.mem_append.mp he with he | he
  · exact h₁.explained e he
  · exact h₂.explained e he

omit [DecidableEq τ] in
/-- What came before a piece. -/
theorem Goes.after {h : Hazards} {c₁ c' : Cfg τ} {earlier before : List (Note τ)} {creates : Bool}
    {deletes : Option Nat} {next : Next} {es es' : List (Event τ)}
    (hg : Goes h t c₁ before creates deletes next es' c') (htold : Told h es earlier)
    (hguards : c₁.guards = c.guards) :
    Goes h t c (earlier ++ before) creates deletes next (es ++ es') c' :=
  ⟨hg.phase, hguards ▸ hg.guards, hg.lands, List.append_ne_nil_of_right_ne_nil _ hg.moves,
    by simpa using htold.append hg.told⟩

omit [DecidableEq τ] in
theorem Throws.after {h : Hazards} {c₁ c' : Cfg τ} {earlier before : List (Note τ)} {e : Error}
    {es es' : List (Event τ)} (ht : Throws h t c₁ before e es' c') (htold : Told h es earlier)
    (hguards : c₁.guards = c.guards) : Throws h t c (earlier ++ before) e (es ++ es') c' :=
  ⟨ht.phase, hguards ▸ ht.guards, by simpa using htold.append ht.told, ht.cause⟩

omit [DecidableEq τ] in
theorem Told.silent (h : Hazards) : Told h [(.silent : Event τ)] [] :=
  ⟨rfl, by simp [Event.Explained]⟩

/-- The rest of a path of thread `t` stays owned. -/
theorem owned_of_path {es : List (Event τ)} {complete : Prop} {c' : Cfg τ}
    (h : Path (StepBy n N complete t) c es c') (hI : Owned n c) : Owned n c' :=
  h.preserves (P := fun _ => True) (fun _ _ _ _ hs hI => Owned.step hs.step hI)
    (fun _ _ => trivial) hI

theorem phase_of_path {es : List (Event τ)} {complete : Prop} {c' : Cfg τ}
    (h : Path (StepBy n N complete t) c es c') {u : τ} (hu : u ≠ t) : c'.phase u = c.phase u :=
  h.preserves (P := fun _ => True) (I := fun c₁ => c₁.phase u = c.phase u)
    (fun _ _ _ _ hs h => (hs.others u hu).trans h) (fun _ _ => trivial) rfl

theorem within_of_path {es : List (Event τ)} {complete : Prop} {c' : Cfg τ}
    (h : Path (StepBy n N complete t) c es c') (hW : Within N c) : Within N c' :=
  h.preserves (P := fun _ => True) (fun _ _ _ _ hs hW => Within.step hs.step hW)
    (fun _ _ => trivial) hW

/-! ## AcquireFrameLocked and AcquireFrameForFetchLocked -/

/-- A turn of `AcquireFrameLocked` takes a free frame, begins an eviction, falls
asleep or throws. -/
theorem acquireFrameLocked_runs (hI : Owned n c) {a : Acquirer} (hph : c.phase t = .acquiring a) :
    Runs n N t c (acquireFrameLocked t a : Locked R τ Acquired)
      (fun r es c' => es = [.silent] ∧ c'.guards = c.guards ∧
        match r with
        | .frame f => c'.phase t = .holding a f ∧ c'.place = c.place ∧ f < n ∧ f ∉ c.allocated
        | .suspended pc => c'.phase t = .suspended pc)
      fun e es c' => es = [failEvent t a e] ∧ c'.guards = c.guards ∧ c'.phase t = failPhase a e ∧
        e = ⟨.runtimeError, "no frame available"⟩ ∧ c.Full n (CompleteReplacer R) := by
  refine Simulates.of_wp fun m hR => ?_
  rw [acquireFrameLocked, wp_bind]
  refine hR.wp_allocateFrame ?_ ?_
  · intro f m' hf hnot hR'
    exact ⟨_, _, ⟨.tookFrame t a f hph hf hnot, by simp +contextual, by simp, rfl, by simp⟩,
      hR'.goto _, rfl, rfl, by simp, rfl, hf, hnot⟩
  · intro hall
    rw [wp_bind]
    refine hR.wp_victim ?_ ?_
    · intro f m' hf hR'
      obtain ⟨r, hr, hlisted, hpins⟩ := hI.evictable_unpinned f hf
      have hplace := hI.place_eq_resident hr hlisted
      have hallocated := hI.allocated_of_use (f := f) (by simp [hr])
      have hmeta : m'.frameMeta f = (Use.resident r).meta := by
        rw [hR'.frameMeta]
        exact congrArg Use.meta hr
      simp only [wp_bind, beginEviction, metaOf, wp_get, wp_map, bind_pure_comp, hmeta,
        Use.meta, hpins, ne_eq, not_true_eq_false, if_false]
      refine hR'.wp_setEvicting hplace fun m₁ hR₁ => ?_
      simp only [setMeta, wp_modify]
      refine (hR₁.setUse f (.evicting r.page r.dirty r.epoch)).wp_framePage hallocated ?_
      exact ⟨_, _,
        ⟨.evictBegin t a f r hph hf hplace hr hpins, by simp +contextual, by simp, rfl, by simp⟩,
        (hR₁.setUse f (.evicting r.page r.dirty r.epoch)).goto _, rfl, rfl, by simp⟩
    · intro m' hempty hR'
      simp only [hasTransientFrameLocked, wp_bind, wp_get, wp_map, bind_pure_comp]
      by_cases htransient : c.HasTransient n
      · simp only [hR'.hasTransient_iff.mpr htransient, if_true, wait, wp_modify, wp_map,
          bind_pure_comp]
        exact ⟨_, _,
          ⟨.sleepFrame t a hph htransient, by simp +contextual, by simp +contextual, rfl, by simp⟩,
          (hR'.sleep t).goto _, rfl, rfl, by simp⟩
      · have hnot : m'.hasTransient = false := by
          rw [← Bool.not_eq_true, hR'.hasTransient_iff]
          exact htransient
        simp only [hnot, Bool.false_eq_true, if_false, wp_throw]
        exact ⟨_, _,
          ⟨.noFrame t a hph hall htransient hempty, by simp +contextual, by simp, rfl, by simp⟩,
          hR'.goto _, rfl, rfl, by simp, trivial, hall, htransient, hempty⟩

/-- The same for `NewPage`, which does not look at its page again. -/
theorem acquireFrameLocked_newPage (hI : Owned n c) {h : Hazards} {p : Nat}
    (hph : c.phase t = .acquiring (.newPage p))
    (hblocked : (∃ f, f < n ∧ f ∉ c.allocated) → c.place p ≠ .nonResident → h.blocked)
    (hfull : c.Full n (CompleteReplacer R) → h.fails ⟨.runtimeError, "no frame available"⟩) :
    Runs n N t c (acquireFrameLocked t (.newPage p) : Locked R τ Acquired)
      (Acquires h t c (.newPage p) [] fun c' => c'.place p ≠ .nonResident → h.blocked)
      (Fails h t c (.newPage p) []) := by
  refine (acquireFrameLocked_runs hI hph).mono ?_ ?_
  · rintro r es c' - ⟨rfl, hguards, hr⟩
    refine ⟨hguards, ⟨rfl, by simp [Event.Explained]⟩, ?_⟩
    cases r with
    | suspended pc => exact ⟨hr, by simp⟩
    | frame f =>
      obtain ⟨hphase, hplace, hf, hnot⟩ := hr
      exact ⟨hphase, fun hne => hblocked ⟨f, hf, hnot⟩ (hplace ▸ hne)⟩
  · rintro e es c' - ⟨rfl, hguards, hphase, rfl, hnone⟩
    exact ⟨hguards, ⟨rfl, by simp [failEvent, Event.Explained]⟩, hphase, hfull hnone⟩

/-- The end of an eviction hands over the frame, or puts its page back and throws. -/
theorem finishEviction_runs (hI : Owned n c) {a : Acquirer} {ev : Eviction} {io : Io}
    {failure : Option Error} (hph : c.phase t = .suspended (.evicting a ev io))
    (hio : io.outcome = some failure) :
    Runs n N t c (finishEviction ev failure : Locked R τ Unit)
      (fun _ es c' => failure = none ∧
        es = [if ev.dirty = true then .wrote t ev.oldPageId else .silent] ∧
        c'.guards = c.guards ∧ c'.phase t = .holding a ev.frameId ∧
        c'.place = Function.update c.place ev.oldPageId .nonResident ∧
        c'.frame = Function.update c.frame ev.frameId .free)
      fun e es c' => failure = some e ∧ es = [failEvent t a e] ∧ c'.guards = c.guards ∧
        c'.phase t = failPhase a e := by
  have hC := hI.claimed (t := t) (f := ev.frameId)
    (u := .evicting ev.oldPageId ev.dirty ev.dirtyEpoch) (by rw [hph]; rfl)
  have hplace := hI.place_of_claim (t := t) (by rw [hph]; rfl) rfl
  have hne : c.place ev.oldPageId ≠ .unused := by simp [hplace]
  refine Simulates.of_wp fun m hR => ?_
  cases failure with
  | none =>
    obtain rfl : io = .done := by
      cases io <;> simp [Io.outcome] at hio
      rfl
    simp only [finishEviction, wp_bind]
    refine hR.wp_setNonResident hne fun m₁ hR₁ => ?_
    simp only [setMeta, notifyAll, wp_modify]
    exact ⟨_, _, ⟨.evictDone t a ev hph, by simp +contextual, by simp, rfl, by simp⟩,
      ((hR₁.setUse ev.frameId .free).notify).goto _, trivial, rfl, rfl, by simp, rfl, rfl⟩
  | some e =>
    obtain rfl : io = .failed e := by
      cases io <;> simp [Io.outcome] at hio
      rw [hio]
    simp only [finishEviction, restoreEvictedFrameLocked, wp_bind]
    refine hR.wp_pageState ?_ fun h => absurd h hne
    simp only [hplace, Place.entry, if_true, wp_bind]
    refine hR.wp_setNonResident hne fun m₁ hR₁ => ?_
    refine hR₁.wp_setResident (f := ev.frameId) (Or.inl (by simp)) fun m₂ hR₂ => ?_
    simp only [setMeta, wp_modify]
    refine (hR₂.setUse ev.frameId
      (.resident ⟨ev.oldPageId, 0, ev.dirty, ev.dirtyEpoch, true⟩)).wp_recordAccess hC.lt
        fun m₃ hR₃ => ?_
    refine hR₃.wp_setEvictable true (by simp) fun m₄ hR₄ => ?_
    simp only [notifyAll, wp_modify, wp_throw]
    refine ⟨_, _, ⟨.evictFail t a ev e hph, by simp +contextual, by simp, rfl, by simp⟩, ?_,
      trivial, rfl, rfl, by simp⟩
    have hR₅ := hR₄.notify.goto (t := t) (failPhase a e)
    simpa using hR₅

/-! ## NewPage -/

/-- `NewPage` with a frame returns its guard, or finds its page taken. -/
theorem installNewPage_runs (hI : Owned n c) {h : Hazards} {p f : Nat}
    (hph : c.phase t = .holding (.newPage p) f)
    (hblocked : c.place p ≠ .nonResident → h.blocked) :
    Runs n N t c (installNewPage p f : Locked R τ Next) (Goes h t c [] true none)
      fun e es c' => c'.guards = c.guards ∧ Told h es [] ∧ c'.phase t = .unwinding p e ∧
        h.blocked ∧ e ∈ PageTable.setResidentErrors := by
  have hC := hI.claimed (t := t) (f := f) (u := .free) (by rw [hph]; rfl)
  refine Simulates.of_wp fun m hR => ?_
  simp only [installNewPage, wp_bind]
  refine hR.wp_framePage hC.allocated ?_
  simp only [storePage, setMeta, wp_modify]
  by_cases hplace : c.place p = .nonResident
  · have hR₁ := (hR.setBytes f Page.zero).setUse f (.resident ⟨p, 1, true, 1, true⟩)
    refine hR₁.wp_setResident (Or.inl hplace) fun m₂ hR₂ => ?_
    refine hR₂.wp_recordAccess hC.lt fun m₃ hR₃ => ?_
    refine hR₃.wp_setEvictable false (by simp) fun m₄ hR₄ => ?_
    simp only [notifyAll, wp_modify, makeGuardLocked, wp_bind]
    refine hR₄.notify.wp_framePage hC.allocated ?_
    simp only [wp_pure]
    refine ⟨_, _, ⟨.create t p f hph hplace, by simp +contextual, by simp, rfl, by simp⟩,
      { hR₄.notify with }, by simp [phaseOf], rfl, by simp [Lands], by simp, rfl,
      by simp [Event.Explained]⟩
  · have hR₁ := (hR.setBytes f Page.zero).setUse f (.resident ⟨p, 1, true, 1, false⟩)
    refine hR₁.wp_setResident_error hplace ?_ fun e he => ?_
    · intro hloading
      have huse := hI.use_of_place p f (by rw [show c.place p = _ from hloading]; rfl)
      rw [hC.use] at huse
      exact Option.some_ne_none _ huse.symm
    · exact ⟨_, _, ⟨.block t p f e hph hplace he, by simp +contextual, by simp, rfl, by simp⟩,
        hR₁.goto _, rfl, ⟨rfl, by simpa [Event.Explained] using hblocked hplace⟩, by simp,
        hblocked hplace, he⟩

/-- `NewPage`'s catch block gives the id back if it can, and throws. -/
theorem newPageHandler_runs (hW : Within N c) {h : Hazards} {p : Nat} {e : Error}
    (hph : c.phase t = .unwinding p e) (hcause : h.fails e) :
    Runs n N t c (newPageHandler p e : Locked R τ Next) (fun _ _ _ => False)
      (Throws h t c []) := by
  refine Simulates.of_wp fun m hR => ?_
  simp only [newPageHandler, wp_bind]
  refine hR.wp_pageState_of_lt (hW t p (by rw [hph]; rfl)) ?_
  by_cases hplace : c.place p = .nonResident
  · simp only [hplace, Place.entry, if_true, wp_bind]
    refine hR.wp_freePageId hplace fun m₁ hR₁ => ?_
    simp only [notifyAll, wp_modify, wp_throw]
    exact ⟨_, _, ⟨.rollback t p e hph hplace, by simp +contextual, by simp, rfl, by simp⟩,
      hR₁.notify.goto _, by simp, rfl, ⟨rfl, by simp [Event.Explained]⟩, hcause⟩
  · have hstate : (c.place p).entry.state ≠ .nonResident := by
      rw [ne_eq, Represents.state_nonResident_iff]
      exact hplace
    simp only [hstate, if_false]
    exact ⟨_, _, ⟨.abandon t p e hph hplace, by simp +contextual, by simp, rfl, by simp⟩,
      hR.notify.goto _, by simp, rfl, ⟨rfl, by simp [Event.Explained]⟩, hcause⟩

/-- `NewPage`'s try statement around any acquisition for its page. -/
theorem newPageTry_runs (hI : Owned n c) (hW : Within N c) {h : Hazards} {p : Nat}
    {l : List (Note τ)} {acquire : Locked R τ Acquired}
    (hblocked : ∀ e, h.blocked → e ∈ PageTable.setResidentErrors → h.fails e)
    (hacquire : Runs n N t c acquire
      (Acquires h t c (.newPage p) l fun c' => c'.place p ≠ .nonResident → h.blocked)
      (Fails h t c (.newPage p) l)) :
    Runs n N t c (newPageTry p acquire) (Goes h t c l true none)
      (Throws h t c l) := by
  refine Simulates.tryCatch (E := fun e es c' => c'.guards = c.guards ∧ Told h es l ∧
    c'.phase t = .unwinding p e ∧ h.fails e) (Q := Goes h t c l true none) ?_
    (fun _ _ _ _ hq => hq) ?_
  · refine Simulates.bind hacquire ?_ ?_
    · intro r es c₁ hpath hq
      cases r with
      | suspended pc =>
        refine Simulates.pure ⟨hq.result.1, ?_, trivial, by simpa using hq.result.2, ?_⟩
        · simpa [guardsOf] using hq.guards
        · simpa [outcomeOf, Outcome.notes] using hq.told
      | frame f =>
        obtain ⟨hphase, hready⟩ := hq.result
        refine (installNewPage_runs (owned_of_path hpath hI) hphase hready).mono ?_ ?_
        · intro next es' c' _ hgoes
          simpa using hgoes.after hq.told hq.guards
        · rintro e es' c' _ ⟨hguards, htold, hphase', hcause, he⟩
          exact ⟨hguards.trans hq.guards, by simpa using hq.told.append htold, hphase',
            hblocked e hcause he⟩
    · intro e es c₁ _ hf
      exact ⟨hf.guards, by simpa [failEvent, Event.note] using hf.told, hf.phase, hf.cause⟩
  · rintro e es c₁ hpath ⟨hguards, htold, hphase, hcause⟩
    refine (newPageHandler_runs (within_of_path hpath hW) (h := h) hphase hcause).mono
      (fun _ _ _ _ hq => hq.elim) fun e' es' c' _ ht => ?_
    simpa using ht.after htold hguards

/-- `NewPage` from its call. -/
theorem newPage_runs (hI : Owned n c) (hW : Within N c) {h : Hazards}
    (hph : c.phase t = .suspended .idle)
    (hids : c.upcoming = [] → h.fails ⟨.runtimeError, "maximum number of pages reached"⟩)
    (hblocked : ∀ e, h.blocked → e ∈ PageTable.setResidentErrors → h.fails e)
    (hfull : c.Full n (CompleteReplacer R) → h.fails ⟨.runtimeError, "no frame available"⟩) :
    Runs n N t c (newPage t : Locked R τ Next) (Goes h t c [] true none) (Throws h t c []) := by
  intro m hR
  rw [newPage, wp_bind]
  refine hR.wp_allocatePageId ?_ ?_
  · intro hnone
    exact ⟨_, _, .single ⟨.noIds t hph hnone, fun _ _ => rfl, fun _ _ hu => hu, rfl, by simp [hph]⟩,
      hR, hph, rfl, ⟨rfl, by simp [Event.Explained]⟩, hids hnone⟩
  · intro p rest m' hnext hR'
    have hlt : p < N := by
      have hmem :=
        (hR.table_inv.mem_upcoming (p := p)).mp (hR.upcoming ▸ hnext ▸ List.mem_cons_self)
      exact hR.maxPageCount ▸ hmem.1
    have hstep : StepBy n N (CompleteReplacer R) t c .silent
        (({ c with upcoming := rest }.setPlace p .nonResident).goto t (.acquiring (.newPage p))) :=
      ⟨.reserve t p rest hph hnext hlt, by simp +contextual, by simp, rfl, by simp⟩
    have hI₁ := Owned.step hstep.step hI
    have hW₁ := Within.step hstep.step hW
    have htry := newPageTry_runs (R := R) (p := p) (l := []) hI₁ hW₁ hblocked
      (acquireFrameLocked_newPage (t := t) (h := h) hI₁ (by simp)
        (fun _ hne => absurd (by simp) hne) fun hnone => hfull { hnone with })
    refine (htry m' (hR'.goto _)).mono ?_ ?_
    · rintro next s' ⟨es, c', hpath, hrep, hgoes⟩
      exact ⟨_, c', .cons hstep hpath, hrep, hgoes.after (Told.silent h) rfl⟩
    · rintro e s' ⟨es, c', hpath, hrep, ht⟩
      exact ⟨_, c', .cons hstep hpath, hrep, ht.after (Told.silent h) rfl⟩

/-! ## FetchPage -/

/-- Another thread's `NewPage` has reserved `p`. -/
def ReservedByOther (c : Cfg τ) (t : τ) (p : Nat) : Prop :=
  ∃ u, u ≠ t ∧ (c.phase u).reserves = some p

/-- `FetchPage` with a frame begins its load. -/
theorem beginLoad_runs (hI : Owned n c) {h : Hazards} {p f : Nat}
    (hph : c.phase t = .holding (.fetchPage p) f) (hplace : c.place p = .nonResident)
    (hloads : c.Reserved p → h.loads) :
    Runs n N t c (beginLoad p f : Locked R τ Next) (Goes h t c [] false none)
      (Throws h t c []) := by
  have hC := hI.claimed (t := t) (f := f) (u := .free) (by rw [hph]; rfl)
  refine Simulates.of_wp fun m hR => ?_
  simp only [beginLoad, wp_bind]
  refine hR.wp_setLoading hplace fun m₁ hR₁ => ?_
  simp only [setMeta, wp_modify]
  refine (hR₁.setUse f (.loading p)).wp_framePage hC.allocated ?_
  exact ⟨_, _, ⟨.loadBegin t p f hph hplace, by simp +contextual, by simp, rfl, by simp⟩,
    (hR₁.setUse f (.loading p)).goto _, by simp [phaseOf], by simp [guardsOf],
    trivial, by simp, ⟨rfl, by simpa [Event.Explained] using hloads⟩⟩

omit [DecidableEq τ] in
theorem reservedByOther {p : Nat} (hph : (c.phase t).reserves = none) (h : c.Reserved p) :
    ReservedByOther c t p := by
  obtain ⟨u, hu⟩ := h
  refine ⟨u, ?_, hu⟩
  rintro rfl
  rw [hph] at hu
  exact Option.some_ne_none _ hu.symm

/-- What the other threads have reserved does not change on a path of `t`. -/
theorem ReservedByOther.of_path {es : List (Event τ)} {complete : Prop} {c' : Cfg τ} {p : Nat}
    (h : ReservedByOther c' t p) (hpath : Path (StepBy n N complete t) c es c') :
    ReservedByOther c t p := by
  obtain ⟨u, hut, hu⟩ := h
  exact ⟨u, hut, phase_of_path hpath hut ▸ hu⟩

/-- What an acquisition for `FetchPage` returns: no frame, and the page is somewhere
else; or the result of an acquisition that is ready to load. -/
def FetchAcquires (h : Hazards) (t : τ) (c : Cfg τ) (p : Nat) (before : List (Note τ))
    (r : Option Acquired) (es : List (Event τ)) (c' : Cfg τ) : Prop :=
  match r with
  | none => c'.guards = c.guards ∧ Told h es before ∧ c'.phase t = .visiting (.fetchPage p) ∧
      c'.place p ≠ .nonResident ∧ ∀ e, Leaves c' (.fetchPage p) e → h.fails e
  | some r => Acquires h t c (.fetchPage p) before
      (fun c' => c'.place p = .nonResident ∧ (c'.Reserved p → h.loads)) r es c'

/-- A turn of `AcquireFrameForFetchLocked` goes back to the top of `FetchPage`'s loop
if the page is not out of memory, and is a turn of `AcquireFrameLocked` otherwise. -/
theorem acquireFrameForFetchLocked_runs (hI : Owned n c) (hW : Within N c) {h : Hazards} {p : Nat}
    (hph : c.phase t = .acquiring (.fetchPage p))
    (hloads : (∃ f, f < n ∧ f ∉ c.allocated) → c.place p = .nonResident →
      ReservedByOther c t p → h.loads)
    (hfull : c.Full n (CompleteReplacer R) → h.fails ⟨.runtimeError, "no frame available"⟩)
    (hleaves : c.place p ≠ .nonResident → ∀ e, Leaves c (.fetchPage p) e → h.fails e) :
    Runs n N t c (acquireFrameForFetchLocked t p : Locked R τ (Option Acquired))
      (fun r es c' => FetchAcquires h t c p [] r es c' ∧ (r = none → c.place p ≠ .nonResident))
      (Fails h t c (.fetchPage p) []) := by
  intro m hR
  rw [acquireFrameForFetchLocked, wp_bind]
  refine hR.wp_pageState_of_lt (hW t p (by rw [hph]; rfl)) ?_
  by_cases hplace : c.place p = .nonResident
  · simp only [hplace, Place.entry, ne_eq, not_true_eq_false, if_false, bind_pure_comp, wp_map]
    refine ((acquireFrameLocked_runs (R := R) (N := N) hI hph) m hR).mono ?_ ?_
    · rintro r s' ⟨es, c', hpath, hrep, rfl, hguards, hr⟩
      refine ⟨_, c', hpath, hrep, ⟨hguards, ⟨rfl, by simp [Event.Explained]⟩, ?_⟩, by simp⟩
      cases r with
      | suspended pc => exact ⟨hr, by simp⟩
      | frame f =>
        obtain ⟨hphase, hplace', hf, hnot⟩ := hr
        exact ⟨hphase, hplace' ▸ hplace, fun hres => hloads ⟨f, hf, hnot⟩ hplace
          ((reservedByOther (by rw [hphase]; rfl) hres).of_path hpath)⟩
    · rintro e s' ⟨es, c', hpath, hrep, rfl, hguards, hphase, rfl, hnone⟩
      exact ⟨_, c', hpath, hrep, hguards, ⟨rfl, by simp [failEvent, Event.Explained]⟩, hphase,
        hfull hnone⟩
  · have hstate : (c.place p).entry.state ≠ .nonResident := by
      rw [ne_eq, Represents.state_nonResident_iff]
      exact hplace
    simp only [hstate, ne_eq, not_false_eq_true, if_true, wp_pure]
    exact ⟨_, _, .single ⟨.recheck t p hph hplace, by simp +contextual, by simp, rfl, by simp⟩,
      hR.goto _, ⟨rfl, Told.silent h, by simp, hplace, fun e he => hleaves hplace e
        (he.congr rfl fun _ _ => rfl)⟩, fun _ => hplace⟩

/-- After an eviction `FetchPage` keeps the frame if its page is still out of memory. -/
theorem keepIfNonResident_runs (hI : Owned n c) (hW : Within N c) {h : Hazards} {p f : Nat}
    (hph : c.phase t = .holding (.fetchPage p) f)
    (hloads : c.place p = .nonResident → ReservedByOther c t p → h.loads)
    (hleaves : c.place p ≠ .nonResident → ∀ e, Leaves c (.fetchPage p) e → h.fails e) :
    Runs n N t c (keepIfNonResident p f : Locked R τ (Option Acquired))
      (FetchAcquires h t c p []) (Fails h t c (.fetchPage p) []) := by
  have hC := hI.claimed (t := t) (f := f) (u := .free) (by rw [hph]; rfl)
  intro m hR
  rw [keepIfNonResident, wp_bind]
  refine hR.wp_pageState_of_lt (hW t p (by rw [hph]; rfl)) ?_
  by_cases hplace : c.place p = .nonResident
  · simp only [hplace, Place.entry, if_true, wp_pure]
    exact ⟨[], c, .nil c, hR, rfl, ⟨rfl, by simp⟩, hph, hplace, fun hres => hloads hplace
      (reservedByOther (by rw [hph]; rfl) hres)⟩
  · have hstate : (c.place p).entry.state ≠ .nonResident := by
      rw [ne_eq, Represents.state_nonResident_iff]
      exact hplace
    simp only [hstate, if_false, wp_bind]
    refine hR.wp_freeFrame hC.allocated fun m₁ hR₁ => ?_
    simp only [notifyAll, wp_modify, wp_pure]
    -- the frame is free already: its use does not change
    have hfree : Function.update c.frame f .free = c.frame := by
      rw [← hC.use, Function.update_eq_self]
    refine ⟨_, _, .single ⟨.surplus t p f hph hplace, by simp +contextual, by simp, rfl, by simp⟩,
      ?_, rfl, Told.silent h, by simp, hplace, fun e he => hleaves hplace e
        (he.congr rfl fun g _ => congrFun hfree g)⟩
    simpa [hfree] using hR₁.notify.goto (t := t) (.visiting (.fetchPage p))

/-- A visit that ends its call with an error and no effect. -/
theorem throws_of_leaves {m : Manager R τ} (hR : Represents n N m c) (h : Hazards) {v : Visit}
    (hph : c.phase t = .visiting v) {e : Error} (he : Leaves c v e) (hcause : h.fails e) :
    ∃ es c', Path (StepBy n N (CompleteReplacer R) t) c es c' ∧ Represents n N m c' ∧
      Throws h t c [] e es c' :=
  ⟨_, _, .single ⟨.leave t v e hph he, by simp +contextual, by simp, rfl, by simp⟩,
    hR.goto _, by simp, rfl, ⟨rfl, by simp [Event.Explained]⟩, hcause⟩

/-- A visit to a page that is being loaded or evicted falls asleep. -/
theorem sleepPage_runs (h : Hazards) {v : Visit} {creates : Bool} {deletes : Option Nat}
    (hph : c.phase t = .visiting v) (htransient : (c.place v.pageId).transient)
    {E : Error → List (Event τ) → Cfg τ → Prop} :
    Runs n N t c (do return .suspended (← wait t (.waitPage v)) : Locked R τ Next)
      (Goes h t c [] creates deletes) E := by
  refine Simulates.of_wp fun m hR => ?_
  simp only [wait, wp_modify, wp_map, bind_pure_comp]
  exact ⟨_, _,
    ⟨.sleepPage t v hph htransient, by simp +contextual, by simp +contextual, rfl, by simp⟩,
    (hR.sleep t).goto _, by simp [phaseOf], by simp [guardsOf], trivial, by simp, Told.silent h⟩

omit [DecidableEq τ] in
/-- Pinning a resident page, while there is room for a pin. -/
theorem Represents.wp_pin {m : Manager R τ} (hR : Represents n N m c) (hI : Owned n c) {f : Nat}
    {r : Tenant} (hplace : c.place r.page = .resident f) (hr : c.frame f = .resident r)
    (hpins : r.pins ≠ maxPinCount) {Q : Next → Manager R τ → Prop}
    {E : Error → Manager R τ → Prop}
    (hQ : ∀ m', Represents n N m'
      ((c.setUse f (.resident { r with pins := r.pins + 1 })).enlist f) →
      Q (.returned (.guard ⟨true, r.page, f⟩)) m') :
    wp (do
      let frameId ← residentFrame r.page
      pinResidentFrameLocked r.page frameId
      return .returned (.guard (← makeGuardLocked r.page frameId)) : Locked R τ Next) Q E m := by
  have hallocated := hI.allocated_of_use (f := f) (by simp [hr])
  have hmeta : m.frameMeta f = (Use.resident r).meta := by rw [hR.frameMeta, hr]
  rw [wp_bind]
  refine hR.wp_residentFrame hplace ?_
  simp only [pinResidentFrameLocked, metaOf, wp_bind, wp_get, wp_map, bind_pure_comp, hmeta,
    Use.meta, ne_eq, not_true_eq_false, or_self, if_false, hpins, setMeta, wp_modify]
  have hR₁ := hR.setUse f (.resident { r with pins := r.pins + 1 })
  refine hR₁.wp_recordAccess (hI.allocated_lt f hallocated) fun m₂ hR₂ => ?_
  refine hR₂.wp_setEvictable false (by simp) fun m₃ hR₃ => ?_
  simp only [makeGuardLocked, wp_bind]
  refine hR₃.wp_framePage hallocated ?_
  simp only [wp_pure]
  exact hQ m₃ hR₃

omit [DecidableEq τ] in
/-- A full count stops the pin, and nothing has changed. -/
theorem Represents.wp_pin_full {m : Manager R τ} (hR : Represents n N m c) {f : Nat} {r : Tenant}
    (hplace : c.place r.page = .resident f) (hr : c.frame f = .resident r)
    (hpins : r.pins = maxPinCount) {Q : Next → Manager R τ → Prop}
    {E : Error → Manager R τ → Prop} (hE : E ⟨.overflowError, "pin count overflow"⟩ m) :
    wp (do
      let frameId ← residentFrame r.page
      pinResidentFrameLocked r.page frameId
      return .returned (.guard (← makeGuardLocked r.page frameId)) : Locked R τ Next) Q E m := by
  have hmeta : m.frameMeta f = (Use.resident r).meta := by rw [hR.frameMeta, hr]
  rw [wp_bind]
  refine hR.wp_residentFrame hplace ?_
  simp only [pinResidentFrameLocked, metaOf, wp_bind, wp_get, wp_map, bind_pure_comp, hmeta,
    Use.meta, ne_eq, not_true_eq_false, or_self, if_false, hpins, if_true, wp_throw]
  exact hE

/-- A visit of `FetchPage` to a resident page. -/
theorem pin_runs (hI : Owned n c) {h : Hazards} {p f : Nat}
    (hph : c.phase t = .visiting (.fetchPage p)) (hplace : c.place p = .resident f)
    (hleaves : ∀ e, Leaves c (.fetchPage p) e → h.fails e) :
    Runs n N t c (do
        let frameId ← residentFrame p
        pinResidentFrameLocked p frameId
        return .returned (.guard (← makeGuardLocked p frameId)) : Locked R τ Next)
      (Goes h t c [] false none) (Throws h t c []) := by
  obtain ⟨r, hr, rfl, hlisted⟩ := hI.resident hplace
  intro m hR
  by_cases hpins : r.pins = maxPinCount
  · refine hR.wp_pin_full hplace hr hpins ?_
    have he := Leaves.pinOverflow r.page f r hplace hr hpins
    exact throws_of_leaves hR h hph he (hleaves _ he)
  · refine hR.wp_pin hI hplace hr hpins fun m' hR' => ?_
    exact ⟨_, _, .single ⟨.pin t r.page f r hph hplace hr hpins, by simp +contextual, by simp,
      rfl, by simp⟩, { hR' with }, by simp [phaseOf], rfl, by simp [Lands, hplace], by simp,
      ⟨rfl, by simp [Event.Explained]⟩⟩

/-- A visit of `FetchPage` pins the page, falls asleep, throws or goes to load it. -/
theorem fetchPage_runs (hI : Owned n c) (hW : Within N c) {h : Hazards} {p : Nat}
    (hph : c.phase t = .visiting (.fetchPage p))
    (hloads : (∃ f, f < n ∧ f ∉ c.allocated) → c.place p = .nonResident →
      ReservedByOther c t p → h.loads)
    (hleaves : ∀ e, Leaves c (.fetchPage p) e → h.fails e)
    (hfull : c.place p = .nonResident → c.Full n (CompleteReplacer R) →
      h.fails ⟨.runtimeError, "no frame available"⟩) :
    Runs n N t c (fetchPage t p : Locked R τ Next) (Goes h t c [] false none)
      (Throws h t c []) := by
  intro m hR
  rw [fetchPage, fetchLoop, wp_bind]
  refine hR.wp_pageState ?_ fun hunused =>
    throws_of_leaves hR h hph (.invalid _ hunused) (hleaves _ (.invalid _ hunused))
  cases hplace : c.place p with
  | unused =>
    exact throws_of_leaves hR h hph (.fetchUnused p hplace) (hleaves _ (.fetchUnused p hplace))
  | loading f => exact sleepPage_runs h hph (by simp [Visit.pageId, hplace, Place.transient]) m hR
  | evicting f => exact sleepPage_runs h hph (by simp [Visit.pageId, hplace, Place.transient]) m hR
  | resident f => exact pin_runs hI hph hplace hleaves m hR
  | nonResident =>
    have hlt : p < N := hR.maxPageCount ▸ hR.lt_of_used (p := p) (by simp [hplace])
    have hstep : StepBy n N (CompleteReplacer R) t c .silent
        (c.goto t (.acquiring (.fetchPage p))) :=
      ⟨.seek t p hph hplace hlt, by simp +contextual, by simp, rfl, by simp⟩
    have hI₁ := Owned.step hstep.step hI
    have hW₁ := Within.step hstep.step hW
    refine Simulates.after (x := _) hstep (fun _ hrep => hrep.goto _) ?_ m hR
    refine Simulates.bind (acquireFrameForFetchLocked_runs (h := h) hI₁ hW₁ (by simp) ?_
      (fun hnone => hfull hplace { hnone with }) fun hne => absurd hplace hne) ?_ ?_
    · rintro hfree - ⟨u, hut, hu⟩
      exact hloads hfree hplace ⟨u, hut, by simpa [hut] using hu⟩
    · rintro r es c₁ hpath ⟨hr, hnone⟩
      cases r with
      | none => exact absurd hplace (hnone rfl)
      | some r =>
        cases r with
        | suspended pc =>
          refine Simulates.pure ⟨hr.result.1, ?_, trivial, by simp, ?_⟩
          · simpa [guardsOf] using hr.guards
          · simpa [outcomeOf, Outcome.notes] using (Told.silent h).append hr.told
        | frame f =>
          obtain ⟨hphase, hplace₁, hready⟩ := hr.result
          refine (beginLoad_runs (owned_of_path hpath hI₁) hphase hplace₁ hready).mono ?_ ?_
          · intro next es' c' _ hgoes
            have := hgoes.after hr.told hr.guards
            exact this.after (Told.silent h) rfl
          · intro e es' c' _ ht
            have := ht.after hr.told hr.guards
            exact this.after (Told.silent h) rfl
    · intro e es c₁ _ hf
      exact ⟨hf.phase, hf.guards, (Told.silent h).append hf.told, hf.cause⟩

omit [DecidableEq τ] in
theorem Acquires.after {h : Hazards} {a : Acquirer} {c₁ c' : Cfg τ}
    {earlier before : List (Note τ)} {ready : Cfg τ → Prop} {r : Acquired}
    {es es' : List (Event τ)} (hr : Acquires h t c₁ a before ready r es' c')
    (htold : Told h es earlier) (hguards : c₁.guards = c.guards) :
    Acquires h t c a (earlier ++ before) ready r (es ++ es') c' :=
  { guards := hr.guards.trans hguards
    told := htold.append hr.told
    result := by
      cases r with
      | frame f => exact hr.result
      | suspended pc =>
        exact ⟨hr.result.1, List.append_ne_nil_of_right_ne_nil _ hr.result.2⟩ }

omit [DecidableEq τ] in
theorem FetchAcquires.after {h : Hazards} {p : Nat} {c₁ c' : Cfg τ}
    {earlier before : List (Note τ)} {r : Option Acquired} {es es' : List (Event τ)}
    (hr : FetchAcquires h t c₁ p before r es' c') (htold : Told h es earlier)
    (hguards : c₁.guards = c.guards) :
    FetchAcquires h t c p (earlier ++ before) r (es ++ es') c' := by
  cases r with
  | none =>
    obtain ⟨hg, ht, hphase, hne, hleaves⟩ := hr
    exact ⟨hg.trans hguards, htold.append ht, hphase, hne, hleaves⟩
  | some r => exact Acquires.after hr htold hguards

omit [DecidableEq τ] in
theorem Fails.after {h : Hazards} {a : Acquirer} {c₁ c' : Cfg τ} {earlier before : List (Note τ)}
    {e : Error} {es es' : List (Event τ)} (hf : Fails h t c₁ a before e es' c')
    (htold : Told h es earlier) (hguards : c₁.guards = c.guards) :
    Fails h t c a (earlier ++ before) e (es ++ es') c' :=
  ⟨hf.guards.trans hguards, by simpa using htold.append hf.told, hf.phase,
    hf.cause⟩

/-- `FetchPage` around any acquisition for its page. -/
theorem fetchPageWith_runs (hI : Owned n c) (hW : Within N c) {h : Hazards} {p : Nat}
    {before : List (Note τ)} {acquire : Locked R τ (Option Acquired)}
    (hacquire : Runs n N t c acquire (FetchAcquires h t c p before)
      (Fails h t c (.fetchPage p) before)) :
    Runs n N t c (fetchPageWith t p acquire) (Goes h t c before false none)
      (Throws h t c before) := by
  refine Simulates.bind hacquire ?_ ?_
  · intro r es c₁ hpath hr
    have hI₁ := owned_of_path hpath hI
    have hW₁ := within_of_path hpath hW
    cases r with
    | none =>
      obtain ⟨hguards, htold, hphase, hne, hleaves⟩ := hr
      refine (fetchPage_runs hI₁ hW₁ (h := h) hphase (fun _ hplace => absurd hplace hne) hleaves
        fun hplace => absurd hplace hne).mono ?_ ?_
      · intro next es' c' _ hgoes
        simpa using hgoes.after htold hguards
      · intro e es' c' _ ht
        simpa using ht.after htold hguards
    | some r =>
      cases r with
      | suspended pc =>
        refine Simulates.pure ⟨hr.result.1, ?_, trivial, by simpa using hr.result.2, ?_⟩
        · simpa [guardsOf] using hr.guards
        · simpa [outcomeOf, Outcome.notes] using hr.told
      | frame f =>
        obtain ⟨hphase, hplace, hready⟩ := hr.result
        refine (beginLoad_runs hI₁ hphase hplace hready).mono ?_ ?_
        · intro next es' c' _ hgoes
          simpa using hgoes.after hr.told hr.guards
        · intro e es' c' _ ht
          simpa using ht.after hr.told hr.guards
  · intro e es c₁ _ hf
    exact ⟨hf.phase, hf.guards, hf.told, hf.cause⟩

/-- The end of a load makes the page resident, or gives its frame back and throws. -/
theorem finishLoad_runs (hI : Owned n c) {h : Hazards} {p f : Nat} {io : Io}
    {failure : Option Error} (hph : c.phase t = .suspended (.reading p f io))
    (hio : io.outcome = some failure) (hcause : ∀ e, failure = some e → h.fails e) :
    Runs n N t c (finishLoad p f failure : Locked R τ Next) (Goes h t c [] false none)
      (Throws h t c []) := by
  have hC := hI.claimed (t := t) (f := f) (u := .loading p) (by rw [hph]; rfl)
  have hplace := hI.place_of_claim (t := t) (by rw [hph]; rfl) rfl
  refine Simulates.of_wp fun m hR => ?_
  cases failure with
  | none =>
    obtain rfl : io = .done := by
      cases io <;> simp [Io.outcome] at hio
      rfl
    have hmeta : m.frameMeta f = (Use.loading p).meta := by rw [hR.frameMeta, hC.use]
    simp only [finishLoad, metaOf, wp_bind, wp_get, wp_map, bind_pure_comp, hmeta, Use.meta,
      setMeta, wp_modify]
    have hR₁ := hR.setUse f (.resident ⟨p, 1, false, 0, true⟩)
    refine hR₁.wp_setResident (Or.inr hplace) fun m₂ hR₂ => ?_
    refine hR₂.wp_recordAccess hC.lt fun m₃ hR₃ => ?_
    refine hR₃.wp_setEvictable false (by simp) fun m₄ hR₄ => ?_
    simp only [notifyAll, wp_modify, makeGuardLocked, wp_bind]
    refine hR₄.notify.wp_framePage hC.allocated ?_
    simp only [wp_pure]
    exact ⟨_, _, ⟨.loaded t p f hph, by simp +contextual, by simp, rfl, by simp⟩,
      { hR₄.notify with },
      by simp [phaseOf], rfl, by simp [Lands], by simp, ⟨rfl, by simp [Event.Explained]⟩⟩
  | some e =>
    obtain rfl : io = .failed e := by
      cases io <;> simp [Io.outcome] at hio
      rw [hio]
    simp only [finishLoad, setMeta, wp_bind, wp_modify]
    refine (hR.setUse f .free).wp_freeFrame hC.allocated fun m₁ hR₁ => ?_
    refine hR₁.wp_setNonResident (p := p) (by simp [hplace]) fun m₂ hR₂ => ?_
    simp only [notifyAll, wp_modify, wp_throw]
    exact ⟨_, _, ⟨.loadFailed t p f e hph, by simp +contextual, by simp, rfl, by simp⟩,
      { hR₂.notify with }, by simp, rfl, ⟨rfl, by simp [Event.Explained]⟩, hcause e rfl⟩

/-! ## FlushPage and FlushAllPages -/

omit [DecidableEq τ] in
theorem told_flushReturn (h : Hazards) (caller : FlushCaller) (deletes : Option Nat)
    (hdeletes : deletes = none) :
    Told h [eventOf t (flushReturn caller)]
      ((outcomeOf (flushReturn caller)).notes t false deletes) := by
  subst hdeletes
  cases caller with
  | flushPage => exact ⟨rfl, by simp [flushReturn, eventOf, Event.Explained]⟩
  | flushAllPages rest =>
    cases rest <;> exact ⟨rfl, by simp [flushReturn, eventOf, Event.Explained]⟩

theorem guardsOf_flushReturn (caller : FlushCaller) : guardsOf (flushReturn caller) = [] := by
  rcases caller with - | rest
  · rfl
  · cases rest <;> rfl

/-- The return of a `FlushPage` to its caller. -/
theorem flushReturn_runs (h : Hazards) {a : FlushCaller} (hph : c.phase t = .flushed a)
    {E : Error → List (Event τ) → Cfg τ → Prop} :
    Runs n N t c (return flushReturn a : Locked R τ Next) (Goes h t c [] false none) E := by
  intro m hR
  refine ⟨_, _, .single ⟨.flushReturn t a hph, by simp +contextual, by simp, rfl, by simp⟩,
    hR.goto _, by simp, ?_, ?_, by simp, told_flushReturn h a none rfl⟩
  · rw [guardsOf_flushReturn]
    simp
  · rcases a with - | rest
    · simp [flushReturn, Lands]
    · cases rest <;> simp [flushReturn, Lands]

/-- `FlushPage` on a resident, dirty page pins the frame and begins to write. -/
theorem Represents.wp_capture {m : Manager R τ} (hR : Represents n N m c) (hI : Owned n c)
    {f : Nat} {r : Tenant} (hplace : c.place r.page = .resident f) (hr : c.frame f = .resident r)
    (hlisted : r.listed = true) (hdirty : r.dirty = true) (caller : FlushCaller)
    {Q : Next → Manager R τ → Prop} {E : Error → Manager R τ → Prop}
    (hQ : ∀ m', Represents n N m' { c.setUse f (.resident { r with pins := (r.pins + 1) % 2 ^ 32 })
        with evictable := c.evictable \ {f} } →
      Q (.suspended (.writing r.page f r.epoch caller .running)) m') :
    wp (flushPage t r.page caller : Locked R τ Next) Q E m := by
  have hallocated := hI.allocated_of_use (f := f) (by simp [hr])
  have hpresent : f ∈ c.present := (hI.present_iff f).mpr ⟨r, hr, hlisted⟩
  have hmeta : m.frameMeta f = (Use.resident r).meta := by rw [hR.frameMeta, hr]
  rw [flushPage, wp_bind]
  refine hR.wp_pageState ?_ fun hunused => by simp [hplace] at hunused
  simp only [hplace, Place.entry, wp_bind]
  refine hR.wp_residentFrame hplace ?_
  simp only [metaOf, wp_get, wp_map, bind_pure_comp, hmeta, Use.meta, ne_eq,
    not_true_eq_false, or_self, if_false]
  rw [if_neg (by simp [hdirty])]
  simp only [setMeta, wp_bind, wp_modify]
  have hR₁ := hR.setUse f (.resident { r with pins := (r.pins + 1) % 2 ^ 32 })
  refine hR₁.wp_setEvictable false hpresent fun m₂ hR₂ => ?_
  rw [wp_map]
  exact hR₂.wp_framePage hallocated (hQ m₂ hR₂)

/-- A visit of `FlushPage` has nothing to write, falls asleep, throws, or pins the
frame and begins to write. -/
theorem flushPage_runs (hI : Owned n c) {h : Hazards} {p : Nat} {caller : FlushCaller}
    (hph : c.phase t = .visiting (.flushPage p caller))
    (hoverflow : ∀ f r, c.place p = .resident f → c.frame f = .resident r → r.dirty = true →
      r.pins = maxPinCount → h.overflow)
    (hleaves : ∀ e, Leaves c (.flushPage p caller) e → h.fails e) :
    Runs n N t c (flushPage t p caller : Locked R τ Next) (Goes h t c [] false none)
      (Throws h t c []) := by
  intro m hR
  by_cases hcapture : ∃ f r, c.place p = .resident f ∧ c.frame f = .resident r ∧ r.dirty = true
  · obtain ⟨f, r, hplace, hr, hdirty⟩ := hcapture
    obtain ⟨hpage, hlisted⟩ := hI.resident_use hplace hr
    subst hpage
    refine hR.wp_capture hI hplace hr hlisted hdirty caller fun m' hR' => ?_
    exact ⟨_, _, .single ⟨.capture t r.page f r caller hph hplace hr hdirty,
      by simp +contextual, by simp, rfl, by simp⟩, { hR' with }, by simp [phaseOf],
      by simp [guardsOf],
      trivial, by simp, rfl, by simpa [Event.Explained] using hoverflow f r hplace hr hdirty⟩
  have hskip : (c.place p = .nonResident ∨ ∃ f r, c.place p = .resident f ∧
      c.frame f = .resident r ∧ r.dirty = false) →
      Runs n N t c (return flushReturn caller : Locked R τ Next) (Goes h t c [] false none)
        (Throws h t c []) := fun hclean => by
    refine Simulates.after
      ⟨.skipFlush t p caller hph hclean, by simp +contextual, by simp, rfl, by simp⟩
      (fun _ hrep => hrep.goto _)
      ((flushReturn_runs h (a := caller) (E := fun _ _ _ => False) (by simp)).mono ?_ ?_)
    · exact fun next es c' _ hgoes => hgoes.after (Told.silent h) rfl
    · exact fun e es c' _ ht => ht.elim
  rw [flushPage, wp_bind]
  refine hR.wp_pageState ?_ fun hunused =>
    throws_of_leaves hR h hph (.invalid _ hunused) (hleaves _ (.invalid _ hunused))
  cases hplace : c.place p with
  | unused =>
    have he := Leaves.flushUnused p caller hplace
    exact throws_of_leaves hR h hph he (hleaves _ he)
  | loading f => exact sleepPage_runs h hph (by simp [Visit.pageId, hplace, Place.transient]) m hR
  | evicting f => exact sleepPage_runs h hph (by simp [Visit.pageId, hplace, Place.transient]) m hR
  | nonResident => exact hskip (Or.inl hplace) m hR
  | resident f =>
    obtain ⟨r, hr, rfl, hlisted⟩ := hI.resident hplace
    have hclean : r.dirty = false := by
      by_contra hne
      exact hcapture ⟨f, r, hplace, hr, by simpa using hne⟩
    have hmeta : m.frameMeta f = (Use.resident r).meta := by rw [hR.frameMeta, hr]
    simp only [Place.entry, wp_bind]
    refine hR.wp_residentFrame hplace ?_
    simp only [metaOf, wp_get, wp_map, bind_pure_comp, hmeta, Use.meta]
    rw [if_pos hclean]
    exact hskip (Or.inr ⟨f, r, hplace, hr, hclean⟩) m hR

/-- `UnpinFrameLocked` and its four endings. -/
theorem Represents.wp_unpinFrameLocked {m : Manager R τ} {Q : Unit → Manager R τ → Prop}
    {E : Error → Manager R τ → Prop} (h : Represents n N m c) (hI : Owned n c) {f : Nat}
    (hok : ∀ c' m', Unpin c f c' none → Represents n N m' c' → Q () m')
    (herror : ∀ c' m' e, Unpin c f c' (some e) → Represents n N m' c' → E e m') :
    wp (unpinFrameLocked f : Locked R τ Unit) Q E m := by
  rw [unpinFrameLocked, wp_bind]
  simp only [metaOf, wp_get, wp_map, bind_pure_comp]
  cases hr : c.frame f with
  | resident r =>
    have hlt := hI.allocated_lt f (hI.allocated_of_use (f := f) (by simp [hr]))
    have hmeta : m.frameMeta f = ⟨some r.page, r.pins, r.dirty, r.epoch, .resident⟩ := by
      rw [h.frameMeta, hr]
      rfl
    simp only [hmeta, ne_eq, not_true_eq_false, if_false]
    by_cases hpins : r.pins = 0
    · simp only [hpins, if_true, wp_throw]
      exact herror c m _ (.refused _ fun r' hr' => by
        rw [hr] at hr'
        cases hr'
        exact hpins) h
    simp only [hpins, if_false, setMeta, wp_bind, wp_modify]
    have hR₁ := h.setUse f (.resident { r with pins := r.pins - 1 })
    by_cases hlast : r.pins = 1
    · simp only [hlast, Nat.sub_self, if_true] at hR₁ ⊢
      by_cases hpresent : f ∈ c.present
      · refine hR₁.wp_setEvictable true hpresent fun m₂ hR₂ => ?_
        exact hok _ _ (.last r hr hlast hpresent) (by simpa using hR₂)
      · exact hR₁.wp_setEvictable_error true hlt hpresent fun e =>
          herror _ _ e (.unknown r e hr hlast hpresent) hR₁
    · obtain ⟨k, hk⟩ : ∃ k, r.pins = k + 2 := ⟨r.pins - 2, by omega⟩
      have hne : ¬ (r.pins - 1 = 0) := by omega
      simp only [hne, if_false, wp_pure]
      refine hok _ _ (.kept r k hr hk) ?_
      have hpred : r.pins - 1 = k + 1 := by omega
      rw [hpred]
      exact h.setUse f (.resident { r with pins := k + 1 })
  | free | loading | evicting =>
    have hmeta : (m.frameMeta f).state ≠ .resident := by
      rw [h.frameMeta, hr]
      simp [Use.meta]
    simp only [ne_eq, hmeta, not_false_eq_true, if_true, wp_throw]
    exact herror c m _ (.refused _ fun r' hr' => by rw [hr] at hr'; cases hr') h

/-- The unpin at the end of a `FlushPage`'s write, and the return. -/
theorem unpinning_runs (hI : Owned n c) (h : Hazards) {p f : Nat} {caller : FlushCaller}
    {failure : Option Error} (hph : c.phase t = .unpinning p f caller failure)
    (hcause : ∀ e, failure = some e → h.fails e) (hunpin : ∀ e, c.Unpinnable f → h.fails e) :
    Runs n N t c (do
        unpinFrameLocked f
        notifyAll
        match failure with
        | none => return flushReturn caller
        | some e => throw e : Locked R τ Next)
      (Goes h t c [] false none) (Throws h t c []) := by
  intro m hR
  rw [wp_bind]
  refine hR.wp_unpinFrameLocked hI ?_ ?_
  · intro c₁ m₁ hunpin hR₁
    have hframe := hunpin.frame_only
    have hstep : StepBy n N (CompleteReplacer R) t c (unpinEvent t failure)
        ((c₁.notify).goto t (unpinPhase caller failure)) := by
      refine ⟨.unpinned t p f caller failure hph hunpin, ?_, by simp, ?_, by simp⟩
      · simp +contextual [hframe]
      · simp [hframe]
    simp only [notifyAll, wp_bind, wp_modify]
    cases failure with
    | none =>
      have hrest := flushReturn_runs (R := R) (N := N) (n := n) h (a := caller) (t := t)
        (c := (c₁.notify).goto t (unpinPhase caller none)) (E := fun _ _ _ => False)
        (by simp [unpinPhase]) _ (hR₁.notify.goto _)
      refine hrest.mono ?_ fun _ _ => ?_
      · rintro next s' ⟨es, c', hpath, hrep, hgoes⟩
        refine ⟨_, c', .cons hstep hpath, hrep, hgoes.after (Told.silent h) ?_⟩
        simp [hframe]
      · rintro ⟨_, _, _, _, hfalse⟩
        exact hfalse.elim
    | some e =>
      simp only [wp_throw]
      exact ⟨_, _, .single hstep, hR₁.notify.goto _, by simp [unpinPhase], by simp [hframe],
        ⟨rfl, by simp [unpinEvent, Event.Explained]⟩, hcause e rfl⟩
  · intro c₁ m₁ e hthrew hR₁
    have hframe := hthrew.frame_only
    refine ⟨_, _, .single ⟨.unpinThrew t p f caller failure e hph hthrew, ?_, ?_, ?_, by simp⟩,
      hR₁.goto _, by simp, by simp [hframe], ⟨rfl, by simp [Event.Explained]⟩,
      hunpin e hthrew.unpinnable⟩
    · simp +contextual [hframe]
    · simp [hframe]
    · simp [hframe]

theorem Use.meta_cleaned (u : Use) (p epoch : Nat) :
    (u.cleaned p epoch).meta =
      if u.meta.pageId = some p ∧ u.meta.state = .resident ∧ u.meta.dirtyEpoch = epoch then
        { u.meta with dirty := false }
      else u.meta := by
  cases u with
  | resident r => by_cases h : r.page = p ∧ r.epoch = epoch <;> simp [Use.cleaned, Use.meta, h]
  | free | loading | evicting => simp [Use.cleaned, Use.meta]

/-- The end of a write, after which the page is clean if it was not marked since. -/
theorem finishFlush_runs (hI : Owned n c) (h : Hazards) {p f epoch : Nat} {caller : FlushCaller}
    {io : Io} {failure : Option Error} (hph : c.phase t = .suspended (.writing p f epoch caller io))
    (hio : io.outcome = some failure) (hcause : ∀ e, failure = some e → h.fails e)
    (hunpin : ∀ e, c.Unpinnable f → h.fails e) :
    Runs n N t c (finishFlush p f epoch caller failure : Locked R τ Next)
      (Goes h t c ((Pc.writing p f epoch caller io).notes t) false none)
      (Throws h t c ((Pc.writing p f epoch caller io).notes t)) := by
  intro m hR
  cases failure with
  | none =>
    obtain rfl : io = .done := by
      cases io <;> simp [Io.outcome] at hio
      rfl
    have hstep : StepBy n N (CompleteReplacer R) t c (.wrote t p)
        ((c.setUse f ((c.frame f).cleaned p epoch)).goto t (.unpinning p f caller none)) :=
      ⟨.written t p f epoch caller hph, by simp +contextual, by simp, rfl, by simp⟩
    have htold : Told h [(.wrote t p : Event τ)] [.wrote t p] := ⟨rfl, by simp [Event.Explained]⟩
    have hdone : ∀ m₁, Represents n N m₁ (c.setUse f ((c.frame f).cleaned p epoch)) →
        wp (do
            unpinFrameLocked f
            notifyAll
            return flushReturn caller : Locked R τ Next)
          (fun next s' => ∃ es c', Path (StepBy n N (CompleteReplacer R) t) c es c' ∧
            Represents n N s' c' ∧ Goes h t c [.wrote t p] false none next es c')
          (fun er s' => ∃ es c', Path (StepBy n N (CompleteReplacer R) t) c es c' ∧
            Represents n N s' c' ∧ Throws h t c [.wrote t p] er es c') m₁ := by
      intro m₁ hR₁
      have hph₁ : ((c.setUse f ((c.frame f).cleaned p epoch)).goto t
          (.unpinning p f caller none)).phase t = .unpinning p f caller none := by simp
      refine (unpinning_runs (Owned.step hstep.step hI) h hph₁ (by simp) (fun e he => hunpin e ?_)
        m₁ (hR₁.goto _)).mono ?_ ?_
      · exact he.of_cleaned
      · rintro next s' ⟨es, c', hpath, hrep, hgoes⟩
        exact ⟨_, c', .cons hstep hpath, hrep, hgoes.after htold rfl⟩
      · rintro er s' ⟨es, c', hpath, hrep, ht⟩
        exact ⟨_, c', .cons hstep hpath, hrep, ht.after htold rfl⟩
    have hR₁ := hR.setUse f ((c.frame f).cleaned p epoch)
    rw [Use.meta_cleaned, ← hR.frameMeta] at hR₁
    rw [finishFlush, wp_bind, metaOf, wp_bind, wp_get, wp_pure]
    dsimp only
    split at hR₁
    · next hcond =>
      rw [if_pos hcond, wp_bind, setMeta, wp_modify]
      exact hdone _ hR₁
    · next hcond =>
      rw [if_neg hcond]
      rw [Function.update_eq_self] at hR₁
      exact hdone _ hR₁
  | some e =>
    obtain rfl : io = .failed e := by
      cases io <;> simp [Io.outcome] at hio
      rw [hio]
    have hstep : StepBy n N (CompleteReplacer R) t c .silent
        (c.goto t (.unpinning p f caller (some e))) :=
      ⟨.writeFailed t p f epoch caller e hph, by simp +contextual, by simp, rfl, by simp⟩
    have hph₁ : (c.goto t (.unpinning p f caller (some e))).phase t =
        .unpinning p f caller (some e) := by simp
    have hrest := unpinning_runs (R := R) (N := N) (Owned.step hstep.step hI) h hph₁ hcause hunpin
    refine (hrest m (hR.goto _)).mono ?_ ?_
    · rintro next s' ⟨es, c', hpath, hrep, hgoes⟩
      exact ⟨_, c', .cons hstep hpath, hrep, hgoes.after (Told.silent h) rfl⟩
    · rintro er s' ⟨es, c', hpath, hrep, ht⟩
      exact ⟨_, c', .cons hstep hpath, hrep, ht.after (Told.silent h) rfl⟩

/-- `FlushAllPages` takes its snapshot. -/
theorem flushAllPages_runs {h : Hazards} (hph : c.phase t = .suspended .idle)
    (hmisses : c.EvictsDirty → h.misses) {E : Error → List (Event τ) → Cfg τ → Prop} :
    Runs n N t c (flushAllPages : Locked R τ Next) (Goes h t c [.flushAll t] false none) E := by
  intro m hR
  have hstep : StepBy n N (CompleteReplacer R) t c (.snapshot t (c.dirtyPages n) c.EvictsDirty)
      (c.goto t (.flushed (.flushAllPages (c.dirtyPages n)))) :=
    ⟨.snapshot t hph, by simp +contextual, by simp, rfl, by simp⟩
  have htold : Told h [(.snapshot t (c.dirtyPages n) c.EvictsDirty : Event τ)] [.flushAll t] :=
    ⟨rfl, by simpa [Event.Explained] using hmisses⟩
  rw [flushAllPages, wp_bind, wp_get, hR.dirtyPages_eq]
  refine (flushReturn_runs (E := fun _ _ _ => False) (t := t)
    (c := c.goto t (.flushed (.flushAllPages (c.dirtyPages n)))) h (by simp) m (hR.goto _)).mono
      ?_ ?_
  · rintro next s' ⟨es, c', hpath, hrep, hgoes⟩
    exact ⟨_, c', .cons hstep hpath, hrep, hgoes.after htold rfl⟩
  · rintro er s' ⟨_, _, _, _, hfalse⟩
    exact hfalse.elim

/-! ## DeletePage -/

/-- A visit of `DeletePage` frees the page and its frame, falls asleep or throws. -/
theorem deletePage_runs (hI : Owned n c) {h : Hazards} {p : Nat}
    (hph : c.phase t = .visiting (.deletePage p)) (hdeletes : c.Reserved p → h.deletes)
    (hleaves : ∀ e, Leaves c (.deletePage p) e → h.fails e) :
    Runs n N t c (deletePage t p : Locked R τ Next) (Goes h t c [] false (some p))
      (Throws h t c []) := by
  intro m hR
  rw [deletePage, wp_bind]
  refine hR.wp_pageState ?_ fun hunused =>
    throws_of_leaves hR h hph (.invalid _ hunused) (hleaves _ (.invalid _ hunused))
  cases hplace : c.place p with
  | unused =>
    exact ⟨_, _, .single ⟨.deleteUnused t p hph hplace, by simp +contextual, by simp, rfl, by simp⟩,
      hR.goto _, by simp [phaseOf], by simp [guardsOf], by simp [Lands, hplace], by simp, rfl,
      by simp [Event.Explained]⟩
  | loading f => exact sleepPage_runs h hph (by simp [Visit.pageId, hplace, Place.transient]) m hR
  | evicting f => exact sleepPage_runs h hph (by simp [Visit.pageId, hplace, Place.transient]) m hR
  | nonResident =>
    simp only [Place.entry, wp_bind]
    refine hR.wp_freePageId hplace fun m₁ hR₁ => ?_
    simp only [notifyAll, wp_modify, wp_pure]
    exact ⟨_, _,
      .single ⟨.deleteNonResident t p hph hplace, by simp +contextual, by simp, rfl, by simp⟩,
      hR₁.notify.goto _, by simp [phaseOf], by simp [guardsOf], by simp [Lands], by simp, rfl,
      by simpa [Event.Explained] using hdeletes⟩
  | resident f =>
    obtain ⟨r, hr, rfl, hlisted⟩ := hI.resident hplace
    have hallocated := hI.allocated_of_use (f := f) (by simp [hr])
    have hmeta : m.frameMeta f = ⟨some r.page, r.pins, r.dirty, r.epoch, .resident⟩ := by
      rw [hR.frameMeta, hr]
      rfl
    simp only [Place.entry, wp_bind]
    refine hR.wp_residentFrame hplace ?_
    simp only [metaOf, wp_get, wp_map, bind_pure_comp, hmeta, ne_eq, not_true_eq_false, or_self,
      if_false]
    by_cases hpins : r.pins = 0
    · simp only [hpins, not_true_eq_false, if_false, wp_bind]
      refine hR.wp_removeFrame (hI.allocated_lt f hallocated) fun m₁ hR₁ => ?_
      simp only [setMeta, wp_modify]
      refine (hR₁.setUse f .free).wp_freeFrame hallocated fun m₂ hR₂ => ?_
      refine hR₂.wp_setNonResident (p := r.page) (by simp [hplace]) fun m₃ hR₃ => ?_
      refine hR₃.wp_freePageId (by simp) fun m₄ hR₄ => ?_
      simp only [notifyAll, wp_modify, wp_map]
      refine ⟨_, _, .single ⟨.deleteResident t r.page f r hph hplace hr hpins, by simp +contextual,
        by simp, rfl, by simp⟩, ?_, by simp [phaseOf], by simp [guardsOf], by simp [Lands], by simp,
        rfl, by simpa [Event.Explained] using hdeletes⟩
      simpa using hR₄.notify.goto (t := t) (.suspended .idle)
    · simp only [hpins, not_false_eq_true, if_true, wp_throw]
      have he := Leaves.deletePinned r.page f r hplace hr hpins
      exact throws_of_leaves hR h hph he (hleaves _ he)

end BufferManager.Refinement
