/-
  Guarantees/Sequential.lean --- runs of one thread.

  One thread, which uses its guards between its calls, marks what it changes and holds
  fewer than `2 ^ 32 - 1` guards on a page.  Whatever it asks for, a call of it moves the
  protocol along steps of that call only, which `Amid` follows.
-/
import BufferManager.Guarantees.Updates
import BufferManager.Manager.Sequential
import BufferManager.Protocol.Sequential

set_option autoImplicit false

namespace BufferManager

open BufferManager.Lib BufferManager.Protocol BufferManager.Refinement

/-! ## One thread -/

/-- Guards are used between calls, no page gets too many of them, and a guard is given up
when its changes are marked. -/
def System.OneThread {R : Type} (x : System R Unit × Ledger Unit) (l : Action Unit × Outcome) :
    Prop :=
  (l.1.onGuard = true → x.1.pc () = .idle) ∧ x.1.FewGuards ∧
    Admits (Ledger.after false) Ledger.MarksFirst x.2 (x.1.notes l.1 l.2)

instance {R : Type} (x : System R Unit × Ledger Unit) (l : Action Unit × Outcome) :
    Decidable (System.OneThread x l) :=
  inferInstanceAs (Decidable ((l.1.onGuard = true → x.1.pc () = .idle) ∧ x.1.FewGuards ∧
    Admits (Ledger.after false) Ledger.MarksFirst x.2 (x.1.notes l.1 l.2)))

namespace Refinement

variable {R : Type} [Replacer R] [LawfulReplacer R] {n N : Nat} {s : System R Unit} {c : Cfg Unit}
  {g : Ledger Unit}

omit [Replacer R] [LawfulReplacer R] in
theorem guardsOf_eq_zero {p : Nat} (h : ∀ gd ∈ s.guards, gd.valid = true → gd.pageId ≠ p) :
    s.guardsOf p = 0 := by
  refine List.countP_eq_zero.mpr fun gd hg hon => ?_
  rw [Bool.and_eq_true, beq_iff_eq] at hon
  exact h gd hg hon.1 hon.2

omit [Replacer R] [LawfulReplacer R] in
/-- A page nobody has a guard on has few guards. -/
theorem guardsOf_lt (h : s.FewGuards) (p : Nat) : s.guardsOf p < maxPinCount := by
  by_cases hp : ∃ gd ∈ s.guards, gd.valid = true ∧ gd.pageId = p
  · obtain ⟨gd, hg, hv, rfl⟩ := hp
    exact h gd hg hv
  · push Not at hp
    rw [guardsOf_eq_zero hp]
    decide

/-- The guards of a page are those on it in its frame, and maybe others. -/
theorem Sim.guardsOn_le (hS : Sim n N s c) (p f : Nat) : c.guardsOn p f ≤ s.guardsOf p := by
  rw [Cfg.guardsOn, hS.guards]
  refine List.countP_mono_left fun gd _ hon => ?_
  obtain ⟨hv, hpage, -⟩ := guardOn_iff.mp hon
  rw [hv, hpage]
  exact beq_self_eq_true p

omit [LawfulReplacer R] in
/-- A thread that looks at a page is not writing. -/
theorem writes_of_visits {action : Action Unit} {s' : System R Unit} {out : Outcome} {v : Visit}
    (hv : s.visits action = some v) (hstep : s.step action = some (s', out)) :
    (Phase.suspended (s.pc ())).writes = none := by
  cases action with
  | call t call =>
    have hidle : s.pc () = .idle := by
      by_contra hne
      simp only [System.step] at hstep
      rw [if_neg hne] at hstep
      cases hstep
    rw [hidle]
    rfl
  | resume t =>
    cases hpc : s.pc () with
    | waitPage | nextFlush => rfl
    | _ => simp [System.visits, hpc] at hv
  | _ => cases hv

/-- A flush of the only thread finds no full pin count. -/
theorem Sim.not_overflows (hS : Sim n N s c) (hI : Owned n c) (hP : Pinned c) (hfew : s.FewGuards)
    {action : Action Unit} {s' : System R Unit} {out : Outcome}
    (hstep : s.step action = some (s', out)) : ¬ s.FlushOverflows action := by
  rintro ⟨p, caller, f, hv, hentry, -, hpins⟩
  have hwrites : (c.phase ()).writes = none := by
    rw [hS.phase]
    exact writes_of_visits hv hstep
  obtain ⟨r, hr, hpage, hlisted⟩ := hI.resident (hS.place_of_entry hentry)
  have heq := hP.pins_eq f r hr hlisted
  rw [refs_eq_guardsOn rfl hwrites] at heq
  rw [hS.rep.frameMeta, hr] at hpins
  have hmax : r.pins = maxPinCount := hpins
  have hle := hS.guardsOn_le r.page f
  have hlt := guardsOf_lt hfew r.page
  omega

omit [Replacer R] [LawfulReplacer R] in
/-- No epoch comes back to one that a flush has captured. -/
theorem not_epochReturns {action : Action Unit} (h : action.onGuard = true → s.pc () = .idle) :
    ¬ s.EpochReturns action := by
  rintro ⟨slot, gd, t, caller, io, rfl, -, hpc⟩
  rw [h rfl] at hpc
  cases hpc

theorem Event.renews_of_explained {τ : Type} {e : Event τ} {h : Hazards} (hh : ¬ h.clash)
    (he : e.Explained h) : e.Renews := by
  cases e with
  | marked slot p clash => exact fun hclash => hh (he hclash)
  | _ => trivial

theorem Alone.initial (disk : Nat → Page) : Alone (Cfg.initial N disk) {} where
  pinned := Pinned.initial disk
  listed := fun f r h => by cases h
  reservations := ⟨fun t p h => (by cases h), fun t u p h => (by cases h)⟩
  durable := {
    kept := fun p => rfl
    told := fun t => trivial
    reserved := fun t p _ => rfl
    pending := fun slot h => absurd rfl h }
  current := ⟨fun p hp => absurd rfl hp, fun p hp => absurd rfl hp⟩

/-- Every state of a run of one thread is in order, and the account fits it. -/
theorem alone_of_reachable {x : System R Unit × Ledger Unit}
    (h : Reachable (fun x => System.Initial n N x.1 ∧ x.2 = {})
      (Under System.OneThread (Kept (Ledger.after false))) x) : Holds n N (Alone · x.2) x.1 := by
  refine h.invariant (I := fun x => Holds n N (Alone · x.2) x.1) ?_ ?_
  · rintro ⟨s, g⟩ ⟨hs, rfl⟩
    obtain ⟨disk, hsim⟩ := Sim.initial hs
    exact ⟨_, hsim, Sound.initial disk, Alone.initial disk⟩
  · rintro ⟨s, g⟩ l ⟨s', g'⟩ hs ⟨⟨hguard, hfew, hmarks⟩, hst, hg⟩
    obtain rfl : g' = _ := hg
    refine hs.step_kept (P := fun e => e.Fits ∧ e.Renews) (A := Ledger.MarksFirst) ?_ ?_ hmarks hst
    · intro c e c' g he hmarked hst hsound hA
      refine hA.step hst he.1 he.2 ?_ hsound.owned
      rintro slot failure rfl
      exact hmarked _ rfl
    · intro e he
      obtain ⟨c, hS, hsound, hA⟩ := hs
      have hno := hS.not_overflows hsound.owned hA.pinned hfew hst.1
      exact ⟨Event.fits_of_explained (h := s.hazards l.1) hno he,
        Event.renews_of_explained (h := s.hazards l.1) (not_epochReturns hguard) he⟩

end Refinement

/-! ## In the midst of a call -/

namespace Protocol

variable {n N : Nat} {complete : Prop} {c c' : Cfg Unit} {e : Event Unit} {g : Ledger Unit}

/-- The event is a step of a call that neither ends it nor meets a full pin count. -/
def Event.Midway (e : Event Unit) : Prop :=
  e.Fits ∧ ∀ y, e.note = some y → ¬ y.Ends ∧ ¬ y.OnGuard

theorem Event.Midway.ends (h : e.Midway) : e.ends = none := by
  cases e with
  | ended t r => cases r <;> exact absurd trivial (h.2 _ rfl).1
  | created | deleted => exact absurd trivial (h.2 _ rfl).1
  | _ => rfl

theorem Event.Midway.inner (h : e.Midway) (hnote : ∀ t, e.note ≠ some (.flushAll t)) :
    e.Inner := by
  cases e with
  | snapshot t pages evicting => exact absurd rfl (hnote t)
  | changed | marked | dropped | moved => exact absurd trivial (h.2 _ rfl).2
  | flushPinned pins => exact h.1
  | _ => trivial

/-- The configuration is in order, with the changes that `g` knows of. -/
structure Amid (n N : Nat) (g : Ledger Unit) (c : Cfg Unit) : Prop where
  sound : Sound n N c
  account : ∃ g', Alone c g' ∧ g'.history = g.history ∧ g'.pending = g.pending

theorem Amid.pinned (hA : Amid n N g c) : Pinned c :=
  let ⟨_, hA', _⟩ := hA.account
  hA'.pinned

theorem Amid.reservations (hA : Amid n N g c) : Reservations c :=
  let ⟨_, hA', _⟩ := hA.account
  hA'.reservations

theorem pending_enter_eq (h : ∀ y, e.note = some y → ¬ y.OnGuard) :
    (e.enter (Ledger.after false) g).pending = g.pending := by
  cases e with
  | changed | marked | dropped | moved => exact absurd trivial (h _ rfl)
  | ended t r => cases r <;> rfl
  | _ => rfl

/-- A step that makes no page and uses no guard changes no page. -/
theorem Amid.step (hA : Amid n N g c) (h : Step n N complete c e c') (hfits : e.Fits)
    (hguard : ∀ y, e.note = some y → ¬ y.OnGuard) (hcreated : ∀ t p f, e ≠ .created t p f) :
    Amid n N g c' := by
  obtain ⟨g', hA', hhistory, hpending⟩ := hA.account
  have hrenews : e.Renews := by
    cases e with
    | marked => exact absurd trivial (hguard _ rfl)
    | _ => trivial
  refine ⟨hA.sound.step h, e.enter (Ledger.after false) g', hA'.step h hfits hrenews ?_
    hA.sound.owned, ?_, ?_⟩
  · rintro slot failure rfl
    exact absurd trivial (hguard _ rfl)
  · rw [← hhistory]
    refine funext fun p => history_enter_eq (fun t f => hcreated t p f) ?_
    rintro slot page rfl
    exact absurd trivial (hguard _ rfl)
  · rw [pending_enter_eq hguard, hpending]

theorem Amid.midway (hA : Amid n N g c) (h : Step n N complete c e c') (he : e.Midway) :
    Amid n N g c' := by
  refine hA.step h he.1 (fun y hy => (he.2 y hy).2) ?_
  rintro t p f rfl
  exact (he.2 _ rfl).1 trivial

end Protocol

/-! ## Calls from their beginning -/

namespace Refinement

variable {R : Type} [Replacer R] {n N : Nat} {s m s' : System R Unit} {out : Outcome} {call : Call}
  {failure : Option Error}

omit [Replacer R] in
/-- How a locked piece of a call ends. -/
theorem settle_ends {piece : Locked R Unit Next} (h : s.settle () piece = (s', out)) :
    (out = .suspended ∧ s'.guards = s.guards) ∨
      (s'.pc () = .idle ∧ ((∃ r, out = .returned r) ∨ ∃ e, out = .threw e)) := by
  unfold System.settle at h
  split at h <;> cases h
  · exact Or.inl ⟨rfl, rfl⟩
  · exact Or.inr ⟨by simp, Or.inl ⟨_, rfl⟩⟩
  · exact Or.inr ⟨by simp, Or.inl ⟨_, rfl⟩⟩
  · exact Or.inr ⟨by simp, Or.inr ⟨_, rfl⟩⟩

theorem call_ends (h : s.step (.call () call) = some (s', out)) : s.pc () = .idle ∧
    ((out = .suspended ∧ s'.guards = s.guards) ∨
      (s'.pc () = .idle ∧ ((∃ r, out = .returned r) ∨ ∃ e, out = .threw e))) := by
  simp only [System.step] at h
  split at h
  · next hidle => exact ⟨hidle, settle_ends (Option.some.inj h)⟩
  · cases h

theorem resume_ends (h : s.step (.resume ()) = some (s', out)) :
    (out = .suspended ∧ s'.guards = s.guards) ∨
      (s'.pc () = .idle ∧ ((∃ r, out = .returned r) ∨ ∃ e, out = .threw e)) := by
  obtain ⟨piece, -, hsettle⟩ := Option.map_eq_some_iff.mp h
  exact settle_ends hsettle

variable [LawfulReplacer R] {c₀ c c₁ c' : Cfg Unit} {g : Ledger Unit} {I : Cfg Unit → Prop}

/-- The system is in the midst of `call`, in a configuration with a property. -/
structure InCall (n N : Nat) (g : Ledger Unit) (call : Call) (failure : Option Error)
    (I : Cfg Unit → Prop) (m : System R Unit) (c : Cfg Unit) : Prop where
  sim : Sim n N m c
  amid : Amid n N g c
  property : I c
  few : m.FewGuards
  serves : Phase.Serves call (c.phase ())
  failure : (m.pc ()).failure = failure

/-- The step `e` ends the call, in the locked piece that began in `m`. -/
structure LastStep (n N : Nat) (g : Ledger Unit) (call : Call) (I : Cfg Unit → Prop)
    (m : System R Unit) (c c₁ : Cfg Unit) (e : Event Unit) (c' : Cfg Unit) (s' : System R Unit)
    (out : Outcome) : Prop where
  start : Sim n N m c
  start_amid : Amid n N g c
  start_property : I c
  unfailed : c₁ = c ∨ (c₁.phase ()).Unfailed
  amid : Amid n N g c₁
  property : I c₁
  serves : Phase.Serves call (c₁.phase ()) ∨
    c₁.phase () = .suspended .idle ∧ ∃ err, e = .ended () (.error err)
  step : Step n N (CompleteReplacer R) c₁ e c'
  fits : e.Fits
  sim : Sim n N s' c'
  ends : ∃ y, e.note = some y ∧ y.Ends
  throws : (∃ err, out = .threw err) ↔ ∃ err, e = .ended () (.error err)

/-- The property is kept by the steps of `call` that do not end it. -/
def KeptAmid (n N : Nat) (complete : Prop) (g : Ledger Unit) (call : Call) (I : Cfg Unit → Prop) :
    Prop :=
  ∀ c e c', Amid n N g c → I c → Step n N complete c e c' → e.Midway →
    Phase.Serves call (c'.phase ()) → I c'

namespace KeptAmid

variable {complete : Prop} {es : List (Event Unit)}

theorem path (hI : KeptAmid n N complete g call I) (hA : Amid n N g c) (hc : I c)
    (hserves : Phase.Serves call (c.phase ())) (h : Path (Step n N complete) c es c')
    (hes : ∀ e ∈ es, e.Midway) : Amid n N g c' ∧ I c' ∧ Phase.Serves call (c'.phase ()) := by
  refine h.preserves (P := Event.Midway)
    (I := fun c => Amid n N g c ∧ I c ∧ Phase.Serves call (c.phase ())) ?_ hes ⟨hA, hc, hserves⟩
  rintro c e c' he hst ⟨hA, hc, hserves⟩
  have hserves' := hst.serves hserves he.ends
  exact ⟨hA.midway hst he, hI c e c' hA hc hst he hserves', hserves'⟩

/-- The same from where the call begins. -/
theorem path_of_call (hI : KeptAmid n N complete g call I) (hA : Amid n N g c) (hc : I c)
    (hidle : c.phase () = .suspended .idle) (h : Path (Step n N complete) c es c')
    (hnotes : es.filterMap Event.note = call.notes ()) (hes : ∀ e ∈ es, e.Midway) :
    Amid n N g c' ∧ I c' ∧ (es = [] ∨ Phase.Serves call (c'.phase ())) := by
  rcases Protocol.path_of_call h hidle (hnotes.trans (List.append_nil _).symm) (by simp) with
    rfl | ⟨e, es', c₁, rfl, hst, hrest, hserves | ⟨err, rfl⟩⟩
  · cases h
    exact ⟨hA, hc, Or.inl rfl⟩
  · have he := hes e List.mem_cons_self
    obtain ⟨hA', hc', hserves'⟩ := hI.path (hA.midway hst he) (hI c e c₁ hA hc hst he hserves)
      hserves hrest fun e' he' => hes e' (List.mem_cons_of_mem _ he')
    exact ⟨hA', hc', Or.inr hserves'⟩
  · exact absurd trivial ((hes _ List.mem_cons_self).2 _ rfl).1

end KeptAmid

theorem unfailed_of_path {complete : Prop} {es : List (Event Unit)}
    (h : Path (StepBy n N complete ()) c es c') : c' = c ∨ (c'.phase ()).Unfailed := by
  induction h with
  | nil => exact Or.inl rfl
  | cons hstep _ ih =>
    rcases ih with rfl | hunfailed
    · exact Or.inr hstep.unfailed
    · exact Or.inr hunfailed

/-- What is noted of a call before its end. -/
theorem midway_of_notes {es : List (Event Unit)} {before : List (Note Unit)}
    (hfits : ∀ e ∈ es, e.Fits) (hnotes : es.filterMap Event.note = before)
    (hbefore : ∀ y ∈ before, ¬ y.Ends ∧ ¬ y.OnGuard) : ∀ e ∈ es, e.Midway := by
  intro e he
  refine ⟨hfits e he, fun y hy => hbefore y ?_⟩
  rw [← hnotes]
  exact List.mem_filterMap.mpr ⟨e, he, hy⟩

theorem call_notes (call : Call) : ∀ y ∈ call.notes (), ¬ y.Ends ∧ ¬ y.OnGuard := by
  intro y hy
  cases call with
  | newPage => cases hy
  | flushAllPages | fetchPage p | flushPage p | deletePage p =>
    obtain rfl := List.mem_singleton.mp hy
    exact ⟨id, id⟩

theorem pc_notes (pc : Pc) : ∀ y ∈ pc.notes (), ¬ y.Ends ∧ ¬ y.OnGuard := by
  intro y hy
  obtain ⟨p, -, rfl⟩ := List.mem_map.mp hy
  exact ⟨id, id⟩

/-- The end of a call is noted once. -/
theorem outcome_notes (creates : Bool) (deletes : Option Nat)
    (h : (∃ r, out = .returned r) ∨ ∃ e, out = .threw e) :
    ∃ y, out.notes () creates deletes = [y] ∧ y.Ends ∧
      ((∃ e, out = .threw e) ↔ y = .failed ()) := by
  rcases h with ⟨r, rfl⟩ | ⟨e, rfl⟩
  · have hnot : ¬ ∃ e, Outcome.returned r = .threw e := fun ⟨e, h⟩ => by cases h
    cases r with
    | unit =>
      cases deletes with
      | none => exact ⟨_, rfl, trivial, iff_of_false hnot (by simp)⟩
      | some p => exact ⟨_, rfl, trivial, iff_of_false hnot (by simp)⟩
    | guard gd =>
      cases creates with
      | true => exact ⟨_, rfl, trivial, iff_of_false hnot (by simp)⟩
      | false => exact ⟨_, rfl, trivial, iff_of_false hnot (by simp)⟩
  · exact ⟨_, rfl, trivial, iff_of_true ⟨e, rfl⟩ rfl⟩

theorem Event.note_eq_failed {e : Event Unit} :
    e.note = some (.failed ()) ↔ ∃ err, e = .ended () (.error err) := by
  constructor
  · intro h
    cases e with
    | ended t r =>
      cases r with
      | error err => exact ⟨err, rfl⟩
      | ok r => cases h
    | _ => cases h
  · rintro ⟨err, rfl⟩
    rfl

/-- The piece that ends a call. -/
theorem lastStep_of_piece {h : Hazards} {before : List (Note Unit)} {creates : Bool}
    {deletes : Option Nat} {es : List (Event Unit)} (hS : Sim n N m c) (hA : Amid n N g c)
    (hc : I c) (hpiece : SimulatedBy n N h () out c before creates deletes s' es c')
    (hfits : ∀ e ∈ es, e.Fits) (hbefore : ∀ y ∈ before, ¬ y.Ends ∧ ¬ y.OnGuard)
    (hkept : ∀ es₁ c₁, Path (Step n N (CompleteReplacer R)) c es₁ c₁ →
      es₁.filterMap Event.note = before → (∀ e ∈ es₁, e.Midway) →
      Amid n N g c₁ ∧ I c₁ ∧ (es₁ = [] ∨ Phase.Serves call (c₁.phase ())))
    (hfirst : ∀ e y, Step n N (CompleteReplacer R) c e c' → before = [] → e.note = some y →
      y.Ends → Phase.Serves call (c.phase ()) ∨
        c.phase () = .suspended .idle ∧ ∃ err, e = .ended () (.error err))
    (hidle : s'.pc () = .idle) (hout : (∃ r, out = .returned r) ∨ ∃ e, out = .threw e) :
    ∃ c₁ e, LastStep n N g call I m c c₁ e c' s' out := by
  obtain ⟨y, hy, hends, hthrows⟩ := outcome_notes creates deletes hout
  have hnotes := hpiece.told.notes
  rw [hy] at hnotes
  obtain ⟨es₁, c₁, e, rfl, hpath, hstep, hnote, hes₁⟩ := path_ends
    (fun _ _ _ hst => hst.step) hpiece.path hnotes (by rw [hpiece.sim.phase, hidle])
  have hmid := midway_of_notes (fun e he => hfits e (List.mem_append_left _ he)) hes₁ hbefore
  have hpath' := hpath.mono fun _ _ _ hst => hst.step
  obtain ⟨hA₁, hc₁, hserves⟩ := hkept es₁ c₁ hpath' hes₁ hmid
  have hserves' : Phase.Serves call (c₁.phase ()) ∨
      c₁.phase () = .suspended .idle ∧ ∃ err, e = .ended () (.error err) := by
    rcases hserves with rfl | hserves
    · cases hpath'
      exact hfirst e y hstep.step hes₁.symm hnote hends
    · exact Or.inl hserves
  refine ⟨c₁, e, hS, hA, hc, unfailed_of_path hpath, hA₁, hc₁, hserves', hstep.step,
    hfits e (List.mem_append_right _ (List.mem_singleton_self e)), hpiece.sim, ⟨y, hnote, hends⟩,
    ?_⟩
  rw [hthrows, ← Event.note_eq_failed, hnote]
  exact ⟨fun h => congrArg some h, fun h => Option.some.inj h⟩

/-- The first piece of a call. -/
theorem call_incall (hI : KeptAmid n N (CompleteReplacer R) g call I) (hS : Sim n N s c)
    (hA : Amid n N g c) (hc : I c) (hfew : s.FewGuards)
    (hstep : s.step (.call () call) = some (s', out)) :
    (out = .suspended ∧ ∃ c', InCall n N g call none I s' c') ∨
      ((∃ r, out = .returned r) ∨ ∃ e, out = .threw e) ∧
        ∃ c₁ e c', LastStep n N g call I s c c₁ e c' s' out := by
  obtain ⟨hpc, hends⟩ := call_ends hstep
  have hidle : c.phase () = .suspended .idle := by rw [hS.phase, hpc]
  obtain ⟨es, c', h⟩ := call_simulated hS hA.sound.owned hA.sound.within hstep
  have hno := hS.not_overflows hA.sound.owned hA.pinned hfew hstep
  have hfits : ∀ e ∈ es, e.Fits := fun e he =>
    Event.fits_of_explained (h := s.hazards (.call () call)) hno (h.told.explained e he)
  rcases hends with ⟨rfl, hguards⟩ | ⟨hpc', hout⟩
  · refine Or.inl ⟨rfl, c', ?_⟩
    have hnotes : es.filterMap Event.note = call.notes () := by
      rw [h.told.notes]
      exact List.append_nil _
    have hmid := midway_of_notes hfits hnotes (call_notes call)
    obtain ⟨hA', hc', hserves⟩ :=
      hI.path_of_call hA hc hidle (h.path.mono fun _ _ _ hst => hst.step) hnotes hmid
    refine ⟨h.sim, hA', hc', ?_, hserves.resolve_left (h.moves rfl), ?_⟩
    · unfold System.FewGuards System.guardsOf
      rw [hguards]
      exact hfew
    · have hphase := h.sim.phase ()
      rcases unfailed_of_path h.path with rfl | hunfailed
      · rw [← Phase.suspended.inj (hidle.symm.trans hphase)]
        rfl
      · rwa [hphase] at hunfailed
  · refine Or.inr ⟨hout, ?_⟩
    suffices hlast : ∃ c₁ e, LastStep n N g call I s c c₁ e c' s' out by
      obtain ⟨c₁, e, hlast⟩ := hlast
      exact ⟨c₁, e, c', hlast⟩
    refine lastStep_of_piece hS hA hc h hfits (call_notes call) ?_ ?_ hpc' hout
    · intro es₁ c₁ hpath₁ hnotes hmid
      exact hI.path_of_call hA hc hidle hpath₁ hnotes hmid
    · -- the call ends in its first step
      intro e y hst hnil hnote hyends
      have hsingle : [e].filterMap Event.note = call.notes () ++ [y] := by
        rw [hnil]
        simp [hnote]
      rcases path_of_call (.single hst) hidle hsingle (by simpa using hyends) with
        hnil | ⟨e₀, es', c₂, heq, -, hrest, hserves | hended⟩
      · cases hnil
      · obtain ⟨rfl, rfl⟩ := List.cons.inj heq
        cases hrest
        rw [h.sim.phase, hpc'] at hserves
        exact hserves.elim
      · obtain ⟨rfl, -⟩ := List.cons.inj heq
        exact Or.inr ⟨hidle, hended⟩

/-- A call whose transfer has failed does not return. -/
theorem not_returned_of_failure {h : Hazards} {r : Result} {creates : Bool} {deletes : Option Nat}
    {es : List (Event Unit)} {err : Error} (hS : Sim n N m c) (hf : (m.pc ()).failure = some err)
    (hpiece : SimulatedBy n N h () (.returned r) c ((m.pc ()).notes ()) creates deletes s' es c') :
    False := by
  have hpath := hpiece.path.mono fun _ _ _ hst => hst.step
  have hfailing : (c.phase ()).failing = some err := by
    rw [hS.phase]
    exact hf
  obtain ⟨y, hy, hends, hthrows⟩ := outcome_notes creates deletes (Or.inl ⟨r, rfl⟩)
  have hnotes := hpiece.told.notes
  rw [hy] at hnotes
  have hguard : ∀ z ∈ es.filterMap Event.note, ¬ z.OnGuard := by
    intro z hz
    rw [hnotes] at hz
    rcases List.mem_append.mp hz with hz | hz
    · exact (pc_notes _ z hz).2
    · obtain rfl := List.mem_singleton.mp hz
      cases z <;> first | exact id | exact hends.elim
  rcases path_failing hpath hfailing hguard with ⟨hnil, -⟩ | ⟨rest, hfailed⟩
  · rw [hnil] at hnotes
    simp at hnotes
  · rw [hnotes] at hfailed
    cases hpc : (m.pc ()).notes () with
    | nil =>
      rw [hpc] at hfailed
      obtain ⟨e, he⟩ := hthrows.mpr (List.cons.inj hfailed).1
      cases he
    | cons z zs =>
      rw [hpc] at hfailed
      obtain ⟨rfl, -⟩ := List.cons.inj hfailed
      exact (pc_notes (m.pc ()) (.failed ()) (hpc ▸ List.mem_cons_self)).1 trivial

/-- A later piece of a call. -/
theorem resume_incall (hI : KeptAmid n N (CompleteReplacer R) g call I)
    (hm : InCall n N g call failure I m c) (hstep : m.step (.resume ()) = some (s', out)) :
    (out = .suspended ∧ ∃ es c', es ≠ [] ∧ (∀ e ∈ es, e.Midway) ∧
        Path (Step n N (CompleteReplacer R)) c es c' ∧ InCall n N g call failure I s' c') ∨
      ((∃ r, failure = none ∧ out = .returned r) ∨ ∃ e, out = .threw e) ∧
        ∃ c₁ e c', LastStep n N g call I m c c₁ e c' s' out := by
  have hS := hm.sim
  have hA := hm.amid
  obtain ⟨es, c', h⟩ := resume_simulated hS hA.sound.owned hA.sound.within hstep
  have hno := hS.not_overflows hA.sound.owned hA.pinned hm.few hstep
  have hfits : ∀ e ∈ es, e.Fits := fun e he =>
    Event.fits_of_explained (h := m.hazards (.resume ())) hno (h.told.explained e he)
  have hpath' := h.path.mono fun _ _ _ hst => hst.step
  have hphase := hS.phase ()
  rcases resume_ends hstep with ⟨rfl, hguards⟩ | ⟨hpc', hout⟩
  · have hnotes : es.filterMap Event.note = (m.pc ()).notes () := by
      rw [h.told.notes]
      exact List.append_nil _
    have hmid := midway_of_notes hfits hnotes (pc_notes _)
    obtain ⟨hA', hc', hserves⟩ := hI.path hA hm.property hm.serves hpath' hmid
    refine Or.inl ⟨rfl, es, c', h.moves rfl, hmid, hpath', h.sim, hA', hc', ?_, hserves, ?_⟩
    · unfold System.FewGuards System.guardsOf
      rw [hguards]
      exact hm.few
    · have hphase' := h.sim.phase ()
      cases hfailure : failure with
      | none =>
        rcases unfailed_of_path h.path with rfl | hunfailed
        · rw [← Phase.suspended.inj (hphase.symm.trans hphase'), hm.failure, hfailure]
        · rwa [hphase'] at hunfailed
      | some err =>
        have hf : (c.phase ()).failing = some err := by
          rw [hphase]
          exact hm.failure.trans hfailure
        rcases path_failing hpath' hf (by rw [hnotes]; exact fun y hy => (pc_notes _ y hy).2)
          with ⟨-, hf'⟩ | ⟨rest, hfailed⟩
        · rwa [hphase'] at hf'
        · rw [hnotes] at hfailed
          exact absurd trivial (pc_notes _ (.failed ()) (hfailed ▸ List.mem_cons_self)).1
  · refine Or.inr ⟨?_, ?_⟩
    · rcases hout with ⟨r, rfl⟩ | hthrew
      · refine Or.inl ⟨r, ?_, rfl⟩
        by_contra hne
        obtain ⟨err, hfailure⟩ := Option.ne_none_iff_exists'.mp hne
        exact not_returned_of_failure hS (hm.failure.trans hfailure) h
      · exact Or.inr hthrew
    · suffices hlast : ∃ c₁ e, LastStep n N g call I m c c₁ e c' s' out by
        obtain ⟨c₁, e, hlast⟩ := hlast
        exact ⟨c₁, e, c', hlast⟩
      refine lastStep_of_piece hS hA hm.property h hfits (pc_notes _) ?_ ?_ hpc' hout
      · intro es₁ c₁ hpath₁ _ hmid
        obtain ⟨hA₁, hc₁, hserves⟩ := hI.path hA hm.property hm.serves hpath₁ hmid
        exact ⟨hA₁, hc₁, Or.inr hserves⟩
      · exact fun e y _ _ _ _ => Or.inl hm.serves

/-- A call that goes on by one step. -/
theorem InCall.next {failure' : Option Error} {e : Event Unit}
    (hI : KeptAmid n N (CompleteReplacer R) g call I)
    (hm : InCall n N g call failure I m c) (hstep : Step n N (CompleteReplacer R) c e c')
    (hS' : Sim n N s' c') (hmid : e.Midway) (hguards : s'.guards = m.guards)
    (hfailure : (s'.pc ()).failure = failure') : InCall n N g call failure' I s' c' := by
  have hserves := hstep.serves hm.serves hmid.ends
  refine ⟨hS', hm.amid.midway hstep hmid, hI c e c' hm.amid hm.property hstep hmid hserves, ?_,
    hserves, hfailure⟩
  unfold System.FewGuards System.guardsOf
  rw [hguards]
  exact hm.few

omit [Replacer R] [LawfulReplacer R] in
theorem transfer_moves (h : m.transfer () = some s') : s'.guards = m.guards ∧
    (m.pc ()).failure = none ∧ (s'.pc ()).failure = none := by
  unfold System.transfer at h
  split at h
  · next hpc =>
    cases h
    exact ⟨rfl, by rw [hpc]; rfl, by simp [System.setPc]; rfl⟩
  · next hpc =>
    cases h
    exact ⟨rfl, by rw [hpc]; rfl, by simp [System.setPc]; rfl⟩
  · next hpc =>
    cases h
    exact ⟨rfl, by rw [hpc]; rfl, by simp [System.setPc]; rfl⟩
  · cases h

omit [Replacer R] [LawfulReplacer R] in
theorem failRead_moves {left : Page} {e : Error} (h : m.failRead () left e = some s') :
    s'.guards = m.guards ∧ (s'.pc ()).failure = some e := by
  unfold System.failRead at h
  split at h
  · cases h
    exact ⟨rfl, by simp [System.setPc]; rfl⟩
  · cases h

omit [Replacer R] [LawfulReplacer R] in
theorem failWrite_moves {k : Nat} {e : Error} (h : m.failWrite () k e = some s') :
    s'.guards = m.guards ∧ (s'.pc ()).failure = some e := by
  unfold System.failWrite at h
  split at h
  · cases h
    exact ⟨rfl, by simp [System.setPc]; rfl⟩
  · cases h
    exact ⟨rfl, by simp [System.setPc]; rfl⟩
  · cases h

/-- An instant of a transfer is one step of the call. -/
theorem transfer_incall (hI : KeptAmid n N (CompleteReplacer R) g call I)
    (hm : InCall n N g call failure I m c) (hstep : m.step (.transfer ()) = some (s', out)) :
    out = .suspended ∧ ∃ e c', Step n N (CompleteReplacer R) c e c' ∧ e.Midway ∧
      InCall n N g call failure I s' c' := by
  obtain ⟨s₁, hs₁, heq⟩ := Option.map_eq_some_iff.mp hstep
  obtain ⟨rfl, rfl⟩ := Prod.mk.inj heq
  obtain ⟨hguards, hbefore, hafter⟩ := transfer_moves hs₁
  obtain ⟨e, c', hst, hS', hnote, hexplained⟩ := transfer_simulated hm.sim hs₁
  have hmid : e.Midway := by
    refine ⟨?_, fun y hy => ?_⟩
    · exact Event.fits_of_explained
        (h := ⟨False, False, False, False, False, False, fun _ => False⟩)
        id (hexplained _)
    · have hmem : y ∈ e.note.toList := Option.mem_toList.mpr hy
      rw [hnote] at hmem
      obtain ⟨p, -, rfl⟩ := List.mem_map.mp hmem
      exact ⟨id, id⟩
  refine ⟨rfl, e, c', hst, hmid, hm.next hI hst hS' hmid hguards ?_⟩
  rw [hafter, ← hm.failure, hbefore]

theorem failRead_incall {left : Page} {err : Error}
    (hI : KeptAmid n N (CompleteReplacer R) g call I) (hm : InCall n N g call failure I m c)
    (hstep : m.step (.failRead () left err) = some (s', out)) :
    out = .suspended ∧ ∃ e c', Step n N (CompleteReplacer R) c e c' ∧ e.Midway ∧
      InCall n N g call (some err) I s' c' := by
  obtain ⟨s₁, hs₁, heq⟩ := Option.map_eq_some_iff.mp hstep
  obtain ⟨rfl, rfl⟩ := Prod.mk.inj heq
  obtain ⟨hguards, hafter⟩ := failRead_moves hs₁
  obtain ⟨c', hst, hS'⟩ := failRead_simulated hm.sim hs₁
  have hmid : Event.Midway (.silent : Event Unit) := ⟨trivial, fun y hy => by cases hy⟩
  exact ⟨rfl, _, c', hst, hmid, hm.next hI hst hS' hmid hguards hafter⟩

theorem failWrite_incall {k : Nat} {err : Error}
    (hI : KeptAmid n N (CompleteReplacer R) g call I) (hm : InCall n N g call failure I m c)
    (hstep : m.step (.failWrite () k err) = some (s', out)) :
    out = .suspended ∧ ∃ e c', Step n N (CompleteReplacer R) c e c' ∧ e.Midway ∧
      InCall n N g call (some err) I s' c' := by
  obtain ⟨s₁, hs₁, heq⟩ := Option.map_eq_some_iff.mp hstep
  obtain ⟨rfl, rfl⟩ := Prod.mk.inj heq
  obtain ⟨hguards, hafter⟩ := failWrite_moves hs₁
  obtain ⟨c', hst, hS'⟩ := failWrite_simulated hm.sim hs₁
  have hmid : Event.Midway (.silent : Event Unit) := ⟨trivial, fun y hy => by cases hy⟩
  exact ⟨rfl, _, c', hst, hmid, hm.next hI hst hS' hmid hguards hafter⟩

/-- The locked piece that a call's last step ends began in `m`. -/
def LastPiece (s : System R Unit) (call : Call) (failure : Option Error) (m s' : System R Unit)
    (out : Outcome) : Prop :=
  (m = s ∧ failure = none ∧ s.step (.call () call) = some (s', out)) ∨
    (s.Executes call failure m .suspended ∧ (m.pc ()).failure = failure ∧
      m.step (.resume ()) = some (s', out))

/-- A call moves through the midst of the call to its last step. -/
theorem incall_of_executes (hI : KeptAmid n N (CompleteReplacer R) g call I) (hS : Sim n N s c₀)
    (hA : Amid n N g c₀) (hc : I c₀) (hfew : s.FewGuards) (h : s.Executes call failure s' out) :
    (out = .suspended ∧ ∃ c, InCall n N g call failure I s' c) ∨
      ((∃ r, failure = none ∧ out = .returned r) ∨ ∃ e, out = .threw e) ∧
        ∃ m c c₁ e c', LastPiece s call failure m s' out ∧
          LastStep n N g call I m c c₁ e c' s' out := by
  induction h with
  | begin hstep =>
    rcases call_incall hI hS hA hc hfew hstep with hgoes | ⟨hout, c₁, e, c', hlast⟩
    · exact Or.inl hgoes
    · refine Or.inr ⟨hout.imp (fun ⟨r, hr⟩ => ⟨r, rfl, hr⟩) id, s, c₀, c₁, e, c', ?_, hlast⟩
      exact Or.inl ⟨rfl, rfl, hstep⟩
  | resume hexec hstep ih =>
    rcases ih with ⟨-, c, hm⟩ | ⟨⟨r, -, hr⟩ | ⟨e, he⟩, -⟩
    · rcases resume_incall hI hm hstep with ⟨hout, -, c', -, -, -, hm'⟩ | ⟨hout, c₁, e, c', hlast⟩
      · exact Or.inl ⟨hout, c', hm'⟩
      · exact Or.inr ⟨hout, _, c, c₁, e, c', Or.inr ⟨hexec, hm.failure, hstep⟩, hlast⟩
    · cases hr
    · cases he
  | transfer hexec hstep ih =>
    rcases ih with ⟨-, c, hm⟩ | ⟨⟨r, -, hr⟩ | ⟨e, he⟩, -⟩
    · obtain ⟨hout, -, c', -, -, hm'⟩ := transfer_incall hI hm hstep
      exact Or.inl ⟨hout, c', hm'⟩
    · cases hr
    · cases he
  | failRead left err hexec hstep ih =>
    rcases ih with ⟨-, c, hm⟩ | ⟨⟨r, -, hr⟩ | ⟨e, he⟩, -⟩
    · obtain ⟨hout, -, c', -, -, hm'⟩ := failRead_incall hI hm hstep
      exact Or.inl ⟨hout, c', hm'⟩
    · cases hr
    · cases he
  | failWrite k err hexec hstep ih =>
    rcases ih with ⟨-, c, hm⟩ | ⟨⟨r, -, hr⟩ | ⟨e, he⟩, -⟩
    · obtain ⟨hout, -, c', -, -, hm'⟩ := failWrite_incall hI hm hstep
      exact Or.inl ⟨hout, c', hm'⟩
    · cases hr
    · cases he

end Refinement

end BufferManager
