/-
  Protocol/Sequential.lean --- the protocol with one thread.

  With one thread the assumptions that a run of many has to be given hold by
  themselves: nobody loads or deletes an id that another call has reserved, and no
  guard is used while a flush is writing.  `Alone` collects what is then known in
  every configuration, whatever the client asks for.  `Serves` says which call a phase
  is of, and a step of a call goes on to serve it; a call in which a transfer has failed
  can only go on to throw.
-/
import BufferManager.Protocol.Rollback

set_option autoImplicit false

namespace BufferManager

/-- The call a loop over `State(page_id)` belongs to. -/
def Visit.origin : Visit → Call
  | .fetchPage p => .fetchPage p
  | .flushPage p .flushPage => .flushPage p
  | .flushPage _ (.flushAllPages _) => .flushAllPages
  | .deletePage p => .deletePage p

/-- The call that wants a frame. -/
def Acquirer.origin : Acquirer → Call
  | .newPage _ => .newPage
  | .fetchPage p => .fetchPage p

/-- The note tells the end of a call. -/
def Note.Ends {τ : Type} : Note τ → Prop
  | .created _ _ | .deleted _ _ | .returned _ | .failed _ => True
  | _ => False

/-- The note tells the beginning of a call. -/
def Note.Begins {τ : Type} : Note τ → Prop
  | .called _ _ | .flushAll _ => True
  | _ => False

/-- The note tells a use of a guard. -/
def Note.OnGuard {τ : Type} : Note τ → Prop
  | .changed _ _ _ | .marked _ _ | .dropped _ | .moved _ _ => True
  | _ => False

end BufferManager

namespace BufferManager.Protocol

open BufferManager.Lib

variable {n N : Nat} {complete : Prop} {c c' : Cfg Unit} {e : Event Unit} {g : Ledger Unit}

/-! ## Assumptions that hold by themselves -/

/-- Nobody else has reserved an id. -/
theorem not_reserved_of_phase {ph : Phase} {p : Nat} (hph : c.phase () = ph)
    (hres : ph.reserves = none) : ¬ c.Reserved p := by
  rintro ⟨t, ht⟩
  rw [hph, hres] at ht
  cases ht

theorem Event.Plain.respects {τ : Type} {e : Event τ} (h : e.Plain) : e.Respects := by
  cases e <;> trivial

theorem Step.respects (h : Step n N complete c e c') : e.Respects := by
  cases h with
  | loadBegin t p f hph => exact not_reserved_of_phase hph rfl
  | deleteResident t p f r hph | deleteNonResident t p hph => exact not_reserved_of_phase hph rfl
  | deleteUnused => exact not_false
  | flushReturn t caller => exact (plain_eventOf t _).respects
  | noFrame t a | evictFail t a => exact (plain_failEvent t a _).respects
  | evictDone t a ev => exact (plain_evictDone t ev).respects
  | unpinned t p f caller failure => exact (plain_unpinEvent t failure).respects
  | _ => trivial

/-- While the thread is in no call, no flush has captured an epoch. -/
theorem not_captured (hidle : c.phase () = .suspended .idle) (p f epoch : Nat) :
    ¬ c.Captured p f epoch := by
  rintro ⟨t, caller, io, ht⟩
  rw [hidle] at ht
  cases ht

/-- The thread that is not writing has no pin of its own. -/
theorem refs_eq_guardsOn {ph : Phase} (hph : c.phase () = ph) (hwrites : ph.writes = none)
    (p f : Nat) : c.refs p f = c.guardsOn p f := by
  have hnone : c.writersOn p f = 0 := by
    rw [Cfg.writersOn, Finset.card_eq_zero, Finset.filter_eq_empty_iff]
    intro t _ ht
    rw [hph, hwrites] at ht
    cases ht
  rw [Cfg.refs, hnone, Nat.add_zero]

/-! ## What is known of every configuration -/

/-- The configuration is in order and the account fits it and is complete. -/
structure Alone (c : Cfg Unit) (g : Ledger Unit) : Prop where
  pinned : Pinned c
  listed : Listed c
  reservations : Reservations c
  durable : Durable c g
  current : Current c g

theorem Alone.step (hA : Alone c g) (h : Step n N complete c e c') (hfits : e.Fits)
    (hnew : e.Renews) (hdrops : ∀ slot failure, e = .dropped slot failure → g.pending slot = 0)
    (hI : Owned n c) : Alone c' (e.enter (Ledger.after false) g) := by
  have hR' := Reservations.step h h.respects hI hA.reservations
  exact {
    pinned := .step h hfits hI hA.pinned
    listed := .step h (hA.reservations.installs h) hA.listed
    reservations := hR'
    durable := .step h hnew hI hA.pinned hA.reservations hR' hA.durable
    current := hA.current.step h hdrops hI hA.pinned hA.reservations }

/-- A use of a guard keeps every page where it is, and the ids. -/
theorem Step.keeps_pages (h : Step n N complete c e c') {y : Note Unit} (hnote : e.note = some y)
    (hguard : y.OnGuard) :
    c'.place = c.place ∧ c'.upcoming = c.upcoming ∧ c'.phase = c.phase := by
  have hplain : ¬ e.Plain := by
    intro hplain
    cases e with
    | ended t r =>
      cases r <;> cases hnote <;> exact hguard
    | wrote t p =>
      cases hnote
      exact hguard
    | silent => cases hnote
    | _ => exact hplain
  cases h with
  | change | mark | dropStale | move | assign => exact ⟨rfl, rfl, rfl⟩
  | drop slot gd failure hg hv hpage hunpin =>
    cases failure with
    | none =>
      refine ⟨?_, ?_, ?_⟩
      · simp [hunpin.frame_only]
      · simp [hunpin.frame_only]
      · simp [hunpin.frame_only]
    | some err =>
      refine ⟨?_, ?_, ?_⟩
      · simp [hunpin.frame_only]
      · simp [hunpin.frame_only]
      · simp [hunpin.frame_only]
  | flushReturn t caller => exact absurd (plain_eventOf t _) hplain
  | noFrame t a | evictFail t a => exact absurd (plain_failEvent t a _) hplain
  | evictDone t a ev => exact absurd (plain_evictDone t ev) hplain
  | unpinned t p f caller failure => exact absurd (plain_unpinEvent t failure) hplain
  | visit | snapshot | evictCopy | writeCopy | create | deleteUnused | deleteResident
  | deleteNonResident =>
    cases hnote
    exact hguard.elim
  | _ => first | exact absurd trivial hplain | cases hnote

/-! ## Which call a phase is of -/

/-- The thread is in `call`. -/
def Phase.Serves (call : Call) : Phase → Prop
  | .suspended .idle => False
  | .suspended (.waitPage v) | .visiting v => v.origin = call
  | .suspended (.waitFrame a) | .suspended (.evicting a _ _) | .acquiring a | .holding a _ =>
      a.origin = call
  | .suspended (.reading p _ _) => call = .fetchPage p
  | .suspended (.writing p _ _ caller _) | .unpinning p _ caller _ =>
      (Visit.flushPage p caller).origin = call
  | .suspended (.nextFlush _ _) | .flushed (.flushAllPages _) => call = .flushAllPages
  | .flushed .flushPage => ∃ p, call = .flushPage p
  | .unwinding _ _ => call = .newPage

/-- Only `FlushAllPages` takes the pages of a flush. -/
theorem Step.serves_of_flushAll {call : Call} {t : Unit} (h : Step n N complete c e c')
    (hnote : e.note = some (.flushAll t)) (hS : Phase.Serves call (c'.phase ())) :
    call = .flushAllPages := by
  have hplain : ¬ e.Plain := by
    intro hplain
    cases e with
    | snapshot => exact hplain
    | ended t r => cases r <;> cases hnote
    | _ => cases hnote
  cases h with
  | snapshot u hph => simpa [Phase.Serves] using hS
  | flushReturn t caller => exact absurd (plain_eventOf t _) hplain
  | noFrame t a | evictFail t a => exact absurd (plain_failEvent t a _) hplain
  | evictDone t a ev => exact absurd (plain_evictDone t ev) hplain
  | unpinned t p f caller failure => exact absurd (plain_unpinEvent t failure) hplain
  | _ => cases hnote

/-- A step that does not end the call goes on with it. -/
theorem Step.serves {call : Call} (h : Step n N complete c e c')
    (hS : Phase.Serves call (c.phase ())) (hends : e.ends = none) :
    Phase.Serves call (c'.phase ()) := by
  cases h with
  | visit t v hph | noIds t hph | reserve t p rest hph | snapshot t hph =>
    rw [hph] at hS
    exact hS.elim
  | wakePage t v hph | wakeFrame t a hph | sleepPage t v hph | seek t p hph | recheck t p hph
  | tookFrame t a f hph | evictBegin t a f r hph | sleepFrame t a hph | evictDone t a ev hph
  | surplus t p f hph | writeFailed t p f epoch caller err hph | written t p f epoch caller hph
  | evictCopy t a ev hph | evictCopyFailed t a ev k err hph | writeCopy t p f epoch caller hph
  | writeCopyFailed t p f epoch caller k err hph | readCopy t p f hph
  | readCopyFailed t p f left err hph | capture t p f r caller hph =>
    rw [hph] at hS
    exact hS
  | nextFlush t p rest hph | loadBegin t p f hph | block t p f err hph =>
    rw [hph] at hS
    exact hS.symm
  | skipFlush t p caller hph =>
    rw [hph] at hS
    cases caller with
    | flushPage => exact ⟨p, hS.symm⟩
    | flushAllPages rest => exact hS.symm
  | flushReturn t caller hph =>
    rw [hph] at hS
    rcases caller with - | rest
    · cases hends
    · cases rest with
      | nil => cases hends
      | cons p rest => exact hS
  | noFrame t a hph | evictFail t a ev err hph =>
    rw [hph] at hS
    cases a with
    | newPage p => exact hS.symm
    | fetchPage p => cases hends
  | @unpinned c₁ t p f caller failure hph hunpin =>
    rw [hph] at hS
    cases failure with
    | some err => cases hends
    | none =>
      cases caller with
      | flushPage => exact ⟨p, hS.symm⟩
      | flushAllPages rest => exact hS.symm
  | @drop c₁ slot gd failure hg hv hpage hunpin =>
    have hphase : c₁.phase = c.phase := hunpin.frame_only.1
    cases failure <;> exact hphase ▸ hS
  | change | mark | dropStale | move | assign => exact hS
  | leave | pin | deleteUnused | deleteResident | deleteNonResident | create | rollback | abandon
  | loaded | loadFailed | unpinThrew => cases hends

/-! ## What is noted of a call -/

/-- A step that is not noted leaves the thread in a call. -/
theorem Step.busy (h : Step n N complete c e c') (hnote : e.note = none) :
    c'.phase () ≠ .suspended .idle := by
  cases h with
  | visit | noIds | snapshot | leave | pin | deleteUnused | deleteResident | deleteNonResident
  | create | rollback | abandon | loaded | loadFailed | written | unpinThrew | evictCopy
  | writeCopy | change | mark | drop | dropStale | move | assign => cases hnote
  | reserve | wakePage | wakeFrame | nextFlush | sleepPage | seek | skipFlush | capture | recheck
  | tookFrame | evictBegin | sleepFrame | evictDone | block | loadBegin | surplus | writeFailed
  | evictCopyFailed | writeCopyFailed | readCopy | readCopyFailed => simp
  | flushReturn t caller =>
    rcases caller with - | rest
    · cases hnote
    · cases rest with
      | nil => cases hnote
      | cons p rest => simp [Manager.flushReturn, phaseOf]
  | noFrame t a | evictFail t a =>
    cases a with
    | newPage p => simp [failPhase]
    | fetchPage p => cases hnote
  | @unpinned c₁ t p f caller failure hph hunpin =>
    cases failure with
    | none => simp [unpinPhase]
    | some err => cases hnote

/-- The first step of a thread that is in no call. -/
theorem Step.first (h : Step n N complete c e c') (hidle : c.phase () = .suspended .idle) :
    (∃ v, e = .called () v ∧ Visit.IsCall v ∧ Phase.Serves v.origin (c'.phase ())) ∨
    (∃ err, e = .ended () (.error err)) ∨
    (e.note = none ∧ Phase.Serves .newPage (c'.phase ())) ∨
    (e.note = some (.flushAll ()) ∧ Phase.Serves .flushAllPages (c'.phase ())) ∨
    ∃ y, e.note = some y ∧ y.OnGuard := by
  cases h with
  | visit t v hph hcall => exact Or.inl ⟨v, rfl, hcall, rfl⟩
  | noIds => exact Or.inr (Or.inl ⟨_, rfl⟩)
  | reserve => exact Or.inr (Or.inr (Or.inl ⟨rfl, rfl⟩))
  | snapshot => exact Or.inr (Or.inr (Or.inr (Or.inl ⟨rfl, rfl⟩)))
  | change | mark | drop | dropStale | move | assign =>
    exact Or.inr (Or.inr (Or.inr (Or.inr ⟨_, rfl, trivial⟩)))
  | wakePage t v hph | wakeFrame t a hph | nextFlush t p rest hph | leave t v err hph
  | sleepPage t v hph | pin t p f r hph | seek t p hph | skipFlush t p caller hph
  | flushReturn t caller hph | capture t p f r caller hph | deleteUnused t p hph
  | deleteResident t p f r hph | deleteNonResident t p hph | recheck t p hph
  | tookFrame t a f hph | evictBegin t a f r hph | sleepFrame t a hph | noFrame t a hph
  | evictDone t a ev hph | evictFail t a ev err hph | create t p f hph | block t p f err hph
  | loadBegin t p f hph | surplus t p f hph | rollback t p err hph | abandon t p err hph
  | loaded t p f hph | loadFailed t p f err hph | written t p f epoch caller hph
  | writeFailed t p f epoch caller err hph | unpinned t p f caller failure hph
  | unpinThrew t p f caller failure err hph | evictCopy t a ev hph
  | evictCopyFailed t a ev k err hph
  | writeCopy t p f epoch caller hph | writeCopyFailed t p f epoch caller k err hph
  | readCopy t p f hph | readCopyFailed t p f left err hph => cases hidle.symm.trans hph

/-- A call begins where the thread is in none. -/
theorem Step.idle_of_begins (h : Step n N complete c e c') {y : Note Unit}
    (hnote : e.note = some y) (hy : y.Begins) : c.phase () = .suspended .idle := by
  have hplain : ¬ e.Plain := by
    intro hplain
    cases e with
    | ended t r =>
      cases r <;> cases hnote <;> exact hy
    | wrote t p =>
      cases hnote
      exact hy
    | silent => cases hnote
    | _ => exact hplain
  cases h with
  | visit t v hph => exact hph
  | snapshot t hph => exact hph
  | flushReturn t caller => exact absurd (plain_eventOf t _) hplain
  | noFrame t a | evictFail t a => exact absurd (plain_failEvent t a _) hplain
  | evictDone t a ev => exact absurd (plain_evictDone t ev) hplain
  | unpinned t p f caller failure => exact absurd (plain_unpinEvent t failure) hplain
  | _ => cases hnote <;> exact hy.elim

theorem not_begins_of_busy {es : List (Event Unit)} {y : Note Unit} {ys : List (Note Unit)}
    (hpath : Path (Step n N complete) c es c') (hbusy : c.phase () ≠ .suspended .idle)
    (hnotes : es.filterMap Event.note = y :: ys) : ¬ y.Begins := by
  induction hpath with
  | nil => cases hnotes
  | @cons c c₁ c' e es hstep hrest ih =>
    rw [List.filterMap_cons] at hnotes
    cases hnote : e.note with
    | none =>
      rw [hnote] at hnotes
      exact ih (hstep.busy hnote) hnotes
    | some z =>
      rw [hnote] at hnotes
      obtain ⟨rfl, -⟩ := List.cons.inj hnotes
      exact fun hy => hbusy (hstep.idle_of_begins hnote hy)

/-- The first step of a call serves it, unless the call throws at once. -/
theorem path_of_call {call : Call} {es : List (Event Unit)} {rest : List (Note Unit)}
    (hpath : Path (Step n N complete) c es c') (hidle : c.phase () = .suspended .idle)
    (hnotes : es.filterMap Event.note = call.notes () ++ rest) (hrest : ∀ y ∈ rest, y.Ends) :
    es = [] ∨ ∃ e es' c₁, es = e :: es' ∧ Step n N complete c e c₁ ∧
      Path (Step n N complete) c₁ es' c' ∧
      (Phase.Serves call (c₁.phase ()) ∨ ∃ err, e = .ended () (.error err)) := by
  have hfirst : ∀ {y : Note Unit} {ys : List (Note Unit)}, y :: ys = call.notes () ++ rest →
      y.Begins ∧ call.notes () = [y] ∨ y.Ends ∧ call = .newPage := by
    intro y ys h
    cases call with
    | newPage =>
      obtain rfl : y :: ys = rest := h
      exact Or.inr ⟨hrest y List.mem_cons_self, rfl⟩
    | _ =>
      obtain ⟨rfl, -⟩ := List.cons.inj h
      exact Or.inl ⟨trivial, rfl⟩
  cases hpath with
  | nil => exact Or.inl rfl
  | @cons _ c₁ _ e es' hstep hpath' =>
    refine Or.inr ⟨e, es', c₁, rfl, hstep, hpath', ?_⟩
    rw [List.filterMap_cons] at hnotes
    rcases hstep.first hidle with ⟨v, rfl, hcall, hserves⟩ | hended | ⟨hnote, hserves⟩ |
      ⟨hnote, hserves⟩ | ⟨y, hnote, hy⟩
    · refine Or.inl ?_
      rcases hfirst hnotes with ⟨-, hv⟩ | ⟨hends, -⟩
      · cases call with
        | newPage | flushAllPages => cases hv
        | fetchPage p | flushPage p | deletePage p =>
          obtain rfl := (Note.called.inj (List.singleton_inj.mp hv)).2
          exact hserves
      · exact hends.elim
    · exact Or.inr hended
    · refine Or.inl ?_
      rw [hnote] at hnotes
      cases call with
      | newPage => exact hserves
      | _ =>
        exact absurd trivial (not_begins_of_busy hpath' (hstep.busy hnote) hnotes)
    · refine Or.inl ?_
      rw [hnote] at hnotes
      rcases hfirst hnotes with ⟨-, hv⟩ | ⟨hends, -⟩
      · cases call with
        | flushAllPages => exact hserves
        | _ => cases hv
      · exact hends.elim
    · rw [hnote] at hnotes
      rcases hfirst hnotes with ⟨hbegins, -⟩ | ⟨hends, -⟩
      · cases y <;> first | exact hbegins.elim | exact hy.elim
      · cases y <;> first | exact hends.elim | exact hy.elim

/-- No unnoted step leads to where the thread is in no call. -/
theorem nil_of_idle {es : List (Event Unit)} (hpath : Path (Step n N complete) c es c')
    (hnotes : es.filterMap Event.note = []) (hidle : c'.phase () = .suspended .idle) : es = [] := by
  induction hpath with
  | nil => rfl
  | @cons c c₁ c' e es hstep hrest ih =>
    rw [List.filterMap_cons] at hnotes
    cases hnote : e.note with
    | some y =>
      rw [hnote] at hnotes
      cases hnotes
    | none =>
      rw [hnote] at hnotes
      obtain rfl := ih hnotes hidle
      cases hrest
      exact absurd hidle (hstep.busy hnote)

/-- The step that ends a call is the last of its path. -/
theorem path_ends {step : Cfg Unit → Event Unit → Cfg Unit → Prop}
    (hsteps : ∀ c e c', step c e c' → Step n N complete c e c') {es : List (Event Unit)}
    {before : List (Note Unit)} {y : Note Unit} (hpath : Path step c es c')
    (hnotes : es.filterMap Event.note = before ++ [y]) (hidle : c'.phase () = .suspended .idle) :
    ∃ es₁ c₁ e, es = es₁ ++ [e] ∧ Path step c es₁ c₁ ∧ step c₁ e c' ∧ e.note = some y ∧
      es₁.filterMap Event.note = before := by
  obtain ⟨es₁, es₂, rfl, hbefore, hlast⟩ := List.filterMap_eq_append_iff.mp hnotes
  obtain ⟨es₃, e, es₄, rfl, hnone, hy, hnil⟩ := List.filterMap_eq_cons_iff.mp hlast
  obtain ⟨c₂, hpath₁, hpath₂⟩ := hpath.split
  obtain ⟨c₁, hpath₃, hpath₄⟩ := hpath₂.split
  cases hpath₄ with
  | cons hstep hrest =>
    obtain rfl := nil_of_idle (hrest.mono hsteps) hnil hidle
    cases hrest
    refine ⟨es₁ ++ es₃, c₁, e, by simp, hpath₁.append hpath₃, hstep, hy, ?_⟩
    rw [List.filterMap_append, hbefore, List.filterMap_eq_nil_iff.mpr hnone, List.append_nil]

/-! ## A call whose transfer has failed -/

/-- The error of the transfer that has failed in the call. -/
def Phase.failing : Phase → Option Error
  | .suspended pc => pc.failure
  | .unpinning _ _ _ failure => failure
  | .unwinding _ e => some e
  | _ => none

/-- The call throws, or goes on to. -/
theorem Step.failing {err : Error} (h : Step n N complete c e c')
    (hf : (c.phase ()).failing = some err) (hguard : ∀ y, e.note = some y → ¬ y.OnGuard) :
    (∃ err', e = .ended () (.error err')) ∨
      (e.note = none ∧ (c'.phase ()).failing = some err) := by
  cases h with
  | evictFail t a ev err' hph =>
    rw [hph] at hf
    obtain rfl := Option.some.inj hf
    cases a with
    | newPage p => exact Or.inr ⟨rfl, by simp [failPhase, Phase.failing]⟩
    | fetchPage p => exact Or.inl ⟨_, rfl⟩
  | rollback | abandon | loadFailed | unpinThrew => exact Or.inl ⟨_, rfl⟩
  | writeFailed t p f epoch caller err' hph =>
    rw [hph] at hf
    obtain rfl := Option.some.inj hf
    exact Or.inr ⟨rfl, by simp [Phase.failing]⟩
  | unpinned t p f caller failure hph =>
    rw [hph] at hf
    obtain rfl : failure = some err := hf
    exact Or.inl ⟨_, rfl⟩
  | change | mark | drop | dropStale | move | assign => exact absurd trivial (hguard _ rfl)
  | visit t v hph | noIds t hph | reserve t p rest hph | snapshot t hph | wakePage t v hph
  | wakeFrame t a hph | nextFlush t p rest hph | leave t v err hph | sleepPage t v hph
  | pin t p f r hph | seek t p hph | skipFlush t p caller hph | flushReturn t caller hph
  | capture t p f r caller hph | deleteUnused t p hph | deleteResident t p f r hph
  | deleteNonResident t p hph | recheck t p hph | tookFrame t a f hph | evictBegin t a f r hph
  | sleepFrame t a hph | noFrame t a hph | evictDone t a ev hph | create t p f hph
  | block t p f err hph | loadBegin t p f hph | surplus t p f hph | loaded t p f hph
  | written t p f epoch caller hph | evictCopy t a ev hph | evictCopyFailed t a ev k err hph
  | writeCopy t p f epoch caller hph | writeCopyFailed t p f epoch caller k err hph
  | readCopy t p f hph | readCopyFailed t p f left err hph =>
    rw [hph] at hf
    cases hf

theorem path_failing {es : List (Event Unit)} {err : Error}
    (hpath : Path (Step n N complete) c es c') (hf : (c.phase ()).failing = some err)
    (hguard : ∀ y ∈ es.filterMap Event.note, ¬ y.OnGuard) :
    (es.filterMap Event.note = [] ∧ (c'.phase ()).failing = some err) ∨
      ∃ rest, es.filterMap Event.note = .failed () :: rest := by
  induction hpath with
  | nil => exact Or.inl ⟨rfl, hf⟩
  | @cons c c₁ c' e es hstep hrest ih =>
    have hmem : ∀ {y : Note Unit}, e.note = some y → y ∈ (e :: es).filterMap Event.note :=
      fun hy => List.mem_filterMap.mpr ⟨e, List.mem_cons_self, hy⟩
    rcases hstep.failing hf fun y hy => hguard y (hmem hy) with ⟨err', rfl⟩ | ⟨hnote, hf'⟩
    · exact Or.inr ⟨_, rfl⟩
    · rw [List.filterMap_cons, hnote] at hguard ⊢
      exact ih hf' hguard

end BufferManager.Protocol
