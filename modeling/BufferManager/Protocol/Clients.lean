/-
  Protocol/Clients.lean --- clients that keep to the lives of the page ids.

  An id lives from the return of the `NewPage` that made it to the return of the
  `DeletePage` that gives it up.  `Clients` is what the clients know of that, read off
  the notes of a run; `Allows` is the discipline: a call is on a live id, and nobody
  else is at work on the page when it is deleted.  A `DeletePage` that throws binds
  nobody.  The `FlushPage`s inside `FlushAllPages` are nobody's calls and are not
  bound.  `Orderly` is what the configurations of a disciplined run satisfy, and implies
  that no reserved id is ever loaded or deleted.
-/
import BufferManager.Protocol.Pins
import BufferManager.Protocol.Reservation

set_option autoImplicit false

namespace BufferManager

/-- What the clients know of the ids. -/
structure Clients (τ : Type) where
  /-- Returned by a `NewPage`, and not deleted. -/
  live : Finset Nat := ∅
  /-- The call on a page id that a thread is in. -/
  doing : τ → Option Visit := fun _ => none

namespace Clients

variable {τ : Type}

/-- The discipline: a call is on a live id, and a page is deleted while no other call is
on it. -/
def Allows (k : Clients τ) : Note τ → Prop
  | .called _ v => v.pageId ∈ k.live
  | .deleted t p => ∀ u v, k.doing u = some v → v.pageId = p → u = t
  | _ => True

variable [DecidableEq τ]

/-- The end of thread `t`'s call. -/
def finish (k : Clients τ) (t : τ) : Clients τ := { k with doing := Function.update k.doing t none }

/-- What the clients know after an effect.  A `DeletePage` that throws leaves its id as
it was. -/
def after (k : Clients τ) : Note τ → Clients τ
  | .called t v => { k with doing := Function.update k.doing t (some v) }
  | .created t p => { k.finish t with live := insert p k.live }
  | .deleted t p => { k.finish t with live := k.live.erase p }
  | .failed t | .returned t => k.finish t
  | _ => k

/-- The calls in progress are on live ids. -/
def Consistent (k : Clients τ) : Prop := ∀ t v, k.doing t = some v → v.pageId ∈ k.live

theorem doing_of_finish {k : Clients τ} {t u : τ} {v : Visit}
    (h : (k.finish t).doing u = some v) : u ≠ t ∧ k.doing u = some v := by
  have hut : u ≠ t := by
    rintro rfl
    simp [finish] at h
  exact ⟨hut, by simpa [finish, hut] using h⟩

theorem Consistent.after {k : Clients τ} (hk : k.Consistent) {x : Note τ} (hx : k.Allows x) :
    (k.after x).Consistent := by
  intro u v hu
  cases x with
  | called t w =>
    by_cases hut : u = t
    · obtain rfl : w = v := by simpa [Clients.after, hut] using hu
      exact hx
    · exact hk u v (by simpa [Clients.after, hut] using hu)
  | created t p => exact Finset.mem_insert_of_mem (hk u v (doing_of_finish hu).2)
  | deleted t p =>
    obtain ⟨hut, hu⟩ := doing_of_finish hu
    exact Finset.mem_erase.mpr ⟨fun hp => hut (hx u v hu hp), hk u v hu⟩
  | failed t | returned t => exact hk u v (doing_of_finish hu).2
  | _ => exact hk u v hu

/-- An id that is live was live before, or has just been made. -/
theorem live_of_after {k : Clients τ} {x : Note τ} {p : Nat} (h : p ∈ (k.after x).live) :
    p ∈ k.live ∨ ∃ t, x = .created t p := by
  cases x with
  | created t q =>
    rcases Finset.mem_insert.mp h with rfl | hp
    · exact Or.inr ⟨t, rfl⟩
    · exact Or.inl hp
  | deleted t q => exact Or.inl (Finset.mem_of_mem_erase h)
  | _ => exact Or.inl h

instance [Fintype τ] (k : Clients τ) : ∀ x : Note τ, Decidable (k.Allows x)
  | .called _ v => inferInstanceAs (Decidable (v.pageId ∈ k.live))
  | .deleted t p => inferInstanceAs (Decidable (∀ u, ∀ v ∈ k.doing u, v.pageId = p → u = t))
  | .created _ _ | .returned _ | .failed _ | .flushAll _ | .copied _ _ | .wrote _ _
  | .changed _ _ _ | .marked _ _ | .dropped _ | .moved _ _ => .isTrue trivial

end Clients

namespace Protocol

variable {τ : Type} {n N : Nat} {complete : Prop} {c c' : Cfg τ} {k : Clients τ}

/-- The client's call on a page id that a thread is in. -/
def Visit.call : Visit → Option Visit
  | .flushPage _ (.flushAllPages _) => none
  | .flushPage p .flushPage => some (.flushPage p .flushPage)
  | .fetchPage p => some (.fetchPage p)
  | .deletePage p => some (.deletePage p)

/-- The same for a phase. -/
def Phase.call : Phase → Option Visit
  | .visiting v | .suspended (.waitPage v) => Visit.call v
  | .acquiring (.fetchPage p) | .holding (.fetchPage p) _ | .suspended (.waitFrame (.fetchPage p))
  | .suspended (.evicting (.fetchPage p) _ _) | .suspended (.reading p _ _) => some (.fetchPage p)
  | .suspended (.writing p _ _ .flushPage _) | .unpinning p _ .flushPage _ =>
      some (.flushPage p .flushPage)
  | _ => none

/-- The thread whose call an event ends. -/
def Event.ends : Event τ → Option τ
  | .ended t _ | .created t _ _ | .deleted t _ _ => some t
  | _ => none

theorem Event.created_of_note {e : Event τ} {t : τ} {p : Nat}
    (h : e.note = some (.created t p)) : ∃ f, e = .created t p f := by
  cases e with
  | created t' p' f =>
    obtain ⟨rfl, rfl⟩ := Note.created.inj (Option.some.inj h)
    exact ⟨f, rfl⟩
  | ended t' r => cases r <;> cases h
  | _ => cases h

/-! ## What one step can do -/

section

variable [DecidableEq τ]

attribute [local simp] Phase.call Visit.call Event.ends failPhase unpinPhase phaseOf eventOf
  failEvent unpinEvent

/-- A thread is in a call after a step if it has just begun it, or was in it before. -/
theorem Step.call_of_call {e : Event τ} (h : Step n N complete c e c') {u : τ} {v : Visit}
    (hu : (c'.phase u).call = some v) :
    e = .called u v ∨ ((c.phase u).call = some v ∧ e.ends ≠ some u) := by
  have hmove : ∀ {t : τ} {w : Phase}, c'.phase = Function.update c.phase t w →
      (∀ v, w.call = some v → (c.phase t).call = some v ∧ e.ends ≠ some t) →
      (∀ u, e.ends = some u → u = t) →
      e = .called u v ∨ ((c.phase u).call = some v ∧ e.ends ≠ some u) := by
    intro t w hphase hw hends
    refine Or.inr ?_
    by_cases hut : u = t
    · subst hut
      rw [hphase, Function.update_self] at hu
      exact hw v hu
    · rw [hphase, Function.update_of_ne hut] at hu
      exact ⟨hu, fun h => hut (hends u h)⟩
  have hstay : c'.phase = c.phase → e.ends = none →
      e = .called u v ∨ ((c.phase u).call = some v ∧ e.ends ≠ some u) := fun hphase hends =>
    Or.inr ⟨hphase ▸ hu, by rw [hends]; simp⟩
  cases h with
  | visit t w hph hcall =>
    by_cases hut : u = t
    · subst hut
      rw [show ((c.goto u (.visiting w)).phase u) = .visiting w by simp] at hu
      refine Or.inl ?_
      cases w with
      | flushPage p caller =>
        obtain rfl : caller = .flushPage := hcall
        obtain rfl := Option.some.inj hu
        rfl
      | fetchPage p | deletePage p =>
        obtain rfl := Option.some.inj hu
        rfl
    · exact Or.inr ⟨by simpa [hut] using hu, by simp⟩
  | @noIds t hph =>
    refine Or.inr ⟨hu, ?_⟩
    rintro heq
    obtain rfl := Option.some.inj heq
    rw [hph] at hu
    cases hu
  | change | mark | dropStale | move | assign => exact hstay rfl rfl
  | @drop c₁ slot g failure hg hv hp hunpin =>
    have hframe := hunpin.frame_only
    cases failure <;> exact hstay (by simp [hframe]) rfl
  | @unpinned c₁ t p f caller failure hph hunpin =>
    have hframe := hunpin.frame_only
    refine hmove (t := t) (w := unpinPhase caller failure) (by simp [hframe]) ?_ ?_
    · cases failure <;> simp
    · cases failure <;> simp [eq_comm]
  | @unpinThrew c₁ t p f caller failure e hph hunpin =>
    have hframe := hunpin.frame_only
    exact hmove (t := t) (w := .suspended .idle) (by simp [hframe]) (by simp) (by simp [eq_comm])
  | flushReturn t caller hph =>
    refine hmove rfl ?_ ?_
    · rcases caller with - | rest
      · simp [Manager.flushReturn]
      · cases rest <;> simp [Manager.flushReturn]
    · rcases caller with - | rest
      · simp [Manager.flushReturn, eq_comm]
      · cases rest <;> simp [Manager.flushReturn, eq_comm]
  | wakeFrame t a hph | tookFrame t a f hph | sleepFrame t a hph
  | evictCopy t a ev hph | evictCopyFailed t a ev k e hph | evictBegin t a f r hph =>
    refine hmove rfl ?_ (by simp)
    cases a <;> simp [hph]
  | evictDone t a ev hph =>
    refine hmove rfl ?_ (by cases ev.dirty <;> simp)
    cases hd : ev.dirty <;> cases a <;> simp [hph]
  | noFrame t a hph | evictFail t a ev e hph =>
    refine hmove rfl ?_ ?_
    · cases a <;> simp
    · cases a <;> simp [eq_comm]
  | capture t p f r caller hph | written t p f epoch caller hph
  | writeFailed t p f epoch caller e hph | writeCopy t p f epoch caller hph
  | writeCopyFailed t p f epoch caller k e hph =>
    refine hmove rfl ?_ (by simp)
    cases caller <;> simp [hph]
  | reserve t p rest hph | snapshot t hph | wakePage t v hph | nextFlush t p rest hph
  | leave t v e hph | sleepPage t v hph | pin t p f r hph | seek t p hph | skipFlush t p caller hph
  | deleteUnused t p hph | deleteResident t p f r hph | deleteNonResident t p hph
  | recheck t p hph | create t p f hph | block t p f e hph | loadBegin t p f hph
  | surplus t p f hph | rollback t p e hph | abandon t p e hph | loaded t p f hph
  | loadFailed t p f e hph | readCopy t p f hph | readCopyFailed t p f left e hph =>
    exact hmove rfl (by simp [hph]) (by simp [eq_comm])

/-- An id comes out of use when it is deleted, or given back by the `NewPage` that has
reserved it. -/
theorem Step.freed {e : Event τ} (h : Step n N complete c e c') {p : Nat}
    (hp : c.place p ≠ .unused) (hp' : c'.place p = .unused) :
    (∃ t r, e = .deleted t p r) ∨ c.Reserved p := by
  have hmoved : ∀ {q : Nat} {x : Place}, c'.place = Function.update c.place q x →
      x = .unused ∧ p = q := by
    intro q x hplace
    rw [hplace] at hp'
    by_cases hpq : p = q
    · rw [hpq, Function.update_self] at hp'
      exact ⟨hp', hpq⟩
    · rw [Function.update_of_ne hpq] at hp'
      exact absurd hp' hp
  have hstays : c'.place = c.place → (∃ t r, e = .deleted t p r) ∨ c.Reserved p := fun hplace =>
    absurd (hplace ▸ hp') hp
  cases h with
  | deleteResident t q f r | deleteNonResident t q =>
    obtain ⟨-, rfl⟩ := hmoved rfl
    exact Or.inl ⟨t, _, rfl⟩
  | rollback t q e hph =>
    obtain ⟨-, rfl⟩ := hmoved rfl
    exact Or.inr ⟨t, by rw [hph]; rfl⟩
  | reserve | evictBegin | evictDone | evictFail | create | loadBegin | loaded | loadFailed =>
    cases (hmoved rfl).1
  | @drop c₁ slot g failure hg hv hp hunpin =>
    have hframe := hunpin.frame_only
    cases failure <;> exact hstays (by simp [hframe])
  | @unpinned c₁ t q f caller failure hph hunpin =>
    exact hstays (by simp [hunpin.frame_only])
  | @unpinThrew c₁ t q f caller failure e hph hunpin =>
    exact hstays (by simp [hunpin.frame_only])
  | _ => exact hstays rfl

attribute [local simp] Phase.reserves

/-- An id that is reserved was so before, or was not in use. -/
theorem Step.reserved {e : Event τ} (h : Step n N complete c e c') (hI : Owned n c) {p : Nat}
    (hp : c'.Reserved p) : c.Reserved p ∨ c.place p = .unused := by
  obtain ⟨u, hu⟩ := hp
  have hmove : ∀ {t : τ} {w : Phase}, c'.phase = Function.update c.phase t w →
      (∀ q, w.reserves = some q → (c.phase t).reserves = some q) →
      c.Reserved p ∨ c.place p = .unused := by
    intro t w hphase hw
    refine Or.inl ⟨u, ?_⟩
    by_cases hut : u = t
    · subst hut
      rw [hphase, Function.update_self] at hu
      exact hw p hu
    · rwa [hphase, Function.update_of_ne hut] at hu
  have hstay : c'.phase = c.phase → c.Reserved p ∨ c.place p = .unused := fun hphase =>
    Or.inl ⟨u, hphase ▸ hu⟩
  cases h with
  | @reserve t q rest hph hids =>
    by_cases hut : u = t
    · subst hut
      obtain rfl : q = p := by simpa using hu
      exact Or.inr (hI.upcoming_unused q (hids ▸ List.mem_cons_self))
    · exact Or.inl ⟨u, by simpa [hut] using hu⟩
  | noIds | change | mark | dropStale | move | assign => exact hstay rfl
  | @drop c₁ slot g failure hg hv hp hunpin =>
    have hframe := hunpin.frame_only
    cases failure <;> exact hstay (by simp [hframe])
  | @unpinned c₁ t q f caller failure hph hunpin =>
    refine hmove (t := t) (w := unpinPhase caller failure) (by simp [hunpin.frame_only]) ?_
    cases failure <;> simp
  | @unpinThrew c₁ t q f caller failure e hph hunpin =>
    exact hmove (t := t) (w := .suspended .idle) (by simp [hunpin.frame_only]) (by simp)
  | flushReturn t caller hph =>
    refine hmove rfl ?_
    rcases caller with - | rest
    · simp [Manager.flushReturn]
    · cases rest <;> simp [Manager.flushReturn]
  | wakeFrame t a hph | tookFrame t a f hph | sleepFrame t a hph | evictCopy t a ev hph
  | evictCopyFailed t a ev k e hph | evictBegin t a f r hph | evictDone t a ev hph
  | noFrame t a hph | evictFail t a ev e hph =>
    refine hmove rfl ?_
    cases a <;> simp [hph]
  | visit t v hph | snapshot t hph | wakePage t v hph | nextFlush t q rest hph
  | leave t v e hph | sleepPage t v hph | pin t q f r hph | seek t q hph | skipFlush t q caller hph
  | capture t q f r caller hph | deleteUnused t q hph | deleteResident t q f r hph
  | deleteNonResident t q hph | recheck t q hph | create t q f hph | block t q f e hph
  | loadBegin t q f hph | surplus t q f hph | rollback t q e hph | abandon t q e hph
  | loaded t q f hph | loadFailed t q f e hph | written t q f epoch caller hph
  | writeFailed t q f epoch caller e hph | writeCopy t q f epoch caller hph
  | writeCopyFailed t q f epoch caller k e hph | readCopy t q f hph
  | readCopyFailed t q f left e hph =>
    exact hmove rfl (by simp [hph])

/-- An id that is in use, and reserved by nobody, stays so until it is deleted. -/
theorem Step.keeps_used {e : Event τ} (h : Step n N complete c e c') (hI : Owned n c) {p : Nat}
    (hused : c.place p ≠ .unused) (hres : ¬ c.Reserved p) (hdel : ∀ t r, e ≠ .deleted t p r) :
    c'.place p ≠ .unused ∧ ¬ c'.Reserved p := by
  refine ⟨fun hfreed => ?_, fun hres' => ?_⟩
  · rcases h.freed hused hfreed with ⟨t, r, rfl⟩ | hreserved
    · exact hdel t r rfl
    · exact hres hreserved
  · rcases h.reserved hI hres' with hreserved | hunused
    · exact hres hreserved
    · exact hused hunused

/-! ## What the events say -/

theorem Step.idle_of_called {t : τ} {v : Visit} {e : Event τ} (h : Step n N complete c e c')
    (he : e = .called t v) : c.phase t = .suspended .idle := by
  cases h with
  | visit t v hph =>
    obtain ⟨rfl, -⟩ := Event.called.inj he
    exact hph
  | flushReturn t caller =>
    rcases caller with - | rest
    · cases he
    · cases rest <;> cases he
  | noFrame t a | evictFail t a => cases a <;> cases he
  | evictDone t a ev => cases hd : ev.dirty <;> simp [hd] at he
  | unpinned t p f caller failure => cases failure <;> cases he
  | _ => cases he

theorem Step.created {t : τ} {p f : Nat} {e : Event τ} (h : Step n N complete c e c')
    (he : e = .created t p f) :
    (c.phase t).reserves = some p ∧ c'.place p = .resident f ∧ c'.phase t = .suspended .idle := by
  cases h with
  | create t p f hph =>
    obtain ⟨rfl, rfl, rfl⟩ := Event.created.inj he
    exact ⟨by rw [hph]; rfl, by simp, by simp⟩
  | flushReturn t caller =>
    rcases caller with - | rest
    · cases he
    · cases rest <;> cases he
  | noFrame t a | evictFail t a => cases a <;> cases he
  | evictDone t a ev => cases hd : ev.dirty <;> simp [hd] at he
  | unpinned t p f caller failure => cases failure <;> cases he
  | _ => cases he

end

/-! ## Disciplined runs -/

/-- What the clients know fits the configuration. -/
structure Orderly (c : Cfg τ) (k : Clients τ) : Prop where
  ledger : k.Consistent
  used : ∀ p ∈ k.live, c.place p ≠ .unused ∧ ¬ c.Reserved p
  call : ∀ t v, (c.phase t).call = some v → k.doing t = some v

namespace Orderly

variable [DecidableEq τ]

/-- No client loads a reserved page or deletes a reserved id. -/
theorem respects {e : Event τ} (hO : Orderly c k) (h : Step n N complete c e c') : e.Respects := by
  cases h with
  | loadBegin t p f hph =>
    have hdoing := hO.call t (.fetchPage p) (by rw [hph]; rfl)
    exact (hO.used p (hO.ledger t _ hdoing)).2
  | deleteResident t p f r hph | deleteNonResident t p hph =>
    have hdoing := hO.call t (.deletePage p) (by rw [hph]; rfl)
    exact (hO.used p (hO.ledger t _ hdoing)).2
  | deleteUnused => exact not_false
  | flushReturn t caller =>
    rcases caller with - | rest
    · trivial
    · cases rest <;> trivial
  | noFrame t a | evictFail t a => cases a <;> trivial
  | evictDone t a ev => cases hd : ev.dirty <;> simp [Event.Respects]
  | unpinned t p f caller failure => cases failure <;> trivial
  | _ => trivial

/-- A live id stays in use, and nobody reserves it, until it is deleted. -/
theorem keeps {e : Event τ} (hO : Orderly c k) (h : Step n N complete c e c') (hI : Owned n c)
    {p : Nat} (hp : p ∈ k.live) (hdel : ∀ t r, e ≠ .deleted t p r) :
    c'.place p ≠ .unused ∧ ¬ c'.Reserved p :=
  h.keeps_used hI (hO.used p hp).1 (hO.used p hp).2 hdel

/-- A thread that was in a call and is in it still has not ended it. -/
theorem doing_enter {e : Event τ} {u : τ} {v : Visit} (hdoing : k.doing u = some v)
    (hends : e.ends ≠ some u) (hcalled : ∀ w, e ≠ .called u w) :
    (e.enter Clients.after k).doing u = some v := by
  cases e with
  | called t w =>
    have hut : u ≠ t := by
      rintro rfl
      exact hcalled w rfl
    simpa [Event.enter, Event.note, Clients.after, hut] using hdoing
  | ended t r =>
    have hut : u ≠ t := fun heq => hends (by rw [heq]; rfl)
    cases r <;> simpa [Event.enter, Event.note, Clients.after, Clients.finish, hut] using hdoing
  | created t p f =>
    have hut : u ≠ t := fun heq => hends (by rw [heq]; rfl)
    simpa [Event.enter, Event.note, Clients.after, Clients.finish, hut] using hdoing
  | deleted t p r =>
    have hut : u ≠ t := fun heq => hends (by rw [heq]; rfl)
    simpa [Event.enter, Event.note, Clients.after, Clients.finish, hut] using hdoing
  | _ => exact hdoing

theorem step {e : Event τ} (h : Step n N complete c e c')
    (hallowed : ∀ x, e.note = some x → k.Allows x) (hI : Owned n c) (hR' : Reservations c')
    (hO : Orderly c k) :
    Orderly c' (e.enter Clients.after k) := by
  refine ⟨?_, fun p hp => ?_, fun u v hu => ?_⟩
  · unfold Event.enter
    cases hnote : e.note with
    | none => exact hO.ledger
    | some x => exact hO.ledger.after (hallowed x hnote)
  · have hlive : p ∈ k.live ∨ ∃ t f, e = .created t p f := by
      unfold Event.enter at hp
      cases hnote : e.note with
      | none =>
        rw [hnote] at hp
        exact Or.inl hp
      | some x =>
        rw [hnote] at hp
        refine (Clients.live_of_after hp).imp_right ?_
        rintro ⟨t, rfl⟩
        exact ⟨t, Event.created_of_note hnote⟩
    rcases hlive with hlive | ⟨t, f, he⟩
    · refine hO.keeps h hI hlive ?_
      rintro t r rfl
      exact Finset.notMem_erase p _ hp
    · have hplace := (h.created he).2.1
      exact ⟨by simp [hplace], hR'.not_reserved (by simp [hplace])⟩
  · rcases h.call_of_call hu with rfl | ⟨hcall, hends⟩
    · simp [Event.enter, Event.note, Clients.after]
    · refine doing_enter (hO.call u v hcall) hends ?_
      rintro w rfl
      rw [h.idle_of_called rfl] at hcall
      cases hcall

end Orderly

/-- What the configurations of a disciplined run satisfy, while no pin count overflows. -/
structure Disciplined [Fintype τ] (c : Cfg τ) (k : Clients τ) : Prop where
  pinned : Pinned c
  listed : Listed c
  reservations : Reservations c
  orderly : Orderly c k

theorem Disciplined.step [Fintype τ] [DecidableEq τ] {e : Event τ} (h : Step n N complete c e c')
    (hallowed : ∀ x, e.note = some x → k.Allows x) (hfits : e.Fits) (hI : Owned n c)
    (hD : Disciplined c k) : Disciplined c' (e.enter Clients.after k) := by
  have hR' := hD.reservations.step h (hD.orderly.respects h) hI
  exact ⟨.step h hfits hI hD.pinned, hD.listed.step h (hD.reservations.installs h), hR',
    hD.orderly.step h hallowed hI hR'⟩

end Protocol

end BufferManager
