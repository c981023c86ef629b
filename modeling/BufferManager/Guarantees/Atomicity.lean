/-
  Guarantees/Atomicity.lean --- the id of a `NewPage` in progress.

  `NewPage` makes its id `kNonResident` before it has a frame, and may give up
  `mutex_` in between.  Whoever fetches or deletes the id then takes it for a page on
  disk.  As long as nobody does, the id stays as it is until `NewPage` ends, the
  call does not fail once it has a frame, and no id is made twice without a
  `DeletePage` in between.
-/
import BufferManager.Guarantees.BackgroundFlush

set_option autoImplicit false

namespace BufferManager

open BufferManager.Lib BufferManager.Protocol BufferManager.Refinement

variable {τ : Type}

/-! ## Lives of the ids -/

/-- After the notes `l`, the page `p` has been made and not deleted since. -/
def LiveAfter (l : List (Note τ)) (p : Nat) : Prop :=
  ∃ l₁ t l₂, l = l₁ ++ .created t p :: l₂ ∧ ∀ u, .deleted u p ∉ l₂

/-- Between two `NewPage`s that return an id, a `DeletePage` of it has returned. -/
def MadeOnce (l : List (Note τ)) : Prop :=
  ∀ l₁ t p l₂ u l₃, l = l₁ ++ .created t p :: (l₂ ++ .created u p :: l₃) →
    ∃ v, .deleted v p ∈ l₂

theorem LiveAfter.of_append {l : List (Note τ)} {x : Note τ} {p : Nat}
    (h : LiveAfter (l ++ [x]) p) :
    (LiveAfter l p ∧ ∀ u, x ≠ .deleted u p) ∨ ∃ t, x = .created t p := by
  obtain ⟨l₁, t, l₂, heq, hdel⟩ := h
  rcases List.eq_nil_or_concat' l₂ with rfl | ⟨l₂, y, rfl⟩
  · obtain ⟨-, hx⟩ := List.append_inj' heq rfl
    exact Or.inr ⟨t, List.singleton_inj.mp hx⟩
  · rw [← List.cons_append, ← List.append_assoc] at heq
    obtain ⟨rfl, hx⟩ := List.append_inj' heq rfl
    obtain rfl := List.singleton_inj.mp hx
    refine Or.inl ⟨⟨l₁, t, l₂, rfl, fun u hu => hdel u (List.mem_append_left _ hu)⟩, ?_⟩
    rintro u rfl
    exact hdel u (by simp)

theorem MadeOnce.append {l : List (Note τ)} {x : Note τ} (h : MadeOnce l)
    (hx : ∀ u p, x = .created u p → ¬ LiveAfter l p) : MadeOnce (l ++ [x]) := by
  intro l₁ t p l₂ u l₃ heq
  rcases List.eq_nil_or_concat' l₃ with rfl | ⟨l₃, y, rfl⟩
  · rw [← List.cons_append, ← List.append_assoc] at heq
    obtain ⟨rfl, hy⟩ := List.append_inj' heq rfl
    obtain rfl := List.singleton_inj.mp hy
    by_contra hnone
    exact hx u p rfl ⟨l₁, t, l₂, rfl, fun v hv => hnone ⟨v, hv⟩⟩
  · refine h l₁ t p l₂ u l₃ ?_
    have heq' : l ++ [x] = (l₁ ++ .created t p :: (l₂ ++ .created u p :: l₃)) ++ [y] := by
      simpa using heq
    exact (List.append_inj' heq' rfl).1

/-! ## What nobody takes -/

/-- The step neither begins to load a page whose id a `NewPage` has reserved nor deletes
it. -/
def System.RespectsReserved {R : Type} (s : System R τ) (l : Action τ × Outcome) : Prop :=
  ¬ s.LoadsReserved l.1 ∧ ¬ s.DeletesReserved l.1

instance {R : Type} [Fintype τ] (s : System R τ) (l : Action τ × Outcome) :
    Decidable (s.RespectsReserved l) :=
  inferInstanceAs (Decidable (¬ s.LoadsReserved l.1 ∧ ¬ s.DeletesReserved l.1))

/-- The action goes on with a `NewPage`. -/
def System.RunsNewPage {R : Type} (s : System R τ) (action : Action τ) : Prop :=
  (∃ t, action = .call t .newPage) ∨ ∃ t, action = .resume t ∧ (s.pc t).isNewPage = true

theorem Pc.reserves_site (pc : Pc) : pc.site.reserves = pc.reserves := by
  cases pc with
  | evicting a ev io => cases a <;> rfl
  | _ => rfl

namespace Refinement

variable {R : Type} [Replacer R] [LawfulReplacer R] {n N : Nat} {s : System R τ} {c c' : Cfg τ}

/-- What a configuration and the notes so far have in common while nobody takes a
reserved id. -/
structure Undisturbed (c : Cfg τ) (l : List (Note τ)) : Prop where
  reservations : Reservations c
  used : ∀ p, LiveAfter l p → c.place p ≠ .unused ∧ ¬ c.Reserved p
  madeOnce : MadeOnce l

variable [DecidableEq τ]

theorem Undisturbed.step {complete : Prop} {e : Event τ} {l : List (Note τ)}
    (h : Protocol.Step n N complete c e c') (he : e.Respects) (hI : Owned n c)
    (hU : Undisturbed c l) : Undisturbed c' (e.enter (fun l x => l ++ [x]) l) := by
  have hR' := hU.reservations.step h he hI
  cases hnote : e.note with
  | none =>
    have hsame : e.enter (fun l x => l ++ [x]) l = l := by rw [Event.enter, hnote]; rfl
    rw [hsame]
    refine ⟨hR', fun p hp => h.keeps_used hI (hU.used p hp).1 (hU.used p hp).2 ?_, hU.madeOnce⟩
    rintro t r rfl
    cases hnote
  | some x =>
    have happend : e.enter (fun l x => l ++ [x]) l = l ++ [x] := by rw [Event.enter, hnote]; rfl
    rw [happend]
    refine ⟨hR', fun p hp => ?_, hU.madeOnce.append ?_⟩
    · rcases hp.of_append with ⟨hlive, hdel⟩ | ⟨t, rfl⟩
      · refine h.keeps_used hI (hU.used p hlive).1 (hU.used p hlive).2 ?_
        rintro t r rfl
        exact hdel t (Option.some.inj hnote).symm
      · obtain ⟨f, hcreated⟩ := Event.created_of_note hnote
        have hplace := (h.created hcreated).2.1
        exact ⟨by simp [hplace], hR'.not_reserved (by simp [hplace])⟩
    · rintro t p rfl hlive
      obtain ⟨f, hcreated⟩ := Event.created_of_note hnote
      exact (hU.used p hlive).2 ⟨t, (h.created hcreated).1⟩

variable [Fintype τ]

/-- The notes of a run in which nobody takes a reserved id. -/
theorem undisturbed_of_reachable {x : System R τ × List (Note τ)}
    (h : Reachable (fun x => System.Initial n N x.1 ∧ x.2 = [])
      (Under (fun x l => x.1.RespectsReserved l) (Kept fun l x => l ++ [x])) x) :
    Holds n N (Undisturbed · x.2) x.1 := by
  refine lift_kept (P := Event.Respects) (A := fun _ _ => True) ?_ ?_ ?_ h
  · refine fun disk => ⟨⟨fun t p h => ?_, fun t u p h => ?_⟩, fun p hp => ?_, ?_⟩
    · cases h
    · cases h
    · obtain ⟨l₁, t, l₂, heq, -⟩ := hp
      simp at heq
    · intro l₁ t p l₂ u l₃ heq
      simp at heq
  · exact fun c e c' l he _ hst hs hU => hU.step hst he hs.owned
  · intro x l hl
    refine ⟨fun e he => ?_, ?_⟩
    · cases e with
      | loadBegan t p reserved => exact fun hr => hl.1 (he hr)
      | deleted t p reserved => exact fun hr => hl.2 (he hr)
      | _ => trivial
    · generalize x.1.notes l.1 l.2 = notes
      generalize x.2 = g
      induction notes generalizing g with
      | nil => trivial
      | cons y rest ih => exact ⟨trivial, ih _⟩

omit [LawfulReplacer R] [Fintype τ] in
/-- A reserved id stays reserved until its `NewPage` takes `mutex_` again. -/
theorem reserves_of_step {action : Action τ} {s' : System R τ} {out : Outcome} {t : τ} {p : Nat}
    (hstep : s.step action = some (s', out)) (hne : action ≠ .resume t)
    (h : (s.pc t).reserves = some p) : (s'.pc t).reserves = some p := by
  have hidle : s.pc t ≠ .idle := by
    intro hidle
    rw [hidle] at h
    cases h
  rw [← Pc.reserves_site, System.site_of_step hstep hne hidle, Pc.reserves_site, h]

omit [DecidableEq τ] [Fintype τ] in
/-- A reserved id is `kNonResident`. -/
theorem Sim.entry_of_reserves (hS : Sim n N s c) (hR : Reservations c) {t : τ} {p : Nat}
    (h : (s.pc t).reserves = some p) : s.entry p = ⟨.nonResident, none⟩ := by
  rw [hS.entry_eq, hR.nonResident t p (by rw [hS.reserves_eq, h])]
  rfl

omit [DecidableEq τ] [Fintype τ] in
/-- Why a `NewPage` throws that nobody has disturbed. -/
theorem newPage_fails (hS : Sim n N s c) (hR : Reservations c) {action : Action τ} {e : Error}
    (hnew : s.RunsNewPage action) (h : s.Fails action e) :
    (s.manager.pageTable.upcoming = [] ∧ e = ⟨.runtimeError, "maximum number of pages reached"⟩) ∨
      (s.Full ∧ e = noFrameError) ∨ ∃ t, action = .resume t ∧ (s.pc t).failure = some e := by
  have hvisits : s.visits action = none := by
    rcases hnew with ⟨t, rfl⟩ | ⟨t, rfl, hpc⟩
    · rfl
    · unfold System.visits
      cases hpc' : s.pc t with
      | waitPage v => simp [hpc', Pc.isNewPage] at hpc
      | nextFlush p rest => simp [hpc', Pc.isNewPage] at hpc
      | _ => simp [hpc']
  have hpc : ∀ {t : τ}, action = .resume t → (s.pc t).isNewPage = true := by
    rintro t rfl
    rcases hnew with ⟨u, hu⟩ | ⟨u, hu, hpc⟩
    · cases hu
    · obtain rfl := Action.resume.inj hu
      exact hpc
  cases h with
  | disk hfail => exact Or.inr (Or.inr ⟨_, rfl, hfail⟩)
  | noIds t hnone => exact Or.inl ⟨hnone, rfl⟩
  | noFrame hseeks hfull => exact Or.inr (Or.inl ⟨hfull, rfl⟩)
  | blocked hblocked hmem =>
    obtain ⟨t, rfl, ht⟩ := hblocked
    have hreserved : ∀ p, (s.pc t).reserves = some p → (s.entry p).state = .nonResident :=
      fun p hp => by rw [hS.entry_of_reserves hR hp]
    cases hpc' : s.pc t with
    | waitFrame a =>
      cases a with
      | newPage p =>
        rw [hpc'] at ht hreserved
        exact absurd (hreserved p rfl) ht.2
      | fetchPage p =>
        rw [hpc'] at ht
        exact ht.elim
    | evicting a ev io =>
      cases a with
      | newPage p =>
        rw [hpc'] at ht hreserved
        cases io with
        | done => exact absurd (hreserved p rfl) ht.2
        | running => exact ht.elim
        | failed => exact ht.elim
      | fetchPage p =>
        rw [hpc'] at ht
        exact ht.elim
    | _ =>
      rw [hpc'] at ht
      exact ht.elim
  | refused hv => exact absurd (hvisits.symm.trans hv) (by simp)
  | recheck hw | lostRace hw | unpin hw =>
    have := hpc rfl
    rw [hw] at this
    cases this

end Refinement

/-! ## NewPage is atomic -/

variable {R : Type} [Replacer R] [LawfulReplacer R] [Fintype τ] [DecidableEq τ] {n N : Nat}

/-- As long as nobody loads or deletes an id that a `NewPage` in progress has reserved:
the id is `kNonResident`, one thread has it, and no step but that thread's own changes
this or returns a guard on it; a `NewPage` throws only if there is no id or no frame for
it, or if its victim's write has failed; and no id is made twice in one life. -/
theorem newPage_atomic {x x' : System R τ × List (Note τ)} {l : Action τ × Outcome}
    (h : Reachable (fun x => System.Initial n N x.1 ∧ x.2 = [])
      (Under (fun x l => x.1.RespectsReserved l) (Kept fun l x => l ++ [x])) x)
    (hstep : Under (fun x l => x.1.RespectsReserved l) (Kept fun l x => l ++ [x]) x l x') :
    (∀ t p, (x.1.pc t).reserves = some p → x.1.entry p = ⟨.nonResident, none⟩ ∧
      (∀ u, (x.1.pc u).reserves = some p → u = t) ∧
      (l.1 ≠ .resume t → (x'.1.pc t).reserves = some p ∧
        x'.1.entry p = ⟨.nonResident, none⟩ ∧
        ∀ g, l.2 = .returned (.guard g) → g.pageId ≠ p)) ∧
    (∀ e, x.1.RunsNewPage l.1 → l.2 = .threw e →
      (x.1.manager.pageTable.upcoming = [] ∧
        e = ⟨.runtimeError, "maximum number of pages reached"⟩) ∨
      (x.1.Full ∧ e = noFrameError) ∨ ∃ t, l.1 = .resume t ∧ (x.1.pc t).failure = some e) ∧
    MadeOnce x'.2 := by
  obtain ⟨c, hS, hsound, hU⟩ := undisturbed_of_reachable h
  obtain ⟨c', hS', -, hU'⟩ := undisturbed_of_reachable (h.step hstep)
  obtain ⟨-, ⟨htrans, -⟩, -⟩ := hstep
  refine ⟨fun t p hp => ?_, fun e hnew hout => ?_, hU'.madeOnce⟩
  · refine ⟨hS.entry_of_reserves hU.reservations hp, fun u hu => ?_, fun hne => ?_⟩
    · exact hU.reservations.unique u t p (by rw [hS.reserves_eq, hu]) (by rw [hS.reserves_eq, hp])
    · have hp' := reserves_of_step htrans hne hp
      have hentry := hS'.entry_of_reserves hU'.reservations hp'
      refine ⟨hp', hentry, ?_⟩
      rintro g hout rfl
      have hresident := hS.entry_of_returned hsound (hout ▸ htrans)
      rw [hentry] at hresident
      cases hresident
  · refine newPage_fails hS hU.reservations hnew ?_
    refine Holds.fails (I := fun _ => True) ⟨c, hS, hsound, trivial⟩ ?_ (hout ▸ htrans)
    rcases hnew with ⟨t, ht⟩ | ⟨t, ht, -⟩
    · exact Or.inl ⟨t, _, ht⟩
    · exact Or.inr ⟨t, ht⟩

/-- While its victim is written a `NewPage` keeps its id, and another `NewPage` waits with
another one, beside a `FetchPage` of the victim. -/
theorem newPage_atomic_evicting : ∃ s s' : System ClockReplacer (Fin 3),
    System.Trans s (.transfer 0, .suspended) s' ∧ s.pc 2 = .waitPage (.fetchPage 0) ∧
      (s.pc 0).reserves = some 1 ∧ (s.pc 1).reserves = some 2 ∧
      (s'.pc 0).reserves = some 1 ∧ s'.entry 1 = ⟨.nonResident, none⟩ ∧
      (s'.pc 1).reserves = some 2 ∧ s'.entry 2 = ⟨.nonResident, none⟩ := by
  obtain ⟨x, hreach, hrespects, hpc, hreserves₀, hreserves₁, htransfer⟩ :=
    exists_of_runKeptNew (n := 1) (N := 3) (A := fun x l => x.1.RespectsReserved l)
      (P := fun x : System ClockReplacer (Fin 3) × List (Note (Fin 3)) =>
        x.1.RespectsReserved (.transfer 0, .suspended) ∧ x.1.pc 2 = .waitPage (.fetchPage 0) ∧
        (x.1.pc 0).reserves = some 1 ∧ (x.1.pc 1).reserves = some 2 ∧
        (x.1.transfer 0).isSome = true)
      (show (System.runKeptNew (fun l x => l ++ [x]) _ [] 1 3 [.call (0 : Fin 3) .newPage, .drop 0,
        .call 0 .newPage, .call 1 .newPage, .call 2 (.fetchPage 0)]).any _ = true by
          decide +kernel)
  obtain ⟨s', hs'⟩ := Option.isSome_iff_exists.mp htransfer
  have htrans : System.Trans x.1 (.transfer 0, .suspended) s' :=
    ⟨by simp [System.step, hs'], by simp⟩
  have hstep : Under (fun x l => x.1.RespectsReserved l) (Kept fun l x => l ++ [x]) x
      (.transfer 0, .suspended) (s', _) := ⟨hrespects, htrans, rfl⟩
  have hatomic := (newPage_atomic hreach hstep).1
  obtain ⟨hkept₀, hentry₀, -⟩ := (hatomic 0 1 hreserves₀).2.2 (by simp)
  obtain ⟨hkept₁, hentry₁, -⟩ := (hatomic 1 2 hreserves₁).2.2 (by simp)
  exact ⟨x.1, s', htrans, hpc, hreserves₀, hreserves₁, hkept₀, hentry₀, hkept₁, hentry₁⟩

/-- While a `NewPage` writes its victim, a `DeletePage` frees the id it has reserved, and
the `NewPage` throws although it has a frame. -/
theorem newPage_disturbed : ∃ s : System ClockReplacer (Fin 2),
    Reachable (System.Initial 1 2) System.Trans s ∧ (s.pc 0).reserves = some 1 ∧
      s.entry 1 = {} ∧ (s.pc 0).failure = none ∧
      ∃ s', System.Trans s
        (.resume 0, .threw ⟨.logicError, "cannot make an unused page resident"⟩) s' := by
  obtain ⟨s, hreach, hreserves, hentry, hfailure, hthrew⟩ := exists_of_runNew (n := 1) (N := 2)
    (P := fun s : System ClockReplacer (Fin 2) => (s.pc 0).reserves = some 1 ∧ s.entry 1 = {} ∧
      (s.pc 0).failure = none ∧ (s.step (.resume 0)).bind (·.2.error) =
        some ⟨.logicError, "cannot make an unused page resident"⟩)
    (show (System.runNew (fun _ _ => True) 1 2 [.call (0 : Fin 2) .newPage, .drop 0,
      .call 0 .newPage, .call 1 (.deletePage 1), .transfer 0]).any _ = true by decide +kernel)
  obtain ⟨s', hs'⟩ := System.exists_step_of_error hthrew
  exact ⟨s, hreach.of_under, hreserves, hentry, hfailure, s', hs', by simp⟩

end BufferManager
