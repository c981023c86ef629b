/-
  Guarantees/Agreement.lean --- the replacer and the frame metadata agree.

  While the pin counts are exact, the frames `ClockReplacer` may choose are the
  resident frames without a pin, and it knows every frame that holds a page.  So the
  checks that compare the two never fire: a call that throws one of their errors
  passes on what the disk has thrown.
-/
import BufferManager.Guarantees.Guards

set_option autoImplicit false

namespace BufferManager

open BufferManager.Lib BufferManager.Protocol BufferManager.Refinement

/-- What the checks throw that compare the replacer with the frame metadata. -/
def agreementErrors : List Error :=
  [⟨.logicError, "victim frame has no page"⟩,
    ⟨.logicError, "replacer selected a pinned frame"⟩,
    ⟨.logicError, "victim frame is not resident"⟩,
    ⟨.logicError, "cannot change evictability of an unknown frame"⟩,
    ⟨.logicError, "inconsistent resident page metadata"⟩,
    ⟨.logicError, "pin count underflow"⟩]

namespace Refinement

variable {R τ : Type} [Replacer R] [LawfulReplacer R] {n N : Nat} {s : System R τ} {c : Cfg τ}

/-- The evictable frames are the resident frames without a pin. -/
theorem Sim.evictable_iff [Fintype τ] (hS : Sim n N s c) (hI : Owned n c) (hP : Pinned c)
    (f : Nat) : f ∈ LawfulReplacer.evictable s.manager.replacer ↔
      (s.manager.frameMeta f).state = .resident ∧ (s.manager.frameMeta f).pinCount = 0 := by
  rw [hS.rep.evictable, hS.rep.frameMeta]
  constructor
  · intro hf
    obtain ⟨r, hr, -, hpins⟩ := hI.evictable_unpinned f hf
    rw [hr]
    exact ⟨rfl, hpins⟩
  · rintro ⟨hstate, hpins⟩
    cases hu : c.frame f with
    | resident r =>
      rw [hu] at hpins
      have hlisted : r.listed = true := by
        by_contra hne
        have hone := hP.unlisted_pins f r hu (by simpa using hne)
        have hzero : r.pins = 0 := hpins
        omega
      exact (hP.evictable_iff f r hu hlisted).mpr hpins
    | free | loading | evicting =>
      rw [hu] at hstate
      cases hstate

theorem Sim.present_of_entry (hS : Sim n N s c) (hI : Owned n c) {p f : Nat}
    (h : s.entry p = ⟨.resident, some f⟩) : f ∈ LawfulReplacer.present s.manager.replacer := by
  obtain ⟨r, hr, -, hlisted⟩ := hI.resident (hS.place_of_entry h)
  rw [hS.rep.present]
  exact (hI.present_iff f).mpr ⟨r, hr, hlisted⟩

/-- The frame a `FlushPage` writes from has the pin it took. -/
theorem Sim.not_unpinnable [Fintype τ] (hS : Sim n N s c) (hI : Owned n c) (hP : Pinned c)
    {t : τ} {p f epoch : Nat} {caller : FlushCaller} {io : Io}
    (hpc : s.pc t = .writing p f epoch caller io) : ¬ s.Unpinnable f := by
  have hwrites : (c.phase t).writes = some (p, f) := by
    rw [hS.phase, hpc]
    rfl
  obtain ⟨k, r, hr, -, hlisted, hpins, -⟩ := hP.of_refs hI (refs_pos_of_writer hwrites)
  have hmeta : s.manager.frameMeta f = (Use.resident r).meta := by rw [hS.rep.frameMeta, hr]
  intro h
  rcases h (by rw [hmeta]; rfl) with hzero | habsent
  · rw [hmeta] at hzero
    have hpins₀ : r.pins = 0 := hzero
    omega
  · rw [hS.rep.present] at habsent
    exact habsent ((hI.present_iff f).mpr ⟨r, hr, hlisted⟩)

/-- A call throws one of the errors only if its transfer has. -/
theorem disk_of_agreementError [Fintype τ] (hS : Sim n N s c) (hI : Owned n c) (hP : Pinned c)
    {action : Action τ} {e : Error} (h : s.Fails action e) (he : e ∈ agreementErrors) :
    ∃ t, action = .resume t ∧ (s.pc t).failure = some e := by
  have hother : ∀ {k what}, (⟨k, what⟩ : Error) = e → ⟨k, what⟩ ∉ agreementErrors → False :=
    fun heq hnot => hnot (heq ▸ he)
  cases h with
  | disk hfail => exact ⟨_, rfl, hfail⟩
  | noIds t => exact (hother rfl (by decide)).elim
  | noFrame => exact (hother rfl (by decide)).elim
  | blocked hblocked hmem =>
    have hdisjoint : ∀ e ∈ PageTable.setResidentErrors, e ∉ agreementErrors := by decide
    exact absurd he (hdisjoint e hmem)
  | refused hv hrefuses => cases hrefuses <;> exact (hother rfl (by decide)).elim
  | recheck hpc hrefuses => cases hrefuses <;> exact (hother rfl (by decide)).elim
  | lostRace hpc hrefuses => cases hrefuses <;> exact (hother rfl (by decide)).elim
  | unpin hpc hunpin => exact absurd hunpin (hS.not_unpinnable hI hP hpc)

end Refinement

/-! ## Agreement -/

variable {τ : Type} [Fintype τ] [DecidableEq τ] {n N : Nat}

/-- Wherever `mutex_` is released the frames present and evictable in the replacer are the
resident frames without a pin, and a resident page's frame is present; and no step throws
an error of the checks that compare the two, but for the one that passes on the disk's. -/
theorem replacer_agrees {s : System ClockReplacer τ}
    (h : Reachable (System.Initial n N) (Under System.NoOverflow System.Trans) s) :
    (∀ f, ((s.manager.replacer.entries f).present = true ∧
        (s.manager.replacer.entries f).evictable = true) ↔
      (s.manager.frameMeta f).state = .resident ∧ (s.manager.frameMeta f).pinCount = 0) ∧
    (∀ p f, s.entry p = ⟨.resident, some f⟩ →
      (s.manager.replacer.entries f).present = true) ∧
    ∀ action s' e, s.step action = some (s', .threw e) → e ∈ agreementErrors →
      ∃ t, action = .resume t ∧ (s.pc t).failure = some e := by
  obtain ⟨c, hS, hsound, hP⟩ := pinned_of_reachable h
  refine ⟨hS.evictable_iff hsound.owned hP, fun p f => hS.present_of_entry hsound.owned, ?_⟩
  intro action s' e hstep he
  rcases hS.fails_of_threw hsound hP hstep with hfails | rfl
  · exact disk_of_agreementError hS hsound.owned hP hfails he
  · exact absurd he (by decide)

/-- After a page has been made and dropped its frame can be chosen. -/
theorem replacer_agrees_dropped : ∃ s : System ClockReplacer (Fin 1),
    (s.manager.frameMeta 0).state = .resident ∧ (s.manager.frameMeta 0).pinCount = 0 := by
  obtain ⟨s, hreach, hentry⟩ := exists_of_runNew (n := 1) (N := 1)
    (P := fun s : System ClockReplacer (Fin 1) => (s.manager.replacer.entries 0).present = true ∧
      (s.manager.replacer.entries 0).evictable = true)
    (show (System.runNew System.NoOverflow 1 1
      [.call (0 : Fin 1) .newPage, .drop 0]).any _ = true by decide +kernel)
  exact ⟨s, ((replacer_agrees hreach).1 0).mp hentry⟩

end BufferManager
