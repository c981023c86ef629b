/-
  Guarantees/BackgroundFlush.lean --- what a flush in progress does to other calls.

  `FlushPage` pins the frame it writes from, and the frame stays `kResident`.  A
  `NewPage` or `FetchPage` that finds every frame pinned throws unless some frame is
  `kLoading` or `kEvicting`, and a `DeletePage` throws on any pin.  So the pin of a
  flush can make them fail; where no such pin stands alone, only guards do.
-/
import BufferManager.Guarantees.Agreement
import BufferManager.Guarantees.Frames
import BufferManager.Guarantees.PinCounts
import BufferManager.Protocol.Clients

set_option autoImplicit false

namespace BufferManager

open BufferManager.Lib BufferManager.Protocol BufferManager.Refinement

/-! ## Clients that keep to the lives of the ids -/

/-- The clients use an id between the return of its `NewPage` and its `DeletePage`, and
delete a page while no other call of theirs is on it. -/
def System.KeepsLives {R τ : Type} [DecidableEq τ] (x : System R τ × Clients τ)
    (l : Action τ × Outcome) : Prop :=
  Admits Clients.after Clients.Allows x.2 (x.1.notes l.1 l.2)

instance {R τ : Type} [DecidableEq τ] [Fintype τ] (x : System R τ × Clients τ)
    (l : Action τ × Outcome) : Decidable (System.KeepsLives x l) :=
  inferInstanceAs (Decidable (Admits Clients.after Clients.Allows x.2 (x.1.notes l.1 l.2)))

namespace Refinement

variable {R τ : Type} [Replacer R] [LawfulReplacer R] [Fintype τ] [DecidableEq τ] {n N : Nat}

omit [DecidableEq τ] in
theorem Disciplined.initial (disk : Nat → Page) :
    Disciplined (Cfg.initial N disk : Cfg τ) {} where
  pinned := .initial disk
  listed := fun f r hr => by cases hr
  reservations := by
    constructor
    · intro t p h
      cases h
    · intro t u p h
      cases h
  orderly := by
    refine ⟨fun t v h => ?_, fun p hp => absurd hp (Finset.notMem_empty p), fun t v h => ?_⟩
    · cases h
    · cases h

/-- Disciplined clients and counts that do not overflow keep every configuration in
order. -/
theorem disciplined_of_reachable {ok : System R τ × Clients τ → Action τ × Outcome → Prop}
    {x : System R τ × Clients τ} (hok : ∀ x l, ok x l → x.1.NoOverflow l ∧ System.KeepsLives x l)
    (h : Reachable (fun x => System.Initial n N x.1 ∧ x.2 = {}) (Under ok (Kept Clients.after)) x) :
    Holds n N (Disciplined · x.2) x.1 := by
  refine lift_kept (P := Event.Fits) (A := Clients.Allows) Disciplined.initial ?_ ?_ h
  · exact fun c e c' k hfits hallowed hst hs hD => hD.step hst hallowed hfits hs.owned
  · intro x l hl
    exact ⟨fun e he => Event.fits_of_explained (h := x.1.hazards l.1) (hok x l hl).1 he,
      (hok x l hl).2⟩

end Refinement

/-! ## Pins of a flush -/

/-- A live guard is on frame `f`. -/
def System.GuardOn {R τ : Type} (s : System R τ) (f : Nat) : Prop :=
  ∃ g ∈ s.guards, g.valid = true ∧ g.frameId = f

instance {R τ : Type} (s : System R τ) (f : Nat) : Decidable (s.GuardOn f) :=
  inferInstanceAs (Decidable (∃ g ∈ s.guards, g.valid = true ∧ g.frameId = f))

/-- Frame `f` is pinned by `FlushPage`s alone. -/
def System.FlushOnly {R τ : Type} (s : System R τ) (f : Nat) : Prop :=
  (∃ t, (s.pc t).flushes = some f) ∧ ¬ s.GuardOn f

/-- A call is about to fail on the pin of a flush: it looks for a frame while every
frame is resident and pinned, one of them by flushes alone; or it deletes a page that
flushes alone pin. -/
def System.FlushBlocks {R τ : Type} (s : System R τ) (action : Action τ) : Prop :=
  (s.Seeks action ∧ (∀ f, f < s.manager.frameCount → (s.manager.frameMeta f).state = .resident ∧
      (s.manager.frameMeta f).pinCount ≠ 0) ∧
    ∃ f, f < s.manager.frameCount ∧ s.FlushOnly f) ∨
  ∃ p f, s.visits action = some (.deletePage p) ∧ s.entry p = ⟨.resident, some f⟩ ∧ s.FlushOnly f

/-- Disciplined clients, no overflow, and no call that is about to fail on the pin of a
flush. -/
def System.Unblocked {R τ : Type} [DecidableEq τ] (x : System R τ × Clients τ)
    (l : Action τ × Outcome) : Prop :=
  (x.1.NoOverflow l ∧ System.KeepsLives x l) ∧ ¬ x.1.FlushBlocks l.1

/-- Nothing is blocked while there is a guard on every frame that is being flushed. -/
theorem System.not_flushBlocks {R τ : Type} {s : System R τ} {action : Action τ}
    (h : ∀ t, ∀ f ∈ (s.pc t).flushes, s.GuardOn f) : ¬ s.FlushBlocks action := by
  rintro (⟨-, -, f, -, ⟨t, ht⟩, hguard⟩ | ⟨p, f, -, -, ⟨t, ht⟩, hguard⟩)
  · exact hguard (h t f ht)
  · exact hguard (h t f ht)

/-- What a call throws that finds no frame. -/
def noFrameError : Error := ⟨.runtimeError, "no frame available"⟩

/-- What `DeletePage` throws on a pinned page. -/
def pinnedError : Error := ⟨.logicError, "cannot delete a pinned page"⟩

namespace Refinement

variable {R τ : Type} [Replacer R] [LawfulReplacer R] [Fintype τ] {n N : Nat} {s : System R τ}
  {c : Cfg τ}

/-- What pins a resident page. -/
theorem Sim.pinned_by (hS : Sim n N s c) (hP : Pinned c) (hL : Listed c) {f : Nat}
    (hstate : (s.manager.frameMeta f).state = .resident)
    (hpins : (s.manager.frameMeta f).pinCount ≠ 0) : s.GuardOn f ∨ s.FlushOnly f := by
  by_cases hguard : s.GuardOn f
  · exact Or.inl hguard
  refine Or.inr ⟨?_, hguard⟩
  rw [hS.rep.frameMeta] at hstate hpins
  cases hu : c.frame f with
  | resident r =>
    rw [hu] at hpins
    have hrefs : 0 < c.refs r.page f := by
      rw [← hP.pins_eq f r hu (hL f r hu)]
      exact Nat.pos_of_ne_zero hpins
    rcases exists_of_refs_pos hrefs with ⟨g, hg, hv, -, hf⟩ | ⟨t, ht⟩
    · exact absurd ⟨g, hS.guards ▸ hg, hv, hf⟩ hguard
    · refine ⟨t, ?_⟩
      rw [hS.phase] at ht
      cases hpc : s.pc t <;> simp [hpc, Phase.writes] at ht
      exact congrArg some ht.2
  | free | loading | evicting =>
    rw [hu] at hstate
    cases hstate

/-- Where no frame can be had, every frame is resident and pinned. -/
theorem Sim.pinned_of_full [CompleteReplacer R] (hS : Sim n N s c) (hI : Owned n c)
    (hP : Pinned c) (hfull : s.Full) {f : Nat} (hf : f < s.manager.frameCount) :
    (s.manager.frameMeta f).state = .resident ∧ (s.manager.frameMeta f).pinCount ≠ 0 := by
  have hstate : (s.manager.frameMeta f).state = .resident := by
    have hnotFree := (hS.allocated_iff hI f).mp (hfull.allocated f hf)
    obtain ⟨hnotLoading, hnotEvicting⟩ := hfull.settled f hf
    cases hx : (s.manager.frameMeta f).state with
    | resident => rfl
    | free => exact absurd hx hnotFree
    | loading => exact absurd hx hnotLoading
    | evicting => exact absurd hx hnotEvicting
  refine ⟨hstate, fun hpins => ?_⟩
  have hmem := (hS.evictable_iff hI hP f).mpr ⟨hstate, hpins⟩
  rw [hfull.unevictable inferInstance] at hmem
  exact hmem

/-- A call that finds no frame has looked for one in vain, or passes on the disk's error. -/
theorem fails_noFrame (hS : Sim n N s c) (hI : Owned n c) (hP : Pinned c) {action : Action τ}
    (h : s.Fails action noFrameError) :
    (∃ t, action = .resume t ∧ (s.pc t).failure = some noFrameError) ∨
      (s.Seeks action ∧ s.Full) := by
  generalize he : noFrameError = e at h
  cases h with
  | disk hfail => exact Or.inl ⟨_, rfl, hfail⟩
  | noFrame hseeks hfull => exact Or.inr ⟨hseeks, hfull⟩
  | noIds t => exact absurd he (by decide)
  | blocked hblocked hmem =>
    subst he
    exact absurd hmem (by decide)
  | refused hv hrefuses => cases hrefuses <;> cases he
  | recheck hpc hrefuses => cases hrefuses <;> cases he
  | lostRace hpc hrefuses => cases hrefuses <;> cases he
  | unpin hpc hunpin => exact absurd hunpin (hS.not_unpinnable hI hP hpc)

omit [Fintype τ] in
/-- A `DeletePage` that finds a pin has seen its page resident. -/
theorem fails_pinned {action : Action τ} {p : Nat} (hv : s.visits action = some (.deletePage p))
    (h : s.Fails action pinnedError) :
    ∃ f, s.entry p = ⟨.resident, some f⟩ ∧ (s.manager.frameMeta f).pinCount ≠ 0 := by
  have hwaits : ∀ t, action = .resume t → ∃ v, s.pc t = .waitPage v := by
    rintro t rfl
    rw [System.visits] at hv
    cases hpc : s.pc t with
    | waitPage v => exact ⟨v, rfl⟩
    | _ => simp [hpc] at hv
  generalize he : pinnedError = e at h
  cases h with
  | disk hfail =>
    obtain ⟨v, hpc⟩ := hwaits _ rfl
    rw [hpc] at hfail
    cases hfail
  | noIds t => cases he
  | noFrame => cases he
  | blocked hblocked hmem =>
    subst he
    exact absurd hmem (by decide)
  | refused hv' hrefuses =>
    obtain rfl := Option.some.inj (hv.symm.trans hv')
    cases hrefuses with
    | invalid => cases he
    | deletePinned p f hentry hpins => exact ⟨f, hentry, hpins⟩
  | recheck hpc | lostRace hpc | unpin hpc =>
    obtain ⟨v, hpc'⟩ := hwaits _ rfl
    rw [hpc] at hpc'
    cases hpc'

end Refinement

variable {R τ : Type} [Replacer R] [LawfulReplacer R] [Fintype τ] [DecidableEq τ] {n N : Nat}

/-- As long as no call meets a page or a frame that flushes alone pin, "no frame
available" is thrown only where a live guard is on every frame, and "cannot delete a
pinned page" only where one is on the page. -/
theorem background_flush_harmless [CompleteReplacer R] {x x' : System R τ × Clients τ}
    {l : Action τ × Outcome}
    (h : Reachable (fun x => System.Initial n N x.1 ∧ x.2 = {})
      (Under System.Unblocked (Kept Clients.after)) x)
    (hstep : Under System.Unblocked (Kept Clients.after) x l x') :
    (l.2 = .threw noFrameError →
      (∃ t, l.1 = .resume t ∧ (x.1.pc t).failure = some noFrameError) ∨
        ∀ f, f < x.1.manager.frameCount → x.1.GuardOn f) ∧
    ∀ p, x.1.visits l.1 = some (.deletePage p) → l.2 = .threw pinnedError →
      ∃ g ∈ x.1.guards, g.valid = true ∧ g.pageId = p := by
  obtain ⟨c, hS, hsound, hD⟩ := disciplined_of_reachable (fun _ _ hl => hl.1) h
  obtain ⟨⟨-, hblocks⟩, ⟨htrans, -⟩, -⟩ := hstep
  constructor
  · intro hout
    rw [hout] at htrans
    rcases hS.fails_of_threw hsound hD.pinned htrans with hfails | hempty
    · refine (fails_noFrame hS hsound.owned hD.pinned hfails).imp_right ?_
      rintro ⟨hseeks, hfull⟩ f hf
      have hall := fun f hf => hS.pinned_of_full (f := f) hsound.owned hD.pinned hfull hf
      obtain ⟨hstate, hpins⟩ := hall f hf
      rcases hS.pinned_by hD.pinned hD.listed hstate hpins with hguard | honly
      · exact hguard
      · exact absurd (Or.inl ⟨hseeks, hall, f, hf, honly⟩) hblocks
    · cases hempty
  · intro p hv hout
    rw [hout] at htrans
    rcases hS.fails_of_threw hsound hD.pinned htrans with hfails | hempty
    · obtain ⟨f, hentry, hpins⟩ := fails_pinned hv hfails
      obtain ⟨r, hr, rfl, -⟩ := hsound.owned.resident (hS.place_of_entry hentry)
      have hstate : (x.1.manager.frameMeta f).state = .resident := by
        rw [hS.rep.frameMeta, hr]
        rfl
      rcases hS.pinned_by hD.pinned hD.listed hstate hpins with ⟨g, hg, hlive, rfl⟩ | honly
      · obtain ⟨r', hr', hpage, -⟩ := hD.pinned.of_guard hsound.owned (hS.guards ▸ hg) hlive
        obtain rfl := Use.resident.inj (hr.symm.trans hr')
        exact ⟨g, hg, hlive, hpage.symm⟩
      · exact absurd (Or.inr ⟨_, f, hv, hentry, honly⟩) hblocks
    · exact absurd hempty (by decide)

/-- With one frame, which a thread has a guard on and is flushing. -/
theorem background_flush_harmless_guarded : ∃ s : System ClockReplacer (Fin 2),
    (s.pc 0).flushes = some 0 ∧
      (∃ s', s.step (.call 1 .newPage) = some (s', .threw noFrameError)) ∧ s.GuardOn 0 ∧
      (∃ s', s.step (.call 1 (.deletePage 0)) = some (s', .threw pinnedError)) ∧
      ∃ g ∈ s.guards, g.valid = true ∧ g.pageId = 0 := by
  obtain ⟨x, hreach, hcount, hflush, hguarded, hnew, hdelete, hnewThrew, hdeleteThrew⟩ :=
    exists_of_runKeptNew
      (A := fun x l => (x.1.NoOverflow l ∧ System.KeepsLives x l) ∧
        ∀ t, ∀ f ∈ (x.1.pc t).flushes, x.1.GuardOn f)
      (P := fun x : System ClockReplacer (Fin 2) × Clients (Fin 2) =>
        x.1.manager.frameCount = 1 ∧ (x.1.pc 0).flushes = some 0 ∧
        (∀ t, ∀ f ∈ (x.1.pc t).flushes, x.1.GuardOn f) ∧
        (x.1.NoOverflow (.call 1 .newPage, .threw noFrameError) ∧
          System.KeepsLives x (.call 1 .newPage, .threw noFrameError)) ∧
        (x.1.NoOverflow (.call 1 (.deletePage 0), .threw pinnedError) ∧
          System.KeepsLives x (.call 1 (.deletePage 0), .threw pinnedError)) ∧
        (x.1.step (.call 1 .newPage)).bind (·.2.error) = some noFrameError ∧
        (x.1.step (.call 1 (.deletePage 0))).bind (·.2.error) = some pinnedError)
      (show (System.runKeptNew Clients.after _ {} 1 2 [.call (0 : Fin 2) .newPage,
        .call 0 (.flushPage 0)]).any _ = true by decide +kernel)
  have hunblocked : Reachable _ (Under System.Unblocked (Kept Clients.after)) x :=
    hreach.mono fun _ _ _ h => ⟨⟨h.1.1, System.not_flushBlocks h.1.2⟩, h.2⟩
  obtain ⟨s', hs'⟩ := System.exists_step_of_error hnewThrew
  obtain ⟨s'', hs''⟩ := System.exists_step_of_error hdeleteThrew
  have hnewStep : Under System.Unblocked (Kept Clients.after) x
      (.call 1 .newPage, .threw noFrameError) (s', _) :=
    ⟨⟨hnew, System.not_flushBlocks hguarded⟩, ⟨hs', by simp⟩, rfl⟩
  have hdeleteStep : Under System.Unblocked (Kept Clients.after) x
      (.call 1 (.deletePage 0), .threw pinnedError) (s'', _) :=
    ⟨⟨hdelete, System.not_flushBlocks hguarded⟩, ⟨hs'', by simp⟩, rfl⟩
  refine ⟨x.1, hflush, ⟨s', hs'⟩, ?_, ⟨s'', hs''⟩,
    (background_flush_harmless hunblocked hdeleteStep).2 0 rfl rfl⟩
  rcases (background_flush_harmless hunblocked hnewStep).1 rfl with ⟨t, ht, -⟩ | hguards
  · cases ht
  · exact hguards 0 (by omega)

/-- While a `FlushPage` alone pins the only frame, a `NewPage` throws instead of waiting,
and so does a `DeletePage` of the page; and a `DeletePage` throws while `FlushAllPages`
alone pins its page. -/
theorem background_flush_blocks :
    (∃ x : System ClockReplacer (Fin 2) × Clients (Fin 2),
      Reachable (fun x => System.Initial 1 2 x.1 ∧ x.2 = {})
        (Under System.KeepsLives (Kept Clients.after)) x ∧
      (∀ g ∈ x.1.guards, g.valid = false) ∧ (x.1.pc 0).flushes = some 0 ∧
      (∃ s', x.1.step (.call 1 .newPage) = some (s', .threw noFrameError)) ∧
      System.KeepsLives x (.call 1 (.deletePage 0), .threw pinnedError) ∧
      ∃ s', x.1.step (.call 1 (.deletePage 0)) = some (s', .threw pinnedError)) ∧
    ∃ x : System ClockReplacer (Fin 2) × Clients (Fin 2),
      Reachable (fun x => System.Initial 1 2 x.1 ∧ x.2 = {})
        (Under System.KeepsLives (Kept Clients.after)) x ∧
      (∀ g ∈ x.1.guards, g.valid = false) ∧ (x.1.pc 0).flushes = some 0 ∧
      System.KeepsLives x (.call 1 (.deletePage 0), .threw pinnedError) ∧
      ∃ s', x.1.step (.call 1 (.deletePage 0)) = some (s', .threw pinnedError) := by
  constructor
  · obtain ⟨x, hreach, hguards, hflush, hnewThrew, hlives, hdeleteThrew⟩ := exists_of_runKeptNew
      (P := fun x : System ClockReplacer (Fin 2) × Clients (Fin 2) =>
        (∀ g ∈ x.1.guards, g.valid = false) ∧ (x.1.pc 0).flushes = some 0 ∧
        (x.1.step (.call 1 .newPage)).bind (·.2.error) = some noFrameError ∧
        System.KeepsLives x (.call 1 (.deletePage 0), .threw pinnedError) ∧
        (x.1.step (.call 1 (.deletePage 0))).bind (·.2.error) = some pinnedError)
      (show (System.runKeptNew Clients.after System.KeepsLives {} 1 2 [.call (0 : Fin 2) .newPage,
        .call 0 (.flushPage 0), .drop 0]).any _ = true by decide +kernel)
    obtain ⟨s', hs'⟩ := System.exists_step_of_error hnewThrew
    obtain ⟨s'', hs''⟩ := System.exists_step_of_error hdeleteThrew
    exact ⟨x, hreach, hguards, hflush, ⟨s', hs'⟩, hlives, s'', hs''⟩
  · obtain ⟨x, hreach, hguards, hflush, hlives, hthrew⟩ := exists_of_runKeptNew
      (P := fun x : System ClockReplacer (Fin 2) × Clients (Fin 2) =>
        (∀ g ∈ x.1.guards, g.valid = false) ∧ (x.1.pc 0).flushes = some 0 ∧
        System.KeepsLives x (.call 1 (.deletePage 0), .threw pinnedError) ∧
        (x.1.step (.call 1 (.deletePage 0))).bind (·.2.error) = some pinnedError)
      (show (System.runKeptNew Clients.after System.KeepsLives {} 1 2 [.call (0 : Fin 2) .newPage,
        .call 0 .flushAllPages, .resume 0, .drop 0]).any _ = true by decide +kernel)
    obtain ⟨s', hs'⟩ := System.exists_step_of_error hthrew
    exact ⟨x, hreach, hguards, hflush, hlives, s', hs'⟩

end BufferManager
