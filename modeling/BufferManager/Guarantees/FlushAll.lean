/-
  Guarantees/FlushAll.lean --- what makes `FlushAllPages` fail.

  `FlushAllPages` flushes the pages of its snapshot one by one, with `mutex_` given up
  in between.  A page that has been deleted by its turn makes `FlushPage` throw, and
  the exception ends the whole call.  Where that does not happen only a failed write
  does, and a call that returns has flushed its snapshot.
-/
import BufferManager.Guarantees.BackgroundFlush

set_option autoImplicit false

namespace BufferManager

open BufferManager.Lib BufferManager.Protocol BufferManager.Refinement

/-- The pages a suspended `FlushAllPages` has still to flush, the one it is at first. -/
def Pc.remaining : Pc → Option (List Nat)
  | .waitPage (.flushPage p (.flushAllPages rest)) => some (p :: rest)
  | .writing p _ _ (.flushAllPages rest) _ => some (p :: rest)
  | .nextFlush p rest => some (p :: rest)
  | _ => none

theorem Pc.remaining_cases {pc : Pc} {p : Nat} {rest : List Nat}
    (h : pc.remaining = some (p :: rest)) :
    pc = .waitPage (.flushPage p (.flushAllPages rest)) ∨
      (∃ f epoch io, pc = .writing p f epoch (.flushAllPages rest) io) ∨
        pc = .nextFlush p rest := by
  unfold Pc.remaining at h
  split at h
  · obtain ⟨rfl, rfl⟩ := List.cons.inj (Option.some.inj h)
    exact Or.inl rfl
  · obtain ⟨rfl, rfl⟩ := List.cons.inj (Option.some.inj h)
    exact Or.inr (Or.inl ⟨_, _, _, rfl⟩)
  · obtain ⟨rfl, rfl⟩ := List.cons.inj (Option.some.inj h)
    exact Or.inr (Or.inr rfl)
  · cases h

/-- A `FlushAllPages` in progress: the pages it has collected, and those whose `FlushPage`
has returned. -/
structure Sweep where
  snapshot : List Nat
  flushed : List Nat := []

namespace System

variable {R τ : Type}

/-- A `FlushPage` of `FlushAllPages` is about to look at a page that is `kUnused`. -/
def FlushesUnused (s : System R τ) (action : Action τ) : Prop :=
  ∃ p rest, s.visits action = some (.flushPage p (.flushAllPages rest)) ∧
    (s.entry p).state = .unused

/-- No `FlushPage` of `FlushAllPages` meets a page that is `kUnused`, and none pins a
frame whose count is full. -/
def FlushesUsed (s : System R τ) (l : Action τ × Outcome) : Prop :=
  s.NoOverflow l ∧ ¬ s.FlushesUnused l.1

variable [Replacer R] [DecidableEq τ]

/-- The page whose `FlushPage` returns to `FlushAllPages` as thread `t` goes on. -/
def flushEnds (s : System R τ) (t : τ) : Option Nat :=
  match (s.pc t).remaining, s.step (.resume t) with
  | some (p :: rest), some (s', .suspended) =>
      if (s'.pc t).remaining = some rest then some p else none
  | some (p :: _), some (_, .returned _) => some p
  | _, _ => none

/-- The `FlushAllPages` calls in progress after a step. -/
def sweeps (g : τ → Option Sweep) (s : System R τ) : Action τ × Outcome → τ → Option Sweep
  | (.call t .flushAllPages, .suspended) =>
      Function.update g t (some { snapshot := s.manager.dirtyPages })
  | (.resume t, .suspended) => Function.update g t ((g t).map fun w =>
      { w with flushed := w.flushed ++ (s.flushEnds t).toList })
  | (.resume t, _) => Function.update g t none
  | _ => g

end System

namespace Refinement

open BufferManager.Manager

variable {R τ : Type} [Replacer R]

/-! ## The turn of one page -/

/-- How a piece of `FlushPage(p)` ends that does not throw: the call returns to its
caller, or is still at `p`. -/
def StaysOrReturns (p : Nat) (caller : FlushCaller) (next : Next) : Prop :=
  next = flushReturn caller ∨ next = .suspended (.waitPage (.flushPage p caller)) ∨
    ∃ f epoch io, next = .suspended (.writing p f epoch caller io)

variable [DecidableEq τ] {s : System R τ} {t : τ}

theorem wp_flushPage_turn (m : Manager R τ) (p : Nat) (caller : FlushCaller) :
    wp (flushPage t p caller) (fun next _ => StaysOrReturns p caller next) (fun _ _ => True) m := by
  rw [flushPage, wp_bind]
  refine wp_of_forall (fun state m => ?_) fun _ _ => trivial
  cases state with
  | unused => trivial
  | nonResident => exact Or.inl rfl
  | loading | evicting => exact Or.inr (Or.inl rfl)
  | resident =>
    rw [wp_bind]
    refine wp_of_forall (fun f m => ?_) fun _ _ => trivial
    rw [wp_bind]
    refine wp_of_forall (fun x m => ?_) fun _ _ => trivial
    split
    · exact Or.inl rfl
    · split
      · trivial
      · simp only [wp_bind]
        refine wp_of_forall (fun _ m => ?_) fun _ _ => trivial
        refine wp_of_forall (fun _ m => ?_) fun _ _ => trivial
        refine wp_of_forall (fun _ m => ?_) fun _ _ => trivial
        exact Or.inr (Or.inr ⟨f, _, _, rfl⟩)

omit [DecidableEq τ] in
theorem wp_finishFlush_turn (m : Manager R τ) (p f epoch : Nat) (caller : FlushCaller)
    (failure : Option Error) :
    wp (finishFlush p f epoch caller failure) (fun next _ => StaysOrReturns p caller next)
      (fun _ _ => True) m := by
  cases failure with
  | some e =>
    simp only [finishFlush, wp_bind]
    refine wp_of_forall (fun _ m => ?_) fun _ _ => trivial
    exact wp_of_forall (fun _ m => trivial) fun _ _ => trivial
  | none =>
    simp only [finishFlush, wp_bind]
    refine wp_of_forall (fun _ m => ?_) fun _ _ => trivial
    split
    · simp only [wp_bind]
      refine wp_of_forall (fun _ m => ?_) fun _ _ => trivial
      refine wp_of_forall (fun _ m => ?_) fun _ _ => trivial
      exact wp_of_forall (fun _ m => Or.inl rfl) fun _ _ => trivial
    · simp only [wp_bind]
      refine wp_of_forall (fun _ m => ?_) fun _ _ => trivial
      exact wp_of_forall (fun _ m => Or.inl rfl) fun _ _ => trivial

/-- What a thread in `FlushAllPages` runs as it goes on. -/
theorem resume_turn {p : Nat} {rest : List Nat} (h : (s.pc t).remaining = some (p :: rest))
    {piece : Locked R τ Next} (hpiece : Manager.resume t (s.pc t) = some piece) (m : Manager R τ) :
    wp piece (fun next _ => StaysOrReturns p (.flushAllPages rest) next) (fun _ _ => True) m := by
  rcases Pc.remaining_cases h with hpc | ⟨f, epoch, io, hpc⟩ | hpc
  · rw [hpc] at hpiece
    obtain rfl := Option.some.inj hpiece
    exact wp_flushPage_turn _ p _
  · rw [hpc] at hpiece
    obtain ⟨failure, -, rfl⟩ := Option.map_eq_some_iff.mp hpiece
    exact wp_finishFlush_turn _ p f epoch _ failure
  · rw [hpc] at hpiece
    obtain rfl := Option.some.inj hpiece
    exact wp_flushPage_turn _ p _

/-- A thread in `FlushAllPages` stays at its page, goes on to the next one, returns
behind the last one, or throws. -/
theorem remaining_of_resume {p : Nat} {rest : List Nat} (h : (s.pc t).remaining = some (p :: rest))
    {s' : System R τ} {out : Outcome} (hstep : s.step (.resume t) = some (s', out)) :
    (out = .suspended ∧ (s'.pc t).remaining = some (p :: rest)) ∨
      (out = .suspended ∧ (s'.pc t).remaining = some rest ∧ rest ≠ []) ∨
      (out = .returned .unit ∧ rest = []) ∨ ∃ e, out = .threw e := by
  obtain ⟨piece, hpiece, hsettle⟩ := Option.map_eq_some_iff.mp hstep
  have hwp := resume_turn h hpiece s.manager
  cases hm : piece s.manager with
  | error e m =>
    rw [System.settle_error hm] at hsettle
    obtain ⟨rfl, rfl⟩ := Prod.mk.inj hsettle
    exact Or.inr (Or.inr (Or.inr ⟨e, rfl⟩))
  | ok next m =>
    rcases hwp.ok hm with rfl | rfl | ⟨f, epoch, io, rfl⟩
    · cases rest with
      | nil =>
        rw [System.settle_unit hm] at hsettle
        obtain ⟨rfl, rfl⟩ := Prod.mk.inj hsettle
        exact Or.inr (Or.inr (Or.inl ⟨rfl, rfl⟩))
      | cons q rest =>
        rw [System.settle_suspended hm] at hsettle
        obtain ⟨rfl, rfl⟩ := Prod.mk.inj hsettle
        exact Or.inr (Or.inl ⟨rfl, by simp [Pc.remaining], by simp⟩)
    · rw [System.settle_suspended hm] at hsettle
      obtain ⟨rfl, rfl⟩ := Prod.mk.inj hsettle
      exact Or.inl ⟨rfl, by simp [Pc.remaining]⟩
    · rw [System.settle_suspended hm] at hsettle
      obtain ⟨rfl, rfl⟩ := Prod.mk.inj hsettle
      exact Or.inl ⟨rfl, by simp [Pc.remaining]⟩

theorem remaining_of_call {s' : System R τ} {out : Outcome}
    (hstep : s.step (.call t .flushAllPages) = some (s', out)) :
    (out = .returned .unit ∧ s.manager.dirtyPages = []) ∨
      ∃ p rest, out = .suspended ∧ s.manager.dirtyPages = p :: rest ∧
        (s'.pc t).remaining = some (p :: rest) := by
  simp only [System.step] at hstep
  split at hstep
  · have hm : System.start t .flushAllPages s.manager =
        .ok (flushReturn (.flushAllPages s.manager.dirtyPages)) s.manager := rfl
    cases hpages : s.manager.dirtyPages with
    | nil =>
      rw [hpages] at hm
      rw [System.settle_unit hm] at hstep
      obtain ⟨-, rfl⟩ := Prod.mk.inj (Option.some.inj hstep)
      exact Or.inl ⟨rfl, rfl⟩
    | cons p rest =>
      rw [hpages] at hm
      rw [System.settle_suspended hm] at hstep
      obtain ⟨rfl, rfl⟩ := Prod.mk.inj (Option.some.inj hstep)
      exact Or.inr ⟨p, rest, rfl, rfl, by simp [Pc.remaining]⟩
  · cases hstep

/-! ## The snapshot -/

/-- The account of a thread's `FlushAllPages` is where the thread is. -/
def Sweeping (s : System R τ) (g : τ → Option Sweep) : Prop :=
  ∀ t w, g t = some w → ∃ p rest, (s.pc t).remaining = some (p :: rest) ∧
    w.snapshot = w.flushed ++ p :: rest

theorem Pc.remaining_site (pc : Pc) : pc.site.remaining = pc.remaining := by
  cases pc with
  | writing p f epoch caller io => cases caller <;> rfl
  | _ => rfl

theorem Sweeping.step {g : τ → Option Sweep} (hg : Sweeping s g) {l : Action τ × Outcome}
    {s' : System R τ} (hstep : s.step l.1 = some (s', l.2)) :
    Sweeping s' (System.sweeps g s l) := by
  obtain ⟨action, out⟩ := l
  -- A thread that does not take `mutex_` again stays where it is.
  have hothers : ∀ u w, action ≠ .resume u → g u = some w →
      ∃ p rest, (s'.pc u).remaining = some (p :: rest) ∧ w.snapshot = w.flushed ++ p :: rest := by
    intro u w hne hw
    obtain ⟨p, rest, hpc, hsnapshot⟩ := hg u w hw
    refine ⟨p, rest, ?_, hsnapshot⟩
    have hidle : s.pc u ≠ .idle := by
      intro hidle
      rw [hidle] at hpc
      cases hpc
    rw [← Pc.remaining_site, System.site_of_step hstep hne hidle, Pc.remaining_site, hpc]
  intro u w hw
  cases action with
  | call t call =>
    cases call with
    | flushAllPages =>
      rcases remaining_of_call hstep with ⟨hout, -⟩ | ⟨p, rest, hout, hpages, hpc⟩
      · obtain rfl : out = .returned .unit := hout
        exact hothers u w (by simp) hw
      · obtain rfl : out = .suspended := hout
        by_cases hut : u = t
        · subst hut
          obtain rfl : _ = w := by simpa [System.sweeps] using hw
          exact ⟨p, rest, hpc, by simp [hpages]⟩
        · exact hothers u w (by simp) (by simpa [System.sweeps, hut] using hw)
    | _ => exact hothers u w (by simp) hw
  | resume t =>
    by_cases hut : u = t
    · subst hut
      cases out with
      | suspended =>
        obtain ⟨w₀, hw₀, rfl⟩ : ∃ w₀, g u = some w₀ ∧
            { w₀ with flushed := w₀.flushed ++ (s.flushEnds u).toList } = w := by
          simpa [System.sweeps] using hw
        obtain ⟨p, rest, hpc, hsnapshot⟩ := hg u w₀ hw₀
        rcases remaining_of_resume hpc hstep with ⟨-, hstay⟩ | ⟨-, hnext, hne⟩ | ⟨hout, -⟩ |
          ⟨e, hout⟩
        · have hends : s.flushEnds u = none := by
            simp [System.flushEnds, hpc, show s.step (.resume u) = some (s', .suspended) from hstep,
              hstay]
          exact ⟨p, rest, hstay, by simpa [hends] using hsnapshot⟩
        · have hends : s.flushEnds u = some p := by
            simp [System.flushEnds, hpc, show s.step (.resume u) = some (s', .suspended) from hstep,
              hnext]
          obtain ⟨q, rest, rfl⟩ := List.exists_cons_of_ne_nil hne
          exact ⟨q, rest, hnext, by simp [hends, hsnapshot]⟩
        · cases hout
        · cases hout
      | _ => simp [System.sweeps] at hw
    · have hgu : g u = some w := by
        cases out <;> simpa [System.sweeps, hut] using hw
      exact hothers u w (by simpa using fun h => hut h.symm) hgu
  | _ => exact hothers u w (by simp) hw

/-! ## Why it throws -/

variable [LawfulReplacer R] {n N : Nat} {c : Cfg τ}

omit [DecidableEq τ] in
/-- A `FlushAllPages` that meets no unused page fails for its write only. -/
theorem flushAll_fails [Fintype τ] (hS : Sim n N s c) (hI : Owned n c) (hP : Pinned c) {p : Nat}
    {rest : List Nat} (hpc : (s.pc t).remaining = some (p :: rest))
    (hused : ¬ s.FlushesUnused (.resume t)) {e : Error} (h : s.Fails (.resume t) e) :
    (s.pc t).failure = some e := by
  have hrefuses : ∀ {v}, s.visits (.resume t) = some v → ¬ s.Refuses v e := by
    intro v hv hrefuses
    obtain rfl : v = .flushPage p (.flushAllPages rest) := by
      rcases Pc.remaining_cases hpc with h | ⟨f, epoch, io, h⟩ | h
      · simpa [System.visits, h, eq_comm] using hv
      · simp [System.visits, h] at hv
      · simpa [System.visits, h, eq_comm] using hv
    cases hrefuses with
    | invalid _ hunused | flushUnused _ _ hunused => exact hused ⟨p, rest, hv, hunused⟩
  have hacquires : ∀ {a}, s.pc t ≠ .waitFrame a := by
    intro a ha
    rw [ha] at hpc
    cases hpc
  have hevicts : ∀ {a ev io}, s.pc t ≠ .evicting a ev io := by
    intro a ev io ha
    rw [ha] at hpc
    cases hpc
  cases h with
  | disk hfail => exact hfail
  | noFrame hseeks =>
    cases hseeks with
    | fetchPage q hv =>
      rcases Pc.remaining_cases hpc with h | ⟨f, epoch, io, h⟩ | h <;>
        simp [System.visits, h] at hv
    | again a ha => exact absurd ha hacquires
  | blocked hblocked =>
    obtain ⟨u, hu, hblocked⟩ := hblocked
    obtain rfl := Action.resume.inj hu
    split at hblocked
    · next h => exact absurd h hacquires
    · next h => exact absurd h hevicts
    · exact hblocked.elim
  | refused hv h => exact absurd h (hrefuses hv)
  | recheck hw => exact absurd hw hacquires
  | lostRace hw => exact absurd hw hevicts
  | unpin hw hunpin => exact absurd hunpin (hS.not_unpinnable hI hP hw)

end Refinement

/-! ## FlushAllPages -/

variable {R τ : Type} [Replacer R] [LawfulReplacer R] [Fintype τ] [DecidableEq τ] {n N : Nat}

/-- As long as no `FlushPage` of `FlushAllPages` meets an unused page, a `FlushAllPages`
throws only what its own write has thrown, and one that returns has run `FlushPage` to
its end on every page of its snapshot, in order. -/
theorem flushAll_completes {x x' : System R τ × (τ → Option Sweep)} {l : Action τ × Outcome}
    (h : Reachable (fun x => System.Initial n N x.1 ∧ x.2 = fun _ => none)
      (Under (fun x l => x.1.FlushesUsed l) (Recorded System.sweeps System.Trans)) x)
    (hstep : Under (fun x l => x.1.FlushesUsed l) (Recorded System.sweeps System.Trans) x l x') :
    (∀ t, l.1 = .call t .flushAllPages →
      (l.2 = .suspended ∧ x'.2 t = some ⟨x.1.manager.dirtyPages, []⟩) ∨
        (l.2 = .returned .unit ∧ x.1.manager.dirtyPages = [])) ∧
    ∀ t w, l.1 = .resume t → x.2 t = some w →
      (l.2 = .suspended ∧
        x'.2 t = some ⟨w.snapshot, w.flushed ++ (x.1.flushEnds t).toList⟩) ∨
      (l.2 = .returned .unit ∧ w.snapshot = w.flushed ++ (x.1.flushEnds t).toList) ∨
        ∃ e, l.2 = .threw e ∧ (x.1.pc t).failure = some e := by
  obtain ⟨c, hS, hsound, hP⟩ : Holds n N Pinned x.1 :=
    pinned_of_reachable (h.of_recorded (fun _ hx => hx.1) fun _ _ hl => hl.1)
  have hsweeping : Sweeping x.1 x.2 := by
    refine h.invariant (I := fun x => Sweeping x.1 x.2) ?_ ?_
    · rintro ⟨s, g⟩ ⟨-, rfl⟩ t w hw
      cases hw
    · rintro ⟨s, g⟩ l ⟨s', g'⟩ hg ⟨-, ⟨hst, -⟩, hg'⟩
      obtain rfl : g' = _ := hg'
      exact hg.step hst
  obtain ⟨⟨-, hused⟩, ⟨htrans, -⟩, hrecord⟩ := hstep
  obtain ⟨action, out⟩ := l
  constructor
  · rintro t rfl
    rcases remaining_of_call htrans with ⟨hout, hpages⟩ | ⟨p, rest, hout, -, -⟩
    · exact Or.inr ⟨hout, hpages⟩
    · obtain rfl : out = .suspended := hout
      exact Or.inl ⟨rfl, by simp [hrecord, System.sweeps]⟩
  · rintro t w rfl hw
    obtain ⟨p, rest, hpc, hsnapshot⟩ := hsweeping t w hw
    rcases remaining_of_resume hpc htrans with ⟨hout, -⟩ | ⟨hout, -⟩ | ⟨hout, rfl⟩ | ⟨e, hout⟩
    · obtain rfl : out = .suspended := hout
      exact Or.inl ⟨rfl, by simp [hrecord, System.sweeps, hw]⟩
    · obtain rfl : out = .suspended := hout
      exact Or.inl ⟨rfl, by simp [hrecord, System.sweeps, hw]⟩
    · obtain rfl : out = .returned .unit := hout
      have hends : x.1.flushEnds t = some p := by
        simp [System.flushEnds, hpc, show x.1.step (.resume t) = some (x'.1, _) from htrans]
      exact Or.inr (Or.inl ⟨rfl, by rw [hends, hsnapshot]; rfl⟩)
    · obtain rfl : out = .threw e := hout
      refine Or.inr (Or.inr ⟨e, rfl, flushAll_fails hS hsound.owned hP hpc hused ?_⟩)
      exact Holds.fails (I := fun _ => True) ⟨c, hS, hsound, trivial⟩ (Or.inr ⟨t, rfl⟩) htrans

/-- Two dirty pages: behind the second write the call returns. -/
theorem flushAll_completes_two : ∃ s s' : System ClockReplacer (Fin 1), ∃ w : Sweep,
    System.Trans s (.resume 0, .returned .unit) s' ∧ w.snapshot = [0, 1] ∧
      w.snapshot = w.flushed ++ (s.flushEnds 0).toList := by
  have hused : ∀ {x : System ClockReplacer (Fin 1) × (Fin 1 → Option Sweep)}
      {l : Action (Fin 1) × Outcome}, (x.1.NoOverflow l ∧
        ∀ v ∈ x.1.visits l.1, (x.1.entry v.pageId).state ≠ .unused) → x.1.FlushesUsed l := by
    rintro x l ⟨hfits, hv⟩
    exact ⟨hfits, fun ⟨p, rest, hvisits, hunused⟩ => hv _ hvisits hunused⟩
  obtain ⟨x, hreach, hsnapshot, hok, hreturns⟩ := exists_of_runRecordedNew (n := 2) (N := 2)
    (A := fun x l => x.1.NoOverflow l ∧
      ∀ v ∈ x.1.visits l.1, (x.1.entry v.pageId).state ≠ .unused)
    (P := fun x : System ClockReplacer (Fin 1) × (Fin 1 → Option Sweep) =>
      (x.2 0).map (·.snapshot) = some [0, 1] ∧
      (x.1.NoOverflow (.resume 0, .returned .unit) ∧
        ∀ v ∈ x.1.visits (.resume 0), (x.1.entry v.pageId).state ≠ .unused) ∧
      (x.1.step (.resume 0)).bind (·.2.result) = some .unit)
    (show (System.runRecordedNew System.sweeps _ (fun _ => none) 2 2
      [.call (0 : Fin 1) .newPage, .call 0 .newPage, .call 0 .flushAllPages, .resume 0,
        .transfer 0, .resume 0, .resume 0, .transfer 0]).any _ = true by decide +kernel)
  obtain ⟨⟨s', out⟩, hs', hresult⟩ := Option.bind_eq_some_iff.mp hreturns
  obtain rfl := Outcome.result_eq_some hresult
  obtain ⟨w, hw, hpages⟩ := Option.map_eq_some_iff.mp hsnapshot
  have htrans : System.Trans x.1 (.resume 0, .returned .unit) s' := ⟨hs', by simp⟩
  have hstep : Under (fun x l => x.1.FlushesUsed l) (Recorded System.sweeps System.Trans) x
      (.resume 0, .returned .unit) (s', _) := ⟨hused hok, htrans, rfl⟩
  have hcompletes := flushAll_completes (hreach.mono fun _ _ _ hst => ⟨hused hst.1, hst.2⟩) hstep
  rcases hcompletes.2 0 w rfl hw with ⟨hout, -⟩ | ⟨-, hflushed⟩ | ⟨e, hout, -⟩
  · cases hout
  · exact ⟨x.1, s', w, htrans, hpages, hflushed⟩
  · cases hout

/-- A page of the snapshot is deleted before its turn, and the call throws; the page
behind it stays dirty. -/
theorem flushAll_aborts : ∃ x : System ClockReplacer (Fin 2) × Clients (Fin 2),
    Reachable (fun x => System.Initial 2 2 x.1 ∧ x.2 = {})
      (Under System.KeepsLives (Kept Clients.after)) x ∧
    (x.1.pc 0).remaining = some [0, 1] ∧ (x.1.pc 0).failure = none ∧
    ∃ s', System.Trans x.1 (.resume 0, .threw ⟨.logicError, "cannot flush an unused page"⟩) s' ∧
      (s'.manager.frameMeta 1).pageId = some 1 ∧ (s'.manager.frameMeta 1).dirty = true := by
  obtain ⟨x, hreach, hpc, hfailure, hthrew⟩ := exists_of_runKeptNew (n := 2) (N := 2)
    (P := fun x : System ClockReplacer (Fin 2) × Clients (Fin 2) =>
      (x.1.pc 0).remaining = some [0, 1] ∧ (x.1.pc 0).failure = none ∧
      ((x.1.step (.resume 0)).any fun y =>
        y.2.error = some ⟨.logicError, "cannot flush an unused page"⟩ ∧
          (y.1.manager.frameMeta 1).pageId = some 1 ∧
            (y.1.manager.frameMeta 1).dirty = true) = true)
    (show (System.runKeptNew Clients.after System.KeepsLives {} 2 2 [.call (0 : Fin 2) .newPage,
      .call 0 .newPage, .drop 0, .drop 1, .call 0 .flushAllPages, .call 1 (.deletePage 0)]).any
        _ = true by decide +kernel)
  obtain ⟨⟨s', out⟩, hs', hprop⟩ := (Option.any_eq_true _ _).mp hthrew
  obtain ⟨herror, hpage, hdirty⟩ := of_decide_eq_true hprop
  obtain rfl := Outcome.error_eq_some herror
  exact ⟨x, hreach, hpc, hfailure, s', ⟨hs', by simp⟩, hpage, hdirty⟩

end BufferManager
