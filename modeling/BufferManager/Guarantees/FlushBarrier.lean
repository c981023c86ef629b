/-
  Guarantees/FlushBarrier.lean --- what is written when a flush returns.

  A `FlushPage` that returns has written the changes of its page that were marked when
  it was called, whatever other threads did to the page meanwhile.  `FlushAllPages`
  promises that of all pages and does not keep it: its snapshot passes over the dirty
  frames that are `kEvicting`, and it does not wait for their writes.  Where none is
  being evicted when a snapshot is taken, it does.
-/
import BufferManager.Guarantees.FlushAll
import BufferManager.Protocol.Barrier

set_option autoImplicit false

namespace BufferManager

open BufferManager.Lib BufferManager.Protocol BufferManager.Refinement

/-! ## Runs with an account of the changes -/

/-- Disciplined clients, no count that overflows, and fewer than `2 ^ 64` calls of
`MarkDirty`. -/
def System.KeepsAccount {R τ : Type} [DecidableEq τ] (sweeps : Bool) (x : System R τ × Ledger τ)
    (l : Action τ × Outcome) : Prop :=
  x.1.NoOverflow l ∧ Admits (Ledger.after sweeps) Ledger.Allows x.2 (x.1.notes l.1 l.2)

instance {R τ : Type} [DecidableEq τ] [Fintype τ] (sweeps : Bool) (x : System R τ × Ledger τ)
    (l : Action τ × Outcome) : Decidable (System.KeepsAccount sweeps x l) :=
  inferInstanceAs (Decidable (x.1.NoOverflow l ∧
    Admits (Ledger.after sweeps) Ledger.Allows x.2 (x.1.notes l.1 l.2)))

/-- The same, and no snapshot that misses a dirty frame. -/
def System.CatchesAll {R τ : Type} [DecidableEq τ] (x : System R τ × Ledger τ)
    (l : Action τ × Outcome) : Prop :=
  System.KeepsAccount true x l ∧ ¬ x.1.SnapshotMisses l.1

namespace Protocol

variable {τ : Type} [Fintype τ] {n N : Nat} {complete : Prop} {c c' : Cfg τ} {g : Ledger τ}
  {e : Event τ} {sweeps : Bool}

/-- The configuration is in order and the account fits it. -/
structure Accounted (c : Cfg τ) (g : Ledger τ) : Prop where
  disciplined : Disciplined c g.clients
  counted : Counted c g
  durable : Durable c g
  barrier : Barrier c g

theorem Accounted.initial (disk : Nat → Page) : Accounted (Cfg.initial N disk : Cfg τ) {} where
  disciplined := Refinement.Disciplined.initial disk
  counted := ⟨Nat.two_pow_pos 64, fun t p f epoch caller io h => by cases h⟩
  durable := {
    kept := fun p => rfl
    told := fun t => trivial
    reserved := fun t p _ => rfl
    pending := fun slot h => absurd rfl h }
  barrier := {
    asked_le := fun t q => le_rfl
    copied := fun t p f epoch caller h => by cases h
    flushed := fun t q _ => ⟨.zero, le_rfl⟩ }

theorem Accounted.step [DecidableEq τ] (h : Step n N complete c e c')
    (hallowed : ∀ x, e.note = some x → g.Allows x) (hfits : e.Fits)
    (hcatches : sweeps = true → e.Catches) (hI : Owned n c) (hA : Accounted c g) :
    Accounted c' (e.enter (Ledger.after sweeps) g) := by
  have hX' : Disciplined c' (e.enter (Ledger.after sweeps) g).clients := by
    rw [clients_enter]
    exact hA.disciplined.step h (fun x hx => (hallowed x hx).1) hfits hI
  have hP := hA.disciplined.pinned
  exact ⟨hX', hA.counted.step h hallowed hI hP,
    .step h (hA.counted.renews h hallowed) hI hP hA.disciplined.reservations hX'.reservations
      hA.durable, .step h hI hP hA.durable hcatches hA.barrier⟩

omit [Fintype τ] in
theorem Event.catches_of_explained {h : Hazards} (hh : ¬ h.misses) (he : e.Explained h) :
    e.Catches := by
  cases e with
  | snapshot t pages evicting => exact fun hevicting => hh (he hevicting)
  | _ => trivial

end Protocol

namespace Refinement

variable {R τ : Type} [Replacer R] [LawfulReplacer R] [Fintype τ] [DecidableEq τ] {n N : Nat}
  {ok : System R τ × Ledger τ → Action τ × Outcome → Prop}

/-- The account fits every state of a run. -/
theorem accounted_of_reachable (sweeps : Bool) {x : System R τ × Ledger τ}
    (hok : ∀ x l, ok x l → System.KeepsAccount sweeps x l)
    (hcatches : sweeps = true → ∀ x l, ok x l → ¬ x.1.SnapshotMisses l.1)
    (h : Reachable (fun x => System.Initial n N x.1 ∧ x.2 = {})
      (Under ok (Kept (Ledger.after sweeps))) x) : Holds n N (Accounted · x.2) x.1 := by
  refine lift_kept (P := fun e => e.Fits ∧ (sweeps = true → e.Catches)) (A := Ledger.Allows)
    Accounted.initial ?_ ?_ h
  · exact fun c e c' g hP hallowed hst hs hA => hA.step hst hallowed hP.1 hP.2 hs.owned
  · intro x l hl
    refine ⟨fun e he => ⟨?_, fun hsweeps => ?_⟩, (hok x l hl).2⟩
    · exact Event.fits_of_explained (h := x.1.hazards l.1) (hok x l hl).1 he
    · exact Event.catches_of_explained (h := x.1.hazards l.1) (hcatches hsweeps x l hl) he

omit [LawfulReplacer R] [Fintype τ] in
/-- A thread whose call has returned is in none. -/
theorem idle_of_returned {s s' : System R τ} {t : τ} {action : Action τ} {r : Result}
    (haction : (∃ call, action = .call t call) ∨ action = .resume t)
    (hstep : s.step action = some (s', .returned r)) : s'.pc t = .idle := by
  have hsettle : ∀ {piece : Locked R τ Next}, s.settle t piece = (s', .returned r) →
      s'.pc t = .idle := by
    intro piece hpiece
    unfold System.settle at hpiece
    split at hpiece <;> cases hpiece <;> simp
  rcases haction with ⟨call, rfl⟩ | rfl
  · simp only [System.step] at hstep
    split at hstep
    · exact hsettle (Option.some.inj hstep)
    · cases hstep
  · obtain ⟨piece, -, heq⟩ := Option.map_eq_some_iff.mp hstep
    exact hsettle heq

variable {s : System R τ} {c : Cfg τ} {g : Ledger τ}

omit [DecidableEq τ] [Fintype τ] in
/-- The marked changes of a page are written, or in a dirty frame that the page table names. -/
theorem Sim.written_or_dirty (hS : Sim n N s c) (hD : Durable c g) (p : Nat) :
    g.Saves p (g.marked p) (s.disk p) ∨ ∃ f, (s.entry p).frameId = some f ∧
      (s.manager.frameMeta f).dirty = true ∧ g.Has p (s.bytes f) := by
  have hkept := hD.kept p
  rw [hS.entry_eq, ← hS.disk]
  have hframe : ∀ {f}, c.place p = .resident f ∨ c.place p = .evicting f →
      g.Saves p (g.marked p) (c.disk p) ∨ ∃ f', (c.place p).entry.frameId = some f' ∧
        (s.manager.frameMeta f').dirty = true ∧ g.Has p (s.bytes f') := by
    intro f hplace
    obtain ⟨hbytes, hclean⟩ := hkept.frame hplace
    cases hdirty : (c.frame f).meta.dirty with
    | false => exact Or.inl (hclean hdirty)
    | true =>
      refine Or.inr ⟨f, ?_, by rw [hS.rep.frameMeta, hdirty], by rw [hS.bytes_eq]; exact hbytes⟩
      rcases hplace with h | h <;> rw [h] <;> rfl
  cases hplace : c.place p with
  | unused =>
    refine Or.inl ?_
    rw [hkept.unused hplace]
    exact ⟨.zero, Nat.zero_le _⟩
  | nonResident => exact Or.inl (hkept.disk (Or.inl hplace))
  | loading f => exact Or.inl (hkept.disk (Or.inr ⟨f, hplace⟩))
  | resident f => exact hplace ▸ hframe (Or.inl hplace)
  | evicting f => exact hplace ▸ hframe (Or.inr hplace)

/-! ## What a flush is asked for -/

omit [Replacer R] [LawfulReplacer R] [Fintype τ] in
/-- An effect changes what a thread was asked to flush when a call of the thread begins
or fails, or the page is deleted. -/
theorem asked_after (sweeps : Bool) (g : Ledger τ) (y : Note τ) (t : τ) (p : Nat) :
    (g.after sweeps y).asked t p = g.asked t p ∨ ((∃ v, y = .called t v) ∨ y = .flushAll t) ∨
      y = .failed t ∨ ∃ u, y = .deleted u p := by
  have hother : ∀ {u : τ} {m : Nat → Nat}, t ≠ u →
      Function.update g.asked u m t p = g.asked t p := fun hut => by
    rw [Function.update_of_ne hut]
  cases y with
  | called u v =>
    by_cases hut : t = u
    · exact Or.inr (Or.inl (Or.inl ⟨v, by rw [hut]⟩))
    · exact Or.inl (hother hut)
  | flushAll u =>
    by_cases hut : t = u
    · exact Or.inr (Or.inl (Or.inr (by rw [hut])))
    · exact Or.inl (hother hut)
  | failed u =>
    by_cases hut : t = u
    · exact Or.inr (Or.inr (Or.inl (by rw [hut])))
    · exact Or.inl (hother hut)
  | deleted u q =>
    by_cases hpq : p = q
    · exact Or.inr (Or.inr (Or.inr ⟨u, by rw [hpq]⟩))
    · exact Or.inl (Function.update_of_ne hpq _ _)
  | _ => exact Or.inl rfl

omit [Replacer R] [LawfulReplacer R] [Fintype τ] in
theorem asked_foldl (sweeps : Bool) (g : Ledger τ) (ys : List (Note τ)) (t : τ) (p : Nat) :
    (ys.foldl (Ledger.after sweeps) g).asked t p = g.asked t p ∨
      (∃ y ∈ ys, (∃ v, y = .called t v) ∨ y = .flushAll t) ∨
      .failed t ∈ ys ∨ ∃ u, .deleted u p ∈ ys := by
  induction ys generalizing g with
  | nil => exact Or.inl rfl
  | cons y ys ih =>
    rcases ih (g.after sweeps y) with hsame | ⟨z, hz, hasks⟩ | hfailed | ⟨u, hdeleted⟩
    · rcases asked_after sweeps g y t p with hfirst | hasks | rfl | ⟨u, rfl⟩
      · exact Or.inl (hsame.trans hfirst)
      · exact Or.inr (Or.inl ⟨y, List.mem_cons_self, hasks⟩)
      · exact Or.inr (Or.inr (Or.inl List.mem_cons_self))
      · exact Or.inr (Or.inr (Or.inr ⟨u, List.mem_cons_self⟩))
    · exact Or.inr (Or.inl ⟨z, List.mem_cons_of_mem _ hz, hasks⟩)
    · exact Or.inr (Or.inr (Or.inl (List.mem_cons_of_mem _ hfailed)))
    · exact Or.inr (Or.inr (Or.inr ⟨u, List.mem_cons_of_mem _ hdeleted⟩))

omit [LawfulReplacer R] [Fintype τ] in
/-- Only a thread that is in no call begins one. -/
theorem idle_of_begun {action : Action τ} {s' : System R τ} {out : Outcome} {t : τ} {y : Note τ}
    (hstep : s.step action = some (s', out)) (hy : y ∈ s.notes action out)
    (hbegun : (∃ v, y = .called t v) ∨ y = .flushAll t) : s.pc t = .idle := by
  have hend : ∀ {u creates deletes}, y ∉ out.notes u creates deletes := by
    intro u creates deletes hy
    rcases hbegun with ⟨v, rfl⟩ | rfl <;> cases out with
    | returned r => cases r <;> simp [Outcome.notes] at hy <;> split at hy <;> simp at hy
    | _ => simp [Outcome.notes] at hy
  cases action with
  | call u call =>
    have hidle : s.pc u = .idle := by
      simp only [System.step] at hstep
      split at hstep
      · assumption
      · cases hstep
    rcases List.mem_append.mp hy with hcall | hy
    · obtain rfl : t = u := by
        rcases hbegun with ⟨v, rfl⟩ | rfl <;> cases call <;> simp [Call.notes] at hcall
        all_goals first | exact hcall.1 | exact hcall
      exact hidle
    · exact absurd hy hend
  | resume u =>
    rcases List.mem_append.mp hy with hwrote | hy
    · rcases hbegun with ⟨v, rfl⟩ | rfl <;> simp [Pc.notes] at hwrote
    · exact absurd hy hend
  | moveAssign slot source =>
    rcases hbegun with ⟨v, rfl⟩ | rfl <;> cases out <;> simp [System.notes] at hy
  | _ => rcases hbegun with ⟨v, rfl⟩ | rfl <;> cases out <;> simp [System.notes] at hy

omit [Replacer R] [LawfulReplacer R] [Fintype τ] in
/-- A `FlushPage` that begins is asked for what is marked. -/
theorem asked_of_flushPage {sweeps : Bool} (s : System R τ) (g : Ledger τ) (t : τ) (p : Nat)
    {out : Outcome} (hout : out.error = none) :
    ((s.notes (.call t (.flushPage p)) out).foldl (Ledger.after sweeps) g).asked t p =
      g.marked p := by
  have hcalled : (g.after sweeps (.called t (.flushPage p .flushPage))).asked t p = g.marked p := by
    change Function.update g.asked t (Function.update (fun _ => 0) p (g.marked p)) t p = _
    rw [Function.update_self, Function.update_self]
  cases out with
  | threw e => cases hout
  | returned r => cases r <;> exact hcalled
  | _ => exact hcalled

end Refinement

variable {R τ : Type} [Replacer R] [LawfulReplacer R] [Fintype τ] [DecidableEq τ] {n N : Nat}

/-! ## FlushPage -/

/-- The client's `FlushPage` that a thread is in as it takes `mutex_`, and its page. -/
def System.flushing {R τ : Type} (s : System R τ) : Action τ → Option (τ × Nat)
  | .call t (.flushPage p) => some (t, p)
  | .resume t =>
      match s.pc t with
      | .waitPage (.flushPage p .flushPage) | .writing p _ _ .flushPage _ => some (t, p)
      | _ => none
  | _ => none

omit [Replacer R] [LawfulReplacer R] [Fintype τ] [DecidableEq τ] in
theorem System.calls_of_flushing {s : System R τ} {action : Action τ} {t : τ} {p : Nat}
    (h : s.flushing action = some (t, p)) :
    (∃ call, action = .call t call) ∨ action = .resume t := by
  cases action with
  | call u call =>
    cases call with
    | flushPage q =>
      obtain ⟨rfl, -⟩ := Prod.mk.inj (Option.some.inj h)
      exact Or.inl ⟨_, rfl⟩
    | _ => cases h
  | resume u =>
    simp only [System.flushing] at h
    split at h
    · obtain ⟨rfl, -⟩ := Prod.mk.inj (Option.some.inj h)
      exact Or.inr rfl
    · obtain ⟨rfl, -⟩ := Prod.mk.inj (Option.some.inj h)
      exact Or.inr rfl
    · cases h
  | _ => cases h

/-- A `FlushPage` is asked for what is marked of its page when it is called, and goes on
to be asked for that until it throws or the page is deleted.  When it returns, that has
been written, and what has been marked since has been written or is in a dirty frame. -/
theorem flushPage_barrier {x x' : System R τ × Ledger τ} {l : Action τ × Outcome}
    (h : Reachable (fun x => System.Initial n N x.1 ∧ x.2 = {})
      (Under (System.KeepsAccount false) (Kept (Ledger.after false))) x)
    (hstep : Under (System.KeepsAccount false) (Kept (Ledger.after false)) x l x') :
    (∀ t p, l.1 = .call t (.flushPage p) → l.2.error = none → x'.2.asked t p = x.2.marked p) ∧
    (∀ t p, x.1.pc t ≠ .idle → x'.2.asked t p = x.2.asked t p ∨
      .failed t ∈ x.1.notes l.1 l.2 ∨ ∃ u, .deleted u p ∈ x.1.notes l.1 l.2) ∧
    ∀ t p, x.1.flushing l.1 = some (t, p) → l.2 = .returned .unit →
      x'.2.Saves p (x'.2.asked t p) (x'.1.disk p) ∧
      (x'.2.Saves p (x'.2.marked p) (x'.1.disk p) ∨ ∃ f, (x'.1.entry p).frameId = some f ∧
        (x'.1.manager.frameMeta f).dirty = true ∧ x'.2.Has p (x'.1.bytes f)) := by
  obtain ⟨c, hS, hsound, hA⟩ :=
    accounted_of_reachable false (fun _ _ hl => hl) (fun hs => by cases hs)
    (h.step hstep)
  obtain ⟨-, ⟨htrans, -⟩, hrecord⟩ := hstep
  obtain ⟨action, out⟩ := l
  refine ⟨?_, ?_, ?_⟩
  · rintro t p rfl hout
    rw [hrecord]
    exact asked_of_flushPage x.1 x.2 t p hout
  · intro t p hbusy
    rw [hrecord]
    rcases asked_foldl false x.2 (x.1.notes action out) t p with hsame | ⟨y, hy, hbegun⟩ | hrest
    · exact Or.inl hsame
    · exact absurd (idle_of_begun htrans hy hbegun) hbusy
    · exact Or.inr hrest
  · rintro t p hflushing rfl
    have hidle := idle_of_returned (System.calls_of_flushing hflushing) htrans
    refine ⟨?_, hS.written_or_dirty hA.durable p⟩
    rw [← hS.disk]
    refine hA.barrier.flushed t p ?_
    rw [hS.phase, hidle]
    exact id

/-- A page of ones. -/
def Page.ones : Page := ⟨fun _ => 1⟩

/-- One page, changed and marked once after its zeros: the second change is written when
its flush returns. -/
theorem flushPage_barrier_marked : ∃ x : System ClockReplacer (Fin 1) × Ledger (Fin 1),
    x.2.asked 0 0 = 2 ∧ x.2.Saves 0 2 (x.1.disk 0) := by
  obtain ⟨x, hreach, hflushing, hasked, hallowed, hreturns⟩ := exists_of_runKeptNew
    (n := 1) (N := 1) (A := System.KeepsAccount false)
    (P := fun x : System ClockReplacer (Fin 1) × Ledger (Fin 1) =>
      x.1.flushing (.resume 0) = some (0, 0) ∧
      ((x.1.notes (.resume 0) (.returned .unit)).foldl (Ledger.after false) x.2).asked 0 0 = 2 ∧
      System.KeepsAccount false x (.resume 0, .returned .unit) ∧
      (x.1.step (.resume 0)).bind (·.2.result) = some .unit)
    (show (System.runKeptNew (Ledger.after false) _ {} 1 1 [.call (0 : Fin 1) .newPage,
      .write 0 Page.ones, .markDirty 0, .call 0 (.flushPage 0), .transfer 0]).any _ = true by
      decide +kernel)
  obtain ⟨⟨s', out⟩, hs', hresult⟩ := Option.bind_eq_some_iff.mp hreturns
  obtain rfl := Outcome.result_eq_some hresult
  have hstep : Under (System.KeepsAccount false) (Kept (Ledger.after false)) x
      (.resume 0, .returned .unit) (s', _) := ⟨hallowed, ⟨hs', by simp⟩, rfl⟩
  refine ⟨(s', _), hasked, ?_⟩
  have hsaves := ((flushPage_barrier hreach hstep).2.2 0 0 hflushing rfl).1
  rwa [hasked] at hsaves

/-! ## FlushAllPages -/

/-- The thread is in a `FlushAllPages` as it takes `mutex_`. -/
def System.Sweeps {R τ : Type} (s : System R τ) (action : Action τ) (t : τ) : Prop :=
  action = .call t .flushAllPages ∨ action = .resume t ∧ (s.pc t).remaining ≠ none

omit [Replacer R] [LawfulReplacer R] [Fintype τ] in
/-- A `FlushAllPages` that begins is asked for what is marked of all pages. -/
theorem Refinement.asked_of_flushAllPages (s : System R τ) (g : Ledger τ) (t : τ) (p : Nat)
    {out : Outcome} (hout : out.error = none) :
    ((s.notes (.call t .flushAllPages) out).foldl (Ledger.after true) g).asked t p =
      g.marked p := by
  have hflush : (g.after true (.flushAll t)).asked t p = g.marked p := by
    change Function.update g.asked t g.marked t p = _
    rw [Function.update_self]
  cases out with
  | threw e => cases hout
  | returned r => cases r <;> exact hflush
  | _ => exact hflush

/-- A `FlushAllPages` is asked for what is marked of all pages when it is called, and goes
on to be asked for that until it throws or a page is deleted.  As long as no snapshot is
taken while a dirty frame is `kEvicting`, that has been written when it returns. -/
theorem flushAllPages_barrier {x x' : System R τ × Ledger τ} {l : Action τ × Outcome}
    (h : Reachable (fun x => System.Initial n N x.1 ∧ x.2 = {})
      (Under System.CatchesAll (Kept (Ledger.after true))) x)
    (hstep : Under System.CatchesAll (Kept (Ledger.after true)) x l x') :
    (∀ t p, l.1 = .call t .flushAllPages → l.2.error = none → x'.2.asked t p = x.2.marked p) ∧
    (∀ t p, x.1.pc t ≠ .idle → x'.2.asked t p = x.2.asked t p ∨
      .failed t ∈ x.1.notes l.1 l.2 ∨ ∃ u, .deleted u p ∈ x.1.notes l.1 l.2) ∧
    ∀ t, x.1.Sweeps l.1 t → l.2 = .returned .unit →
      ∀ p, x'.2.Saves p (x'.2.asked t p) (x'.1.disk p) := by
  obtain ⟨c, hS, hsound, hA⟩ := accounted_of_reachable true (fun _ _ hl => hl.1)
    (fun _ _ _ hl => hl.2) (h.step hstep)
  obtain ⟨-, ⟨htrans, -⟩, hrecord⟩ := hstep
  obtain ⟨action, out⟩ := l
  refine ⟨?_, ?_, ?_⟩
  · rintro t p rfl hout
    rw [hrecord]
    exact asked_of_flushAllPages x.1 x.2 t p hout
  · intro t p hbusy
    rw [hrecord]
    rcases asked_foldl true x.2 (x.1.notes action out) t p with hsame | ⟨y, hy, hbegun⟩ | hrest
    · exact Or.inl hsame
    · exact absurd (idle_of_begun htrans hy hbegun) hbusy
    · exact Or.inr hrest
  · rintro t hsweeps rfl p
    have hidle := idle_of_returned (hsweeps.imp (fun h => ⟨_, h⟩) And.left) htrans
    rw [← hS.disk]
    refine hA.barrier.flushed t p ?_
    rw [hS.phase, hidle]
    exact id

/-- One page that is dirty and not being evicted. -/
theorem flushAllPages_barrier_marked : ∃ x : System ClockReplacer (Fin 1) × Ledger (Fin 1),
    x.2.asked 0 0 = 2 ∧ x.2.Saves 0 2 (x.1.disk 0) := by
  have hcatches : ∀ {y : System ClockReplacer (Fin 1) × Ledger (Fin 1)} {l},
      System.KeepsAccount true y l ∧ (∀ f, f < y.1.manager.frameCount →
        (y.1.manager.frameMeta f).state ≠ .evicting) → System.CatchesAll y l :=
    fun h => ⟨h.1, fun ⟨t, f, _, hf, hevicting, _⟩ => h.2 f hf hevicting⟩
  obtain ⟨x, hreach, hsweeps, hasked, hallowed, hreturns⟩ := exists_of_runKeptNew
    (n := 1) (N := 1) (A := fun x l => System.KeepsAccount true x l ∧
      ∀ f, f < x.1.manager.frameCount → (x.1.manager.frameMeta f).state ≠ .evicting)
    (P := fun x : System ClockReplacer (Fin 1) × Ledger (Fin 1) =>
      (x.1.pc 0).remaining ≠ none ∧
      ((x.1.notes (.resume 0) (.returned .unit)).foldl (Ledger.after true) x.2).asked 0 0 = 2 ∧
      (System.KeepsAccount true x (.resume 0, .returned .unit) ∧
        ∀ f, f < x.1.manager.frameCount → (x.1.manager.frameMeta f).state ≠ .evicting) ∧
      (x.1.step (.resume 0)).bind (·.2.result) = some .unit)
    (show (System.runKeptNew (Ledger.after true) _ {} 1 1 [.call (0 : Fin 1) .newPage,
      .write 0 Page.ones, .markDirty 0, .call 0 .flushAllPages, .resume 0, .transfer 0]).any _ =
        true by decide +kernel)
  obtain ⟨⟨s', out⟩, hs', hresult⟩ := Option.bind_eq_some_iff.mp hreturns
  obtain rfl := Outcome.result_eq_some hresult
  have hstep : Under System.CatchesAll (Kept (Ledger.after true)) x
      (.resume 0, .returned .unit) (s', _) := ⟨hcatches hallowed, ⟨hs', by simp⟩, rfl⟩
  refine ⟨(s', _), hasked, ?_⟩
  have hreach' : Reachable (fun x => System.Initial 1 1 x.1 ∧ x.2 = {})
      (Under System.CatchesAll (Kept (Ledger.after true))) x :=
    hreach.mono fun _ _ _ hst => ⟨hcatches hst.1, hst.2⟩
  have hsaves := (flushAllPages_barrier hreach' hstep).2.2 0 (Or.inr ⟨rfl, hsweeps⟩) rfl 0
  rwa [hasked] at hsaves

/-- A marked page is being evicted when `FlushAllPages` takes its snapshot, which is
empty: the call returns at once, and no `WritePage` of the page has completed or moved
any bytes. -/
theorem flushAllPages_misses : ∃ x x' : System ClockReplacer (Fin 2) × Ledger (Fin 2),
    Reachable (fun x => System.Initial 1 2 x.1 ∧ x.2 = {})
      (Under (System.KeepsAccount true) (Kept (Ledger.after true))) x ∧
    Under (System.KeepsAccount true) (Kept (Ledger.after true)) x
      (.call 0 .flushAllPages, .returned .unit) x' ∧
    x'.2.asked 0 0 = 2 ∧ x'.2.completed 0 = 0 ∧
      ¬ Includes (x'.2.history 0) 2 (x'.1.disk 0) := by
  let first : Fin kPageSize := ⟨0, by decide⟩
  obtain ⟨x, hreach, hallowed, hasked, hcompleted, hreturns⟩ := exists_of_runKeptNew
    (n := 1) (N := 2) (A := System.KeepsAccount true)
    (P := fun x : System ClockReplacer (Fin 2) × Ledger (Fin 2) =>
      System.KeepsAccount true x (.call 0 .flushAllPages, .returned .unit) ∧
      ((x.1.notes (.call 0 .flushAllPages) (.returned .unit)).foldl (Ledger.after true)
        x.2).asked 0 0 = 2 ∧
      ((x.1.notes (.call 0 .flushAllPages) (.returned .unit)).foldl (Ledger.after true)
        x.2).completed 0 = 0 ∧
      ((x.1.step (.call 0 .flushAllPages)).any fun y => y.2.result = some .unit ∧
        (((x.1.notes (.call 0 .flushAllPages) (.returned .unit)).foldl (Ledger.after true)
          x.2).history 0).map (·.data first) = [0, 1] ∧ (y.1.disk 0).data first = 0) = true)
    (show (System.runKeptNew (Ledger.after true) _ {} 1 2 [.call (0 : Fin 2) .newPage,
      .write 0 Page.ones, .markDirty 0, .drop 0, .call 1 .newPage]).any _ = true by
      decide +kernel)
  obtain ⟨⟨s', out⟩, hs', hprop⟩ := (Option.any_eq_true _ _).mp hreturns
  obtain ⟨hresult, hhistory, hdisk⟩ := of_decide_eq_true hprop
  obtain rfl := Outcome.result_eq_some hresult
  refine ⟨x, (s', (x.1.notes (.call 0 .flushAllPages) (.returned .unit)).foldl
    (Ledger.after true) x.2), hreach, ⟨hallowed, ⟨hs', by simp⟩, rfl⟩, hasked, hcompleted, ?_⟩
  intro hincludes
  have hbyte := hincludes.byte two_ne_zero first
  rw [hhistory, hdisk] at hbyte
  simp at hbyte

end BufferManager
