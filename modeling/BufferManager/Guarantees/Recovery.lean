/-
  Guarantees/Recovery.lean --- what is on the medium after a crash.

  A `Sync` that returns has put on the medium what the `WritePage` calls that had
  completed when it was called had found marked of their pages.  It stays there: later
  writes, whole or torn, copied to the medium in whatever order and to whatever extent,
  and loads and new lives of the page only put later changes over it.
-/
import BufferManager.Guarantees.FlushBarrier
import BufferManager.Manager.Machine
import BufferManager.Protocol.Copies

set_option autoImplicit false

namespace BufferManager

open BufferManager.Lib BufferManager.Protocol BufferManager.Refinement

/-! ## Runs with a journal -/

/-- What is known of the changes and of the medium. -/
structure Journal (τ : Type) where
  ledger : Ledger τ := {}
  /-- What `WritePage` calls had completed when thread `t`'s last `Sync` was called. -/
  noted : τ → Nat → Nat := fun _ _ => 0
  /-- The most of that for a `Sync` that has returned. -/
  synced : Nat → Nat := fun _ => 0

namespace Machine

variable {R τ : Type} [DecidableEq τ]

/-- The journal after a step. -/
def journal (g : Journal τ) (m : Machine R τ) (l : Action τ × Outcome) : Journal τ :=
  match l.1 with
  | .act action =>
      { g with ledger := (m.system.notes action l.2).foldl (Ledger.after false) g.ledger }
  | .sync t => { g with noted := Function.update g.noted t g.ledger.completed }
  | .syncEnds t none => { g with synced := fun p => max (g.synced p) (g.noted t p) }
  | .lockFile _ | .syncEnds _ (some _) | .writeBack _ => g

/-- Disciplined clients, no count that overflows, and fewer than `2 ^ 64` calls of
`MarkDirty`. -/
def KeepsAccount (x : Machine R τ × Journal τ) (l : Action τ × Outcome) : Prop :=
  match l.1 with
  | .act action => System.KeepsAccount false (x.1.system, x.2.ledger) (action, l.2)
  | _ => True

end Machine

/-- What a byte has to be at a level of the changes of its page. -/
def Demand (history : Nat → List Page) (level : Nat → Nat) (a : Nat × Fin kPageSize)
    (b : UInt8) : Prop :=
  level a.1 = 0 ∨ ∃ y ∈ (history a.1).drop (level a.1 - 1), b = y.data a.2

namespace Refinement

variable {history history' : Nat → List Page} {level : Nat → Nat} {pages : Nat → Page}

/-- Bytes that meet the demand are pages that include the changes. -/
theorem meets_iff : WriteBack.Meets (Demand history level) (fun a => (pages a.1).data a.2) ↔
    ∀ p, Includes (history p) (level p) (pages p) := by
  constructor
  · intro h p
    by_cases hzero : level p = 0
    · exact Or.inl hzero
    · exact Or.inr fun j => (h (p, j)).resolve_left hzero
  · rintro h ⟨p, j⟩
    rcases h p with hzero | hbytes
    · exact Or.inl hzero
    · exact Or.inr (hbytes j)

/-- What has been met is, whatever changes follow. -/
theorem Demand.append (hlater : ∀ p, ∃ later, history' p = history p ++ later)
    (a : Nat × Fin kPageSize) (b : UInt8) (h : Demand history level a b) :
    Demand history' level a b := by
  refine h.imp_right ?_
  rintro ⟨y, hy, hb⟩
  obtain ⟨later, hlater⟩ := hlater a.1
  refine ⟨y, ?_, hb⟩
  rw [hlater, List.drop_append]
  exact List.mem_append_left _ hy

section

variable {τ : Type} [DecidableEq τ]

/-- The history of a page only grows, and more and more is written. -/
theorem history_foldl (sweeps : Bool) (g : Ledger τ) (ys : List (Note τ)) (p : Nat) :
    (∃ later, (ys.foldl (Ledger.after sweeps) g).history p = g.history p ++ later) ∧
      g.completed p ≤ (ys.foldl (Ledger.after sweeps) g).completed p := by
  have hchange : ∀ (h : Nat → List Page) (q : Nat) (page : Page),
      ∃ later, Function.update h q (h q ++ [page]) p = h p ++ later := by
    intro h q page
    by_cases hpq : p = q
    · subst hpq
      exact ⟨[page], Function.update_self _ _ _⟩
    · exact ⟨[], by rw [Function.update_of_ne hpq, List.append_nil]⟩
  induction ys generalizing g with
  | nil => exact ⟨⟨[], (List.append_nil _).symm⟩, le_rfl⟩
  | cons y ys ih =>
    obtain ⟨⟨later, hlater⟩, hle⟩ := ih (g.after sweeps y)
    have hone : (∃ later, (g.after sweeps y).history p = g.history p ++ later) ∧
        g.completed p ≤ (g.after sweeps y).completed p := by
      cases y with
      | created t q | changed slot q page => exact ⟨hchange _ _ _, le_rfl⟩
      | wrote t q =>
        refine ⟨⟨[], (List.append_nil _).symm⟩, ?_⟩
        change _ ≤ Function.update g.completed q (max (g.completed q) (g.copied t)) p
        by_cases hpq : p = q
        · rw [hpq, Function.update_self]
          exact Nat.le_max_left _ _
        · rw [Function.update_of_ne hpq]
      | _ => exact ⟨⟨[], (List.append_nil _).symm⟩, le_rfl⟩
    obtain ⟨⟨first, hfirst⟩, hfirstLe⟩ := hone
    exact ⟨⟨first ++ later, by rw [List.foldl_cons, hlater, hfirst, List.append_assoc]⟩,
      hfirstLe.trans hle⟩

end

/-! ## The medium -/

variable {R τ : Type} [Replacer R] [LawfulReplacer R] [Fintype τ] [DecidableEq τ] {n N : Nat}

/-- The medium has what is synced, and what a running `fdatasync` has copied is what its
thread has noted. -/
structure Recoverable (n N : Nat) (x : Machine R τ × Journal τ) : Prop where
  holds : Holds n N (fun c => Accounted c x.2.ledger ∧ Lasting c x.2.ledger) x.1.system
  noted_le : ∀ t p, x.2.noted t p ≤ x.2.ledger.completed p
  synced_le : ∀ p, x.2.synced p ≤ x.2.ledger.completed p
  medium : WriteBack.Meets (Demand x.2.ledger.history x.2.synced) x.1.file.medium
  arriving : ∀ t, x.1.fileMutex = some t →
    WriteBack.Arriving (Demand x.2.ledger.history (x.2.noted t)) x.1.file

variable {m m' : Machine R τ} {g : Journal τ}

omit [DecidableEq τ] in
/-- What has been completed is in the file as the manager sees it. -/
theorem disk_meets (h : Holds n N (fun c => Accounted c g.ledger ∧ Lasting c g.ledger) m.system)
    (hle : ∀ p, level p ≤ g.ledger.completed p) :
    WriteBack.Meets (Demand g.ledger.history level) m.file.cache := by
  obtain ⟨c, hS, -, -, hL⟩ := h
  refine meets_iff.mpr fun p => ?_
  rw [← hS.disk]
  exact ((hL.completed p).mono (hle p)) _ .disk

theorem holds_act {action : BufferManager.Action τ} {out : Outcome} {s s' : System R τ}
    {g : Ledger τ} (hok : System.KeepsAccount false (s, g) (action, out))
    (hstep : System.Trans s (action, out) s')
    (h : Holds n N (fun c => Accounted c g ∧ Lasting c g) s) :
    Holds n N (fun c => Accounted c ((s.notes action out).foldl (Ledger.after false) g) ∧
      Lasting c ((s.notes action out).foldl (Ledger.after false) g)) s' := by
  refine Holds.step_kept (J := fun c g => Accounted c g ∧ Lasting c g) (P := Event.Fits)
    (A := Ledger.Allows) ?_ ?_ hok.2 h hstep
  · rintro c e c' g hfits hallowed hst hs ⟨hA, hL⟩
    have hD := hA.disciplined
    exact ⟨hA.step hst hallowed hfits (fun h => by cases h) hs.owned,
      hL.step hst hs.owned hD.pinned hD.reservations hA.durable⟩
  · exact fun e he => Event.fits_of_explained (h := s.hazards action) hok.1 he

theorem Recoverable.step {l : Machine.Action τ × Outcome} (hok : Machine.KeepsAccount (m, g) l)
    (hstep : Machine.Trans m l m') (h : Recoverable n N (m, g)) :
    Recoverable n N (m', Machine.journal g m l) := by
  obtain ⟨action, out⟩ := l
  cases Machine.step_cases hstep.1 with
  | act action s' _ hadmits hact =>
    have hholds := holds_act hok ⟨hact, hstep.2⟩ h.holds
    have hgrows := history_foldl false g.ledger (m.system.notes action out)
    have hle : ∀ p, g.ledger.completed p ≤
        ((m.system.notes action out).foldl (Ledger.after false) g.ledger).completed p :=
      fun p => (hgrows p).2
    refine ⟨hholds, fun t p => (h.noted_le t p).trans (hle p),
      fun p => (h.synced_le p).trans (hle p), ?_, fun t ht => ?_⟩
    · exact h.medium.mono (Demand.append fun p => (hgrows p).1)
    · exact (h.arriving t ht).store (Demand.append fun p => (hgrows p).1)
        (disk_meets (m := { m with system := s' })
          (g := Machine.journal g m (.act action, out)) hholds
          fun p => (h.noted_le t p).trans (hle p))
  | sync t hidle hout =>
    have hnoted : ∀ u, u ≠ t → Function.update g.noted t g.ledger.completed u = g.noted u :=
      fun u hut => Function.update_of_ne hut _ _
    refine ⟨h.holds, fun u p => ?_, h.synced_le, h.medium, fun u hu => ?_⟩
    · change Function.update g.noted t g.ledger.completed u p ≤ _
      by_cases hut : u = t
      · rw [hut, Function.update_self]
        exact le_rfl
      · rw [hnoted u hut]
        exact h.noted_le u p
    · change WriteBack.Arriving (Demand _ (Function.update g.noted t g.ledger.completed u)) _
      rw [hnoted u fun hut => hout (Or.inr (hut ▸ hu))]
      exact h.arriving u hu
  | lockFile t hwaits hfree =>
    refine ⟨h.holds, h.noted_le, h.synced_le, h.medium, fun u hu => ?_⟩
    obtain rfl := Option.some.inj hu
    exact .begin (disk_meets h.holds (h.noted_le t))
  | synced t hmutex =>
    have hkept : ∀ p, Includes (g.ledger.history p) (g.synced p) (m.writeRest.medium p) :=
      meets_iff.mp (h.medium.copy (disk_meets h.holds h.synced_le) _)
    have hnew : ∀ p, Includes (g.ledger.history p) (g.noted t p) (m.writeRest.medium p) :=
      meets_iff.mp (h.arriving t hmutex).finish
    refine ⟨h.holds, h.noted_le, fun p => Nat.max_le.mpr ⟨h.synced_le p, h.noted_le t p⟩, ?_,
      fun u hu => by cases hu⟩
    exact meets_iff.mpr fun p => (hkept p).of_max (hnew p)
  | syncFailed t reason hmutex =>
    exact ⟨h.holds, h.noted_le, h.synced_le, h.medium, fun u hu => by cases hu⟩
  | writeBack bytes =>
    refine ⟨h.holds, h.noted_le, h.synced_le, ?_, fun u hu => ?_⟩
    · exact h.medium.copy (disk_meets h.holds h.synced_le) fun a => bytes a.1 a.2
    · exact (h.arriving u hu).copy fun a => bytes a.1 a.2

omit [DecidableEq τ] in
theorem Recoverable.initial (h : Machine.Initial n N m) : Recoverable n N (m, {}) := by
  obtain ⟨hs, -, hmutex⟩ := h
  obtain ⟨disk, hS⟩ := Sim.initial hs
  refine ⟨⟨_, hS, Sound.initial disk, .initial disk, ?_⟩, fun _ _ => le_rfl, fun _ => le_rfl,
    fun _ => Or.inl rfl, fun t ht => ?_⟩
  · exact ⟨fun p x _ => .zero, fun t pc p hph hwrote => by
      obtain rfl := Phase.suspended.inj hph
      cases hwrote⟩
  · rw [hmutex] at ht
    cases ht

/-- A run with a history that has been computed, with a fact about where it leads. -/
theorem exists_of_runRecordedNew_machine {τ γ : Type} [DecidableEq τ] {g₀ : γ}
    {next : γ → Machine ClockReplacer τ → Machine.Action τ × Outcome → γ}
    {A : Machine ClockReplacer τ × γ → Machine.Action τ × Outcome → Prop}
    [∀ x l, Decidable (A x l)] {l : List (Machine.Action τ)}
    {P : Machine ClockReplacer τ × γ → Prop} [DecidablePred P]
    (h : (Machine.runRecordedNew next A g₀ n N l).any (fun x => decide (P x)) = true) :
    ∃ x, Reachable (fun x => Machine.Initial n N x.1 ∧ x.2 = g₀)
      (Under A (Recorded next Machine.Trans)) x ∧ P x := by
  obtain ⟨x, hx, hP⟩ := (Option.any_eq_true _ _).mp h
  refine ⟨x, ?_, of_decide_eq_true hP⟩
  unfold Machine.runRecordedNew at hx
  split at hx
  · next s hs =>
    refine (reachable_of_execute (.init ⟨⟨initial_makeWithClock hs, rfl, rfl⟩, rfl⟩) hx).mono ?_
    exact fun _ _ _ hst => ⟨hst.1.1, ⟨hst.2.1, Outcome.ne_terminated hst.1.2⟩, hst.2.2⟩
  · cases hx

end Refinement

variable {R τ : Type} [Replacer R] [LawfulReplacer R] [Fintype τ] [DecidableEq τ] {n N : Nat}

/-- A `Sync` puts what has been written before it where no crash destroys it: the medium
includes, of each page, the changes that a `WritePage` had found marked which had completed
when a `Sync` was called that has returned.  A `FlushPage` that returns has completed what
it was asked for. -/
theorem synced_changes_survive {x x' : Machine R τ × Journal τ} {l : Machine.Action τ × Outcome}
    (h : Reachable (fun x => Machine.Initial n N x.1 ∧ x.2 = {})
      (Under Machine.KeepsAccount (Recorded Machine.journal Machine.Trans)) x)
    (hstep : Under Machine.KeepsAccount (Recorded Machine.journal Machine.Trans) x l x') :
    (∀ p, Includes (x'.2.ledger.history p) (x'.2.synced p) (x'.1.medium p)) ∧
    ∀ action t p, l = (.act action, .returned .unit) →
      x.1.system.flushing action = some (t, p) →
      x'.2.ledger.asked t p ≤ x'.2.ledger.completed p := by
  have hrecoverable : ∀ {y : Machine R τ × Journal τ}, Reachable
      (fun x => Machine.Initial n N x.1 ∧ x.2 = {})
      (Under Machine.KeepsAccount (Recorded Machine.journal Machine.Trans)) y →
      Recoverable n N y := by
    intro y hy
    refine hy.invariant ?_ ?_
    · rintro ⟨m, g⟩ ⟨hm, rfl⟩
      exact .initial hm
    · rintro ⟨m, g⟩ l ⟨m', g'⟩ hrec ⟨hok, hst, hg⟩
      obtain rfl : g' = _ := hg
      exact hrec.step hok hst
  obtain ⟨m, g⟩ := x
  obtain ⟨m', g'⟩ := x'
  have hrec := hrecoverable (h.step hstep)
  refine ⟨meets_iff.mp hrec.medium, ?_⟩
  rintro action t p rfl hflushing
  obtain ⟨c, hS, -, hA, -⟩ := hrec.holds
  obtain ⟨-, ⟨htrans, -⟩, -⟩ := hstep
  cases Machine.step_cases htrans with
  | act _ s' _ hadmits hact =>
    have hidle : s'.pc t = .idle := idle_of_returned (System.calls_of_flushing hflushing) hact
    refine (hA.barrier.flushed t p ?_).completed
    rw [hS.phase, hidle]
    exact id

instance {R τ : Type} [DecidableEq τ] [Fintype τ] (x : Machine R τ × Journal τ) :
    ∀ l, Decidable (Machine.KeepsAccount x l)
  | (.act action, out) =>
      inferInstanceAs (Decidable (System.KeepsAccount false (x.1.system, x.2.ledger) (action, out)))
  | (.sync _, _) | (.lockFile _, _) | (.syncEnds _ _, _) | (.writeBack _, _) => .isTrue trivial

/-- One page, changed, marked and flushed: when the `Sync` has returned, its medium has the
second change. -/
theorem synced_changes_survive_flushed : ∃ x : Machine ClockReplacer (Fin 1) × Journal (Fin 1),
    x.2.synced 0 = 2 ∧ Includes (x.2.ledger.history 0) 2 (x.1.medium 0) := by
  obtain ⟨⟨m, g⟩, hreach, hmutex, hsynced, hnoted⟩ := exists_of_runRecordedNew_machine
    (n := 1) (N := 1) (A := Machine.KeepsAccount)
    (P := fun x : Machine ClockReplacer (Fin 1) × Journal (Fin 1) =>
      x.1.fileMutex = some 0 ∧ x.2.synced 0 = 0 ∧ x.2.noted 0 0 = 2)
    (show (Machine.runRecordedNew Machine.journal _ {} 1 1 [.act (.call (0 : Fin 1) .newPage),
      .act (.write 0 Page.ones), .act (.markDirty 0), .act (.call 0 (.flushPage 0)),
      .act (.transfer 0), .act (.resume 0), .sync 0, .lockFile 0]).any _ = true by decide +kernel)
  have hends : Under Machine.KeepsAccount (Recorded Machine.journal Machine.Trans) (m, g)
      (.syncEnds 0 none, .returned .unit) ({ m.writeRest with fileMutex := none },
        Machine.journal g m (.syncEnds 0 none, .returned .unit)) :=
    ⟨trivial, ⟨if_pos hmutex, by simp⟩, rfl⟩
  have hsyncs : (Machine.journal g m (.syncEnds 0 none, .returned .unit)).synced 0 = 2 := by
    change max (g.synced 0) (g.noted 0 0) = 2
    rw [hsynced, hnoted]
    rfl
  refine ⟨({ m.writeRest with fileMutex := none },
    Machine.journal g m (.syncEnds 0 none, .returned .unit)), hsyncs, ?_⟩
  have hsurvives := (synced_changes_survive hreach hends).1 0
  rwa [hsyncs] at hsurvives

end BufferManager
