/-
  Guarantees/OldContents.lean --- what the file held before is never seen.

  A manager is constructed over a file that may hold pages already, and it knows none of
  them: an id comes from `NewPage`, whose zeros are dirty.  So with clients that keep to the
  lives of the ids and mark what they change, two managers over files with other bytes answer
  alike, the bytes that clients read among the answers.
-/
import BufferManager.Guarantees.PageContents
import BufferManager.Guarantees.Transfers
import BufferManager.Guarantees.Updates

set_option autoImplicit false

namespace BufferManager

open BufferManager.Lib BufferManager.Protocol BufferManager.Refinement

/-- The actions are the same, but for what a `ReadPage` that fails leaves in its frame. -/
inductive Action.Leaves {τ : Type} : Action τ → Action τ → Prop where
  | same (action : Action τ) : Leaves action action
  | failRead (t : τ) (left left' : Page) (e : Error) :
      Leaves (.failRead t left e) (.failRead t left' e)

theorem Action.Leaves.alike {τ : Type} {action action' : Action τ} (h : action.Leaves action') :
    action.Alike action' := by
  cases h with
  | same => exact .same action
  | failRead t left left' e => exact .failRead t left left' e

variable {R τ : Type} {s s' : System R τ}

namespace System

/-- What is noted does not depend on bytes. -/
theorem Alike.notes (h : Alike s s') {action action' : Action τ} (hleaves : action.Leaves action')
    (out : Outcome) : s.notes action out = s'.notes action' out := by
  cases hleaves with
  | failRead => rfl
  | same => cases action <;> simp only [System.notes, h.pc, h.guards]

/-- Nor does it whether a `FlushPage` is about to overflow a count. -/
theorem Alike.overflows (h : Alike s s') {action action' : Action τ}
    (hleaves : action.Leaves action') : s.FlushOverflows action ↔ s'.FlushOverflows action' := by
  cases hleaves with
  | same => exact AgreeOff.flushOverflows h action
  | failRead t left left' e =>
    refine iff_of_false ?_ ?_ <;> rintro ⟨p, caller, f, hvisits, -⟩ <;> cases hvisits

/-- Another file under a manager that has just been constructed. -/
theorem Initial.withDisk [Replacer R] [LawfulReplacer R] {n N : Nat} (h : Initial n N s)
    (disk : Nat → Page) : Initial n N { s with disk } := by
  obtain ⟨r, disk₀, hinv, hpresent, hmake⟩ := h
  refine ⟨r, disk, hinv, hpresent, ?_⟩
  unfold make at hmake ⊢
  cases hfa : FrameAllocator.make n with
  | error e =>
    rw [hfa] at hmake
    cases hmake
  | ok fa =>
    rw [hfa] at hmake
    cases hpt : PageTable.make N with
    | error e =>
      rw [hpt] at hmake
      cases hmake
    | ok pt =>
      rw [hpt] at hmake
      obtain rfl := Except.ok.inj hmake
      rfl

/-- Bytes are what a live guard shows. -/
theorem read_of_bytes [Replacer R] [DecidableEq τ] {action : Action τ} {s₁ : System R τ}
    {page : Page} (hstep : s.step action = some (s₁, .bytes page)) :
    ∃ slot g, action = .read slot ∧ s.guards[slot]? = some g ∧ g.valid = true ∧
      page = s.bytes g.frameId := by
  have hsettle : ∀ {t : τ} {piece : Locked R τ Next}, s.settle t piece ≠ (s₁, .bytes page) := by
    intro t piece hend
    unfold settle at hend
    split at hend <;> cases hend
  have hpair : ∀ {o : Option (System R τ)}, o.map (·, Outcome.suspended) ≠
      some (s₁, .bytes page) := by
    intro o h
    obtain ⟨s₂, -, heq⟩ := Option.map_eq_some_iff.mp h
    cases heq
  cases action with
  | call t call =>
    simp only [System.step] at hstep
    split at hstep
    · exact absurd (Option.some.inj hstep) hsettle
    · cases hstep
  | resume t =>
    obtain ⟨piece, -, heq⟩ := Option.map_eq_some_iff.mp hstep
    exact absurd heq hsettle
  | transfer t | failRead t left e | failWrite t k e => exact absurd hstep hpair
  | read slot =>
    obtain ⟨g, hg, heq⟩ := Option.map_eq_some_iff.mp hstep
    split at heq
    · next hvalid =>
      obtain ⟨-, hout⟩ := Prod.mk.inj heq
      exact ⟨slot, g, rfl, hg, hvalid, (Outcome.bytes.inj hout).symm⟩
    · cases heq
  | write slot page' | drop slot | destroy slot =>
    obtain ⟨g, -, heq⟩ := Option.map_eq_some_iff.mp hstep
    split at heq <;> cases heq
  | markDirty slot =>
    obtain ⟨g, -, heq⟩ := Option.map_eq_some_iff.mp hstep
    unfold System.markGuard at heq
    split at heq
    · split at heq <;> cases heq
    · cases heq
  | moveConstruct slot =>
    obtain ⟨g, -, heq⟩ := Option.map_eq_some_iff.mp hstep
    cases heq
  | moveAssign slot source =>
    simp only [System.step] at hstep
    split at hstep
    · split at hstep
      · cases hstep
      · split at hstep <;> cases hstep
    · cases hstep

end System

/-! ## Two runs -/

variable [Replacer R] [LawfulReplacer R] [Fintype τ] [DecidableEq τ] {n N : Nat}

/-- Two managers over different files, with the same account. -/
structure Twins (n N : Nat) (x x' : System R τ × Ledger τ) : Prop where
  reachable : Reachable (fun x => System.Initial n N x.1 ∧ x.2 = {})
    (Under System.KeepsUpdates (Kept (Ledger.after false))) x
  reachable' : Reachable (fun x => System.Initial n N x.1 ∧ x.2 = {})
    (Under System.KeepsUpdates (Kept (Ledger.after false))) x'
  alike : System.Alike x.1 x'.1
  account : x'.2 = x.2

variable {x x' y : System R τ × Ledger τ}

/-- Their live guards show the same. -/
theorem Twins.shows (h : Twins n N x x') {gd : PageGuard} (hg : gd ∈ x.1.guards)
    (hv : gd.valid = true) : x'.1.bytes gd.frameId = x.1.bytes gd.frameId := by
  have hlast := guard_shows_last h.reachable hg hv
  have hlast' := guard_shows_last h.reachable' (h.alike.guards ▸ hg) hv
  rw [h.account] at hlast'
  exact Option.some.inj (hlast'.symm.trans hlast)

/-- What one does the other does, with the same outcome. -/
theorem Twins.step (h : Twins n N x x') {l : Action τ × Outcome}
    (hst : Under System.KeepsUpdates (Kept (Ledger.after false)) x l y) {action : Action τ}
    (hleaves : l.1.Leaves action) :
    ∃ y', Under System.KeepsUpdates (Kept (Ledger.after false)) x' (action, l.2) y' ∧
      Twins n N y y' := by
  obtain ⟨⟨hfits, hadmits⟩, ⟨hstep, hsurvives⟩, haccount⟩ := hst
  obtain ⟨s₁, out, hstep', hout, halike⟩ := h.alike.step hleaves.alike hstep
  have hsame : out = l.2 := by
    generalize hl : l.2 = out₀ at hout hstep
    cases hout with
    | same => rfl
    | bytes page page' =>
      obtain ⟨slot, g, haction, hg, hv, rfl⟩ := System.read_of_bytes hstep
      rw [haction] at hleaves
      cases hleaves
      obtain ⟨slot', g', haction', hg', -, rfl⟩ := System.read_of_bytes hstep'
      obtain rfl := Action.read.inj haction'
      rw [← h.alike.guards, hg] at hg'
      obtain rfl := Option.some.inj hg'
      rw [h.shows (List.mem_of_getElem? hg) hv]
  subst hsame
  have hnotes : x.1.notes l.1 l.2 = x'.1.notes action l.2 := h.alike.notes hleaves l.2
  have hst' : Under System.KeepsUpdates (Kept (Ledger.after false)) x' (action, l.2)
      (s₁, (x'.1.notes action l.2).foldl (Ledger.after false) x'.2) := by
    refine ⟨⟨?_, ?_⟩, ⟨hstep', hsurvives⟩, rfl⟩
    · exact fun hover => hfits ((h.alike.overflows hleaves).mpr hover)
    · rw [h.account, ← hnotes]
      exact hadmits
  refine ⟨_, hst', h.reachable.step ⟨⟨hfits, hadmits⟩, ⟨hstep, hsurvives⟩, haccount⟩,
    h.reachable'.step hst', halike, ?_⟩
  rw [haccount, h.account, ← hnotes]

/-- What one run does the other does. -/
theorem Twins.run (h : Twins n N x x') {ls : List (Action τ × Outcome)}
    (hpath : Path (Under System.KeepsUpdates (Kept (Ledger.after false))) x ls y)
    {actions : List (Action τ)}
    (hleaves : List.Forall₂ Action.Leaves (ls.map Prod.fst) actions) :
    ∃ ls' y', Path (Under System.KeepsUpdates (Kept (Ledger.after false))) x' ls' y' ∧
      ls'.map Prod.fst = actions ∧ ls'.map Prod.snd = ls.map Prod.snd ∧ Twins n N y y' := by
  induction hpath generalizing x' actions with
  | nil x =>
    obtain rfl := List.forall₂_nil_left_iff.mp hleaves
    exact ⟨[], x', .nil x', rfl, rfl, h⟩
  | cons hst _ ih =>
    obtain ⟨action, rest, haction, hrest, rfl⟩ := List.forall₂_cons_left_iff.mp hleaves
    obtain ⟨x₁', hst', htwins⟩ := h.step hst haction
    obtain ⟨ls', y', hpath', rfl, houts, hend⟩ := ih htwins hrest
    exact ⟨(action, _) :: ls', y', .cons hst' hpath', rfl, by simp [houts], hend⟩

/-- What the file held before is never seen.  Take a run of clients that keep to the lives of the
ids and mark what they change, and another file under the manager at its start: the same
actions, with what a `ReadPage` that fails leaves behind, end in the same way, the bytes that
clients read among it, and lead to the same state but for bytes that no live guard shows. -/
theorem old_contents_never_seen {s : System R τ} (hs : System.Initial n N s) (disk : Nat → Page)
    {x : System R τ × Ledger τ} {ls : List (Action τ × Outcome)}
    (hpath : Path (Under System.KeepsUpdates (Kept (Ledger.after false))) (s, {}) ls x)
    {actions : List (Action τ)}
    (hleaves : List.Forall₂ Action.Leaves (ls.map Prod.fst) actions) :
    ∃ ls' x', Path (Under System.KeepsUpdates (Kept (Ledger.after false)))
        ({ s with disk }, {}) ls' x' ∧
      ls'.map Prod.fst = actions ∧ ls'.map Prod.snd = ls.map Prod.snd ∧
      System.Alike x.1 x'.1 ∧
      ∀ gd ∈ x.1.guards, gd.valid = true → x'.1.bytes gd.frameId = x.1.bytes gd.frameId := by
  have hfirst : Twins n N (s, ({} : Ledger τ)) ({ s with disk }, {}) :=
    ⟨.init ⟨hs, rfl⟩, .init ⟨hs.withDisk disk, rfl⟩, ⟨.refl _, rfl, rfl⟩, rfl⟩
  obtain ⟨ls', x', hpath', hactions, houts, hend⟩ := hfirst.run hpath hleaves
  exact ⟨ls', x', hpath', hactions, houts, hend.alike, fun gd hg hv => hend.shows hg hv⟩

/-- The run of a client that writes a page, loses its frame to another one, and fetches it back:
the first `ReadPage` fails and leaves `left`. -/
def reloadRun (left : Page) : List (Action (Fin 1)) :=
  [.call 0 .newPage, .write 0 Page.ones, .markDirty 0, .drop 0, .call 0 .newPage, .transfer 0,
    .resume 0, .drop 1, .call 0 (.fetchPage 0), .transfer 0, .resume 0,
    .failRead 0 left ⟨.runtimeError, "pread failed: Input/output error"⟩, .resume 0,
    .call 0 (.fetchPage 0), .transfer 0, .resume 0, .read 2]

/-- It sees over a file of ones what it sees over one of zeros. -/
theorem old_contents_never_seen_reloaded :
    ∃ s : System ClockReplacer (Fin 1), ∃ ls ls', ∃ x x' : System ClockReplacer (Fin 1) × Ledger _,
      System.makeWithClock 1 2 (fun _ => Page.zero) = .ok s ∧
      Path (Under System.KeepsUpdates (Kept (Ledger.after false))) (s, {}) ls x ∧
      Path (Under System.KeepsUpdates (Kept (Ledger.after false)))
        ({ s with disk := fun _ => Page.ones }, {}) ls' x' ∧
      ls.map Prod.fst = reloadRun Page.zero ∧ ls'.map Prod.fst = reloadRun Page.ones ∧
      ls'.map Prod.snd = ls.map Prod.snd := by
  obtain ⟨x, hrun⟩ := Option.isSome_iff_exists.mp
    (show (System.runKeptNew (Ledger.after false) System.KeepsUpdates {} 1 2
      (reloadRun Page.zero)).isSome = true by decide +kernel)
  unfold System.runKeptNew at hrun
  split at hrun
  · next s hs =>
    rw [runKept_eq] at hrun
    obtain ⟨ls, hpath, hactions⟩ := path_of_runRecorded hrun
    have hleaves : List.Forall₂ Action.Leaves (ls.map Prod.fst) (reloadRun Page.ones) := by
      rw [hactions]
      simp [reloadRun, Action.Leaves.same, Action.Leaves.failRead]
    obtain ⟨ls', x', hpath', hactions', houts, -⟩ :=
      old_contents_never_seen (initial_makeWithClock hs) (fun _ => Page.ones) hpath hleaves
    exact ⟨s, ls, ls', x, x', hs, hpath, hpath', hactions, hactions', houts⟩
  · cases hrun

end BufferManager
