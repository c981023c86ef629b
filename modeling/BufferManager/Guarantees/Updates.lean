/-
  Guarantees/Updates.lean --- no update of a page is lost.

  The clients keep to the lives of the ids and mark what they change before they give
  their guards up.  Then, whatever flushes, evictions, loads and failed transfers run
  beside them, every live guard shows the page as the last change has left it, and so
  does the frame of the page, or the disk where the page is in none.
-/
import BufferManager.Guarantees.FlushBarrier
import BufferManager.Protocol.Contents

set_option autoImplicit false

namespace BufferManager

open BufferManager.Lib BufferManager.Protocol BufferManager.Refinement

/-- Disciplined clients that mark their changes, no count that overflows, and fewer than
`2 ^ 64` calls of `MarkDirty`. -/
def System.KeepsUpdates {R τ : Type} [DecidableEq τ] (x : System R τ × Ledger τ)
    (l : Action τ × Outcome) : Prop :=
  x.1.NoOverflow l ∧ Admits (Ledger.after false) (fun g y => g.Allows y ∧ g.MarksFirst y) x.2
    (x.1.notes l.1 l.2)

instance {R τ : Type} [DecidableEq τ] [Fintype τ] (x : System R τ × Ledger τ)
    (l : Action τ × Outcome) : Decidable (System.KeepsUpdates x l) :=
  inferInstanceAs (Decidable (x.1.NoOverflow l ∧
    Admits (Ledger.after false) (fun g y => g.Allows y ∧ g.MarksFirst y) x.2 (x.1.notes l.1 l.2)))

variable {R τ : Type} [Replacer R] [LawfulReplacer R] [Fintype τ] [DecidableEq τ] {n N : Nat}

namespace Refinement

/-- The account fits every state of a run, and is complete. -/
theorem current_of_reachable {x : System R τ × Ledger τ}
    (h : Reachable (fun x => System.Initial n N x.1 ∧ x.2 = {})
      (Under System.KeepsUpdates (Kept (Ledger.after false))) x) :
    Holds n N (fun c => Accounted c x.2 ∧ Current c x.2) x.1 := by
  refine lift_kept (P := Event.Fits) (A := fun g y => g.Allows y ∧ g.MarksFirst y)
    (J := fun c g => Accounted c g ∧ Current c g) ?_ ?_ ?_ h
  · refine fun disk => ⟨.initial disk, fun p hp => absurd rfl hp, fun p hp => absurd rfl hp⟩
  · rintro c e c' g hfits hallowed hst hs ⟨hA, hC⟩
    refine ⟨hA.step hst (fun y hy => (hallowed y hy).1) hfits (fun h => by cases h) hs.owned, ?_⟩
    refine hC.step hst ?_ hs.owned hA.disciplined.pinned hA.disciplined.reservations
    rintro slot failure rfl
    exact (hallowed _ rfl).2
  · intro x l hl
    exact ⟨fun e he => Event.fits_of_explained (h := x.1.hazards l.1) hl.1 he, hl.2⟩

variable {s : System R τ} {c : Cfg τ} {g : Ledger τ}

omit [DecidableEq τ] in
/-- Where the last content of a page is. -/
theorem Sim.holds_latest (hS : Sim n N s c) (hI : Owned n c) (hA : Accounted c g)
    (hC : Current c g) {p : Nat} (hmarked : g.marked p ≠ 0) :
    (∃ f, (s.entry p = ⟨.resident, some f⟩ ∨ s.entry p = ⟨.evicting, some f⟩) ∧
      g.Latest p (s.bytes f) ∧ ((s.manager.frameMeta f).dirty = true ∨
        g.Saves p (g.marked p) (s.disk p))) ∨
    ((s.entry p = ⟨.nonResident, none⟩ ∨ ∃ f, s.entry p = ⟨.loading, some f⟩) ∧
      g.Latest p (s.disk p) ∧ g.Saves p (g.marked p) (s.disk p)) := by
  have hP := hA.disciplined.pinned
  have hkept := hA.durable.kept p
  rw [hS.entry_eq, ← hS.disk]
  have hframe : ∀ {f}, c.place p = .resident f ∨ c.place p = .evicting f →
      g.Latest p (s.bytes f) ∧ ((s.manager.frameMeta f).dirty = true ∨
        g.Saves p (g.marked p) (c.disk p)) := by
    intro f hplace
    rw [hS.bytes_eq, hS.rep.frameMeta]
    refine ⟨hC.latest hA.durable hI hP hmarked hplace, ?_⟩
    cases hdirty : (c.frame f).meta.dirty with
    | true => exact Or.inl rfl
    | false => exact Or.inr ((hkept.frame hplace).2 hdirty)
  have hdisk : ∀ (hplace : c.place p = .nonResident ∨ ∃ f, c.place p = .loading f),
      g.Latest p (c.disk p) ∧ g.Saves p (g.marked p) (c.disk p) :=
    fun hplace => ⟨hC.latest_disk hA.durable hI hP hmarked hplace, hkept.disk hplace⟩
  cases hplace : c.place p with
  | unused => exact absurd (hkept.unused hplace) hmarked
  | nonResident => exact Or.inr ⟨Or.inl rfl, hdisk (Or.inl hplace)⟩
  | loading f => exact Or.inr ⟨Or.inr ⟨f, rfl⟩, hdisk (Or.inr ⟨f, hplace⟩)⟩
  | resident f => exact Or.inl ⟨f, Or.inl rfl, hframe (Or.inl hplace)⟩
  | evicting f => exact Or.inl ⟨f, Or.inr rfl, hframe (Or.inr hplace)⟩

/-- A live guard shows its page as the last change has left it. -/
theorem guard_shows_last {x : System R τ × Ledger τ}
    (h : Reachable (fun x => System.Initial n N x.1 ∧ x.2 = {})
      (Under System.KeepsUpdates (Kept (Ledger.after false))) x)
    {gd : PageGuard} (hg : gd ∈ x.1.guards) (hv : gd.valid = true) :
    (x.2.history gd.pageId).getLast? = some (x.1.bytes gd.frameId) := by
  obtain ⟨c, hS, hsound, hA, hC⟩ := current_of_reachable h
  have hI := hsound.owned
  have hP := hA.disciplined.pinned
  obtain ⟨r, -, -, -, -, hplace⟩ := hP.of_guard hI (hS.guards ▸ hg) hv
  have hmarked : x.2.marked gd.pageId ≠ 0 :=
    (hC.live gd.pageId (by rw [hplace]; simp)).resolve_right
      (hA.disciplined.reservations.not_reserved (by rw [hplace]; simp))
  rw [hS.bytes_eq]
  exact hA.durable.getLast hmarked (hC.latest hA.durable hI hP hmarked (Or.inl hplace))

end Refinement

/-- Every live guard shows its page as the last change has left it.  A page that clients
have is in that state in its frame, which is dirty unless the marked changes have been
written, or it is so on disk. -/
theorem no_update_lost {x : System R τ × Ledger τ}
    (h : Reachable (fun x => System.Initial n N x.1 ∧ x.2 = {})
      (Under System.KeepsUpdates (Kept (Ledger.after false))) x) :
    (∀ gd ∈ x.1.guards, gd.valid = true →
      (x.2.history gd.pageId).getLast? = some (x.1.bytes gd.frameId)) ∧
    ∀ p ∈ x.2.clients.live,
      (∃ f, (x.1.entry p = ⟨.resident, some f⟩ ∨ x.1.entry p = ⟨.evicting, some f⟩) ∧
        (x.2.history p).getLast? = some (x.1.bytes f) ∧
          ((x.1.manager.frameMeta f).dirty = true ∨ x.2.Saves p (x.2.marked p) (x.1.disk p))) ∨
      ((x.1.entry p = ⟨.nonResident, none⟩ ∨ ∃ f, x.1.entry p = ⟨.loading, some f⟩) ∧
        (x.2.history p).getLast? = some (x.1.disk p) ∧
          x.2.Saves p (x.2.marked p) (x.1.disk p)) := by
  obtain ⟨c, hS, hsound, hA, hC⟩ := current_of_reachable h
  have hI := hsound.owned
  constructor
  · exact fun gd hg hv => guard_shows_last h hg hv
  · intro p hlive
    obtain ⟨hused, hreserved⟩ := hA.disciplined.orderly.used p hlive
    have hmarked := (hC.live p hused).resolve_right hreserved
    rcases hS.holds_latest hI hA hC hmarked with ⟨f, hentry, hlatest, hdirty⟩ |
      ⟨hentry, hlatest, hsaves⟩
    · exact Or.inl ⟨f, hentry, hA.durable.getLast hmarked hlatest, hdirty⟩
    · exact Or.inr ⟨hentry, hA.durable.getLast hmarked hlatest, hsaves⟩

/-- A page is changed, evicted by a `NewPage` and fetched again, all in one frame. -/
theorem no_update_lost_reloaded : ∃ x : System ClockReplacer (Fin 1) × Ledger (Fin 1),
    ∃ gd ∈ x.1.guards, gd.valid = true ∧ gd.pageId = 0 ∧ (x.2.history 0).length = 2 ∧
      (x.2.history gd.pageId).getLast? = some (x.1.bytes gd.frameId) := by
  obtain ⟨x, hreach, hlength, hguard⟩ := exists_of_runKeptNew (n := 1) (N := 2)
    (A := System.KeepsUpdates)
    (P := fun x : System ClockReplacer (Fin 1) × Ledger (Fin 1) =>
      (x.2.history 0).length = 2 ∧ ∃ gd ∈ x.1.guards, gd.valid = true ∧ gd.pageId = 0)
    (show (System.runKeptNew (Ledger.after false) _ {} 1 2 [.call (0 : Fin 1) .newPage,
      .write 0 Page.ones, .markDirty 0, .drop 0, .call 0 .newPage, .transfer 0, .resume 0, .drop 1,
      .call 0 (.fetchPage 0), .transfer 0, .resume 0, .transfer 0, .resume 0]).any _ = true by
      decide +kernel)
  obtain ⟨gd, hg, hv, hpage⟩ := hguard
  exact ⟨x, gd, hg, hv, hpage, hlength, (no_update_lost hreach).1 gd hg hv⟩

end BufferManager
