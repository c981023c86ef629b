/-
  Guarantees/Exclusion.lean --- unlocked I/O is exclusive.

  A `ReadPage` and an eviction's `WritePage` have their frame to themselves; a
  `FlushPage` holds a pin while it writes, and a pinned page stays where it is.  So two
  transfers that share a page or a frame are two `FlushPage`s of that page.
-/
import BufferManager.Guarantees.Guards

set_option autoImplicit false

namespace BufferManager

open BufferManager.Lib BufferManager.Protocol BufferManager.Refinement

/-- The page and the frame of the `FlushPage` a thread is writing in. -/
def Pc.flushing : Pc → Option (Nat × Nat)
  | .writing p f _ _ _ => some (p, f)
  | _ => none

/-- The page and the frame of the unlocked `ReadPage` or `WritePage` a thread is in; the
empty window of a clean eviction counts as one. -/
def Pc.transfers : Pc → Option (Nat × Nat)
  | .reading p f _ => some (p, f)
  | .evicting _ ev _ => some (ev.oldPageId, ev.frameId)
  | .writing p f _ _ _ => some (p, f)
  | _ => none

namespace Protocol

variable {τ : Type} [DecidableEq τ]

/-- The configuration of a `FetchPage` of `p` that has evicted a victim. -/
def Cfg.evicted (c : Cfg τ) (t : τ) (p : Nat) (ev : Eviction) : Cfg τ :=
  (((c.setPlace ev.oldPageId .nonResident).setUse ev.frameId .free).notify).goto t
    (.holding (.fetchPage p) ev.frameId)

/-- And has given its frame back. -/
def Cfg.gaveBack (c : Cfg τ) (t : τ) (p : Nat) (ev : Eviction) : Cfg τ :=
  (((c.evicted t p ev).release ev.frameId).notify).goto t (.visiting (.fetchPage p))

end Protocol

namespace Refinement

open BufferManager.Manager

variable {R τ : Type} [Replacer R] [LawfulReplacer R] {n N : Nat} {s : System R τ} {c : Cfg τ}
  {t : τ}

/-! ## Two transfers -/

/-- A transfer is a flush, of a page resident in its frame, or has a page in transition
and its frame to itself. -/
theorem Sim.transfers_cases [Fintype τ] (hS : Sim n N s c) (hI : Owned n c) (hP : Pinned c)
    {p f : Nat} (h : (s.pc t).transfers = some (p, f)) :
    ((s.pc t).flushing = some (p, f) ∧ c.place p = .resident f) ∨
      ∃ u, (c.phase t).claim = some (f, u) ∧ (c.place p).frame = some f ∧
        (c.place p).transient := by
  have hphase := hS.phase t
  cases hpc : s.pc t with
  | reading q g io =>
    rw [hpc] at h hphase
    obtain ⟨rfl, rfl⟩ := Prod.mk.inj (Option.some.inj h)
    have hclaim : (c.phase t).claim = some (g, .loading q) := by rw [hphase]; rfl
    have hplace := hI.place_of_claim hclaim rfl
    exact Or.inr ⟨_, hclaim, by rw [hplace]; rfl, by rw [hplace]; trivial⟩
  | evicting a ev io =>
    rw [hpc] at h hphase
    obtain ⟨rfl, rfl⟩ := Prod.mk.inj (Option.some.inj h)
    have hclaim : (c.phase t).claim =
        some (ev.frameId, .evicting ev.oldPageId ev.dirty ev.dirtyEpoch) := by rw [hphase]; rfl
    have hplace := hI.place_of_claim hclaim rfl
    exact Or.inr ⟨_, hclaim, by rw [hplace]; rfl, by rw [hplace]; trivial⟩
  | writing q g epoch caller io =>
    rw [hpc] at h hphase
    obtain ⟨rfl, rfl⟩ := Prod.mk.inj (Option.some.inj h)
    have hwrites : (c.phase t).writes = some (q, g) := by rw [hphase]; rfl
    exact Or.inl ⟨rfl, hP.resident_of_refs q g (refs_pos_of_writer hwrites)⟩
  | idle => simp [hpc, Pc.transfers] at h
  | waitPage v => simp [hpc, Pc.transfers] at h
  | waitFrame a => simp [hpc, Pc.transfers] at h
  | nextFlush q rest => simp [hpc, Pc.transfers] at h

/-- A page that is resident in a frame is not in a frame some thread has to itself. -/
theorem claim_ne_resident (hI : Owned n c) {p f : Nat} {u : Use}
    (hclaim : (c.phase t).claim = some (f, u)) : c.place p ≠ .resident f := by
  intro hplace
  obtain ⟨r, hr, -⟩ := hI.resident hplace
  exact hI.unclaimed_of_resident hr t u hclaim

/-- Two transfers on one page or one frame are flushes. -/
theorem Sim.transfers_exclusive [Fintype τ] (hS : Sim n N s c) (hI : Owned n c) (hP : Pinned c)
    {t u : τ} (hne : t ≠ u) {p f q g : Nat} (ht : (s.pc t).transfers = some (p, f))
    (hu : (s.pc u).transfers = some (q, g)) (hshare : p = q ∨ f = g) :
    p = q ∧ f = g ∧ (s.pc t).flushing = some (p, f) ∧ (s.pc u).flushing = some (q, g) := by
  rcases hS.transfers_cases hI hP ht with ⟨hflush, hplace⟩ | ⟨a, hclaim, hframe, htransient⟩
  · rcases hS.transfers_cases hI hP hu with ⟨hflush', hplace'⟩ | ⟨b, hclaim', hframe', htransient'⟩
    · rcases hshare with rfl | rfl
      · have hfg : f = g := Place.resident.inj (hplace.symm.trans hplace')
        exact ⟨rfl, hfg, hflush, hflush'⟩
      · obtain ⟨r, hr, hpage, -⟩ := hI.resident hplace
        obtain ⟨r', hr', hpage', -⟩ := hI.resident hplace'
        obtain rfl := Use.resident.inj (hr.symm.trans hr')
        exact ⟨hpage.symm.trans hpage', rfl, hflush, hflush'⟩
    · rcases hshare with rfl | rfl
      · rw [hplace] at htransient'
        exact htransient'.elim
      · exact absurd hplace (claim_ne_resident hI hclaim')
  · rcases hS.transfers_cases hI hP hu with ⟨hflush', hplace'⟩ | ⟨b, hclaim', hframe', htransient'⟩
    · rcases hshare with rfl | rfl
      · rw [hplace'] at htransient
        exact htransient.elim
      · exact absurd hplace' (claim_ne_resident hI hclaim)
    · have hfg : f = g := by
        rcases hshare with rfl | rfl
        · exact Option.some.inj (hframe.symm.trans hframe')
        · rfl
      subst hfg
      exact absurd (hI.claim_unique t u f _ _ hclaim hclaim') hne

/-! ## A frame acquired in vain -/

variable [DecidableEq τ]

/-- `FetchPage` on a page that is not `kNonResident` takes no frame. -/
theorem wp_fetchPage_settled {m : Manager R τ} (hR : Represents n N m c) (hI : Owned n c) (t : τ)
    {p g : Nat} (hp : c.place p ≠ .nonResident) (hg : c.frame g = .free) :
    wp (fetchPage t p : Locked R τ Next)
      (fun _ m' => m'.frameAllocator.allocated = c.allocated ∧ m'.frameMeta g = {})
      (fun _ m' => m'.frameAllocator.allocated = c.allocated ∧ m'.frameMeta g = {}) m := by
  have hhere : m.frameAllocator.allocated = c.allocated ∧ m.frameMeta g = {} :=
    ⟨hR.allocated, by rw [hR.frameMeta, hg]; rfl⟩
  rw [fetchPage, fetchLoop, wp_bind]
  refine hR.wp_pageState ?_ fun _ => hhere
  cases hplace : c.place p with
  | unused => exact hhere
  | nonResident => exact absurd hplace hp
  | loading f =>
    simp only [Place.entry, wait, wp_bind, wp_modify, wp_pure]
    exact hhere
  | evicting f =>
    simp only [Place.entry, wait, wp_bind, wp_modify, wp_pure]
    exact hhere
  | resident f =>
    obtain ⟨r, hr, rfl, -⟩ := hI.resident hplace
    by_cases hpins : r.pins = maxPinCount
    · exact hR.wp_pin_full hplace hr hpins hhere
    · refine hR.wp_pin hI hplace hr hpins fun m' hR' => ⟨hR'.allocated, ?_⟩
      have hne : g ≠ f := by
        rintro rfl
        rw [hr] at hg
        cases hg
      rw [hR'.frameMeta]
      simp [hne, hg, Use.meta]

omit [Replacer R] [LawfulReplacer R] [DecidableEq τ] in
/-- `SetNonResident` does not touch the replacer. -/
theorem wp_setNonResident_replacer (p : Nat) (m : Manager R τ) :
    wp (setNonResident p : Locked R τ Unit) (fun _ m' => m'.replacer = m.replacer)
      (fun _ m' => m'.replacer = m.replacer) m := by
  refine wp_attempt rfl fun a m' hop => ?_
  cases hpt : m.pageTable.setNonResident p with
  | ok pt =>
    rw [hpt] at hop
    obtain rfl := (Prod.mk.inj (Except.ok.inj hop)).2
    rfl
  | error e =>
    rw [hpt] at hop
    cases hop

omit [Replacer R] [LawfulReplacer R] [DecidableEq τ] in
/-- Nor does `FreeFrame`. -/
theorem wp_freeFrame_replacer (f : Nat) (m : Manager R τ) :
    wp (freeFrame f : Locked R τ Unit) (fun _ m' => m'.replacer = m.replacer)
      (fun _ m' => m'.replacer = m.replacer) m := by
  refine wp_attempt rfl fun a m' hop => ?_
  cases hfa : m.frameAllocator.freeFrame f with
  | ok fa =>
    rw [hfa] at hop
    obtain rfl := (Prod.mk.inj (Except.ok.inj hop)).2
    rfl
  | error e =>
    rw [hfa] at hop
    cases hop

/-- The rule for a `FetchPage` whose page was taken in hand by another thread while it
evicted a victim: it gives the frame back, and looks at its page again. -/
theorem Sim.wp_lost_race (hS : Sim n N s c) (hI : Owned n c) (hW : Within N c) {p : Nat}
    {ev : Eviction} (hpc : s.pc t = .evicting (.fetchPage p) ev .done) (hne : p ≠ ev.oldPageId)
    (hp : c.place p ≠ .nonResident) {Q : Next → Manager R τ → Prop}
    {E : Error → Manager R τ → Prop}
    (hloop : ∀ m, Represents n N m (c.gaveBack t p ev) → Owned n (c.gaveBack t p ev) →
      m.replacer = s.manager.replacer → wp (fetchPage t p : Locked R τ Next) Q E m) :
    wp (fetchPageWith t p (do
      finishEviction ev none
      keepIfNonResident p ev.frameId) : Locked R τ Next) Q E s.manager := by
  have hph : c.phase t = .suspended (.evicting (.fetchPage p) ev .done) := by rw [hS.phase, hpc]
  have hC := hI.claimed (t := t) (f := ev.frameId)
    (u := .evicting ev.oldPageId ev.dirty ev.dirtyEpoch) (by rw [hph]; rfl)
  have hplace := hI.place_of_claim (t := t) (by rw [hph]; rfl) rfl
  have hstep₁ : Step n N True c _ (c.evicted t p ev) := .evictDone t (.fetchPage p) ev hph
  have hW₁ := Within.step hstep₁ hW
  have hph₁ : (c.evicted t p ev).phase t = .holding (.fetchPage p) ev.frameId := by
    simp [Cfg.evicted]
  have hp₁ : (c.evicted t p ev).place p ≠ .nonResident := by simpa [Cfg.evicted, hne] using hp
  have hstep₂ : Step n N True _ _ (c.gaveBack t p ev) := .surplus t p ev.frameId hph₁ hp₁
  have hI₂ := Owned.step hstep₂ (Owned.step hstep₁ hI)
  simp only [fetchPageWith, finishEviction, wp_bind]
  have hset : wp (setNonResident ev.oldPageId : Locked R τ Unit)
      (fun _ m => Represents n N m (c.setPlace ev.oldPageId .nonResident)) (fun _ _ => False)
      s.manager := hS.rep.wp_setNonResident (by simp [hplace]) fun _ h => h
  refine (hset.and (wp_setNonResident_replacer ev.oldPageId s.manager)).mono ?_
    fun _ _ h => h.1.elim
  rintro - m₁ ⟨hR₁, hreplacer₁⟩
  have hR₂ := (hR₁.setUse ev.frameId .free).notify
  simp only [setMeta, notifyAll, wp_modify, keepIfNonResident, wp_bind]
  refine hR₂.wp_pageState_of_lt (hW₁ t p (by rw [hph₁]; rfl)) ?_
  have hstate : (((((c.setPlace ev.oldPageId .nonResident).setUse ev.frameId .free).notify).place
      p).entry).state ≠ .nonResident := by
    rw [ne_eq, Represents.state_nonResident_iff]
    exact hp₁
  simp only [hstate, if_false, wp_bind]
  have hfree : wp (freeFrame ev.frameId : Locked R τ Unit) (fun _ m => Represents n N m _)
      (fun _ _ => False) _ := hR₂.wp_freeFrame hC.allocated fun _ h => h
  refine (hfree.and (wp_freeFrame_replacer ev.frameId _)).mono ?_ fun _ _ h => h.1.elim
  rintro - m₃ ⟨hR₃, hreplacer₃⟩
  simp only [wp_modify, wp_pure]
  refine hloop _ ?_ hI₂ (hreplacer₃.trans hreplacer₁)
  simpa [Cfg.gaveBack, Cfg.evicted] using hR₃.notify.goto (t := t) (.visiting (.fetchPage p))

/-- A `FetchPage` whose page was taken in hand by another thread while it evicted a
victim gives the frame back. -/
theorem Sim.lost_race (hS : Sim n N s c) (hI : Owned n c) (hW : Within N c) {p : Nat}
    {ev : Eviction} (hpc : s.pc t = .evicting (.fetchPage p) ev .done) (hne : p ≠ ev.oldPageId)
    (hp : (s.entry p).state ≠ .nonResident) {s' : System R τ} {out : Outcome}
    (hstep : s.step (.resume t) = some (s', out)) :
    s'.manager.frameAllocator.allocated = s.manager.frameAllocator.allocated.erase ev.frameId ∧
      s'.manager.frameMeta ev.frameId = {} := by
  have hp' : c.place p ≠ .nonResident := fun h => hp ((hS.state_nonResident p).mpr h)
  obtain ⟨piece, hpiece, hsettle⟩ := Option.map_eq_some_iff.mp hstep
  rw [hpc] at hpiece
  obtain rfl := Option.some.inj hpiece
  have hwp : wp (fetchPageWith t p (do
      finishEviction ev none
      keepIfNonResident p ev.frameId) : Locked R τ Next)
      (fun _ m' => m'.frameAllocator.allocated = c.allocated.erase ev.frameId ∧
        m'.frameMeta ev.frameId = {})
      (fun _ m' => m'.frameAllocator.allocated = c.allocated.erase ev.frameId ∧
        m'.frameMeta ev.frameId = {}) s.manager :=
    hS.wp_lost_race hI hW hpc hne hp' fun m hR hI' _ =>
      wp_fetchPage_settled hR hI' t (by simpa [Cfg.gaveBack, Cfg.evicted, hne] using hp')
        (by simp [Cfg.gaveBack])
  obtain rfl := (Prod.mk.inj hsettle).1
  rw [hS.rep.allocated]
  exact System.settle_manager hwp

end Refinement

/-! ## Exclusive transfers -/

variable {R τ : Type} [Replacer R] [LawfulReplacer R] [Fintype τ] [DecidableEq τ] {n N : Nat}
  {s : System R τ}

/-- Two threads inside unlocked transfers that share a page or a frame are both
`FlushPage`s writing that page from that frame; and a frame that a `FetchPage` acquired
while another thread took its page in hand goes back to the allocator. -/
theorem unlocked_io_exclusive
    (h : Reachable (System.Initial n N) (Under System.NoOverflow System.Trans) s) :
    (∀ t u p f q g, t ≠ u → (s.pc t).transfers = some (p, f) →
      (s.pc u).transfers = some (q, g) → p = q ∨ f = g →
      p = q ∧ f = g ∧ (s.pc t).flushing = some (p, f) ∧ (s.pc u).flushing = some (q, g)) ∧
    ∀ t p ev s' out, s.pc t = .evicting (.fetchPage p) ev .done → p ≠ ev.oldPageId →
      (s.entry p).state ≠ .nonResident → s.step (.resume t) = some (s', out) →
      s'.manager.frameAllocator.allocated =
          s.manager.frameAllocator.allocated.erase ev.frameId ∧
        s'.manager.frameMeta ev.frameId = {} := by
  obtain ⟨c, hS, hsound, hP⟩ := pinned_of_reachable h
  constructor
  · intro t u p f q g hne ht hu hshare
    exact hS.transfers_exclusive hsound.owned hP hne ht hu hshare
  · intro t p ev s' out hpc hne hp hstep
    exact hS.lost_race hsound.owned hsound.within hpc hne hp hstep

/-- Two flushes of one page at once. -/
theorem unlocked_io_exclusive_flushes : ∃ s : System ClockReplacer (Fin 2),
    (s.pc 0).flushing = some (0, 0) ∧ (s.pc 1).flushing = some (0, 0) := by
  obtain ⟨s, hreach, h₀, h₁⟩ := exists_of_runNew (n := 1) (N := 1)
    (P := fun s : System ClockReplacer (Fin 2) =>
      (s.pc 0).transfers = some (0, 0) ∧ (s.pc 1).transfers = some (0, 0))
    (show (System.runNew System.NoOverflow 1 1 [.call (0 : Fin 2) .newPage,
      .call 0 (.flushPage 0), .call 1 (.flushPage 0)]).any _ = true by decide +kernel)
  exact ⟨s, ((unlocked_io_exclusive hreach).1 0 1 0 0 0 0 (by decide) h₀ h₁ (Or.inl rfl)).2.2⟩

end BufferManager
