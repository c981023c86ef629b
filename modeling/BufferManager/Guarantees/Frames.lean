/-
  Guarantees/Frames.lean --- the bitmap, the frame metadata and the page table agree.

  They agree wherever `mutex_` is released, as long as every `NewPage` that gets a
  frame finds its id as it left it.  Where another call has taken the id meanwhile,
  `NewPage` throws and leaves the frame behind: allocated, pinned and named by no
  page.
-/
import BufferManager.Protocol.Reservation
import BufferManager.Refinement.Runs

set_option autoImplicit false

namespace BufferManager

open BufferManager.Lib BufferManager.Protocol BufferManager.Refinement

/-- No `NewPage` with a frame finds its id taken. -/
def System.Installs {R τ : Type} (s : System R τ) (l : Action τ × Outcome) : Prop :=
  ¬ s.InstallBlocked l.1

instance {R τ : Type} (s : System R τ) (l : Action τ × Outcome) : Decidable (s.Installs l) :=
  inferInstanceAs (Decidable ¬ s.InstallBlocked l.1)

/-- The state of the page in a frame of this state, if there is one. -/
def FrameState.page : FrameState → Option PageState
  | .free => none
  | .loading => some .loading
  | .resident => some .resident
  | .evicting => some .evicting

/-- A thread is at work on frame `f`. -/
def Pc.uses (f : Nat) : Pc → Prop
  | .reading _ g _ | .writing _ g _ _ _ => g = f
  | .evicting _ ev _ => ev.frameId = f
  | _ => False

/-- The bitmap, the metadata, the page table and the operations in progress agree. -/
structure System.FramesAgree {R τ : Type} (s : System R τ) : Prop where
  allocated_iff : ∀ f, f < s.manager.frameCount →
    (f ∈ s.manager.frameAllocator.allocated ↔ (s.manager.frameMeta f).state ≠ .free)
  /-- A frame in use has a page, whose entry is in the matching state and names it. -/
  entry_of_frame : ∀ f x, (s.manager.frameMeta f).state.page = some x →
    ∃ p, (s.manager.frameMeta f).pageId = some p ∧ s.entry p = ⟨x, some f⟩
  /-- The frame an entry names holds that page. -/
  frame_of_entry : ∀ p f, (s.entry p).frameId = some f →
    (s.manager.frameMeta f).pageId = some p ∧
      (s.manager.frameMeta f).state.page = some (s.entry p).state
  unshared : ∀ f g p, (s.manager.frameMeta f).pageId = some p →
    (s.manager.frameMeta g).pageId = some p → f = g
  /-- A pin is a guard's or that of an operation in progress. -/
  pin_owner : ∀ f, (s.manager.frameMeta f).pinCount ≠ 0 →
    (∃ g ∈ s.guards, g.valid = true ∧ g.frameId = f ∧
      (s.manager.frameMeta f).pageId = some g.pageId) ∨ ∃ t, (s.pc t).uses f

variable {R τ : Type} [Replacer R] [LawfulReplacer R] {n N : Nat} {s : System R τ} {c : Cfg τ}

namespace Refinement

/-- The use of a frame that holds a page asks for the place its page has. -/
theorem place_of_meta (hL : Listed c) {f : Nat} {x : PageState}
    (h : (c.frame f).meta.state.page = some x) :
    ∃ p y, (c.frame f).place f = some (p, y) ∧ (c.frame f).meta.pageId = some p ∧
      y.entry = ⟨x, some f⟩ := by
  cases hu : c.frame f with
  | free =>
    rw [hu] at h
    cases h
  | loading p =>
    rw [hu] at h
    obtain rfl := Option.some.inj h
    exact ⟨p, _, rfl, rfl, rfl⟩
  | resident r =>
    rw [hu] at h
    obtain rfl := Option.some.inj h
    refine ⟨r.page, .resident f, ?_, rfl, rfl⟩
    rw [Use.place, if_pos (hL f r hu)]
  | evicting p d e =>
    rw [hu] at h
    obtain rfl := Option.some.inj h
    exact ⟨p, _, rfl, rfl, rfl⟩

/-- The metadata of a frame says what its use says. -/
theorem meta_of_place {f p : Nat} {u : Use} {y : Place} (h : u.place f = some (p, y)) :
    u.meta.pageId = some p ∧ u.meta.state.page = some y.entry.state := by
  cases u with
  | free => cases h
  | loading q =>
    obtain ⟨rfl, rfl⟩ := Prod.mk.inj (Option.some.inj h)
    exact ⟨rfl, rfl⟩
  | resident r =>
    rw [Use.place] at h
    split at h
    · obtain ⟨rfl, rfl⟩ := Prod.mk.inj (Option.some.inj h)
      exact ⟨rfl, rfl⟩
    · cases h
  | evicting q d e =>
    obtain ⟨rfl, rfl⟩ := Prod.mk.inj (Option.some.inj h)
    exact ⟨rfl, rfl⟩

theorem Sim.allocated_iff (hS : Sim n N s c) (hI : Owned n c) (f : Nat) :
    f ∈ s.manager.frameAllocator.allocated ↔ (s.manager.frameMeta f).state ≠ .free := by
  rw [hS.rep.allocated, hI.allocated_iff, hS.rep.frameMeta]
  constructor
  · rintro (hne | ⟨t, ht⟩)
    · intro hstate
      cases hu : c.frame f with
      | free => exact hne hu
      | loading p => simp [hu, Use.meta] at hstate
      | resident r => simp [hu, Use.meta] at hstate
      | evicting p d e => simp [hu, Use.meta] at hstate
    · -- A thread that is suspended holds no frame that is free.
      rw [hS.phase] at ht
      cases hpc : s.pc t <;> simp [hpc, Phase.claim] at ht
  · intro hstate
    refine Or.inl fun hfree => hstate ?_
    rw [hfree]
    rfl

/-- What has a pin is loaded, or has a guard or a writer. -/
theorem Sim.pin_owner [Fintype τ] (hS : Sim n N s c) (hI : Owned n c) (hC : Covered c)
    (hL : Listed c) {f : Nat} (h : (s.manager.frameMeta f).pinCount ≠ 0) :
    (∃ g ∈ s.guards, g.valid = true ∧ g.frameId = f ∧
      (s.manager.frameMeta f).pageId = some g.pageId) ∨ ∃ t, (s.pc t).uses f := by
  rw [hS.rep.frameMeta] at h ⊢
  cases hu : c.frame f with
  | free => simp [hu, Use.meta] at h
  | evicting p d e => simp [hu, Use.meta] at h
  | loading p =>
    obtain ⟨t, ht⟩ := hI.transient_claimed f (by rw [hu]; trivial)
    refine Or.inr ⟨t, ?_⟩
    rw [hS.phase, hu] at ht
    cases hpc : s.pc t <;> simp [hpc, Phase.claim] at ht
    exact ht.1
  | resident r =>
    have hpins : 0 < r.pins := by simpa [hu, Use.meta, Nat.pos_iff_ne_zero] using h
    have hle := hC f r hu (hL f r hu)
    rcases exists_of_refs_pos (lt_of_lt_of_le hpins hle) with ⟨g, hg, hv, hpage, hf⟩ | ⟨t, ht⟩
    · exact Or.inl ⟨g, hS.guards ▸ hg, hv, hf, by rw [hpage]; rfl⟩
    · refine Or.inr ⟨t, ?_⟩
      rw [hS.phase] at ht
      cases hpc : s.pc t <;> simp [hpc, Phase.writes] at ht
      exact ht.2

/-- Ownership, with every resident frame named, is agreement. -/
theorem Sim.framesAgree [Fintype τ] (hS : Sim n N s c) (hI : Owned n c) (hC : Covered c)
    (hL : Listed c) : s.FramesAgree := by
  have hentry : ∀ f x, (s.manager.frameMeta f).state.page = some x →
      ∃ p, (s.manager.frameMeta f).pageId = some p ∧ s.entry p = ⟨x, some f⟩ := by
    intro f x hx
    rw [hS.rep.frameMeta] at hx ⊢
    obtain ⟨p, y, hplace, hpage, hy⟩ := place_of_meta hL hx
    exact ⟨p, hpage, by rw [hS.entry_eq, hI.place_of_use f p y hplace, hy]⟩
  refine ⟨fun f _ => hS.allocated_iff hI f, hentry, ?_, ?_, fun f h => hS.pin_owner hI hC hL h⟩
  · intro p f hf
    rw [hS.entry_eq] at hf ⊢
    have hframe : (c.place p).frame = some f := by
      rw [← hf]
      cases c.place p <;> rfl
    rw [hS.rep.frameMeta]
    exact meta_of_place (hI.use_of_place p f hframe)
  · intro f g p hf hg
    have hpage : ∀ f, (s.manager.frameMeta f).pageId = some p → (s.entry p).frameId = some f := by
      intro f hf
      have hused : ∃ x, (s.manager.frameMeta f).state.page = some x := by
        rw [hS.rep.frameMeta] at hf ⊢
        cases hu : c.frame f with
        | free =>
          rw [hu] at hf
          cases hf
        | loading q => exact ⟨_, rfl⟩
        | resident r => exact ⟨_, rfl⟩
        | evicting q d e => exact ⟨_, rfl⟩
      obtain ⟨x, hx⟩ := hused
      obtain ⟨q, hq, hent⟩ := hentry f x hx
      obtain rfl := Option.some.inj (hf.symm.trans hq)
      rw [hent]
    exact Option.some.inj ((hpage f hf).symm.trans (hpage g hg))

end Refinement

variable [Fintype τ] [DecidableEq τ]

/-- As long as no `NewPage` with a frame finds its id taken, no frame is orphaned and
none is shared, wherever `mutex_` is released. -/
theorem frames_agree
    (h : Reachable (System.Initial n N) (Under System.Installs System.Trans) s) :
    s.FramesAgree := by
  obtain ⟨c, hS, hsound, hL⟩ : Holds n N Listed s := by
    refine lift (P := Event.Installs) ?_ (fun c e c' he hst _ hL => hL.step hst he) ?_ h
    · intro disk f r hr
      cases hr
    · intro s l hok e he
      cases e with
      | installBlocked t p => exact hok he
      | _ => trivial
  exact hS.framesAgree hsound.owned hsound.covered hL

/-- After a `NewPage` that has evicted a page, while another thread waited for that page. -/
theorem frames_agree_installed : ∃ s : System ClockReplacer (Fin 2),
    s.pc 1 = .waitPage (.fetchPage 0) ∧ s.guards = [{}, ⟨true, 1, 0⟩] ∧ s.FramesAgree := by
  obtain ⟨s, hreach, hpc, hguards⟩ := exists_of_runNew (n := 1) (N := 2) (A := System.Installs)
    (P := fun s : System ClockReplacer (Fin 2) =>
      s.pc 1 = .waitPage (.fetchPage 0) ∧ s.guards = [{}, ⟨true, 1, 0⟩])
    (show (System.runNew _ 1 2 [.call (0 : Fin 2) .newPage, .drop 0, .call 0 .newPage,
      .call 1 (.fetchPage 0), .transfer 0, .resume 0]).any _ = true by decide +kernel)
  exact ⟨s, hpc, hguards, frames_agree hreach⟩

/-- While a `NewPage` writes its victim, `DeletePage` frees the id it has reserved; the
`NewPage` throws, and its frame keeps the page and the pin. -/
theorem frame_orphaned : ∃ s : System ClockReplacer (Fin 2),
    Reachable (System.Initial 1 2) System.Trans s ∧
      s.manager.frameMeta 0 = ⟨some 1, 1, true, 1, .resident⟩ ∧ s.entry 1 = {} ∧
      (∀ t, s.pc t = .idle) ∧ (∀ g ∈ s.guards, g.valid = false) ∧ ¬ s.FramesAgree := by
  obtain ⟨s, hreach, hmeta, hentry, hidle, hguards⟩ := exists_of_runNew (n := 1) (N := 2)
    (P := fun s : System ClockReplacer (Fin 2) =>
      s.manager.frameMeta 0 = ⟨some 1, 1, true, 1, .resident⟩ ∧ s.entry 1 = {} ∧
        (∀ t, s.pc t = .idle) ∧ ∀ g ∈ s.guards, g.valid = false)
    (show (System.runNew (fun _ _ => True) 1 2 [.call (0 : Fin 2) .newPage, .drop 0,
      .call 0 .newPage, .call 1 (.deletePage 1), .transfer 0, .resume 0]).any _ = true by
        decide +kernel)
  refine ⟨s, hreach.of_under, hmeta, hentry, hidle, hguards, fun h => ?_⟩
  obtain ⟨p, hp, he⟩ := h.entry_of_frame 0 .resident (by rw [hmeta]; rfl)
  rw [hmeta] at hp
  obtain rfl := Option.some.inj hp
  rw [hentry] at he
  cases he

end BufferManager
