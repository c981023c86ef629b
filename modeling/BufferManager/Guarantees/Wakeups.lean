/-
  Guarantees/Wakeups.lean --- no wakeup on `state_changed_` is lost.

  A thread asleep still has the reason it fell asleep for, and that reason is the
  work of exactly one thread that is inside an unlocked window.  The window ends
  with `notify_all`, in the critical section that ends the load or the eviction, so
  no sleeper outlives it.  None of this depends on the clients.
-/
import BufferManager.Protocol.Wakeups
import BufferManager.Refinement.Runs

set_option autoImplicit false

namespace BufferManager

open BufferManager.Lib BufferManager.Protocol BufferManager.Refinement

/-! ## Windows -/

/-- An unlocked window: a page that is loaded into a frame, or evicted from one. -/
inductive Window where
  | load (pageId frameId : Nat)
  | evict (pageId frameId : Nat)

namespace Window

def pageId : Window → Nat
  | .load p _ | .evict p _ => p

def frameId : Window → Nat
  | .load _ f | .evict _ f => f

/-- The state of the window's page. -/
def pageState : Window → PageState
  | .load _ _ => .loading
  | .evict _ _ => .evicting

/-- The state of the window's frame. -/
def frameState : Window → FrameState
  | .load _ _ => .loading
  | .evict _ _ => .evicting

/-- Where the page is during the window. -/
def place : Window → Place
  | .load _ f => .loading f
  | .evict _ f => .evicting f

end Window

/-- The window a thread is in: around `ReadPage`, around the eviction's `WritePage`, or
the empty one of a clean eviction. -/
def Pc.window : Pc → Option Window
  | .reading p f _ => some (.load p f)
  | .evicting _ ev _ => some (.evict ev.oldPageId ev.frameId)
  | _ => none

theorem Pc.window_site (pc : Pc) : pc.site.window = pc.window := by cases pc <;> rfl

/-- A page that is loaded or evicted. -/
def PageState.isTransient : PageState → Prop
  | .loading | .evicting => True
  | .unused | .nonResident | .resident => False

/-- A frame that is loaded into or evicted from. -/
def FrameState.isTransient : FrameState → Prop
  | .loading | .evicting => True
  | .free | .resident => False

namespace System

variable {R τ : Type}

/-- The reason for which thread `t` sleeps: its page is loaded or evicted, or, where it
waits for a frame, some frame is. -/
def Waits (s : System R τ) (t : τ) : Prop :=
  (∃ v, s.pc t = .waitPage v ∧ (s.entry v.pageId).state.isTransient) ∨
    ∃ a f, s.pc t = .waitFrame a ∧ f < s.manager.frameCount ∧
      (s.manager.frameMeta f).state.isTransient

end System

/-! ## The protocol's view of a window -/

namespace Protocol

variable {τ : Type} [DecidableEq τ] {n N : Nat} {complete : Prop} {c c' : Cfg τ} {t : τ}

/-- A piece of a call that ends a load or an eviction leaves no earlier sleeper
asleep, its own thread apart. -/
theorem hushed_of_path {es : List (Event τ)} (h : Path (StepBy n N complete t) c es c')
    (hI : Owned n c) :
    (∀ u, u ≠ t → u ∉ c'.asleep) ∨ ∀ f, (c.frame f).transient → c'.frame f = c.frame f := by
  induction h with
  | nil => exact Or.inr fun _ _ => rfl
  | @cons c c₁ c' e es hstep hrest ih =>
    have hquiet : (∀ u, u ≠ t → u ∉ c₁.asleep) → ∀ u, u ≠ t → u ∉ c'.asleep := by
      intro h u hu
      refine hrest.preserves (P := fun _ => True) (I := fun c₂ => u ∉ c₂.asleep) ?_
        (fun _ _ => trivial) (h u hu)
      exact fun _ _ _ _ hst hno hmem => hno (hst.sleepers u hu hmem)
    rcases hstep.step.hushed hI with hempty | hframe
    · exact Or.inl (hquiet fun u _ hu => by simp [hempty] at hu)
    · rcases ih (Owned.step hstep.step hI) with hsleep | hframe'
      · exact Or.inl hsleep
      · refine Or.inr fun f hf => ?_
        have hsame := hframe f hf
        rw [hframe' f (hsame ▸ hf), hsame]

end Protocol

namespace Refinement

variable {R τ : Type} [Replacer R] [LawfulReplacer R] {n N : Nat} {s : System R τ} {c : Cfg τ}
  {t : τ}

namespace Sim

theorem place_transient (hS : Sim n N s c) (p : Nat) :
    (s.entry p).state.isTransient ↔ (c.place p).transient := by
  rw [hS.entry_eq]
  cases c.place p <;> exact Iff.rfl

theorem frame_transient (hS : Sim n N s c) (f : Nat) :
    (s.manager.frameMeta f).state.isTransient ↔ (c.frame f).transient := by
  rw [hS.rep.frameMeta]
  cases c.frame f <;> exact Iff.rfl

theorem lt_of_transient (hS : Sim n N s c) (hI : Owned n c) {f : Nat}
    (hf : (c.frame f).transient) : f < s.manager.frameCount := by
  rw [hS.rep.frameCount]
  apply hI.allocated_lt
  apply hI.allocated_of_use
  intro hfree
  rw [hfree] at hf
  exact hf

theorem waits (hS : Sim n N s c) (hI : Owned n c) (h : c.Waits t) : s.Waits t := by
  have hphase := hS.phase t
  rcases h with ⟨v, hv, hp⟩ | ⟨a, f, ha, hf⟩
  · rw [hv] at hphase
    exact Or.inl ⟨v, (Phase.suspended.inj hphase).symm, (hS.place_transient _).mpr hp⟩
  · rw [ha] at hphase
    exact Or.inr ⟨a, f, (Phase.suspended.inj hphase).symm, hS.lt_of_transient hI hf,
      (hS.frame_transient f).mpr hf⟩

/-! ### Whose a window is -/

/-- A thread in a window has the window's frame to itself, in the use of the window. -/
theorem claim_of_window (hS : Sim n N s c) {w : Window} (h : (s.pc t).window = some w) :
    ∃ u, (c.phase t).claim = some (w.frameId, u) ∧
      u.place w.frameId = some (w.pageId, w.place) ∧
      u.meta.pageId = some w.pageId ∧ u.meta.state = w.frameState := by
  have hphase := hS.phase t
  cases hpc : s.pc t with
  | reading p f io =>
    rw [hpc] at h hphase
    obtain rfl := Option.some.inj h
    exact ⟨.loading p, by rw [hphase]; rfl, rfl, rfl, rfl⟩
  | evicting a ev io =>
    rw [hpc] at h hphase
    obtain rfl := Option.some.inj h
    exact ⟨.evicting ev.oldPageId ev.dirty ev.dirtyEpoch, by rw [hphase]; rfl, rfl, rfl, rfl⟩
  | idle => simp [hpc, Pc.window] at h
  | waitPage v => simp [hpc, Pc.window] at h
  | waitFrame a => simp [hpc, Pc.window] at h
  | writing p f epoch caller io => simp [hpc, Pc.window] at h
  | nextFlush p rest => simp [hpc, Pc.window] at h

/-- A frame in transition is so in a window. -/
theorem window_of_claim (hS : Sim n N s c) {f : Nat} {u : Use} (hu : u.transient)
    (h : (c.phase t).claim = some (f, u)) :
    ∃ w, (s.pc t).window = some w ∧ w.frameId = f ∧ u.place f = some (w.pageId, w.place) ∧
      u.meta.state = w.frameState := by
  rw [hS.phase] at h
  cases hpc : s.pc t with
  | reading p g io =>
    rw [hpc] at h
    obtain ⟨rfl, rfl⟩ := Prod.mk.inj (Option.some.inj h)
    exact ⟨_, rfl, rfl, rfl, rfl⟩
  | evicting a ev io =>
    rw [hpc] at h
    obtain ⟨rfl, rfl⟩ := Prod.mk.inj (Option.some.inj h)
    exact ⟨_, rfl, rfl, rfl, rfl⟩
  | idle => simp [hpc, Phase.claim] at h
  | waitPage v => simp [hpc, Phase.claim] at h
  | waitFrame a => simp [hpc, Phase.claim] at h
  | writing p g epoch caller io => simp [hpc, Phase.claim] at h
  | nextFlush p rest => simp [hpc, Phase.claim] at h

/-- A thread in a window keeps its page and its frame in the states of the window. -/
theorem entry_of_window (hS : Sim n N s c) (hI : Owned n c) {w : Window}
    (h : (s.pc t).window = some w) :
    s.entry w.pageId = ⟨w.pageState, some w.frameId⟩ ∧
      (s.manager.frameMeta w.frameId).pageId = some w.pageId ∧
      (s.manager.frameMeta w.frameId).state = w.frameState := by
  obtain ⟨u, hclaim, hplace, hpage, hstate⟩ := hS.claim_of_window h
  have huse := hI.claim_use _ _ _ hclaim
  refine ⟨?_, by rw [hS.rep.frameMeta, huse, hpage], by rw [hS.rep.frameMeta, huse, hstate]⟩
  rw [hS.entry_eq, hI.place_of_use _ _ _ (huse ▸ hplace)]
  cases w <;> rfl

theorem window_unique (hS : Sim n N s c) (hI : Owned n c) {t u : τ} {w x : Window}
    (ht : (s.pc t).window = some w) (hu : (s.pc u).window = some x)
    (hf : w.frameId = x.frameId) : t = u := by
  obtain ⟨a, hclaim, -⟩ := hS.claim_of_window ht
  obtain ⟨b, hclaim', -⟩ := hS.claim_of_window hu
  rw [← hf] at hclaim'
  exact hI.claim_unique _ _ _ _ _ hclaim hclaim'

/-- A frame in transition belongs to one thread, which is in its window. -/
theorem frame_window (hS : Sim n N s c) (hI : Owned n c) {f : Nat}
    (h : (s.manager.frameMeta f).state.isTransient) :
    ∃ t w, (s.pc t).window = some w ∧ w.frameId = f ∧
      w.frameState = (s.manager.frameMeta f).state := by
  have hu := (hS.frame_transient f).mp h
  obtain ⟨t, hclaim⟩ := hI.transient_claimed f hu
  obtain ⟨w, hw, hf, -, hstate⟩ := hS.window_of_claim hu hclaim
  exact ⟨t, w, hw, hf, by rw [hS.rep.frameMeta, hstate]⟩

/-- A page in transition belongs to one thread, which is in its window. -/
theorem page_window (hS : Sim n N s c) (hI : Owned n c) {p : Nat}
    (h : (s.entry p).state.isTransient) :
    ∃ t w, (s.pc t).window = some w ∧ w.pageId = p ∧ w.pageState = (s.entry p).state := by
  have hp := (hS.place_transient p).mp h
  obtain ⟨f, hf⟩ : ∃ f, (c.place p).frame = some f := by
    cases hx : c.place p <;> simp [hx, Place.transient, Place.frame] at hp ⊢
  have huse := hI.use_of_place p f hf
  have hu : (c.frame f).transient := by
    cases hx : c.frame f with
    | resident r =>
      rw [hx, Use.place] at huse
      split at huse
      · rw [← (Prod.mk.inj (Option.some.inj huse)).2] at hp
        exact hp.elim
      · cases huse
    | free =>
      rw [hx] at huse
      cases huse
    | loading q => trivial
    | evicting q d e => trivial
  obtain ⟨t, hclaim⟩ := hI.transient_claimed f hu
  obtain ⟨w, hw, -, hplace, -⟩ := hS.window_of_claim hu hclaim
  obtain ⟨rfl, hplace⟩ := Prod.mk.inj (Option.some.inj (huse.symm.trans hplace))
  refine ⟨t, w, hw, rfl, ?_⟩
  rw [hS.entry_eq, hplace]
  cases w <;> rfl

/-- A sleeper's reason is some thread's window. -/
theorem window_of_waits (hS : Sim n N s c) (hI : Owned n c) (h : s.Waits t) :
    ∃ u w, (s.pc u).window = some w := by
  rcases h with ⟨v, -, hp⟩ | ⟨a, f, -, -, hf⟩
  · obtain ⟨u, w, hw, -⟩ := hS.page_window hI hp
    exact ⟨u, w, hw⟩
  · obtain ⟨u, w, hw, -⟩ := hS.frame_window hI hf
    exact ⟨u, w, hw⟩

end Sim

variable [DecidableEq τ]

omit [LawfulReplacer R] in
/-- Only a thread's own return to `mutex_` takes it out of its window. -/
theorem window_of_step {action : Action τ} {s' : System R τ} {out : Outcome}
    (hstep : s.step action = some (s', out)) (hne : action ≠ .resume t) {w : Window}
    (h : (s.pc t).window = some w) : (s'.pc t).window = some w := by
  have hidle : s.pc t ≠ .idle := by
    intro hidle
    rw [hidle] at h
    cases h
  rw [← Pc.window_site, System.site_of_step hstep hne hidle, Pc.window_site, h]

variable [Fintype τ]

/-- What keeps sleepers awake holds in every configuration. -/
theorem wakeful_of_reachable (h : Reachable (System.Initial n N) System.Trans s) :
    Holds n N Wakeful s := by
  have h' : Reachable (System.Initial n N) (Under (fun _ _ => True) System.Trans) s :=
    h.mono fun _ _ _ hst => ⟨trivial, hst⟩
  refine lift (P := fun _ => True) ?_ ?_ (fun _ _ _ _ _ => trivial) h'
  · intro disk t ht
    exact absurd ht (Finset.notMem_empty t)
  · exact fun c e c' _ hst hs hW => Wakeful.step hst hs.owned hW

/-- The end of a window wakes every sleeper. -/
theorem window_ends (hS : Sim n N s c) (hsound : Sound n N c) (hW : Wakeful c)
    {action : Action τ} {s' : System R τ} {out : Outcome}
    (hstep : s.step action = some (s', out)) {w : Window} (h : (s.pc t).window = some w)
    (hleft : s'.entry w.pageId ≠ s.entry w.pageId ∨
      (s'.manager.frameMeta w.frameId).state ≠ (s.manager.frameMeta w.frameId).state) :
    action = .resume t ∧ ∀ u ∈ s.manager.asleep, u ∉ s'.manager.asleep := by
  have hold := hS.entry_of_window hsound.owned h
  have hresume : action = .resume t := by
    by_contra hne
    obtain ⟨es, c', hsimulated, -⟩ := step_simulated hS hsound.owned hsound.within hstep
    have hnew := hsimulated.sim.entry_of_window (Owned.path hsimulated.path hsound.owned)
      (window_of_step hstep hne h)
    rw [hold.1, hnew.1, hold.2.2, hnew.2.2] at hleft
    simp at hleft
  subst hresume
  refine ⟨rfl, ?_⟩
  obtain ⟨es, c', hsim⟩ := resume_simulated hS hsound.owned hsound.within hstep
  have hI' := owned_of_path hsim.path hsound.owned
  obtain ⟨a, hclaim, hplace, -, hstate⟩ := hS.claim_of_window h
  have huse := hsound.owned.claim_use _ _ _ hclaim
  have htransient : (c.frame w.frameId).transient := by
    rw [← hS.frame_transient, hold.2.2]
    cases w <;> trivial
  rcases hushed_of_path hsim.path hsound.owned with hquiet | hframe
  · intro u hu
    rw [hsim.sim.rep.asleep]
    apply hquiet
    rintro rfl
    -- A thread in a window does not sleep.
    rw [hS.rep.asleep] at hu
    rcases hW u hu with ⟨v, hv, -⟩ | ⟨b, f, hb, -⟩
    · rw [hS.phase, Phase.suspended.injEq] at hv
      rw [hv] at h
      cases h
    · rw [hS.phase, Phase.suspended.injEq] at hb
      rw [hb] at h
      cases h
  · have hsame := hframe _ htransient
    rw [huse] at hsame
    have hentry : s'.entry w.pageId = s.entry w.pageId := by
      rw [hsim.sim.entry_eq, hS.entry_eq, hI'.place_of_use _ _ _ (hsame ▸ hplace),
        hsound.owned.place_of_use _ _ _ (huse ▸ hplace)]
    have hframe' : (s'.manager.frameMeta w.frameId).state =
        (s.manager.frameMeta w.frameId).state := by
      rw [hsim.sim.rep.frameMeta, hS.rep.frameMeta, hsame, huse]
    simp [hentry, hframe'] at hleft

end Refinement

/-! ## No lost wakeup -/

variable {R τ : Type} [Replacer R] [LawfulReplacer R] [Fintype τ] [DecidableEq τ] {n N : Nat}
  {s : System R τ}

/-- A sleeper has its reason, the reason is the window of exactly one thread, and the
step that takes the page or the frame of a window out of its state is the step in which
that thread comes back, and wakes every sleeper; so nobody sleeps while no thread is in
a window. -/
theorem no_lost_wakeup (h : Reachable (System.Initial n N) System.Trans s) :
    (∀ t ∈ s.manager.asleep, s.Waits t) ∧
    (∀ p, (s.entry p).state.isTransient → ∃! t, ∃ w, (s.pc t).window = some w ∧
      w.pageId = p ∧ w.pageState = (s.entry p).state) ∧
    (∀ f, (s.manager.frameMeta f).state.isTransient → ∃! t, ∃ w, (s.pc t).window = some w ∧
      w.frameId = f ∧ w.frameState = (s.manager.frameMeta f).state) ∧
    (∀ t w action s' out, (s.pc t).window = some w → s.step action = some (s', out) →
      s'.entry w.pageId ≠ s.entry w.pageId ∨
        (s'.manager.frameMeta w.frameId).state ≠ (s.manager.frameMeta w.frameId).state →
      action = .resume t ∧ ∀ u ∈ s.manager.asleep, u ∉ s'.manager.asleep) ∧
    (s.manager.asleep.Nonempty → ∃ t w, (s.pc t).window = some w) := by
  obtain ⟨c, hS, hsound, hW⟩ := wakeful_of_reachable h
  have hwaits : ∀ t ∈ s.manager.asleep, s.Waits t := by
    intro t ht
    rw [hS.rep.asleep] at ht
    exact hS.waits hsound.owned (hW t ht)
  refine ⟨hwaits, ?_, ?_, ?_, ?_⟩
  · intro p hp
    obtain ⟨t, w, hw, hpage, hstate⟩ := hS.page_window hsound.owned hp
    refine ⟨t, ⟨w, hw, hpage, hstate⟩, ?_⟩
    rintro u ⟨x, hx, hpage', -⟩
    refine hS.window_unique hsound.owned hx hw ?_
    -- The page's entry names the frame of either window.
    have h₁ := (hS.entry_of_window hsound.owned hx).1
    have h₂ := (hS.entry_of_window hsound.owned hw).1
    rw [hpage', ← hpage, h₂] at h₁
    exact (Option.some.inj (congrArg Entry.frameId h₁)).symm
  · intro f hf
    obtain ⟨t, w, hw, hframe, hstate⟩ := hS.frame_window hsound.owned hf
    refine ⟨t, ⟨w, hw, hframe, hstate⟩, ?_⟩
    rintro u ⟨x, hx, hframe', -⟩
    exact hS.window_unique hsound.owned hx hw (by rw [hframe, hframe'])
  · intro t w action s' out hw hstep hleft
    exact window_ends hS hsound hW hstep hw hleft
  · rintro ⟨t, ht⟩
    exact hS.window_of_waits hsound.owned (hwaits t ht)

/-- One frame and two ids: while the eviction of page `0` writes, the other thread
sleeps on that page. -/
theorem no_lost_wakeup_evicting : ∃ s : System ClockReplacer (Fin 2),
    s.manager.asleep = {1} ∧ s.Waits 1 := by
  obtain ⟨s, hreach, hasleep⟩ := exists_of_runNew (n := 1) (N := 2)
    (P := fun s : System ClockReplacer (Fin 2) => s.manager.asleep = {1})
    (show (System.runNew (fun _ _ => True) 1 2 [.call (0 : Fin 2) .newPage, .drop 0,
      .call 0 .newPage, .call 1 (.fetchPage 0)]).any _ = true by decide +kernel)
  exact ⟨s, hasleep, (no_lost_wakeup hreach.of_under).1 1 (by simp [hasleep])⟩

end BufferManager
