/-
  Refinement/Runs.lean --- what the protocol keeps, the system keeps.

  `Sound` is what every configuration of a run satisfies without an assumption.
  `lift` carries an invariant of the protocol over to the reachable states of the
  system; the steps of the run may be restricted, if the restriction rules out the
  events the invariant cannot bear.  `lift_kept` does the same for an invariant
  that also speaks of an account kept of the run's notes.
-/
import BufferManager.Protocol.Pins
import BufferManager.Refinement.Simulation

set_option autoImplicit false

namespace BufferManager

open BufferManager.Lib

namespace Protocol

variable {τ : Type} [Fintype τ] {n N : Nat} {c : Cfg τ}

/-- What holds in every configuration. -/
structure Sound (n N : Nat) (c : Cfg τ) : Prop where
  owned : Owned n c
  within : Within N c
  covered : Covered c

theorem Sound.step [DecidableEq τ] {complete : Prop} {e : Event τ} {c' : Cfg τ}
    (h : Step n N complete c e c') (hS : Sound n N c) : Sound n N c' :=
  ⟨.step h hS.owned, .step h hS.within, .step h hS.owned hS.covered⟩

/-- The configuration of a freshly constructed manager. -/
def Cfg.initial (N : Nat) (disk : Nat → Page) : Cfg τ where
  place := fun _ => .unused
  upcoming := List.range N
  frame := fun _ => .free
  allocated := ∅
  present := ∅
  evictable := ∅
  bytes := fun _ => Page.zero
  disk := disk
  asleep := ∅
  phase := fun _ => .suspended .idle
  guards := []

theorem Sound.initial (disk : Nat → Page) : Sound n N (Cfg.initial N disk : Cfg τ) where
  owned := by
    constructor <;> simp [Cfg.initial, Use.place, Place.frame, Phase.claim, Use.transient,
      List.nodup_range]
  within := by simp [Within, Cfg.initial, Phase.acquires]
  covered := by simp [Covered, Cfg.initial]

theorem Pinned.initial (disk : Nat → Page) : Pinned (Cfg.initial N disk : Cfg τ) := by
  constructor <;> simp [Cfg.initial, Cfg.refs, Cfg.guardsOn, Cfg.writersOn, Phase.writes]

end Protocol

namespace Refinement

open BufferManager.Protocol

variable {R τ : Type} [Replacer R] [LawfulReplacer R] [Fintype τ] [DecidableEq τ]
  {n N : Nat} {s : System R τ}

omit [Fintype τ] [DecidableEq τ] in
theorem Sim.initial (h : System.Initial n N s) : ∃ disk, Sim n N s (Cfg.initial N disk) := by
  obtain ⟨replacer, disk, hinv, hpresent, hmake⟩ := h
  unfold System.make at hmake
  cases hfa : FrameAllocator.make n with
  | error e => rw [hfa] at hmake; cases hmake
  | ok fa =>
    cases hpt : PageTable.make N with
    | error e => rw [hfa, hpt] at hmake; cases hmake
    | ok pt =>
      rw [hfa, hpt] at hmake
      obtain rfl := Except.ok.inj hmake
      obtain ⟨-, hfainv, hallocated, hcount, hframes⟩ := FrameAllocator.make_spec hfa
      obtain ⟨-, hptinv, hpages, hmax, hupcoming⟩ := PageTable.make_spec hpt
      have hevictable : LawfulReplacer.evictable replacer = ∅ :=
        Set.subset_empty_iff.mp (hpresent ▸ LawfulReplacer.evictable_subset hinv)
      exact ⟨disk, {
        rep := {
          frameCount := rfl
          allocator_inv := hfainv
          allocator_count := hcount
          allocated := hallocated
          bytes := hframes
          table_inv := hptinv
          maxPageCount := hmax
          pages := hpages
          upcoming := hupcoming
          replacer_inv := hinv
          present := hpresent
          evictable := hevictable
          frameMeta := fun _ => rfl
          asleep := rfl }
        disk := rfl
        phase := fun _ => rfl
        guards := rfl }⟩

omit [Fintype τ] [DecidableEq τ] in
/-- The manager that makes its own replacer is a freshly constructed one. -/
theorem initial_makeWithClock {s : System ClockReplacer τ} {disk : Nat → Page}
    (h : System.makeWithClock n N disk = .ok s) : System.Initial n N s := by
  unfold System.makeWithClock at h
  cases hr : ClockReplacer.make n with
  | error e => rw [hr] at h; cases h
  | ok r =>
    rw [hr] at h
    obtain ⟨hinv, hpresent⟩ := ClockReplacer.make_spec hr
    exact ⟨r, disk, hinv, hpresent, h⟩

variable {ok : System R τ → Action τ × Outcome → Prop}

omit [LawfulReplacer R] [Fintype τ] in
/-- A run that has been computed is a path. -/
theorem path_of_run [∀ s l, Decidable (ok s l)] {actions : List (Action τ)} {s' : System R τ}
    (h : s.run ok actions = some s') :
    ∃ ls, Path (Under ok System.Trans) s ls s' ∧ ls.map Prod.fst = actions := by
  induction actions generalizing s with
  | nil =>
    obtain rfl := Option.some.inj h
    exact ⟨[], .nil s, rfl⟩
  | cons a rest ih =>
    rw [System.run] at h
    split at h
    · cases h
    · cases h
    · next s₁ out hne hstep =>
      split at h
      · next hok =>
        obtain ⟨ls, hpath, rfl⟩ := ih h
        exact ⟨(a, out) :: ls, .cons ⟨hok, hstep, hne⟩ hpath, rfl⟩
      · cases h

omit [Fintype τ] in
/-- Where a list of allowed actions leads from construction is reachable. -/
theorem reachable_of_runNew {ok : System ClockReplacer τ → Action τ × Outcome → Prop}
    [∀ s l, Decidable (ok s l)] {actions : List (Action τ)} {s : System ClockReplacer τ}
    (h : System.runNew ok n N actions = some s) :
    Reachable (System.Initial n N) (Under ok System.Trans) s := by
  unfold System.runNew at h
  split at h
  · next s₀ hs₀ =>
    obtain ⟨ls, hpath, -⟩ := path_of_run h
    exact Reachable.of_path (.init (initial_makeWithClock hs₀)) hpath
  · cases h

omit [Fintype τ] in
/-- A run that has been computed, with a fact about where it leads. -/
theorem exists_of_runNew {A : System ClockReplacer τ → Action τ × Outcome → Prop}
    [∀ s l, Decidable (A s l)] {l : List (Action τ)}
    {P : System ClockReplacer τ → Prop} [DecidablePred P]
    (h : (System.runNew A n N l).any (fun s => decide (P s)) = true) :
    ∃ s, Reachable (System.Initial n N) (Under A System.Trans) s ∧ P s := by
  obtain ⟨s, hs, hP⟩ := (Option.any_eq_true _ _).mp h
  exact ⟨s, reachable_of_runNew hs, of_decide_eq_true hP⟩

/-! ## Reachable states -/

/-- The system is in a configuration with a property, besides what always holds. -/
def Holds (n N : Nat) (I : Cfg τ → Prop) (s : System R τ) : Prop :=
  ∃ c, Sim n N s c ∧ Sound n N c ∧ I c

variable {P : Event τ → Prop}
  {I : Cfg τ → Prop}

/-- One step, through the configurations of its path. -/
theorem Holds.step
    (hI : ∀ c e c', P e → Step n N (CompleteReplacer R) c e c' → Sound n N c → I c → I c')
    {l : Action τ × Outcome} {s' : System R τ}
    (hok : ∀ e : Event τ, e.Explained (s.hazards l.1) → P e) (h : Holds n N I s)
    (hstep : System.Trans s l s') : Holds n N I s' := by
  obtain ⟨c, hsim, hsound, hc⟩ := h
  obtain ⟨es, c', hsimulated, -⟩ := step_simulated hsim hsound.owned hsound.within hstep.1
  refine ⟨c', hsimulated.sim, ?_⟩
  exact hsimulated.path.preserves (P := P) (I := fun c => Sound n N c ∧ I c)
    (fun c e c' he hst ⟨hs, hi⟩ => ⟨hs.step hst, hI c e c' he hst hs hi⟩)
    (fun e he => hok e (hsimulated.told.explained e he)) ⟨hsound, hc⟩

/-- A call that throws has a reason to. -/
theorem Holds.fails (h : Holds n N I s) {action : Action τ} {s' : System R τ} {e : Error}
    (hcall : (∃ t call, action = .call t call) ∨ ∃ t, action = .resume t)
    (hstep : s.step action = some (s', .threw e)) : s.Fails action e := by
  obtain ⟨c, hsim, hsound, -⟩ := h
  obtain ⟨t, call, rfl⟩ | ⟨t, rfl⟩ := hcall
  · obtain ⟨es, c', h⟩ := call_simulated hsim hsound.owned hsound.within hstep
    exact h.threw e rfl
  · obtain ⟨es, c', h⟩ := resume_simulated hsim hsound.owned hsound.within hstep
    exact h.threw e rfl

omit [LawfulReplacer R] [Fintype τ] in
/-- Only a call hands out a guard. -/
theorem calls_of_returned_guard {action : Action τ} {s' : System R τ} {g : PageGuard}
    (hstep : s.step action = some (s', .returned (.guard g))) :
    (∃ t call, action = .call t call) ∨ ∃ t, action = .resume t := by
  have hpair : ∀ {o : Option (System R τ)}, o.map (·, Outcome.suspended) ≠
      some (s', .returned (.guard g)) := by
    intro o h
    obtain ⟨s₁, -, heq⟩ := Option.map_eq_some_iff.mp h
    cases heq
  cases action with
  | call t call => exact Or.inl ⟨t, call, rfl⟩
  | resume t => exact Or.inr ⟨t, rfl⟩
  | transfer t | failRead t left e | failWrite t k e => exact absurd hstep hpair
  | read slot | write slot page | drop slot | destroy slot =>
    obtain ⟨g', -, heq⟩ := Option.map_eq_some_iff.mp hstep
    split at heq <;> cases heq
  | markDirty slot =>
    obtain ⟨g', -, heq⟩ := Option.map_eq_some_iff.mp hstep
    unfold System.markGuard at heq
    split at heq
    · split at heq <;> cases heq
    · cases heq
  | moveConstruct slot =>
    obtain ⟨g', -, heq⟩ := Option.map_eq_some_iff.mp hstep
    cases heq
  | moveAssign slot source =>
    simp only [System.step] at hstep
    split at hstep
    · split at hstep
      · cases hstep
      · split at hstep <;> cases hstep
    · cases hstep

/-- A guard is handed out on a resident page. -/
theorem Sim.entry_of_returned {c : Cfg τ} (hS : Sim n N s c) (hsound : Sound n N c)
    {action : Action τ} {s' : System R τ} {g : PageGuard}
    (hstep : s.step action = some (s', .returned (.guard g))) :
    s'.entry g.pageId = ⟨.resident, some g.frameId⟩ := by
  obtain ⟨t, call, rfl⟩ | ⟨t, rfl⟩ := calls_of_returned_guard hstep
  · obtain ⟨es, c', h⟩ := call_simulated hS hsound.owned hsound.within hstep
    exact h.sim.entry_of_place (h.lands g rfl)
  · obtain ⟨es, c', h⟩ := resume_simulated hS hsound.owned hsound.within hstep
    exact h.sim.entry_of_place (h.lands g rfl)

/-- An invariant of the protocol holds in every state of the system's runs. -/
theorem lift (hinit : ∀ disk, I (Cfg.initial N disk))
    (hI : ∀ c e c', P e → Step n N (CompleteReplacer R) c e c' → Sound n N c → I c → I c')
    (hok : ∀ s l, ok s l → ∀ e : Event τ, e.Explained (s.hazards l.1) → P e)
    (h : Reachable (System.Initial n N) (Under ok System.Trans) s) : Holds n N I s := by
  refine h.invariant (fun s hs => ?_) fun s l s' hs hst => hs.step hI (hok s l hst.1) hst.2
  obtain ⟨disk, hsim⟩ := Sim.initial hs
  exact ⟨_, hsim, Sound.initial disk, hinit disk⟩

/-! ## Runs with an account -/

variable {γ : Type} {upd : γ → Note τ → γ} {A : γ → Note τ → Prop} {g₀ : γ}
  {J : Cfg τ → γ → Prop}

/-- A step of a run in which an account is kept of what is noted. -/
def Kept (upd : γ → Note τ → γ) : System R τ × γ → Action τ × Outcome → System R τ × γ → Prop :=
  Recorded (fun g s l => (s.notes l.1 l.2).foldl upd g) System.Trans

omit [LawfulReplacer R] [Fintype τ] in
/-- A run with a history that has been computed is a path. -/
theorem path_of_runRecorded {next : γ → System R τ → Action τ × Outcome → γ}
    {A : System R τ × γ → Action τ × Outcome → Prop} [∀ x l, Decidable (A x l)]
    {actions : List (Action τ)} {x x' : System R τ × γ}
    (h : System.runRecorded next A x actions = some x') :
    ∃ ls, Path (Under A (Recorded next System.Trans)) x ls x' ∧ ls.map Prod.fst = actions := by
  induction actions generalizing x with
  | nil =>
    obtain rfl := Option.some.inj h
    exact ⟨[], .nil x, rfl⟩
  | cons a rest ih =>
    rw [System.runRecorded] at h
    split at h
    · cases h
    · cases h
    · next s₁ out hne hstep =>
      split at h
      · next hok =>
        obtain ⟨ls, hpath, rfl⟩ := ih h
        exact ⟨(a, out) :: ls, .cons ⟨hok, ⟨hstep, hne⟩, rfl⟩ hpath, rfl⟩
      · cases h

omit [Fintype τ] in
/-- A run with a history that has been computed, with a fact about where it leads. -/
theorem exists_of_runRecordedNew {next : γ → System ClockReplacer τ → Action τ × Outcome → γ}
    {A : System ClockReplacer τ × γ → Action τ × Outcome → Prop} [∀ x l, Decidable (A x l)]
    {l : List (Action τ)} {P : System ClockReplacer τ × γ → Prop} [DecidablePred P]
    (h : (System.runRecordedNew next A g₀ n N l).any (fun x => decide (P x)) = true) :
    ∃ x, Reachable (fun x => System.Initial n N x.1 ∧ x.2 = g₀)
      (Under A (Recorded next System.Trans)) x ∧ P x := by
  obtain ⟨x, hx, hP⟩ := (Option.any_eq_true _ _).mp h
  refine ⟨x, ?_, of_decide_eq_true hP⟩
  unfold System.runRecordedNew at hx
  split at hx
  · next s₀ hs₀ =>
    obtain ⟨ls, hpath, -⟩ := path_of_runRecorded hx
    exact Reachable.of_path (.init ⟨initial_makeWithClock hs₀, rfl⟩) hpath
  · cases hx

omit [LawfulReplacer R] [Fintype τ] in
theorem runKept_eq {A : System R τ × γ → Action τ × Outcome → Prop} [∀ x l, Decidable (A x l)]
    (x : System R τ × γ) (l : List (Action τ)) : System.runKept upd A x l =
      System.runRecorded (fun g s l => (s.notes l.1 l.2).foldl upd g) A x l := by
  induction l generalizing x with
  | nil => rfl
  | cons a rest ih =>
    rw [System.runKept, System.runRecorded]
    split
    · rfl
    · rfl
    · rw [ih]

omit [Fintype τ] in
/-- A run with an account that has been computed, with a fact about where it leads. -/
theorem exists_of_runKeptNew {A : System ClockReplacer τ × γ → Action τ × Outcome → Prop}
    [∀ x l, Decidable (A x l)] {l : List (Action τ)} {P : System ClockReplacer τ × γ → Prop}
    [DecidablePred P]
    (h : (System.runKeptNew upd A g₀ n N l).any (fun x => decide (P x)) = true) :
    ∃ x, Reachable (fun x => System.Initial n N x.1 ∧ x.2 = g₀) (Under A (Kept upd)) x ∧ P x := by
  refine exists_of_runRecordedNew (l := l) ?_
  unfold System.runKeptNew at h
  unfold System.runRecordedNew
  split at h
  · rwa [← runKept_eq]
  · cases h

/-- One step, through the configurations of its path. -/
theorem Holds.step_kept
    (hJ : ∀ c e c' g, P e → (∀ x, e.note = some x → A g x) →
      Step n N (CompleteReplacer R) c e c' → Sound n N c → J c g → J c' (e.enter upd g))
    {l : Action τ × Outcome} {s' : System R τ} {g : γ}
    (hok : ∀ e : Event τ, e.Explained (s.hazards l.1) → P e)
    (hallowed : Admits upd A g (s.notes l.1 l.2)) (h : Holds n N (J · g) s)
    (hstep : System.Trans s l s') : Holds n N (J · ((s.notes l.1 l.2).foldl upd g)) s' := by
  obtain ⟨c, hsim, hsound, hc⟩ := h
  obtain ⟨es, c', hsimulated, -⟩ := step_simulated hsim hsound.owned hsound.within hstep.1
  refine ⟨c', hsimulated.sim, ?_⟩
  rw [← hsimulated.told.notes] at hallowed ⊢
  rw [foldl_filterMap_elim]
  refine hsimulated.path.preserves_history (I := fun c g => Sound n N c ∧ J c g) ?_
    (hallowed.of_filterMap.and (P := fun _ e => P e) fun e he _ =>
      hok e (hsimulated.told.explained e he)) ⟨hsound, hc⟩
  rintro c e c' g ⟨ha, he⟩ hst ⟨hs, hj⟩
  exact ⟨hs.step hst, hJ c e c' g he ha hst hs hj⟩

/-- An invariant of the protocol and the account holds all along the system's runs. -/
theorem lift_kept {ok : System R τ × γ → Action τ × Outcome → Prop} {x : System R τ × γ}
    (hinit : ∀ disk, J (Cfg.initial N disk) g₀)
    (hJ : ∀ c e c' g, P e → (∀ x, e.note = some x → A g x) →
      Step n N (CompleteReplacer R) c e c' → Sound n N c → J c g → J c' (e.enter upd g))
    (hok : ∀ x l, ok x l → (∀ e : Event τ, e.Explained (x.1.hazards l.1) → P e) ∧
      Admits upd A x.2 (x.1.notes l.1 l.2))
    (h : Reachable (fun x => System.Initial n N x.1 ∧ x.2 = g₀) (Under ok (Kept upd)) x) :
    Holds n N (J · x.2) x.1 := by
  refine h.invariant (I := fun x => Holds n N (J · x.2) x.1) ?_ ?_
  · rintro ⟨s, g⟩ ⟨hs, rfl⟩
    obtain ⟨disk, hsim⟩ := Sim.initial hs
    exact ⟨_, hsim, Sound.initial disk, hinit disk⟩
  · rintro ⟨s, g⟩ l ⟨s', g'⟩ hs ⟨hl, hst, hg⟩
    obtain rfl : g' = _ := hg
    exact hs.step_kept hJ (hok _ l hl).1 (hok _ l hl).2 hst

end Refinement

end BufferManager
