/-
  Manager/Machine.lean --- the system with `Sync`, and the medium behind its disk file.

  Source: `src/buffer_manager.cc`, `BufferManager::Sync`; `src/storage/disk_manager.cc`,
  `DiskManager::Sync`, as built for Linux.

  `System.disk` is what a `ReadPage` sees of the file.  The kernel copies it to the medium
  when it likes, in any order and any bytes of it; a crash leaves what is on the medium.
  `Sync` takes `file_mutex_` and calls `fdatasync`, which returns zero only when all that
  had been written before it was called has been copied: what the kernel has not copied by
  then, it copies.  The file is open from the constructor to the destructor, so that
  `Sync` does not find it closed.
-/
import BufferManager.Lib.Transition
import BufferManager.Lib.WriteBack
import BufferManager.Manager.Trace

set_option autoImplicit false

namespace BufferManager

open BufferManager.Lib

/-- The process goes on. -/
def Outcome.survived : Outcome → Bool
  | .terminated => false
  | _ => true

theorem Outcome.ne_terminated {out : Outcome} (h : out.survived = true) : out ≠ .terminated := by
  rintro rfl
  cases h

/-- What a call has returned or thrown. -/
abbrev Reply := Except Error Result

/-- What a step that ends a call leaves for the caller. -/
def Outcome.reply : Outcome → Option Reply
  | .returned r => some (.ok r)
  | .threw e => some (.error e)
  | .suspended | .bytes _ | .terminated => none

theorem Outcome.ne_terminated_of_reply {out : Outcome} {r : Reply} (h : out.reply = some r) :
    out ≠ .terminated := by
  rintro rfl
  cases h

/-- A thread that is in no call stays in none until it begins one. -/
theorem System.idle_of_step {R τ : Type} [Replacer R] [DecidableEq τ] {s s' : System R τ} {t : τ}
    {action : Action τ} {out : Outcome} (hstep : s.step action = some (s', out))
    (hidle : s.pc t = .idle) (hcall : ∀ c, action ≠ .call t c) : s'.pc t = .idle := by
  have hset : ∀ {u : τ} {pc : Pc}, s.pc u ≠ .idle → Function.update s.pc u pc t = .idle := by
    intro u pc hbusy
    rw [Function.update_of_ne (by rintro rfl; exact hbusy hidle), hidle]
  have hsettle : ∀ {u : τ} {piece : Locked R τ Next}, t ≠ u →
      (s.settle u piece).1.pc t = .idle := by
    intro u piece hut
    unfold System.settle
    split <;> exact (Function.update_of_ne hut _ _).trans hidle
  have hdrop : ∀ {slot : Nat} {g : PageGuard}, (s.dropGuard slot g).1.pc t = .idle := by
    intro slot g
    rw [System.dropGuard_pc, hidle]
  cases action with
  | call u c =>
    simp only [System.step] at hstep
    split at hstep
    · obtain rfl := (Prod.mk.inj (Option.some.inj hstep)).1
      refine hsettle ?_
      rintro rfl
      exact hcall c rfl
    · cases hstep
  | resume u =>
    obtain ⟨piece, hpiece, heq⟩ := Option.map_eq_some_iff.mp hstep
    obtain rfl := (Prod.mk.inj heq).1
    refine hsettle ?_
    rintro rfl
    rw [hidle] at hpiece
    cases hpiece
  | transfer u =>
    obtain ⟨s₁, hs₁, heq⟩ := Option.map_eq_some_iff.mp hstep
    obtain rfl := (Prod.mk.inj heq).1
    unfold System.transfer at hs₁
    split at hs₁
    · next hpc =>
      obtain rfl := Option.some.inj hs₁
      exact hset (by simp [hpc])
    · next hpc =>
      obtain rfl := Option.some.inj hs₁
      exact hset (by simp [hpc])
    · next hpc =>
      obtain rfl := Option.some.inj hs₁
      exact hset (by simp [hpc])
    · cases hs₁
  | failRead u left e =>
    obtain ⟨s₁, hs₁, heq⟩ := Option.map_eq_some_iff.mp hstep
    obtain rfl := (Prod.mk.inj heq).1
    unfold System.failRead at hs₁
    split at hs₁
    · next hpc =>
      obtain rfl := Option.some.inj hs₁
      exact hset (by simp [hpc])
    · cases hs₁
  | failWrite u k e =>
    obtain ⟨s₁, hs₁, heq⟩ := Option.map_eq_some_iff.mp hstep
    obtain rfl := (Prod.mk.inj heq).1
    unfold System.failWrite at hs₁
    split at hs₁
    · next hpc =>
      obtain rfl := Option.some.inj hs₁
      exact hset (by simp [hpc])
    · next hpc =>
      obtain rfl := Option.some.inj hs₁
      exact hset (by simp [hpc])
    · cases hs₁
  | read slot | write slot page =>
    obtain ⟨g, -, heq⟩ := Option.map_eq_some_iff.mp hstep
    split at heq
    · obtain rfl := (Prod.mk.inj heq).1
      exact hidle
    · obtain rfl := (Prod.mk.inj heq).1
      exact hidle
  | markDirty slot =>
    obtain ⟨g, -, heq⟩ := Option.map_eq_some_iff.mp hstep
    unfold System.markGuard at heq
    split at heq
    · split at heq
      · obtain rfl := (Prod.mk.inj heq).1
        exact hidle
      · obtain rfl := (Prod.mk.inj heq).1
        exact hidle
    · obtain rfl := (Prod.mk.inj heq).1
      exact hidle
  | drop slot | destroy slot =>
    obtain ⟨g, -, heq⟩ := Option.map_eq_some_iff.mp hstep
    have hpc : (s.dropGuard slot g).1.pc t = .idle := hdrop
    split at heq
    · next hdropped =>
      obtain rfl := (Prod.mk.inj heq).1
      rwa [hdropped] at hpc
    · next hdropped =>
      obtain rfl := (Prod.mk.inj heq).1
      rwa [hdropped] at hpc
  | moveConstruct slot =>
    obtain ⟨g, -, heq⟩ := Option.map_eq_some_iff.mp hstep
    obtain rfl := (Prod.mk.inj heq).1
    exact hidle
  | moveAssign slot source =>
    simp only [System.step] at hstep
    split at hstep
    · next g g' _ _ =>
      have hpc : (s.dropGuard slot g).1.pc t = .idle := hdrop
      split at hstep
      · obtain rfl := (Prod.mk.inj (Option.some.inj hstep)).1
        exact hidle
      · split at hstep
        · next hdropped =>
          obtain rfl := (Prod.mk.inj (Option.some.inj hstep)).1
          rwa [hdropped] at hpc
        · next hdropped =>
          obtain rfl := (Prod.mk.inj (Option.some.inj hstep)).1
          rwa [hdropped] at hpc
    · cases hstep

/-- The system, its medium, and the threads in `Sync`. -/
structure Machine (R τ : Type) where
  system : System R τ
  medium : Nat → Page
  /-- The bytes that have been copied since the last `fdatasync` was called. -/
  reached : Nat → Fin kPageSize → Bool
  /-- The threads that wait for `file_mutex_`. -/
  waiting : Finset τ
  /-- The thread that has `file_mutex_`, and is in `fdatasync`. -/
  fileMutex : Option τ

namespace Machine

/-- What may happen next. -/
inductive Action (τ : Type) where
  /-- A step of the system. -/
  | act (action : BufferManager.Action τ)
  /-- A thread that is in no call begins a `Sync`. -/
  | sync (t : τ)
  /-- A thread gets `file_mutex_` and calls `fdatasync`. -/
  | lockFile (t : τ)
  /-- Its `fdatasync` ends, with an error that `strerror` describes or without one. -/
  | syncEnds (t : τ) (failure : Option String)
  /-- The kernel copies some bytes to the medium. -/
  | writeBack (bytes : Nat → Fin kPageSize → Bool)

variable {R τ : Type} [DecidableEq τ]

/-- The thread is in `Sync`. -/
def InSync (m : Machine R τ) (t : τ) : Prop := t ∈ m.waiting ∨ m.fileMutex = some t

instance (m : Machine R τ) (t : τ) : Decidable (m.InSync t) :=
  inferInstanceAs (Decidable (t ∈ m.waiting ∨ m.fileMutex = some t))

/-- The step is none of a thread that is in `Sync`. -/
def admits (m : Machine R τ) : BufferManager.Action τ → Prop
  | .call t _ => ¬ m.InSync t
  | _ => True

instance (m : Machine R τ) : ∀ action, Decidable (m.admits action)
  | .call t _ => inferInstanceAs (Decidable (¬ m.InSync t))
  | .resume _ | .transfer _ | .failRead _ _ _ | .failWrite _ _ _ | .read _ | .write _ _
  | .markDirty _ | .drop _ | .destroy _ | .moveConstruct _ | .moveAssign _ _ => .isTrue trivial

/-- Some bytes are copied to the medium. -/
def writeBack (m : Machine R τ) (bytes : Nat → Fin kPageSize → Bool) : Machine R τ :=
  { m with
    medium := fun p =>
      ⟨fun j => if bytes p j = true then (m.system.disk p).data j else (m.medium p).data j⟩
    reached := fun p j => m.reached p j || bytes p j }

/-- What has not been copied since `fdatasync` was called is copied. -/
def writeRest (m : Machine R τ) : Machine R τ := m.writeBack fun p j => !m.reached p j

variable [Replacer R]

/-- One step, if it is possible. -/
def step (m : Machine R τ) : Action τ → Option (Machine R τ × Outcome)
  | .act action =>
      if m.admits action then
        (m.system.step action).map fun y => ({ m with system := y.1 }, y.2)
      else none
  | .sync t =>
      if m.system.pc t = .idle ∧ ¬ m.InSync t then
        some ({ m with waiting := insert t m.waiting }, .suspended)
      else none
  | .lockFile t =>
      if t ∈ m.waiting ∧ m.fileMutex = none then
        some ({ m with
          waiting := m.waiting.erase t
          fileMutex := some t
          reached := fun _ _ => false }, .suspended)
      else none
  | .syncEnds t none =>
      if m.fileMutex = some t then some ({ m.writeRest with fileMutex := none }, .returned .unit)
      else none
  | .syncEnds t (some reason) =>
      if m.fileMutex = some t then
        some ({ m with fileMutex := none },
          .threw ⟨.runtimeError, "fdatasync failed: " ++ reason⟩)
      else none
  | .writeBack bytes => some (m.writeBack bytes, .suspended)

/-- A step that the process survives. -/
def Trans (m : Machine R τ) (l : Action τ × Outcome) (m' : Machine R τ) : Prop :=
  m.step l.1 = some (m', l.2) ∧ l.2 ≠ .terminated

omit [DecidableEq τ] in
/-- A manager as constructed, whatever is on the medium. -/
def Initial [LawfulReplacer R] (frameCount maxPageCount : Nat) (m : Machine R τ) : Prop :=
  System.Initial frameCount maxPageCount m.system ∧ m.waiting = ∅ ∧ m.fileMutex = none

omit [DecidableEq τ] [Replacer R] in
/-- The file as a store whose writes reach the medium later. -/
def file (m : Machine R τ) : WriteBack (Nat × Fin kPageSize) UInt8 where
  cache a := (m.system.disk a.1).data a.2
  medium a := (m.medium a.1).data a.2
  reached a := m.reached a.1 a.2

/-- Follow a list of actions from construction and keep a history, over a file and a medium
of zeros, as long as each step is possible, survived and allowed. -/
def runRecordedNew {γ : Type} (next : γ → Machine ClockReplacer τ → Action τ × Outcome → γ)
    (ok : Machine ClockReplacer τ × γ → Action τ × Outcome → Prop) [∀ x l, Decidable (ok x l)]
    (g₀ : γ) (frameCount maxPageCount : Nat) (actions : List (Action τ)) :
    Option (Machine ClockReplacer τ × γ) :=
  match System.makeWithClock frameCount maxPageCount (fun _ => Page.zero) with
  | .ok s => execute step next (fun x l => ok x l ∧ l.2.survived = true)
      (⟨s, fun _ => Page.zero, fun _ _ => false, ∅, none⟩, g₀) actions
  | .error _ => none

/-- What can happen in one step. -/
inductive Cases (m : Machine R τ) : Action τ → Outcome → Machine R τ → Prop where
  | act (action : BufferManager.Action τ) (s' : System R τ) (out : Outcome) : m.admits action →
      m.system.step action = some (s', out) → Cases m (.act action) out { m with system := s' }
  | sync (t : τ) : m.system.pc t = .idle → ¬ m.InSync t →
      Cases m (.sync t) .suspended { m with waiting := insert t m.waiting }
  | lockFile (t : τ) : t ∈ m.waiting → m.fileMutex = none →
      Cases m (.lockFile t) .suspended
        { m with waiting := m.waiting.erase t, fileMutex := some t, reached := fun _ _ => false }
  | synced (t : τ) : m.fileMutex = some t →
      Cases m (.syncEnds t none) (.returned .unit) { m.writeRest with fileMutex := none }
  | syncFailed (t : τ) (reason : String) : m.fileMutex = some t →
      Cases m (.syncEnds t (some reason))
        (.threw ⟨.runtimeError, "fdatasync failed: " ++ reason⟩) { m with fileMutex := none }
  | writeBack (bytes : Nat → Fin kPageSize → Bool) :
      Cases m (.writeBack bytes) .suspended (m.writeBack bytes)

theorem step_cases {m m' : Machine R τ} {action : Action τ} {out : Outcome}
    (h : m.step action = some (m', out)) : m.Cases action out m' := by
  cases action with
  | act action =>
    simp only [step] at h
    split at h
    · next hadmits =>
      obtain ⟨⟨s', out'⟩, hstep, heq⟩ := Option.map_eq_some_iff.mp h
      obtain ⟨rfl, rfl⟩ := Prod.mk.inj heq
      exact .act action s' _ hadmits hstep
    · cases h
  | sync t =>
    simp only [step] at h
    split at h
    · next hidle =>
      obtain ⟨rfl, rfl⟩ := Prod.mk.inj (Option.some.inj h)
      exact .sync t hidle.1 hidle.2
    · cases h
  | lockFile t =>
    simp only [step] at h
    split at h
    · next hwaits =>
      obtain ⟨rfl, rfl⟩ := Prod.mk.inj (Option.some.inj h)
      exact .lockFile t hwaits.1 hwaits.2
    · cases h
  | syncEnds t failure =>
    cases failure with
    | none =>
      simp only [step] at h
      split at h
      · next hmutex =>
        obtain ⟨rfl, rfl⟩ := Prod.mk.inj (Option.some.inj h)
        exact .synced t hmutex
      · cases h
    | some reason =>
      simp only [step] at h
      split at h
      · next hmutex =>
        obtain ⟨rfl, rfl⟩ := Prod.mk.inj (Option.some.inj h)
        exact .syncFailed t reason hmutex
      · cases h
  | writeBack bytes =>
    obtain ⟨rfl, rfl⟩ := Prod.mk.inj (Option.some.inj h)
    exact .writeBack bytes

/-! ## Threads in Sync -/

/-- The thread is in no call. -/
def Quiet (m : Machine R τ) (t : τ) : Prop := m.system.pc t = .idle ∧ ¬ m.InSync t

/-- A thread in `Sync` is in no other call, and does not wait for what it has. -/
structure Apart (m : Machine R τ) : Prop where
  idle : ∀ t, m.InSync t → m.system.pc t = .idle
  owner : ∀ t, m.fileMutex = some t → t ∉ m.waiting

variable {m m' : Machine R τ} {t : τ} {action : Action τ} {out : Outcome}

omit [DecidableEq τ] in
theorem Apart.initial [LawfulReplacer R] {n N : Nat} (h : m.Initial n N) : m.Apart := by
  obtain ⟨-, hwaiting, hmutex⟩ := h
  refine ⟨fun t ht => ?_, fun t ht => ?_⟩
  · rcases ht with hw | hf
    · rw [hwaiting] at hw
      exact absurd hw (Finset.notMem_empty t)
    · rw [hmutex] at hf
      cases hf
  · rw [hmutex] at ht
    cases ht

theorem Apart.step (h : m.Apart) (hstep : m.step action = some (m', out)) : m'.Apart := by
  cases step_cases hstep with
  | act action s' _ hadmits hact =>
    refine ⟨fun t ht => System.idle_of_step hact (h.idle t ht) ?_, h.owner⟩
    rintro c rfl
    exact hadmits ht
  | sync t hidle hout =>
    refine ⟨fun u hu => ?_, fun u hu hwaits => ?_⟩
    · by_cases hut : u = t
      · rw [hut]
        exact hidle
      · refine h.idle u (hu.imp_left fun hw => ?_)
        exact (Finset.mem_insert.mp hw).resolve_left hut
    · rcases Finset.mem_insert.mp hwaits with rfl | hw
      · exact hout (Or.inr hu)
      · exact h.owner u hu hw
  | lockFile t hwaits hfree =>
    refine ⟨fun u hu => ?_, fun u hu hw => ?_⟩
    · rcases hu with hw | hf
      · exact h.idle u (Or.inl (Finset.mem_of_mem_erase hw))
      · obtain rfl := Option.some.inj hf
        exact h.idle t (Or.inl hwaits)
    · obtain rfl := Option.some.inj hu
      exact Finset.notMem_erase t _ hw
  | synced t hmutex | syncFailed t reason hmutex =>
    refine ⟨fun u hu => ?_, fun u hu => by cases hu⟩
    rcases hu with hw | hf
    · exact h.idle u (Or.inl hw)
    · cases hf
  | writeBack bytes => exact ⟨h.idle, h.owner⟩

/-- The thread that begins a call with the step. -/
def Action.begins {τ : Type} : Action τ → Option τ
  | .act (.call t _) | .sync t => some t
  | _ => none

/-- The thread whose call the step may end. -/
def Action.resumes {τ : Type} : Action τ → Option τ
  | .act (.resume t) | .syncEnds t _ => some t
  | _ => none

/-- A thread in no call stays in none until it begins one. -/
theorem Quiet.step (h : m.Quiet t) (hstep : m.step action = some (m', out))
    (hbegins : action.begins ≠ some t) : m'.Quiet t := by
  obtain ⟨hidle, hout⟩ := h
  cases step_cases hstep with
  | act action s' _ hadmits hact =>
    refine ⟨System.idle_of_step hact hidle ?_, hout⟩
    rintro c rfl
    exact hbegins rfl
  | sync u =>
    refine ⟨hidle, fun ht => hout (ht.imp_left fun hw => ?_)⟩
    refine (Finset.mem_insert.mp hw).resolve_left ?_
    rintro rfl
    exact hbegins rfl
  | lockFile u hwaits =>
    refine ⟨hidle, fun ht => hout ?_⟩
    rcases ht with hw | hf
    · exact Or.inl (Finset.mem_of_mem_erase hw)
    · obtain rfl := Option.some.inj hf
      exact Or.inl hwaits
  | synced u hmutex | syncFailed u reason hmutex =>
    refine ⟨hidle, fun ht => hout ?_⟩
    rcases ht with hw | hf
    · exact Or.inl hw
    · cases hf
  | writeBack bytes => exact ⟨hidle, hout⟩

omit [Replacer R] in
/-- A piece of a call that leaves a reply ends the call. -/
theorem idle_of_reply {s : System R τ} {piece : Locked R τ Next} {r : Reply}
    (h : (s.settle t piece).2.reply = some r) : (s.settle t piece).1.pc t = .idle := by
  unfold System.settle at h ⊢
  split at h
  · cases h
  · exact Function.update_self _ _ _
  · exact Function.update_self _ _ _
  · exact Function.update_self _ _ _

/-- A call that ends was going on, and leaves its thread in none. -/
theorem quiet_of_resumes (h : m.Apart) (hstep : m.step action = some (m', out))
    (hresumes : action.resumes = some t) {r : Reply} (hreply : out.reply = some r) :
    ¬ m.Quiet t ∧ m'.Quiet t := by
  cases step_cases hstep with
  | act action s' _ hadmits hact =>
    cases action with
    | resume u =>
      obtain rfl := Option.some.inj hresumes
      obtain ⟨piece, hpiece, hsettle⟩ := Option.map_eq_some_iff.mp hact
      have hbusy : m.system.pc u ≠ .idle := by
        intro hidle
        rw [hidle] at hpiece
        cases hpiece
      have hends : (m.system.settle u piece).1.pc u = .idle := by
        refine idle_of_reply (r := r) ?_
        rw [hsettle]
        exact hreply
      rw [hsettle] at hends
      exact ⟨fun hq => hbusy hq.1, hends, fun hu => hbusy (h.idle u hu)⟩
    | _ => cases hresumes
  | synced u hmutex | syncFailed u reason hmutex =>
    obtain rfl := Option.some.inj hresumes
    refine ⟨fun hq => hq.2 (Or.inr hmutex), h.idle u (Or.inr hmutex), fun hu => ?_⟩
    rcases hu with hw | hf
    · exact h.owner u hmutex hw
    · cases hf
  | sync | lockFile | writeBack => cases hresumes

/-- A call that ends where it begins leaves its thread in none. -/
theorem quiet_of_begins (hstep : m.step action = some (m', out))
    (hbegins : action.begins = some t) {r : Reply} (hreply : out.reply = some r) : m'.Quiet t := by
  cases step_cases hstep with
  | act action s' _ hadmits hact =>
    cases action with
    | call u c =>
      obtain rfl := Option.some.inj hbegins
      simp only [System.step] at hact
      split at hact
      · have hsettle := Option.some.inj hact
        refine ⟨?_, hadmits⟩
        have hends : (m.system.settle u (System.start u c)).1.pc u = .idle := by
          refine idle_of_reply (r := r) ?_
          rw [hsettle]
          exact hreply
        rwa [hsettle] at hends
      · cases hact
    | _ => cases hbegins
  | sync => cases hreply
  | lockFile | synced | syncFailed | writeBack => cases hbegins

end Machine

end BufferManager
