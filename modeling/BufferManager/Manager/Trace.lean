/-
  Manager/Trace.lean --- what an observer notes of a run.

  A `Note` is an effect of a step that a client or the disk can tell from outside:
  a call that ended in one of the ways that matter to the account of a page, a
  transfer, an operation on a guard.  `System.notes` reads them off a step: the
  action, where the thread was, and the outcome.
-/
import BufferManager.Manager.System

set_option autoImplicit false

namespace BufferManager

/-- One noted effect. -/
inductive Note (τ : Type) where
  /-- A call on a page id began. -/
  | called (t : τ) (v : Visit)
  /-- `NewPage` returned a guard on `p`. -/
  | created (t : τ) (p : Nat)
  /-- `DeletePage(p)` returned. -/
  | deleted (t : τ) (p : Nat)
  /-- Another call returned. -/
  | returned (t : τ)
  /-- A call threw. -/
  | failed (t : τ)
  /-- `FlushAllPages` took its snapshot. -/
  | flushAll (t : τ)
  /-- A `WritePage` of `p` moved its bytes. -/
  | copied (t : τ) (p : Nat)
  /-- A `WritePage` of `p` has completed. -/
  | wrote (t : τ) (p : Nat)
  | changed (slot p : Nat) (page : Page)
  | marked (slot p : Nat)
  | dropped (slot : Nat)
  | moved (source slot : Nat)

/-- The call is a `NewPage`. -/
def Call.isNewPage : Call → Bool
  | .newPage => true
  | _ => false

/-- The page of a `DeletePage` call. -/
def Call.deletes : Call → Option Nat
  | .deletePage p => some p
  | _ => none

/-- The suspended call is a `NewPage`. -/
def Pc.isNewPage : Pc → Bool
  | .waitFrame (.newPage _) | .evicting (.newPage _) _ _ => true
  | _ => false

/-- Where a suspended call is, whatever the progress of its transfer. -/
def Pc.site : Pc → Pc
  | .evicting a ev _ => .evicting a ev .running
  | .reading p f _ => .reading p f .running
  | .writing p f epoch caller _ => .writing p f epoch caller .running
  | pc => pc

/-- The page of a suspended `DeletePage` call. -/
def Pc.deletes : Pc → Option Nat
  | .waitPage (.deletePage p) => some p
  | _ => none

/-- The page of a `WritePage` that has returned, as its caller takes `mutex_`. -/
def Pc.wrote : Pc → Option Nat
  | .evicting _ ev .done => if ev.dirty = true then some ev.oldPageId else none
  | .writing p _ _ _ .done => some p
  | _ => none

/-- The page of a `WritePage` that is running. -/
def Pc.copies : Pc → Option Nat
  | .evicting _ ev .running => some ev.oldPageId
  | .writing p _ _ _ .running => some p
  | _ => none

/-- The error with which a transfer has failed. -/
def Io.failure : Io → Option Error
  | .failed e => some e
  | .running | .done => none

theorem Io.failure_of_outcome {io : Io} {failure : Option Error} {e : Error}
    (h : io.outcome = some failure) (he : failure = some e) : io.failure = some e := by
  subst he
  cases io with
  | failed e' =>
    obtain rfl : e' = e := by simpa [Io.outcome] using h
    rfl
  | running => cases h
  | done => cases h

/-- The error with which the transfer of a suspended call has failed. -/
def Pc.failure : Pc → Option Error
  | .evicting _ _ io | .reading _ _ io | .writing _ _ _ _ io => io.failure
  | .idle | .waitPage _ | .waitFrame _ | .nextFlush _ _ => none

variable {τ : Type}

/-- What is noted of a call as it begins. -/
def Call.notes (t : τ) : Call → List (Note τ)
  | .newPage => []
  | .fetchPage p => [.called t (.fetchPage p)]
  | .flushPage p => [.called t (.flushPage p .flushPage)]
  | .flushAllPages => [.flushAll t]
  | .deletePage p => [.called t (.deletePage p)]

/-- What is noted of a suspended call as it goes on. -/
def Pc.notes (t : τ) (pc : Pc) : List (Note τ) := pc.wrote.toList.map (.wrote t)

/-- How the end of a call is noted: `creates` says that it is a `NewPage`, `deletes`
is the page of a `DeletePage`. -/
def Outcome.notes (t : τ) (creates : Bool) (deletes : Option Nat) : Outcome → List (Note τ)
  | .threw _ => [.failed t]
  | .returned (.guard g) => if creates = true then [.created t g.pageId] else [.returned t]
  | .returned .unit =>
      match deletes with
      | some p => [.deleted t p]
      | none => [.returned t]
  | .suspended | .bytes _ | .terminated => []

namespace System

variable {R : Type}

/-- The notes of a step. -/
def notes (s : System R τ) : Action τ → Outcome → List (Note τ)
  | .call t c, out => c.notes t ++ out.notes t c.isNewPage c.deletes
  | .resume t, out => (s.pc t).notes t ++ out.notes t (s.pc t).isNewPage (s.pc t).deletes
  | .transfer t, _ => (s.pc t).copies.toList.map (.copied t)
  | .write slot page, .returned _ => s.guards[slot]?.toList.map fun g => .changed slot g.pageId page
  | .markDirty slot, .returned _ => s.guards[slot]?.toList.map fun g => .marked slot g.pageId
  | .drop slot, _ | .destroy slot, _ =>
      (s.guards[slot]?.filter (·.valid)).toList.map fun _ => .dropped slot
  | .moveConstruct slot, _ => [.moved slot s.guards.length]
  | .moveAssign slot source, out =>
      if slot = source then []
      else (s.guards[slot]?.filter (·.valid)).toList.map (fun _ => .dropped slot) ++
        match out with
        | .returned _ => [.moved source slot]
        | _ => []
  | _, _ => []

variable {γ : Type} [Replacer R] [DecidableEq τ]

/-- A thread that is in a call stays where it is until it takes `mutex_` again, but for
the progress of its transfer. -/
theorem site_of_step {s s' : System R τ} {t : τ} {action : Action τ} {out : Outcome}
    (hstep : s.step action = some (s', out)) (hne : action ≠ .resume t) (hidle : s.pc t ≠ .idle) :
    (s'.pc t).site = (s.pc t).site := by
  have hset : ∀ {u : τ} {pc : Pc}, pc.site = (s.pc u).site →
      (Function.update s.pc u pc t).site = (s.pc t).site := by
    intro u pc hpc
    by_cases hu : t = u
    · subst hu
      simpa using hpc
    · simp [hu]
  have hsettle : ∀ {u : τ} {piece : Locked R τ Next}, u ≠ t →
      ((s.settle u piece).1.pc t).site = (s.pc t).site := by
    intro u piece hu
    unfold System.settle
    split <;> simp [Function.update_of_ne hu.symm]
  cases action with
  | call u call =>
    simp only [System.step] at hstep
    split at hstep
    · next hu =>
      obtain rfl := (Prod.mk.inj (Option.some.inj hstep)).1
      refine hsettle ?_
      rintro rfl
      exact hidle hu
    · cases hstep
  | resume u =>
    obtain ⟨piece, -, heq⟩ := Option.map_eq_some_iff.mp hstep
    obtain rfl := (Prod.mk.inj heq).1
    exact hsettle fun hu => hne (by rw [hu])
  | transfer u =>
    obtain ⟨s₁, hs₁, heq⟩ := Option.map_eq_some_iff.mp hstep
    obtain rfl := (Prod.mk.inj heq).1
    unfold System.transfer at hs₁
    split at hs₁
    · next hpc =>
      obtain rfl := Option.some.inj hs₁
      exact hset (by rw [hpc]; rfl)
    · next hpc =>
      obtain rfl := Option.some.inj hs₁
      exact hset (by rw [hpc]; rfl)
    · next hpc =>
      obtain rfl := Option.some.inj hs₁
      exact hset (by rw [hpc]; rfl)
    · cases hs₁
  | failRead u left e =>
    obtain ⟨s₁, hs₁, heq⟩ := Option.map_eq_some_iff.mp hstep
    obtain rfl := (Prod.mk.inj heq).1
    unfold System.failRead at hs₁
    split at hs₁
    · next hpc =>
      obtain rfl := Option.some.inj hs₁
      exact hset (by rw [hpc]; rfl)
    · cases hs₁
  | failWrite u k e =>
    obtain ⟨s₁, hs₁, heq⟩ := Option.map_eq_some_iff.mp hstep
    obtain rfl := (Prod.mk.inj heq).1
    unfold System.failWrite at hs₁
    split at hs₁
    · next hpc =>
      obtain rfl := Option.some.inj hs₁
      exact hset (by rw [hpc]; rfl)
    · next hpc =>
      obtain rfl := Option.some.inj hs₁
      exact hset (by rw [hpc]; rfl)
    · cases hs₁
  | read slot =>
    obtain ⟨g, -, heq⟩ := Option.map_eq_some_iff.mp hstep
    split at heq
    · obtain rfl := (Prod.mk.inj heq).1
      rfl
    · obtain rfl := (Prod.mk.inj heq).1
      rfl
  | write slot page =>
    obtain ⟨g, -, heq⟩ := Option.map_eq_some_iff.mp hstep
    split at heq
    · obtain rfl := (Prod.mk.inj heq).1
      rfl
    · obtain rfl := (Prod.mk.inj heq).1
      rfl
  | markDirty slot =>
    obtain ⟨g, -, heq⟩ := Option.map_eq_some_iff.mp hstep
    unfold System.markGuard at heq
    split at heq
    · split at heq
      · obtain rfl := (Prod.mk.inj heq).1
        rfl
      · obtain rfl := (Prod.mk.inj heq).1
        rfl
    · obtain rfl := (Prod.mk.inj heq).1
      rfl
  | drop slot =>
    obtain ⟨g, -, heq⟩ := Option.map_eq_some_iff.mp hstep
    have hpc := congrFun (System.dropGuard_pc s slot g) t
    split at heq
    · next heq' =>
      obtain rfl := (Prod.mk.inj heq).1
      rw [heq'] at hpc
      rw [hpc]
    · next heq' =>
      obtain rfl := (Prod.mk.inj heq).1
      rw [heq'] at hpc
      rw [hpc]
  | destroy slot =>
    obtain ⟨g, -, heq⟩ := Option.map_eq_some_iff.mp hstep
    have hpc := congrFun (System.dropGuard_pc s slot g) t
    split at heq
    · next heq' =>
      obtain rfl := (Prod.mk.inj heq).1
      rw [heq'] at hpc
      rw [hpc]
    · next heq' =>
      obtain rfl := (Prod.mk.inj heq).1
      rw [heq'] at hpc
      rw [hpc]
  | moveConstruct slot =>
    obtain ⟨g, -, heq⟩ := Option.map_eq_some_iff.mp hstep
    obtain rfl := (Prod.mk.inj heq).1
    rfl
  | moveAssign slot source =>
    simp only [System.step] at hstep
    split at hstep
    · next g g' _ _ =>
      have hpc := congrFun (System.dropGuard_pc s slot g) t
      split at hstep
      · obtain rfl := (Prod.mk.inj (Option.some.inj hstep)).1
        rfl
      · split at hstep
        · next heq' =>
          obtain rfl := (Prod.mk.inj (Option.some.inj hstep)).1
          rw [heq'] at hpc
          exact congrArg Pc.site hpc
        · next heq' =>
          obtain rfl := (Prod.mk.inj (Option.some.inj hstep)).1
          rw [heq'] at hpc
          rw [hpc]
    · cases hstep

/-- Follow a list of actions and keep a history, as long as each step is possible, survived
and allowed. -/
def runRecorded (next : γ → System R τ → Action τ × Outcome → γ)
    (ok : System R τ × γ → Action τ × Outcome → Prop) [∀ x l, Decidable (ok x l)]
    (x : System R τ × γ) : List (Action τ) → Option (System R τ × γ)
  | [] => some x
  | action :: rest =>
      match x.1.step action with
      | none | some (_, .terminated) => none
      | some (s', out) =>
          if ok x (action, out) then runRecorded next ok (s', next x.2 x.1 (action, out)) rest
          else none

/-- The same from construction, over a file of zeros. -/
def runRecordedNew (next : γ → System ClockReplacer τ → Action τ × Outcome → γ)
    (ok : System ClockReplacer τ × γ → Action τ × Outcome → Prop)
    [∀ x l, Decidable (ok x l)] (g₀ : γ) (frameCount maxPageCount : Nat)
    (actions : List (Action τ)) : Option (System ClockReplacer τ × γ) :=
  match makeWithClock frameCount maxPageCount (fun _ => Page.zero) with
  | .ok s => runRecorded next ok (s, g₀) actions
  | .error _ => none

/-- Follow a list of actions and keep an account of what is noted, as long as each step
is possible, survived and allowed. -/
def runKept (upd : γ → Note τ → γ) (ok : System R τ × γ → Action τ × Outcome → Prop)
    [∀ x l, Decidable (ok x l)] (x : System R τ × γ) :
    List (Action τ) → Option (System R τ × γ)
  | [] => some x
  | action :: rest =>
      match x.1.step action with
      | none | some (_, .terminated) => none
      | some (s', out) =>
          if ok x (action, out) then
            runKept upd ok (s', (x.1.notes action out).foldl upd x.2) rest
          else none

/-- The same from construction, over a file of zeros. -/
def runKeptNew (upd : γ → Note τ → γ) (ok : System ClockReplacer τ × γ → Action τ × Outcome → Prop)
    [∀ x l, Decidable (ok x l)] (g₀ : γ) (frameCount maxPageCount : Nat)
    (actions : List (Action τ)) : Option (System ClockReplacer τ × γ) :=
  match makeWithClock frameCount maxPageCount (fun _ => Page.zero) with
  | .ok s => runKept upd ok (s, g₀) actions
  | .error _ => none

end System

end BufferManager
