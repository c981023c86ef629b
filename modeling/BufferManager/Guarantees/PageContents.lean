/-
  Guarantees/PageContents.lean --- the bytes in the pages decide nothing.

  Two runs in which the same calls are made, the same threads go on and the same transfers
  fail, over files with other bytes, with other bytes written by the holders of guards and
  other bytes left by a `ReadPage` that fails, go the same way: they give the same page ids,
  frames and guards, choose the same victims, wait, write and throw at the same places.
-/
import BufferManager.Lib.Transition
import BufferManager.Manager.Unread
import BufferManager.Refinement.Runs

set_option autoImplicit false

namespace BufferManager

open BufferManager.Lib

/-- The actions differ in nothing but the bytes they bring. -/
inductive Action.Alike {τ : Type} : Action τ → Action τ → Prop where
  | same (action : Action τ) : Alike action action
  | failRead (t : τ) (left left' : Page) (e : Error) :
      Alike (.failRead t left e) (.failRead t left' e)
  | write (slot : Nat) (page page' : Page) : Alike (.write slot page) (.write slot page')

/-- The outcomes differ in nothing but the bytes that a reader saw. -/
inductive Outcome.Alike : Outcome → Outcome → Prop where
  | same (out : Outcome) : Alike out out
  | bytes (page page' : Page) : Alike (.bytes page) (.bytes page')

variable {R τ : Type} {s s' : System R τ}

namespace System

/-- The systems differ in nothing but the bytes of pages. -/
abbrev Alike (s s' : System R τ) : Prop := AgreeOff Set.univ s s'

theorem Alike.setBytes (h : Alike s s') (f : Nat) (page page' : Page) :
    Alike (s.setBytes f page) (s'.setBytes f page') :=
  { h with manager := { h.manager with
      frameAllocator := { h.manager.frameAllocator with
        frames := fun f hf => absurd (Set.mem_univ f) hf } } }

variable [DecidableEq τ]

theorem Alike.transfer (h : Alike s s') {t : τ} {s₁ : System R τ} (hs : s.transfer t = some s₁) :
    ∃ s₁', s'.transfer t = some s₁' ∧ Alike s₁ s₁' := by
  unfold System.transfer at hs ⊢
  rw [← h.pc]
  split at hs
  · obtain rfl := Option.some.inj hs
    exact ⟨_, rfl, (AgreeOff.setDisk h _ _ _ _).setPc t _⟩
  · obtain rfl := Option.some.inj hs
    exact ⟨_, rfl, (h.setBytes _ _ _).setPc t _⟩
  · obtain rfl := Option.some.inj hs
    exact ⟨_, rfl, (AgreeOff.setDisk h _ _ _ _).setPc t _⟩
  · cases hs

theorem Alike.failRead (h : Alike s s') {t : τ} {left : Page} {e : Error} {s₁ : System R τ}
    (hs : s.failRead t left e = some s₁) (left' : Page) :
    ∃ s₁', s'.failRead t left' e = some s₁' ∧ Alike s₁ s₁' := by
  unfold System.failRead at hs ⊢
  rw [← h.pc]
  split at hs
  · obtain rfl := Option.some.inj hs
    exact ⟨_, rfl, (h.setBytes _ _ _).setPc t _⟩
  · cases hs

theorem Alike.failWrite (h : Alike s s') {t : τ} {k : Nat} {e : Error} {s₁ : System R τ}
    (hs : s.failWrite t k e = some s₁) : ∃ s₁', s'.failWrite t k e = some s₁' ∧ Alike s₁ s₁' := by
  unfold System.failWrite at hs ⊢
  rw [← h.pc]
  split at hs
  · obtain rfl := Option.some.inj hs
    exact ⟨_, rfl, (AgreeOff.setDisk h _ _ _ _).setPc t _⟩
  · obtain rfl := Option.some.inj hs
    exact ⟨_, rfl, (AgreeOff.setDisk h _ _ _ _).setPc t _⟩
  · cases hs

variable [Replacer R]

/-- A step of one system is a step of the other, with other bytes. -/
theorem Alike.step (h : Alike s s') {action action' : Action τ} (halike : action.Alike action')
    {s₁ : System R τ} {out : Outcome} (hstep : s.step action = some (s₁, out)) :
    ∃ s₁' out', s'.step action' = some (s₁', out') ∧ out.Alike out' ∧ Alike s₁ s₁' := by
  have hmoved : ∀ {x x' : Option (System R τ)}, x.map (·, Outcome.suspended) = some (s₁, out) →
      (∀ s₂, x = some s₂ → ∃ s₂', x' = some s₂' ∧ Alike s₂ s₂') →
      ∃ s₁' out', x'.map (·, Outcome.suspended) = some (s₁', out') ∧ out.Alike out' ∧
        Alike s₁ s₁' := by
    intro x x' hmap hx
    obtain ⟨s₂, hs₂, heq⟩ := Option.map_eq_some_iff.mp hmap
    obtain ⟨rfl, rfl⟩ := Prod.mk.inj heq
    obtain ⟨s₂', hs₂', hagree⟩ := hx s₂ hs₂
    rw [hs₂']
    exact ⟨s₂', _, rfl, .same _, hagree⟩
  have hwrite : ∀ {slot : Nat} {page page' : Page}, s.step (.write slot page) = some (s₁, out) →
      ∃ s₁' out', s'.step (.write slot page') = some (s₁', out') ∧ out.Alike out' ∧
        Alike s₁ s₁' := by
    intro slot page page' hstep
    obtain ⟨g, hg, heq⟩ := Option.map_eq_some_iff.mp hstep
    simp only [System.step]
    rw [← h.guards, hg, Option.map_some]
    split at heq
    · next hvalid =>
      obtain ⟨rfl, rfl⟩ := Prod.mk.inj heq
      rw [if_pos hvalid]
      exact ⟨_, _, rfl, .same _, h.setBytes _ _ _⟩
    · next hvalid =>
      obtain ⟨rfl, rfl⟩ := Prod.mk.inj heq
      rw [if_neg hvalid]
      exact ⟨_, _, rfl, .same _, h⟩
  cases halike with
  | failRead t left left' e => exact hmoved hstep fun s₂ hs₂ => h.failRead hs₂ left'
  | write slot page page' => exact hwrite hstep
  | same =>
    cases action with
    | transfer t => exact hmoved hstep fun s₂ hs₂ => h.transfer hs₂
    | failRead t left e => exact hmoved hstep fun s₂ hs₂ => h.failRead hs₂ left
    | failWrite t k e => exact hmoved hstep fun s₂ hs₂ => h.failWrite hs₂
    | write slot page => exact hwrite hstep
    | read slot =>
      obtain ⟨g, hg, heq⟩ := Option.map_eq_some_iff.mp hstep
      simp only [System.step]
      rw [← h.guards, hg, Option.map_some]
      split at heq
      · next hvalid =>
        obtain ⟨rfl, rfl⟩ := Prod.mk.inj heq
        rw [if_pos hvalid]
        exact ⟨_, _, rfl, .bytes _ _, h⟩
      · next hvalid =>
        obtain ⟨rfl, rfl⟩ := Prod.mk.inj heq
        rw [if_neg hvalid]
        exact ⟨_, _, rfl, .same _, h⟩
    | _ =>
      obtain ⟨s₁', hstep', hagree⟩ := AgreeOff.step h rfl hstep
      exact ⟨s₁', out, hstep', .same _, hagree⟩

end System

variable [Replacer R] [DecidableEq τ]

/-- What a run does does not depend on the bytes of any page: with other bytes on disk and
in the frames, and other bytes written and left, the same actions are possible, they end in
the same way, and they lead to the same state but for bytes. -/
theorem page_contents_decide_nothing {s₁ : System R τ} {ls : List (Action τ × Outcome)}
    (hsame : System.Alike s s') (hpath : Path System.Trans s ls s₁) {actions : List (Action τ)}
    (halike : List.Forall₂ Action.Alike (ls.map Prod.fst) actions) :
    ∃ ls' s₁', Path System.Trans s' ls' s₁' ∧ ls'.map Prod.fst = actions ∧
      List.Forall₂ Outcome.Alike (ls.map Prod.snd) (ls'.map Prod.snd) ∧ System.Alike s₁ s₁' := by
  induction hpath generalizing s' actions with
  | nil s =>
    obtain rfl := List.forall₂_nil_left_iff.mp halike
    exact ⟨[], s', .nil s', rfl, .nil, hsame⟩
  | @cons s s₂ s₁ l ls hst _ ih =>
    obtain ⟨action', actions', haction, hrest, rfl⟩ := List.forall₂_cons_left_iff.mp halike
    obtain ⟨s₂', out', hstep, hout, hsame'⟩ := hsame.step haction hst.1
    have hsurvives : out' ≠ .terminated := by
      rintro rfl
      have hended : ∀ {out : Outcome}, out.Alike .terminated → out = .terminated := by
        intro out hout
        cases hout
        rfl
      exact hst.2 (hended hout)
    obtain ⟨ls', s₁', hpath', rfl, houts, hend⟩ := ih hsame' hrest
    exact ⟨(action', out') :: ls', s₁', .cons ⟨hstep, hsurvives⟩ hpath', rfl, .cons hout houts,
      hend⟩

/-- The run of a client that creates a page, writes `page` into it and flushes it. -/
def createRun (page : Page) : List (Action Unit) :=
  [.call () .newPage, .write 0 page, .drop 0, .call () (.flushPage 0), .transfer (), .resume ()]

/-- What is possible over a file of zeros is possible over one of ones. -/
theorem page_contents_decide_nothing_created :
    ∃ s s₁ : System ClockReplacer Unit, ∃ ls,
      System.makeWithClock 1 1 (fun _ => ⟨fun _ => 1⟩) = .ok s ∧ Path System.Trans s ls s₁ ∧
        ls.map Prod.fst = createRun ⟨fun _ => 1⟩ := by
  have hmade : ∀ disk, ∃ s, (System.makeWithClock 1 1 disk :
      Except Error (System ClockReplacer Unit)) = .ok s := fun disk => ⟨_, rfl⟩
  obtain ⟨s, hs⟩ := hmade fun _ => Page.zero
  obtain ⟨s', hs'⟩ := hmade fun _ => ⟨fun _ => 1⟩
  have hsame : System.Alike s s' := by
    obtain rfl := Except.ok.inj hs
    obtain rfl := Except.ok.inj hs'
    exact ⟨.refl _, rfl, rfl⟩
  obtain ⟨s₁, hrun⟩ := Option.isSome_iff_exists.mp
    (show (System.runNew (fun _ _ => True) 1 1 (createRun Page.zero)).isSome = true by
      decide +kernel)
  rw [System.runNew, hs] at hrun
  obtain ⟨ls, hallowed, hactions⟩ := Refinement.path_of_run hrun
  have hpath : Path System.Trans s ls s₁ := hallowed.mono fun _ _ _ h => h.2
  have halike : List.Forall₂ Action.Alike (ls.map Prod.fst) (createRun ⟨fun _ => 1⟩) := by
    rw [hactions]
    exact .cons (.same _) (.cons (.write _ _ _) (.cons (.same _) (.cons (.same _)
      (.cons (.same _) (.cons (.same _) .nil)))))
  obtain ⟨ls', s₁', hpath', hactions', -⟩ := page_contents_decide_nothing hsame hpath halike
  exact ⟨s', s₁', ls', hs', hpath', hactions'⟩

end BufferManager
