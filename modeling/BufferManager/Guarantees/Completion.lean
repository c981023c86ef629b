/-
  Guarantees/Completion.lean --- a call of a single thread comes to an end.

  With one thread a call never waits, so each of its steps leaves less to do.  It throws
  for one of two reasons only: a transfer of it has failed, or its first piece has found
  no id, no frame or a page that it turns away.
-/
import BufferManager.Guarantees.Sequential
import BufferManager.Protocol.Completion
import BufferManager.Store.Operations

set_option autoImplicit false

namespace BufferManager

open BufferManager.Lib BufferManager.Protocol BufferManager.Refinement

namespace Refinement

variable {R : Type} [Replacer R] [LawfulReplacer R] {n N : Nat} {s m s' : System R Unit}
  {out : Outcome} {call : Call} {failure : Option Error} {c c₁ c' : Cfg Unit} {g : Ledger Unit}
  {I : Cfg Unit → Prop} {e : Event Unit} {es : List (Event Unit)} {complete : Prop}

/-! ## Every call ends -/

omit [Replacer R] [LawfulReplacer R] in
/-- A step in the midst of a call leaves less to do. -/
theorem work_lt_of_step (hun : ∀ c, I c → Unhindered c) (hc : I c) (hc' : I c')
    (hserves : Phase.Serves call (c.phase ())) (h : Step n N complete c e c') (he : e.Midway) :
    (c'.phase ()).work < (c.phase ()).work := by
  refine h.drops he.ends (fun y hy => (he.2 y hy).2) ?_ (hun c hc).runs (hun c' hc').runs
    (hun c hc).place
  intro hidle
  rw [hidle] at hserves
  exact hserves

/-- So does a path of such steps. -/
theorem work_lt_of_path (hI : KeptAmid n N complete g call I) (hun : ∀ c, I c → Unhindered c)
    (hA : Amid n N g c) (hc : I c) (hserves : Phase.Serves call (c.phase ()))
    (h : Path (Step n N complete) c es c') (hes : ∀ e ∈ es, e.Midway) (hne : es ≠ []) :
    (c'.phase ()).work < (c.phase ()).work := by
  induction h with
  | nil => exact absurd rfl hne
  | @cons c c₁ c' e es hstep hrest ih =>
    have he := hes e List.mem_cons_self
    have hserves₁ := hstep.serves hserves he.ends
    have hc₁ := hI c e c₁ hA hc hstep he hserves₁
    have hfirst := work_lt_of_step hun hc hc₁ hserves hstep he
    rcases List.eq_nil_or_concat es with rfl | ⟨es', e', rfl⟩
    · cases hrest
      exact hfirst
    · have hlater := ih (hA.midway hstep he) hc₁ hserves₁
        (fun e₁ he₁ => hes e₁ (List.mem_cons_of_mem e he₁)) (by simp)
      exact Nat.lt_trans hlater hfirst

theorem InCall.busy (hm : InCall n N g call failure I m c) : m.pc () ≠ .idle := by
  intro hidle
  have hserves := hm.serves
  rw [hm.sim.phase, hidle] at hserves
  exact hserves

/-- A step of a suspended call ends it, or leaves less to do. -/
theorem InCall.step (hI : KeptAmid n N (CompleteReplacer R) g call I)
    (hun : ∀ c, I c → Unhindered c) (hm : InCall n N g call failure I m c) {action : Action Unit}
    (haction : action.GoesOn) (hstep : m.step action = some (s', out)) :
    out ≠ .suspended ∨ out = .suspended ∧ ∃ failure' c', InCall n N g call failure' I s' c' ∧
      (c'.phase ()).work < (c.phase ()).work := by
  cases action with
  | resume t =>
    rcases resume_incall hI hm hstep with ⟨rfl, es, c', hne, hmid, hpath, hm'⟩ | ⟨hout, -⟩
    · have hlt := work_lt_of_path hI hun hm.amid hm.property hm.serves hpath hmid hne
      exact Or.inr ⟨rfl, failure, c', hm', hlt⟩
    · left
      rintro rfl
      rcases hout with ⟨r, -, hr⟩ | ⟨e, he⟩
      · cases hr
      · cases he
  | transfer t =>
    obtain ⟨rfl, e, c', hst, hmid, hm'⟩ := transfer_incall hI hm hstep
    exact Or.inr ⟨rfl, _, c', hm', work_lt_of_step hun hm.property hm'.property hm.serves hst hmid⟩
  | failRead t left err =>
    obtain ⟨rfl, e, c', hst, hmid, hm'⟩ := failRead_incall hI hm hstep
    exact Or.inr ⟨rfl, _, c', hm', work_lt_of_step hun hm.property hm'.property hm.serves hst hmid⟩
  | failWrite t k err =>
    obtain ⟨rfl, e, c', hst, hmid, hm'⟩ := failWrite_incall hI hm hstep
    exact Or.inr ⟨rfl, _, c', hm', work_lt_of_step hun hm.property hm'.property hm.serves hst hmid⟩
  | call | read | write | markDirty | drop | destroy | moveConstruct | moveAssign =>
    exact haction.elim

/-- A suspended call ends, however its transfers do. -/
theorem InCall.finishes (hI : KeptAmid n N (CompleteReplacer R) g call I)
    (hun : ∀ c, I c → Unhindered c) (hm : InCall n N g call failure I m c) :
    m.Finishes .suspended := by
  induction hw : (c.phase ()).work using Nat.strong_induction_on generalizing failure m c with
  | _ w ih =>
    subst hw
    refine .goesOn (System.exists_goesOn hm.busy) fun action s' out haction hstep => ?_
    rcases hm.step hI hun haction hstep with hout | ⟨rfl, failure', c', hm', hlt⟩
    · exact .ended hout
    · exact ih _ hlt hm' rfl

/-- A call ends that begins in order. -/
theorem finishes_of_call (hI : KeptAmid n N (CompleteReplacer R) g call I)
    (hun : ∀ c, I c → Unhindered c) (hS : Sim n N s c) (hA : Amid n N g c) (hc : I c)
    (hfew : s.FewGuards) (hidle : s.pc () = .idle) :
    ∃ m out, s.step (.call () call) = some (m, out) ∧ m.Finishes out := by
  refine ⟨_, _, System.step_call hidle, ?_⟩
  rcases call_incall hI hS hA hc hfew (System.step_call hidle) with ⟨hout, c', hm⟩ | ⟨hout, -⟩
  · rw [hout]
    exact hm.finishes hI hun
  · refine .ended fun hsuspended => ?_
    rw [hsuspended] at hout
    rcases hout with ⟨r, hr⟩ | ⟨e, he⟩
    · cases hr
    · cases he

/-! ## Why a call throws -/

section

variable {p : Nat}

theorem not_waiting (hS : Sim n N m c) (hC : Unhindered c) :
    (∀ v, m.pc () ≠ .waitPage v) ∧ ∀ a, m.pc () ≠ .waitFrame a := by
  have hruns := hC.runs
  rw [hS.phase] at hruns
  refine ⟨fun v hpc => ?_, fun a hpc => ?_⟩
  · rw [hpc] at hruns
    exact hruns
  · rw [hpc] at hruns
    exact hruns

/-- A visit of a page that is in use, and is no client's call, is not turned away. -/
theorem not_refused_unused (hS : Sim n N m c) (hp : c.place p ≠ .unused) :
    (m.entry p).state ≠ .unused := by
  rw [hS.entry_eq]
  exact fun h => hp (Represents.state_unused_iff.mp h)

/-- A page that is out of memory is not turned away. -/
theorem not_refused_fetch (hS : Sim n N m c) {err : Error} (hp : c.place p = .nonResident) :
    ¬ m.Refuses (.fetchPage p) err := by
  have hentry : m.entry p = ⟨.nonResident, none⟩ := by
    rw [hS.entry_eq, hp]
    rfl
  intro h
  cases h with
  | invalid _ hstate | fetchUnused _ hstate =>
    change (m.entry p).state = _ at hstate
    rw [hentry] at hstate
    cases hstate
  | pinOverflow _ f hres =>
    rw [hentry] at hres
    cases hres

theorem not_unpinnable (hS : Sim n N m c) (hI : Owned n c) (hP : Pinned c) {f epoch : Nat}
    {caller : FlushCaller} {io : Io} (hpc : m.pc () = .writing p f epoch caller io) :
    ¬ m.Unpinnable f := by
  have hwrites : (c.phase ()).writes = some (p, f) := by
    rw [hS.phase, hpc]
    rfl
  obtain ⟨k, r, hr, -, hlisted, hpins, -⟩ := hP.of_refs hI (refs_pos_of_writer hwrites)
  have hmeta : m.manager.frameMeta f = (Use.resident r).meta := by
    rw [hS.rep.frameMeta, hr]
  intro h
  rcases h (by rw [hmeta]; rfl) with hzero | habsent
  · rw [hmeta] at hzero
    change r.pins = 0 at hzero
    omega
  · rw [hS.rep.present] at habsent
    exact habsent ((hI.present_iff f).mpr ⟨r, hr, hlisted⟩)

/-- A suspended call throws for a transfer that has failed. -/
theorem failure_of_resume (hS : Sim n N m c) (hI : Owned n c) (hP : Pinned c)
    (hC : Unhindered c) {err : Error} (h : m.Fails (.resume ()) err) :
    (m.pc ()).failure = some err := by
  obtain ⟨hpage, hframe⟩ := not_waiting hS hC
  cases h with
  | disk hfailure => exact hfailure
  | noFrame hseeks =>
    cases hseeks with
    | fetchPage p hv =>
      cases hpc : m.pc () with
      | waitPage v => exact absurd hpc (hpage v)
      | _ => simp [System.visits, hpc] at hv
    | again a hpc => exact absurd hpc (hframe a)
  | blocked hblocked =>
    obtain ⟨t, -, hmatch⟩ := hblocked
    split at hmatch
    · next hpc => exact absurd hpc (hframe _)
    · next p ev hpc =>
      have hplace := hC.place p (by rw [hS.phase, hpc]; rfl)
      exact absurd ((hS.state_nonResident p).mpr hplace) hmatch.2
    · exact hmatch.elim
  | refused hv hrefuses =>
    cases hpc : m.pc () with
    | waitPage v => exact absurd hpc (hpage v)
    | nextFlush p rest =>
      have hused := not_refused_unused hS (hC.used p rest (by rw [hS.phase, hpc]))
      simp only [System.visits, hpc] at hv
      obtain rfl := Option.some.inj hv
      cases hrefuses with
      | invalid _ hstate | flushUnused _ _ hstate => exact absurd hstate hused
    | _ => simp [System.visits, hpc] at hv
  | recheck hpc => exact absurd hpc (hframe _)
  | @lostRace t p ev _ hpc hrefuses =>
    have hplace := hC.place p (by rw [hS.phase, hpc]; rfl)
    exact absurd hrefuses (not_refused_fetch hS hplace)
  | unpin hpc hunpinnable => exact absurd hunpinnable (not_unpinnable hS hI hP hpc)

/-- A call throws for a transfer that has failed, or in its first piece. -/
theorem reason_of_threw (hun : ∀ c, I c → Unhindered c) {err : Error}
    (hpiece : LastPiece s call failure m s' (.threw err))
    (hlast : LastStep n N g call I m c c₁ e c' s' (.threw err)) :
    failure = some err ∨ failure = none ∧
      s.step (.call () call) = some (s', .threw err) ∧ s.Fails (.call () call) err := by
  have hS := hlast.start
  have hA := hlast.start_amid
  rcases hpiece with ⟨rfl, rfl, hstep⟩ | ⟨-, rfl, hstep⟩
  · obtain ⟨es, c₂, h⟩ := call_simulated hS hA.sound.owned hA.sound.within hstep
    exact Or.inr ⟨rfl, hstep, h.threw err rfl⟩
  · obtain ⟨es, c₂, h⟩ := resume_simulated hS hA.sound.owned hA.sound.within hstep
    exact Or.inl (failure_of_resume hS hA.sound.owned hA.pinned (hun c hlast.start_property)
      (h.threw err rfl))

end

end Refinement

end BufferManager
