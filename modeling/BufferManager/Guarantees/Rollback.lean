/-
  Guarantees/Rollback.lean --- a failed call of a single thread is undone.

  By the time a call throws it may have taken an id, a victim out of the replacer, two
  entries to other states and a frame.  Wherever it throws, all of that is as before the
  call, but for one case: a victim whose frame the failed read of a `FetchPage` has used
  stays out of memory, with its bytes on disk.
-/
import BufferManager.Guarantees.Sequential

set_option autoImplicit false

namespace BufferManager

open BufferManager.Lib BufferManager.Protocol BufferManager.Refinement

/-! ## Before and after -/

namespace System

variable {R : Type} [Replacer R] [LawfulReplacer R]

/-- What no call that throws changes: the ids that `NewPage` will return, the guards, and
all pages on disk but those that are dirty in memory. -/
structure Spares (s s' : System R Unit) : Prop where
  upcoming : s'.manager.pageTable.upcoming = s.manager.pageTable.upcoming
  guards : s'.guards = s.guards
  disk : ∀ p, s'.disk p = s.disk p ∨
    ∃ f, s.entry p = ⟨.resident, some f⟩ ∧ (s.manager.frameMeta f).dirty = true

/-- The state is as before, but for the order in which frames will be chosen and for the
bytes of frames and pages on disk that nobody reads. -/
structure RolledBack (s s' : System R Unit) : Prop where
  spares : s.Spares s'
  entry : ∀ p, s'.entry p = s.entry p
  frameMeta : ∀ f, s'.manager.frameMeta f = s.manager.frameMeta f
  bytes : ∀ p f, s.entry p = ⟨.resident, some f⟩ → s'.bytes f = s.bytes f
  allocationBitmap : s'.manager.frameAllocator.allocationBitmap =
    s.manager.frameAllocator.allocationBitmap
  present : LawfulReplacer.present s'.manager.replacer = LawfulReplacer.present s.manager.replacer
  evictable :
    LawfulReplacer.evictable s'.manager.replacer = LawfulReplacer.evictable s.manager.replacer

/-- The state is as before, but for page `v`, which has been evicted from frame `f`. -/
structure VictimOut (s s' : System R Unit) (v f : Nat) : Prop where
  spares : s.Spares s'
  victim : s.entry v = ⟨.resident, some f⟩ ∧ (s.manager.frameMeta f).pinCount = 0
  entry : s'.entry v = ⟨.nonResident, none⟩
  disk : s'.disk v = s.bytes f
  frameMeta : s'.manager.frameMeta f = {}
  entry_other : ∀ p, p ≠ v → s'.entry p = s.entry p
  frameMeta_other : ∀ f', f' ≠ f → s'.manager.frameMeta f' = s.manager.frameMeta f'
  bytes : ∀ p f', p ≠ v → s.entry p = ⟨.resident, some f'⟩ → s'.bytes f' = s.bytes f'
  allocated : s'.manager.frameAllocator.allocated = s.manager.frameAllocator.allocated.erase f
  present : LawfulReplacer.present s'.manager.replacer =
    LawfulReplacer.present s.manager.replacer \ {f}
  evictable : LawfulReplacer.evictable s'.manager.replacer =
    LawfulReplacer.evictable s.manager.replacer \ {f}

end System

/-! ## The frames between two calls -/

namespace Protocol

variable {n N : Nat} {complete : Prop} {c c₀ c' : Cfg Unit} {f : Nat}

theorem mem_allocated_iff (hI : Owned n c) (hidle : c.phase () = .suspended .idle) :
    f ∈ c.allocated ↔ c.frame f ≠ .free := by
  rw [hI.allocated_iff, or_iff_left]
  rintro ⟨t, ht⟩
  rw [hidle] at ht
  cases ht

theorem mem_evictable_iff (hI : Owned n c) (hP : Pinned c) :
    f ∈ c.evictable ↔ ∃ r, c.frame f = .resident r ∧ r.listed = true ∧ r.pins = 0 := by
  constructor
  · exact hI.evictable_unpinned f
  · rintro ⟨r, hr, hlisted, hpins⟩
    exact (hP.evictable_iff f r hr hlisted).mpr hpins

/-- A call other than `FlushAllPages` keeps the comparison with its beginning. -/
theorem keptAmid_underway {g : Ledger Unit} {call : Call} (hcall : call ≠ .flushAllPages) :
    KeptAmid n N complete g call (Underway c₀) := by
  intro c e c' hA hU hst hmid hserves
  refine hU.step hst (hmid.inner fun t ht => ?_) hmid.ends hA.sound.owned hA.pinned
    hA.reservations
  exact hcall (hst.serves_of_flushAll ht hserves)

end Protocol

namespace Refinement

variable {R : Type} [Replacer R] [LawfulReplacer R] {n N : Nat} {s s' : System R Unit}
  {c₀ c' : Cfg Unit} {g g' : Ledger Unit}

theorem Sim.spares (hS : Sim n N s c₀) (hS' : Sim n N s' c') (h : Spared c₀ c')
    (hupcoming : c'.upcoming = c₀.upcoming) : s.Spares s' where
  upcoming := by rw [hS'.rep.upcoming, hS.rep.upcoming, hupcoming]
  guards := by rw [← hS'.guards, ← hS.guards, h.guards]
  disk p := by
    rw [← hS'.disk, ← hS.disk]
    refine (h.disk p).imp_right ?_
    rintro ⟨f, r, hplace, hr, hdirty⟩
    refine ⟨f, hS.entry_of_place hplace, ?_⟩
    rw [hS.rep.frameMeta, hr]
    exact hdirty

/-- The bytes of a page that is resident before and after are spared. -/
theorem Sim.spares_bytes (hS : Sim n N s c₀) (hS' : Sim n N s' c') (hI : Owned n c₀)
    (hI' : Owned n c') (h : Spared c₀ c') {p f : Nat} (hp : s.entry p = ⟨.resident, some f⟩)
    (hp' : c'.place p = .resident f) : s'.bytes f = s.bytes f := by
  obtain ⟨r, hr, -, -⟩ := hI.resident (hS.place_of_entry hp)
  obtain ⟨r', hr', -, -⟩ := hI'.resident hp'
  rw [hS'.bytes_eq, hS.bytes_eq]
  apply h.bytes f
  · rw [hr]
    exact Use.noConfusion
  · rw [hr']
    exact Use.noConfusion
  · intro q
    rw [hr']
    exact Use.noConfusion

theorem Sim.rolledBack (hS : Sim n N s c₀) (hS' : Sim n N s' c') (hI : Owned n c₀)
    (hI' : Owned n c') (hP : Pinned c₀) (hP' : Pinned c') (hidle : c₀.phase () = .suspended .idle)
    (hidle' : c'.phase () = .suspended .idle) (h : Spared c₀ c') (hsame : Same c₀ c') :
    s.RolledBack s' where
  spares := hS.spares hS' h hsame.upcoming
  entry p := by rw [hS'.entry_eq, hS.entry_eq, hsame.place]
  frameMeta f := by rw [hS'.rep.frameMeta, hS.rep.frameMeta, hsame.frame]
  bytes p f hp := by
    apply hS.spares_bytes hS' hI hI' h hp
    rw [hsame.place]
    exact hS.place_of_entry hp
  allocationBitmap := by
    apply FrameAllocator.allocationBitmap_ext hS'.rep.allocator_inv hS.rep.allocator_inv
    · rw [hS'.rep.allocator_count, hS.rep.allocator_count]
    · rw [hS'.rep.allocated, hS.rep.allocated]
      ext f
      rw [mem_allocated_iff hI' hidle', mem_allocated_iff hI hidle, hsame.frame]
  present := by
    rw [hS'.rep.present, hS.rep.present]
    ext f
    rw [hI'.present_iff, hI.present_iff, hsame.frame]
  evictable := by
    rw [hS'.rep.evictable, hS.rep.evictable]
    ext f
    rw [mem_evictable_iff hI' hP', mem_evictable_iff hI hP, hsame.frame]

/-- The victim's bytes have been its last content, and are on disk. -/
theorem victim_on_disk (hI : Owned n c₀) (hI' : Owned n c') (hA : Alone c₀ g) (hA' : Alone c' g')
    (hidle : c₀.phase () = .suspended .idle) (hidle' : c'.phase () = .suspended .idle)
    (hhistory : g'.history = g.history) {f : Nat} {r : Tenant} (hv : Victim c₀ f r)
    (hplace : c'.place r.page = .nonResident) : c'.disk r.page = c₀.bytes f := by
  have hmarked : g.marked r.page ≠ 0 :=
    (hA.current.live r.page (by rw [hv.place]; exact Place.noConfusion)).resolve_right
      (not_reserved_of_phase hidle rfl)
  have hmarked' : g'.marked r.page ≠ 0 :=
    (hA'.current.live r.page (by rw [hplace]; exact Place.noConfusion)).resolve_right
      (not_reserved_of_phase hidle' rfl)
  have hbefore := hA.durable.getLast hmarked
    (hA.current.latest hA.durable hI hA.pinned hmarked (Or.inl hv.place))
  have hafter := hA'.durable.getLast hmarked'
    (hA'.current.latest_disk hA'.durable hI' hA'.pinned hmarked' (Or.inl hplace))
  rw [hhistory, hbefore] at hafter
  exact (Option.some.inj hafter).symm

theorem Sim.victimOut (hS : Sim n N s c₀) (hS' : Sim n N s' c') (hI : Owned n c₀)
    (hI' : Owned n c') (hP : Pinned c₀) (hP' : Pinned c') (hidle : c₀.phase () = .suspended .idle)
    (hidle' : c'.phase () = .suspended .idle) (h : Spared c₀ c') {f : Nat} {r : Tenant}
    (hv : Victim c₀ f r) (hplace : c'.place = Function.update c₀.place r.page .nonResident)
    (hframe : c'.frame = Function.update c₀.frame f .free) (hupcoming : c'.upcoming = c₀.upcoming)
    (hdisk : c'.disk r.page = c₀.bytes f) : s.VictimOut s' r.page f where
  spares := hS.spares hS' h hupcoming
  victim := by
    refine ⟨hS.entry_of_place hv.place, ?_⟩
    rw [hS.rep.frameMeta, hv.frame]
    exact hv.unpinned
  entry := by
    rw [hS'.entry_eq, hplace, Function.update_self]
    rfl
  disk := by rw [← hS'.disk, hdisk, hS.bytes_eq]
  frameMeta := by
    rw [hS'.rep.frameMeta, hframe, Function.update_self]
    rfl
  entry_other p hp := by rw [hS'.entry_eq, hS.entry_eq, hplace, Function.update_of_ne hp]
  frameMeta_other f' hf := by
    rw [hS'.rep.frameMeta, hS.rep.frameMeta, hframe, Function.update_of_ne hf]
  bytes p f' hp hentry := by
    apply hS.spares_bytes hS' hI hI' h hentry
    rw [hplace, Function.update_of_ne hp]
    exact hS.place_of_entry hentry
  allocated := by
    rw [hS'.rep.allocated, hS.rep.allocated]
    ext f'
    rw [Finset.mem_erase, mem_allocated_iff hI' hidle', mem_allocated_iff hI hidle, hframe]
    by_cases hf : f' = f
    · simp [hf]
    · simp [hf]
  present := by
    rw [hS'.rep.present, hS.rep.present]
    ext f'
    rw [Set.mem_sdiff, hI'.present_iff, hI.present_iff, hframe]
    by_cases hf : f' = f
    · simp [hf]
    · simp [hf]
  evictable := by
    rw [hS'.rep.evictable, hS.rep.evictable]
    ext f'
    rw [Set.mem_sdiff, mem_evictable_iff hI' hP', mem_evictable_iff hI hP, hframe]
    by_cases hf : f' = f
    · simp [hf]
    · simp [hf]

omit [LawfulReplacer R] in
/-- A call that has ended leaves its thread in no call. -/
theorem idle_of_lastPiece {call : Call} {failure : Option Error} {m : System R Unit}
    {out : Outcome} (h : LastPiece s call failure m s' out) (hout : out ≠ .suspended) :
    s'.pc () = .idle := by
  have hends : (out = .suspended ∧ s'.guards = m.guards) ∨
      (s'.pc () = .idle ∧ ((∃ r, out = .returned r) ∨ ∃ e, out = .threw e)) := by
    rcases h with ⟨rfl, -, hstep⟩ | ⟨-, -, hstep⟩
    · exact (call_ends hstep).2
    · exact resume_ends hstep
  rcases hends with ⟨hsuspended, -⟩ | ⟨hidle, -⟩
  · exact absurd hsuspended hout
  · exact hidle

end Refinement

/-! ## Calls that throw -/

variable {R : Type} [Replacer R] [LawfulReplacer R] {n N : Nat}

/-- A call that throws leaves the state as before, but for a victim that was evicted before
the read of a `FetchPage` failed. -/
theorem failed_call_rolls_back {x : System R Unit × Ledger Unit}
    (h : Reachable (fun x => System.Initial n N x.1 ∧ x.2 = {})
      (Under System.OneThread (Kept (Ledger.after false))) x) (hfew : x.1.FewGuards)
    {call : Call} (hcall : call ≠ .flushAllPages) {failure : Option Error} {s' : System R Unit}
    {e : Error} (hexec : x.1.Executes call failure s' (.threw e)) :
    x.1.RolledBack s' ∨ ∃ p v f err m, call = .fetchPage p ∧
      x.1.Executes call (some err) m .suspended ∧ m.pc () = .reading p f (.failed err) ∧
        x.1.VictimOut s' v f := by
  obtain ⟨c₀, hS, hsound, hA⟩ := alone_of_reachable h
  have hI := hsound.owned
  have hidle : c₀.phase () = .suspended .idle := by
    rw [hS.phase, hexec.idle]
  have hstart : Amid n N x.2 c₀ := ⟨hsound, x.2, hA, rfl, rfl⟩
  rcases incall_of_executes (keptAmid_underway hcall) hS hstart (.start hI hidle) hfew hexec with
    ⟨hsuspended, -⟩ | ⟨-, m, c, c₁, ev, c', hpiece, hlast⟩
  · cases hsuspended
  obtain ⟨err, rfl⟩ := hlast.throws.mp ⟨e, rfl⟩
  have hA₁ := hlast.amid
  obtain ⟨hspared, hundone⟩ :=
    hlast.property.fails hlast.step rfl hA₁.sound.owned hA₁.pinned hA₁.reservations
  have hA' : Amid n N x.2 c' := by
    apply hA₁.step hlast.step hlast.fits
    · intro y hy
      obtain rfl := Option.some.inj hy
      exact id
    · intro t p f hcreated
      cases hcreated
  obtain ⟨g', halone, hhistory, -⟩ := hA'.account
  have hidle' : c'.phase () = .suspended .idle := by
    rw [hlast.sim.phase, idle_of_lastPiece hpiece Outcome.noConfusion]
  rcases hundone with hsame | ⟨p, f, r, hreading, hv, hplace, hframe, hupcoming⟩
  · exact Or.inl (hS.rolledBack hlast.sim hI hA'.sound.owned hA.pinned halone.pinned hidle hidle'
      hspared hsame)
  · -- the read has failed when the last piece begins
    have hc₁ : c₁ = c := by
      refine hlast.unfailed.resolve_right fun hunfailed => ?_
      rw [hreading] at hunfailed
      cases hunfailed
    subst hc₁
    have hpc : m.pc () = .reading p f (.failed err) :=
      Phase.suspended.inj ((hlast.start.phase ()).symm.trans hreading)
    have hcall' : call = .fetchPage p := by
      rcases hlast.serves with hserves | ⟨hnone, -⟩
      · rw [hreading] at hserves
        exact hserves
      · rw [hreading] at hnone
        cases hnone
    have hdisk : c'.disk r.page = c₀.bytes f := by
      apply victim_on_disk hI hA'.sound.owned hA halone hidle hidle' hhistory hv
      rw [hplace, Function.update_self]
    rcases hpiece with ⟨rfl, -, -⟩ | ⟨hm, hfailure, -⟩
    · rw [hexec.idle] at hpc
      cases hpc
    rw [hpc] at hfailure
    obtain rfl : some err = failure := hfailure
    exact Or.inr ⟨p, r.page, f, err, m, hcall', hm, hpc, hS.victimOut hlast.sim hI hA'.sound.owned
      hA.pinned halone.pinned hidle hidle' hspared hv hplace hframe hupcoming hdisk⟩

/-- With one frame, a `FetchPage` of page 0 evicts page 1 and its read fails: page 1 is out
of memory, and on disk. -/
theorem failed_call_rolls_back_reading : ∃ (x : System ClockReplacer Unit × Ledger Unit)
    (s' : System ClockReplacer Unit) (failure : Option Error) (e : Error),
    x.1.Executes (.fetchPage 0) failure s' (.threw e) ∧ ∃ v f, x.1.VictimOut s' v f := by
  obtain ⟨x, hreach, hfew, hany⟩ := exists_of_runKeptNew (n := 1) (N := 2)
    (A := System.OneThread)
    (P := fun x : System ClockReplacer Unit × Ledger Unit => x.1.FewGuards ∧
      (x.1.execute (.fetchPage 0) [.transfer (), .resume (),
        .failRead () Page.zero ⟨.runtimeError, "pread failed: Input/output error"⟩,
        .resume ()]).any (fun y => y.2.2.error.isSome && y.2.1.entry 1 != x.1.entry 1) = true)
    (show (System.runKeptNew (Ledger.after false) _ {} 1 2 [.call () .newPage, .drop 0,
      .call () .newPage, .transfer (), .resume (), .drop 1]).any _ = true by decide +kernel)
  obtain ⟨⟨failure, s', out⟩, hexec, htest⟩ := (Option.any_eq_true _ _).mp hany
  obtain ⟨hthrew, hentry⟩ := Bool.and_eq_true_iff.mp htest
  obtain ⟨e, he⟩ := Option.isSome_iff_exists.mp hthrew
  obtain rfl : out = .threw e := Outcome.error_eq_some he
  have hthrows := System.executes_of_execute hexec
  refine ⟨x, s', failure, e, hthrows, ?_⟩
  rcases failed_call_rolls_back hreach hfew (by decide) hthrows with hback |
    ⟨p, v, f, err, m, -, -, -, hout⟩
  · rw [hback.entry 1] at hentry
    simp at hentry
  · exact ⟨v, f, hout⟩

end BufferManager
