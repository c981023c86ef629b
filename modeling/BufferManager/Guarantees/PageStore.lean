/-
  Guarantees/PageStore.lean --- the manager of a single thread is a page store.

  `Shown` relates the system between two calls to the store that a client knows of.  Every
  operation keeps it and answers as the store does, whichever transfers fail, so every run
  does, and every call of it comes to an end.
-/
import BufferManager.Guarantees.Completion
import BufferManager.Guarantees.Rollback
import BufferManager.Store.Mirror

set_option autoImplicit false

namespace BufferManager

open BufferManager.Lib BufferManager.Protocol BufferManager.Refinement

/-! ## What is followed of a call -/

namespace Protocol

variable {n N : Nat} {complete : Prop} {c₀ c c' : Cfg Unit} {g : Ledger Unit} {call : Call}
  {I : Cfg Unit → Prop} {e : Event Unit}

theorem Swept.start (hI : Owned n c) (hidle : c.phase () = .suspended .idle) : Swept c c := by
  refine ⟨.of_idle hI hidle, rfl, rfl, rfl, ?_⟩
  rw [hidle]
  exact trivial

/-- A `FlushAllPages` keeps the comparison with its beginning. -/
theorem keptAmid_swept : KeptAmid n N complete g .flushAllPages (Swept c₀) := by
  intro c e c' hA hW hst hmid hserves
  obtain ⟨g', hA', -⟩ := hA.account
  exact hW.step hst hserves hmid.ends (fun y hy => (hmid.2 y hy).2) hA.sound.owned hA'.listed

/-- The property follows a call that began in `c₀`, and says what the call has changed when
it ends. -/
structure Tracks (n N : Nat) (complete : Prop) (g : Ledger Unit) (c₀ : Cfg Unit) (call : Call)
    (I : Cfg Unit → Prop) : Prop where
  kept : KeptAmid n N complete g call I
  start : I c₀
  unhindered : ∀ c, I c → Unhindered c
  guards : ∀ c, I c → c.guards = c₀.guards
  throws : ∀ c e c' err, Amid n N g c → I c → Step n N complete c e c' →
    e = .ended () (.error err) → SameIds c₀ c' ∧ c'.guards = c₀.guards
  returns : ∀ c e c' y, Amid n N g c → I c → Phase.Serves call (c.phase ()) →
    Step n N complete c e c' → e.note = some y → y.Ends → (∀ err, e ≠ .ended () (.error err)) →
    Returned n c₀ c' e call

theorem Tracks.underway (hA : Amid n N g c₀) (hidle : c₀.phase () = .suspended .idle)
    (hcall : call ≠ .flushAllPages) : Tracks n N complete g c₀ call (Underway c₀) where
  kept := keptAmid_underway hcall
  start := .start hA.sound.owned hidle
  unhindered _ hU := hU.unhindered
  guards _ hU := hU.spared.guards
  throws c e c' err hA₁ hU hst he := by
    obtain ⟨hspared, hundone⟩ := hU.fails hst he hA₁.sound.owned hA₁.pinned hA₁.reservations
    exact ⟨Underway.sameIds_of_undone hundone, hspared.guards⟩
  returns c e c' y hA₁ hU hserves hst hnote hends hok :=
    hU.returns hst hserves hcall hnote hends hok hA₁.sound.owned

theorem Tracks.swept (hA : Amid n N g c₀) (hidle : c₀.phase () = .suspended .idle) :
    Tracks n N complete g c₀ .flushAllPages (Swept c₀) where
  kept := keptAmid_swept
  start := .start hA.sound.owned hidle
  unhindered _ hW := hW.unhindered
  guards _ hW := hW.guards
  throws c e c' err _ hW hst he := by
    obtain ⟨hplace, hupcoming, hguards⟩ := hW.ends hst (y := .failed ()) (by rw [he]; rfl) trivial
    exact ⟨⟨fun p => by rw [hplace], hupcoming⟩, hguards⟩
  returns c e c' y _ hW _ hst hnote hends _ := by
    obtain ⟨hplace, hupcoming, hguards⟩ := hW.ends hst hnote hends
    refine ⟨?_, ⟨fun p => by rw [hplace], hupcoming⟩, hguards⟩
    intro t q f he
    have hreserves := (hst.created he).1
    rw [hW.reserves] at hreserves
    cases hreserves

/-- Every call can be followed. -/
theorem exists_tracks (hA : Amid n N g c₀) (hidle : c₀.phase () = .suspended .idle) (call : Call) :
    ∃ I, Tracks n N complete g c₀ call I := by
  by_cases hcall : call = .flushAllPages
  · subst hcall
    exact ⟨_, .swept hA hidle⟩
  · exact ⟨_, .underway hA hidle hcall⟩

/-- The account after the last step of a call. -/
theorem Amid.ends (hA : Amid n N g c) (h : Step n N complete c e c') (hfits : e.Fits)
    {y : Note Unit} (hnote : e.note = some y) (hends : y.Ends) :
    Sound n N c' ∧ ∃ g', Alone c' g' ∧ g'.pending = g.pending ∧
      ((∀ t p f, e ≠ .created t p f) → g'.history = g.history) ∧
      ∀ t p f, e = .created t p f →
        g'.history = Function.update g.history p (g.history p ++ [Page.zero]) := by
  obtain ⟨g₁, hA₁, hhistory, hpending⟩ := hA.account
  have hguard : ∀ z, e.note = some z → ¬ z.OnGuard := by
    intro z hz
    obtain rfl := Option.some.inj (hnote.symm.trans hz)
    cases y <;> first | exact id | exact hends.elim
  have hrenews : e.Renews := by
    cases e with
    | marked => exact absurd trivial (hguard _ rfl)
    | _ => trivial
  refine ⟨hA.sound.step h, e.enter (Ledger.after false) g₁,
    hA₁.step h hfits hrenews ?_ hA.sound.owned, ?_, fun hcreated => ?_, ?_⟩
  · rintro slot failure rfl
    exact absurd trivial (hguard _ rfl)
  · rw [pending_enter_eq hguard, hpending]
  · rw [← hhistory]
    refine funext fun p => history_enter_eq (fun t f => hcreated t p f) ?_
    rintro slot page rfl
    exact absurd trivial (hguard _ rfl)
  · rintro t p f rfl
    rw [← hhistory]
    rfl

end Protocol

namespace Refinement

variable {R : Type} [Replacer R] [LawfulReplacer R] {n N : Nat} {s s' : System R Unit}
  {st st' : PageStore} {c c' : Cfg Unit} {g : Ledger Unit} {out : Outcome} {answer : Answer}

/-- The store is what a client knows of the system between two calls. -/
structure Shown (n N : Nat) (s : System R Unit) (st : PageStore) (c : Cfg Unit)
    (g : Ledger Unit) : Prop where
  sim : Sim n N s c
  sound : Sound n N c
  alone : Alone c g
  mirrors : Mirrors N c g st

theorem Shown.initial (h : System.Initial n N s) : ∃ c, Shown n N s {} c {} := by
  obtain ⟨disk, hsim⟩ := Sim.initial h
  refine ⟨_, hsim, Sound.initial disk, Alone.initial disk, ?_⟩
  exact {
    idle := rfl
    pending := fun _ => rfl
    ids := by simp [PageStore.ids, Cfg.initial, List.range_eq_range']
    unused := fun _ => by simp [Cfg.initial]
    contents := fun _ _ h => by cases h
    guards := rfl }

namespace Shown

theorem idle (h : Shown n N s st c g) : s.pc () = .idle :=
  Phase.suspended.inj ((h.sim.phase ()).symm.trans h.mirrors.idle)

/-! ## Guards -/

theorem guardOn (h : Shown n N s st c g) {slot : Nat} {gd : PageGuard}
    (hg : s.guards[slot]? = some gd) : st.guardOn slot = gd.page :=
  h.mirrors.guardOn (h.sim.guard_eq hg)

/-- The bytes that a live guard shows are the store's. -/
theorem bytes (h : Shown n N s st c g) {slot : Nat} {gd : PageGuard}
    (hg : s.guards[slot]? = some gd) (hv : gd.valid = true) :
    st.contents gd.pageId = some (s.bytes gd.frameId) := by
  obtain ⟨r, -, -, -, -, hplace⟩ :=
    h.alone.pinned.of_guard h.sound.owned (List.mem_of_getElem? (h.sim.guard_eq hg)) hv
  rw [h.sim.bytes_eq]
  exact h.mirrors.contents_of_place h.sound.owned h.alone hplace

/-- A use of a guard. -/
theorem used (h : Shown n N s st c g) {e : Event Unit}
    (hst : Step n N (CompleteReplacer R) c e c') (hsim : Sim n N s' c') (hfits : e.Fits)
    (hrenews : e.Renews) (hM : Mirrors N c' (e.enter (Ledger.after false) g) st') :
    Shown n N s' st' c' (e.enter (Ledger.after false) g) where
  sim := hsim
  sound := h.sound.step hst
  alone := h.alone.step hst hfits hrenews (fun slot _ _ => h.mirrors.pending slot) h.sound.owned
  mirrors := hM

theorem read (h : Shown n N s st c g) {slot : Nat} (hstep : s.step (.read slot) = some (s', out))
    (hanswer : s'.answer out = some answer) :
    answer = (st.read slot).1 ∧ Shown n N s' (st.read slot).2 c g := by
  rw [PageStore.read_snd]
  obtain ⟨gd, hg, heq⟩ := Option.map_eq_some_iff.mp hstep
  split at heq
  · next hv =>
    obtain ⟨rfl, rfl⟩ := Prod.mk.inj heq
    obtain rfl := Option.some.inj hanswer
    refine ⟨?_, h⟩
    rw [PageStore.read, h.guardOn hg, PageGuard.page_eq_some.mpr ⟨hv, rfl⟩, Option.bind_some,
      h.bytes hg hv]
  · next hv =>
    obtain ⟨rfl, rfl⟩ := Prod.mk.inj heq
    obtain rfl := Option.some.inj hanswer
    refine ⟨?_, h⟩
    rw [PageStore.read, h.guardOn hg, PageGuard.page, if_neg hv]
    rfl

theorem writeThrew (h : Shown n N s st c g) {slot : Nat} {page : Page} {e : Error}
    (hstep : s.step (.write slot page) = some (s', .threw e)) :
    .threw e = (st.write slot page).1 ∧ Shown n N s' (st.write slot page).2 c g := by
  obtain ⟨gd, hg, heq⟩ := Option.map_eq_some_iff.mp hstep
  split at heq
  · cases heq
  · next hv =>
    obtain ⟨rfl, hout⟩ := Prod.mk.inj heq
    obtain rfl := Outcome.threw.inj hout
    rw [PageStore.write, h.guardOn hg, PageGuard.page, if_neg hv]
    exact ⟨rfl, h⟩

theorem write (h : Shown n N s st c g) {slot : Nat} {page : Page} {r : Result}
    {m : System R Unit} (hwrite : s.step (.write slot page) = some (m, .returned r))
    (hmark : m.step (.markDirty slot) = some (s', out)) (hanswer : s'.answer out = some answer) :
    answer = (st.write slot page).1 ∧ ∃ c' g', Shown n N s' (st.write slot page).2 c' g' := by
  obtain ⟨gd, hg, heq⟩ := Option.map_eq_some_iff.mp hwrite
  split at heq
  · next hv =>
    obtain ⟨rfl, -⟩ := Prod.mk.inj heq
    have hg' := h.sim.guard_eq hg
    obtain ⟨t, ht, hpage, -, -, hplace⟩ :=
      h.alone.pinned.of_guard h.sound.owned (List.mem_of_getElem? hg') hv
    have hchange : Step n N (CompleteReplacer R) c (.changed slot gd.pageId page)
        (c.setBytes gd.frameId page) := .change slot gd page hg' hv
    have hsim₁ : Sim n N (s.setBytes gd.frameId page) (c.setBytes gd.frameId page) :=
      (change_simulated h.sim hg hv).sim
    have hmarked : Step n N (CompleteReplacer R) (c.setBytes gd.frameId page) _ _ :=
      .mark slot gd t hg' hv ht hpage
    have hA₁ := h.alone.step hchange trivial trivial (fun _ _ he => by cases he) h.sound.owned
    have hsound₁ := h.sound.step hchange
    have hA₂ := hA₁.step hmarked trivial (not_captured h.mirrors.idle _ _ _)
      (fun _ _ he => by cases he) hsound₁.owned
    obtain ⟨gd', hgd', heq'⟩ := Option.map_eq_some_iff.mp hmark
    obtain rfl : gd = gd' := Option.some.inj (hg.symm.trans hgd')
    rw [hsim₁.marks hsound₁.owned hA₁.pinned (List.mem_of_getElem? hgd') hv] at heq'
    obtain ⟨rfl, rfl⟩ := Prod.mk.inj heq'
    obtain rfl := Option.some.inj hanswer
    rw [PageStore.write, h.guardOn hg, PageGuard.page_eq_some.mpr ⟨hv, rfl⟩]
    refine ⟨rfl, _, _, ?_, hsound₁.step hmarked, hA₂,
      h.mirrors.written hchange hmarked rfl (by rw [hplace]; exact Place.noConfusion)⟩
    refine ⟨?_, hsim₁.disk, hsim₁.phase, hsim₁.guards⟩
    have hR := hsim₁.rep.setUse gd.frameId (.resident { t with
      dirty := true
      epoch := (t.epoch + 1) % 2 ^ 64 })
    rw [hsim₁.rep.frameMeta,
      show (c.setBytes gd.frameId page).frame gd.frameId = .resident t from ht]
    exact hR
  · cases heq

/-- A guard is dropped, or there is none. -/
theorem dropGuard (h : Shown n N s st c g) {slot : Nat} {gd : PageGuard}
    (hg : s.guards[slot]? = some gd) {failure : Option Error}
    (hdrop : s.dropGuard slot gd = (s', failure)) :
    failure = none ∧ ∃ c' g', Shown n N s' { st with guards := st.guards.set slot none } c' g' ∧
      (∃ gd', s'.guards[slot]? = some gd' ∧ gd'.valid = false) ∧
      ∀ slot', slot' ≠ slot → s'.guards[slot']? = s.guards[slot']? := by
  obtain ⟨s₁, hnone⟩ := h.sim.drops h.sound.owned h.alone.pinned hg
  obtain ⟨rfl, rfl⟩ := Prod.mk.inj (hdrop.symm.trans hnone)
  refine ⟨rfl, ?_⟩
  have hlt := (List.getElem?_eq_some_iff.mp hg).1
  cases hv : gd.valid with
  | true =>
    obtain ⟨c', hst, hsim, hguards⟩ := dropGuard_simulated h.sim h.sound.owned hg hv hdrop
    refine ⟨c', _, h.used hst hsim trivial trivial (h.mirrors.dropped hst ?_), ⟨{}, ?_, rfl⟩, ?_⟩
    · rw [hsim.guards, hguards, h.sim.guards]
    · rw [hguards, List.getElem?_set_self hlt]
    · intro slot' hne
      rw [hguards, List.getElem?_set_ne hne.symm]
  | false =>
    have hsame : s.dropGuard slot gd = (s, none) := by
      rw [System.dropGuard, hv]
      rfl
    obtain ⟨rfl, -⟩ := Prod.mk.inj (hdrop.symm.trans hsame)
    refine ⟨c, g, ?_, ⟨gd, hg, hv⟩, fun _ _ => rfl⟩
    have hempty : st.guards[slot]? = some none := by
      rw [h.mirrors.guards, List.getElem?_map, h.sim.guard_eq hg]
      simp [PageGuard.page, hv]
    have hset : st.guards.set slot none = st.guards := by
      obtain ⟨hlt', hget⟩ := List.getElem?_eq_some_iff.mp hempty
      rw [← hget, List.set_getElem_self]
    rw [hset]
    exact h

theorem drop (h : Shown n N s st c g) {slot : Nat} (hstep : s.step (.drop slot) = some (s', out))
    (hanswer : s'.answer out = some answer) :
    answer = (st.drop slot).1 ∧ ∃ c' g', Shown n N s' (st.drop slot).2 c' g' := by
  obtain ⟨gd, hg, heq⟩ := Option.map_eq_some_iff.mp hstep
  cases hdrop : s.dropGuard slot gd with
  | mk s₁ failure =>
    rw [hdrop] at heq
    obtain ⟨rfl, c', g', h', -⟩ := h.dropGuard hg hdrop
    obtain ⟨rfl, rfl⟩ := Prod.mk.inj heq
    obtain rfl := Option.some.inj hanswer
    exact ⟨rfl, c', g', h'⟩

theorem destroy (h : Shown n N s st c g) {slot : Nat}
    (hstep : s.step (.destroy slot) = some (s', out)) (hanswer : s'.answer out = some answer) :
    answer = (st.drop slot).1 ∧ ∃ c' g', Shown n N s' (st.drop slot).2 c' g' := by
  obtain ⟨gd, hg, heq⟩ := Option.map_eq_some_iff.mp hstep
  cases hdrop : s.dropGuard slot gd with
  | mk s₁ failure =>
    rw [hdrop] at heq
    obtain ⟨rfl, c', g', h', -⟩ := h.dropGuard hg hdrop
    obtain ⟨rfl, rfl⟩ := Prod.mk.inj heq
    obtain rfl := Option.some.inj hanswer
    exact ⟨rfl, c', g', h'⟩

theorem moveConstruct (h : Shown n N s st c g) {slot : Nat}
    (hstep : s.step (.moveConstruct slot) = some (s', out))
    (hanswer : s'.answer out = some answer) : answer = (st.moveConstruct slot).1 ∧
      ∃ c' g', Shown n N s' (st.moveConstruct slot).2 c' g' := by
  obtain ⟨gd, hg, heq⟩ := Option.map_eq_some_iff.mp hstep
  obtain ⟨rfl, rfl⟩ := Prod.mk.inj heq
  obtain rfl := Option.some.inj hanswer
  have hst : Step n N (CompleteReplacer R) c _ _ := .move slot gd (h.sim.guard_eq hg)
  have hstore : (st.moveConstruct slot).2 = { st with
      guards := (c.guards.set slot {} ++ [gd]).map PageGuard.page } := by
    rw [List.map_append, List.map_set, ← h.mirrors.guards, PageStore.moveConstruct, h.guardOn hg]
    rfl
  rw [hstore]
  refine ⟨rfl, _, _, h.used hst ?_ trivial trivial (h.mirrors.moved hst)⟩
  exact ⟨{ h.sim.rep with }, h.sim.disk, h.sim.phase, by simp [h.sim.guards]⟩

theorem moveAssign (h : Shown n N s st c g) {slot source : Nat}
    (hstep : s.step (.moveAssign slot source) = some (s', out))
    (hanswer : s'.answer out = some answer) : answer = (st.moveAssign slot source).1 ∧
      ∃ c' g', Shown n N s' (st.moveAssign slot source).2 c' g' := by
  simp only [System.step] at hstep
  split at hstep
  · next gd gd' hg hg' =>
    by_cases hne : slot = source
    · rw [if_pos hne] at hstep
      obtain ⟨rfl, rfl⟩ := Prod.mk.inj (Option.some.inj hstep)
      obtain rfl := Option.some.inj hanswer
      rw [PageStore.moveAssign, if_pos hne]
      exact ⟨rfl, c, g, h⟩
    · rw [if_neg hne] at hstep
      cases hdrop : s.dropGuard slot gd with
      | mk s₁ failure =>
        rw [hdrop] at hstep
        obtain ⟨rfl, c₁, g₁, h₁, ⟨gd₁, hg₁, hv₁⟩, hother⟩ := h.dropGuard hg hdrop
        obtain ⟨rfl, rfl⟩ := Prod.mk.inj (Option.some.inj hstep)
        obtain rfl := Option.some.inj hanswer
        have hg₂ : s₁.guards[source]? = some gd' := by rw [hother source (Ne.symm hne), hg']
        have hst : Step n N (CompleteReplacer R) c₁ _ _ := .assign slot source gd₁ gd' hne
          (h₁.sim.guard_eq hg₁) hv₁ (h₁.sim.guard_eq hg₂)
        have hstore : { st with
            guards := (st.guards.set slot (st.guardOn source)).set source none } =
            { st with guards := ((c₁.guards.set slot gd').set source {}).map PageGuard.page } := by
          rw [List.map_set, List.map_set, ← h₁.mirrors.guards, List.set_set, h.guardOn hg']
          rfl
        rw [PageStore.moveAssign, if_neg hne, hstore]
        refine ⟨rfl, _, _, h₁.used hst ?_ trivial trivial (h₁.mirrors.moved hst)⟩
        exact ⟨{ h₁.sim.rep with }, h₁.sim.disk, h₁.sim.phase,
          by simp [System.moveGuard, System.setGuard, h₁.sim.guards]⟩
  · cases hstep

/-! ## Calls that throw in their first piece -/

section

variable {p : Nat} {e : Error}

theorem contents_of_used (h : Shown n N s st c g) (hp : c.place p ≠ .unused) :
    ∃ page, st.contents p = some page :=
  Option.ne_none_iff_exists'.mp fun hnone => hp ((h.mirrors.unused p).mp hnone)

theorem step_newPage_noIds (h : Shown n N s st c g) (hids : st.ids N = []) :
    ∃ m, s.step (.call () .newPage) =
      some (m, .threw ⟨.runtimeError, "maximum number of pages reached"⟩) := by
  apply System.step_call_threw h.idle
  apply System.start_newPage_noIds h.sim.rep.table_inv
  rw [h.sim.rep.upcoming, ← h.mirrors.ids, hids]

theorem pageState_invalid (h : Shown n N s st c g) (hp : ¬ p < N) :
    Manager.pageState p s.manager = .error ⟨.outOfRange, "invalid page id"⟩ s.manager := by
  apply System.pageState_invalid
  rw [h.sim.rep.maxPageCount]
  exact Nat.le_of_not_lt hp

theorem pageState_unused (h : Shown n N s st c g) (hp : p < N) (hunused : c.place p = .unused) :
    Manager.pageState p s.manager = .ok .unused s.manager := by
  apply System.pageState_unused
  · rw [h.sim.rep.maxPageCount]
    exact hp
  · rw [h.sim.rep.state_eq, hunused]
    rfl

/-- A page that is not in use is fetched. -/
theorem step_fetchPage_missing (h : Shown n N s st c g) (hunused : c.place p = .unused) :
    ∃ m, s.step (.call () (.fetchPage p)) = some (m, .threw
      (PageStore.missing N p ⟨.logicError, "cannot fetch an unused page"⟩)) := by
  apply System.step_call_threw h.idle
  unfold PageStore.missing
  split
  · next hp => exact System.fetchPage_unused (h.pageState_unused hp hunused)
  · next hp => exact System.visit_of_error (v := .fetchPage p) (h.pageState_invalid hp)

theorem step_flushPage_missing (h : Shown n N s st c g) (hunused : c.place p = .unused) :
    ∃ m, s.step (.call () (.flushPage p)) = some (m, .threw
      (PageStore.missing N p ⟨.logicError, "cannot flush an unused page"⟩)) := by
  apply System.step_call_threw h.idle
  unfold PageStore.missing
  split
  · next hp => exact System.flushPage_unused (h.pageState_unused hp hunused)
  · next hp => exact System.visit_of_error (v := .flushPage p .flushPage) (h.pageState_invalid hp)

theorem step_deletePage_invalid (h : Shown n N s st c g) (hp : ¬ p < N) :
    ∃ m, s.step (.call () (.deletePage p)) =
      some (m, .threw ⟨.outOfRange, "invalid page id"⟩) := by
  apply System.step_call_threw h.idle
  exact System.visit_of_error (v := .deletePage p) (h.pageState_invalid hp)

theorem step_deletePage_unused (h : Shown n N s st c g) (hp : p < N)
    (hunused : c.place p = .unused) :
    ∃ m, s.step (.call () (.deletePage p)) = some (m, .returned .unit) := by
  apply System.step_call_unit h.idle
  exact System.deletePage_unused (h.pageState_unused hp hunused)

omit [LawfulReplacer R] in
/-- A call ends in one way. -/
theorem threw_unique {call : Call} {e' : Error} {m : System R Unit}
    (hstep : s.step (.call () call) = some (s', .threw e))
    (hstep' : s.step (.call () call) = some (m, .threw e')) : e' = e :=
  Outcome.threw.inj (Prod.mk.inj (Option.some.inj (hstep'.symm.trans hstep))).2

/-- A full manager has no room, and a crowd of guarded pages. -/
theorem crowded_of_full [CompleteReplacer R] (h : Shown n N s st c g) (hfull : s.Full) :
    st.Crowded n := by
  have hI := h.sound.owned
  apply h.mirrors.crowded_of_not_room hI h.alone.pinned h.alone.listed
  rintro ⟨f, hf, hfree | ⟨r, hr, hpins⟩⟩
  · have hmem := hfull.allocated f (by rw [h.sim.rep.frameCount]; exact hf)
    rw [h.sim.rep.allocated] at hmem
    exact (mem_allocated_iff hI h.mirrors.idle).mp hmem hfree
  · have hmem := (mem_evictable_iff hI h.alone.pinned).mpr ⟨r, hr, h.alone.listed f r hr, hpins⟩
    rw [← h.sim.rep.evictable, hfull.unevictable inferInstance] at hmem
    exact hmem

/-- A page with a full pin count has too many guards. -/
theorem not_pinOverflow (h : Shown n N s st c g) (hfew : s.FewGuards) {f : Nat}
    (hentry : s.entry p = ⟨.resident, some f⟩)
    (hpins : (s.manager.frameMeta f).pinCount = maxPinCount) : False := by
  obtain ⟨r, hr, rfl, hlisted⟩ := h.sound.owned.resident (h.sim.place_of_entry hentry)
  rw [h.sim.rep.frameMeta, hr] at hpins
  change r.pins = maxPinCount at hpins
  have heq := h.alone.pinned.pins_eq f r hr hlisted
  rw [refs_eq_guardsOn h.mirrors.idle rfl] at heq
  have hle := h.sim.guardsOn_le r.page f
  have hlt := guardsOf_lt hfew r.page
  omega

/-- A page with a pin is guarded. -/
theorem guarded_of_pins (h : Shown n N s st c g) {f : Nat}
    (hentry : s.entry p = ⟨.resident, some f⟩) (hpins : (s.manager.frameMeta f).pinCount ≠ 0) :
    c.place p = .resident f ∧ p ∈ st.guarded := by
  have hplace := h.sim.place_of_entry hentry
  obtain ⟨r, hr, rfl, hlisted⟩ := h.sound.owned.resident hplace
  rw [h.sim.rep.frameMeta, hr] at hpins
  exact ⟨hplace, h.mirrors.guarded_of_pinned h.alone.pinned hr hlisted hpins⟩

theorem newPage_threw [CompleteReplacer R] (h : Shown n N s st c g)
    (hstep : s.step (.call () .newPage) = some (s', .threw e))
    (hfails : s.Fails (.call () .newPage) e) : st.newPage n N = (.threw e, st) := by
  cases hids : st.ids N with
  | nil =>
    obtain ⟨m, hm⟩ := h.step_newPage_noIds hids
    rw [PageStore.newPage, PageStore.takeId_none hids, threw_unique hstep hm]
  | cons p rest =>
    obtain ⟨st₁, htake, -⟩ := PageStore.takeId_some hids
    cases hfails with
    | noIds _ hupcoming =>
      rw [h.sim.rep.upcoming, ← h.mirrors.ids, hids] at hupcoming
      cases hupcoming
    | noFrame _ hfull =>
      rw [PageStore.newPage, htake]
      exact if_pos (h.crowded_of_full hfull)
    | blocked hblocked =>
      obtain ⟨t, haction, -⟩ := hblocked
      cases haction
    | refused hv => cases hv

theorem fetchPage_threw [CompleteReplacer R] (h : Shown n N s st c g) (hfew : s.FewGuards)
    (hstep : s.step (.call () (.fetchPage p)) = some (s', .threw e))
    (hfails : s.Fails (.call () (.fetchPage p)) e) : st.fetchPage n N p = (.threw e, st) := by
  by_cases hunused : c.place p = .unused
  · obtain ⟨m, hm⟩ := h.step_fetchPage_missing hunused
    rw [PageStore.fetchPage, (h.mirrors.unused p).mpr hunused, threw_unique hstep hm]
  · obtain ⟨page, hpage⟩ := h.contents_of_used hunused
    have hstate := not_refused_unused h.sim hunused
    cases hfails with
    | noFrame hseeks hfull =>
      cases hseeks with
      | fetchPage q hv hnon =>
        obtain rfl := Visit.fetchPage.inj (Option.some.inj hv)
        rw [PageStore.fetchPage, hpage]
        refine if_pos ⟨fun hguarded => ?_, h.crowded_of_full hfull⟩
        obtain ⟨f, r, hplace, -⟩ :=
          h.mirrors.pinned_of_guarded h.sound.owned h.alone.pinned hguarded
        rw [h.sim.entry_eq, hplace] at hnon
        cases hnon
    | blocked hblocked =>
      obtain ⟨t, haction, -⟩ := hblocked
      cases haction
    | refused hv hrefuses =>
      obtain rfl := Option.some.inj hv
      cases hrefuses with
      | invalid _ hnot | fetchUnused _ hnot => exact absurd hnot hstate
      | pinOverflow _ f hentry hpins => exact (h.not_pinOverflow hfew hentry hpins).elim

theorem flushPage_threw (h : Shown n N s st c g)
    (hstep : s.step (.call () (.flushPage p)) = some (s', .threw e))
    (hfails : s.Fails (.call () (.flushPage p)) e) : st.flushPage N p = (.threw e, st) := by
  by_cases hunused : c.place p = .unused
  · obtain ⟨m, hm⟩ := h.step_flushPage_missing hunused
    rw [PageStore.flushPage, (h.mirrors.unused p).mpr hunused, threw_unique hstep hm]
  · have hstate := not_refused_unused h.sim hunused
    cases hfails with
    | noFrame hseeks =>
      cases hseeks with
      | fetchPage q hv => cases hv
    | blocked hblocked =>
      obtain ⟨t, haction, -⟩ := hblocked
      cases haction
    | refused hv hrefuses =>
      obtain rfl := Option.some.inj hv
      cases hrefuses with
      | invalid _ hnot | flushUnused _ _ hnot => exact absurd hnot hstate

theorem flushAllPages_not_fails (hfails : s.Fails (.call () .flushAllPages) e) : False := by
  cases hfails with
  | noFrame hseeks =>
    cases hseeks with
    | fetchPage q hv => cases hv
  | blocked hblocked =>
    obtain ⟨t, haction, -⟩ := hblocked
    cases haction
  | refused hv => cases hv

theorem deletePage_threw (h : Shown n N s st c g)
    (hstep : s.step (.call () (.deletePage p)) = some (s', .threw e))
    (hfails : s.Fails (.call () (.deletePage p)) e) : st.deletePage N p = (.threw e, st) := by
  by_cases hunused : c.place p = .unused
  · rw [PageStore.deletePage, (h.mirrors.unused p).mpr hunused]
    by_cases hp : p < N
    · obtain ⟨m, hm⟩ := h.step_deletePage_unused hp hunused
      cases (Prod.mk.inj (Option.some.inj (hm.symm.trans hstep))).2
    · obtain ⟨m, hm⟩ := h.step_deletePage_invalid hp
      exact (if_neg hp).trans (by rw [threw_unique hstep hm])
  · obtain ⟨page, hpage⟩ := h.contents_of_used hunused
    have hstate := not_refused_unused h.sim hunused
    cases hfails with
    | noFrame hseeks =>
      cases hseeks with
      | fetchPage q hv => cases hv
    | blocked hblocked =>
      obtain ⟨t, haction, -⟩ := hblocked
      cases haction
    | refused hv hrefuses =>
      obtain rfl := Option.some.inj hv
      cases hrefuses with
      | invalid _ hnot => exact absurd hnot hstate
      | deletePinned _ f hentry hpins =>
        rw [PageStore.deletePage, hpage]
        exact if_pos (h.guarded_of_pins hentry hpins).2

/-- A call that throws in its first piece throws what the store does. -/
theorem perform_of_fails [CompleteReplacer R] (h : Shown n N s st c g) (hfew : s.FewGuards)
    {call : Call} (hstep : s.step (.call () call) = some (s', .threw e))
    (hfails : s.Fails (.call () call) e) : st.perform n N (.call call, none) = (.threw e, st) := by
  cases call with
  | newPage => exact h.newPage_threw hstep hfails
  | fetchPage p => exact h.fetchPage_threw hfew hstep hfails
  | flushPage p => exact h.flushPage_threw hstep hfails
  | flushAllPages => exact (flushAllPages_not_fails hfails).elim
  | deletePage p => exact h.deletePage_threw hstep hfails

end

end Shown

/-! ## Calls that return -/

section

variable {c₀ c₁ : Cfg Unit} {g' : Ledger Unit} {call : Call} {failure : Option Error}
  {m : System R Unit} {r : Result} {e : Event Unit} {p f : Nat}

omit [Replacer R] [LawfulReplacer R] in
theorem settle_guards {piece : Locked R Unit Next}
    (h : m.settle () piece = (s', .returned r)) :
    s'.guards = m.guards ++ guardsOf (.returned r) := by
  unfold System.settle at h
  split at h
  · cases h
  · obtain ⟨rfl, hr⟩ := Prod.mk.inj h
    obtain rfl := Outcome.returned.inj hr
    rfl
  · obtain ⟨rfl, hr⟩ := Prod.mk.inj h
    obtain rfl := Outcome.returned.inj hr
    exact (List.append_nil _).symm
  · cases h

omit [LawfulReplacer R] in
/-- A call that returns adds the guard it returns. -/
theorem LastPiece.guards (h : LastPiece s call failure m s' (.returned r)) :
    s'.guards = m.guards ++ guardsOf (.returned r) := by
  rcases h with ⟨rfl, -, hstep⟩ | ⟨-, -, hstep⟩
  · simp only [System.step] at hstep
    split at hstep
    · exact settle_guards (Option.some.inj hstep)
    · cases hstep
  · obtain ⟨piece, -, hsettle⟩ := Option.map_eq_some_iff.mp hstep
    exact settle_guards hsettle

theorem guardsOf_eq_nil (h : guardsOf (.returned r) = []) : r = .unit := by
  cases r with
  | unit => rfl
  | guard gd => cases h

theorem guardsOf_eq_singleton {gd : PageGuard} (h : guardsOf (.returned r) = [gd]) :
    r = .guard gd := by
  cases r with
  | unit => cases h
  | guard gd' =>
    obtain ⟨rfl, -⟩ := List.cons.inj h
    rfl

/-- A guard that has been returned shows what the store has. -/
theorem Shown.answer_guard (h : Shown n N s' st' c' g')
    (hguards : c'.guards = c₀.guards ++ [⟨true, p, f⟩]) {page : Page}
    (hpage : st'.contents p = some page) :
    s'.answer (.returned (.guard ⟨true, p, f⟩)) = some (.guard p page) := by
  have hg : s'.guards[c₀.guards.length]? = some ⟨true, p, f⟩ := by
    rw [← h.sim.guards, hguards]
    simp
  have hbytes := h.bytes hg rfl
  rw [hpage] at hbytes
  rw [Option.some.inj hbytes]
  rfl

/-- What is known when a call has returned. -/
structure Ended (n N : Nat) (s : System R Unit) (st : PageStore) (c₀ : Cfg Unit) (g : Ledger Unit)
    (call : Call) (e : Event Unit) (r : Result) (s' : System R Unit) (c' : Cfg Unit)
    (g' : Ledger Unit) : Prop where
  start : Shown n N s st c₀ g
  sim : Sim n N s' c'
  sound : Sound n N c'
  alone : Alone c' g'
  idle : c'.phase () = .suspended .idle
  pending : g'.pending = g.pending
  history : (∀ t p f, e ≠ .created t p f) → g'.history = g.history
  created : ∀ t p f, e = .created t p f →
    g'.history = Function.update g.history p (g.history p ++ [Page.zero])
  returned : Returned n c₀ c' e call
  guards : c'.guards = c₀.guards ++ guardsOf (.returned r)

namespace Ended

theorem result_unit (h : Ended n N s st c₀ g call e r s' c' g') (hguards : c'.guards = c₀.guards) :
    r = .unit := by
  apply guardsOf_eq_nil
  have heq := h.guards
  rw [hguards] at heq
  exact List.append_cancel_left (heq.symm.trans (List.append_nil _).symm)

theorem result_guard (h : Ended n N s st c₀ g call e r s' c' g')
    (hguards : c'.guards = c₀.guards ++ [⟨true, p, f⟩]) : r = .guard ⟨true, p, f⟩ := by
  apply guardsOf_eq_singleton
  have heq := h.guards
  rw [hguards] at heq
  exact List.append_cancel_left heq.symm

/-- A call that changes no page and no guard. -/
theorem unchanged (h : Ended n N s st c₀ g call e r s' c' g')
    (hcreated : ∀ t p f, e ≠ .created t p f)
    (hids : SameIds c₀ c') (hguards : c'.guards = c₀.guards) :
    s'.answer (.returned r) = some .unit ∧ Shown n N s' st c' g' := by
  obtain rfl := h.result_unit hguards
  exact ⟨rfl, h.sim, h.sound, h.alone,
    h.start.mirrors.congr hids hguards h.idle (h.history hcreated) h.pending⟩

theorem newPage (h : Ended n N s st c₀ g .newPage e r s' c' g') :
    s'.answer (.returned r) = some (st.newPage n N).1 ∧ Shown n N s' (st.newPage n N).2 c' g' := by
  obtain ⟨p, f, he, hids, hunused, hguards, hroom⟩ := h.returned
  obtain rfl := h.result_guard hguards
  have hM := h.start.mirrors
  obtain ⟨st₁, htake, hids₁, hcontents, hst⟩ := PageStore.takeId_some (hM.ids.trans hids)
  have hnot := hM.not_crowded_of_room h.start.sound.owned h.start.alone.pinned hroom
  have hperform : st.newPage n N = (st₁.setPage p (some Page.zero)).grant p Page.zero := by
    rw [PageStore.newPage, htake]
    exact if_neg hnot
  rw [hperform]
  have hshown : Shown n N s' ((st₁.setPage p (some Page.zero)).grant p Page.zero).2 c' g' :=
    ⟨h.sim, h.sound, h.alone, hM.created hids₁ hcontents hst hunused hguards h.idle
      (h.created _ _ _ he) h.pending⟩
  exact ⟨hshown.answer_guard hguards (Function.update_self _ _ _), hshown⟩

theorem fetchPage (h : Ended n N s st c₀ g (.fetchPage p) e r s' c' g') :
    s'.answer (.returned r) = some (st.fetchPage n N p).1 ∧
      Shown n N s' (st.fetchPage n N p).2 c' g' := by
  obtain ⟨f, hcreated, hids, hguards, hroom⟩ := h.returned
  obtain rfl := h.result_guard hguards
  have hM := h.start.mirrors
  have hI := h.start.sound.owned
  have hP := h.start.alone.pinned
  have hused : c₀.place p ≠ .unused := by
    rw [ne_eq, ← hids.unused]
    obtain ⟨-, -, -, -, -, hplace⟩ := h.alone.pinned.of_guard h.sound.owned
      (g := ⟨true, p, f⟩) (by rw [hguards]; simp) rfl
    rw [show c'.place p = .resident f from hplace]
    exact Place.noConfusion
  obtain ⟨page, hpage⟩ := h.start.contents_of_used hused
  have hnot : ¬ (p ∉ st.guarded ∧ st.Crowded n) := by
    rintro ⟨hguarded, hcrowded⟩
    rcases hroom with hroom | ⟨t, hplace, ht, hpins⟩
    · exact hM.not_crowded_of_room hI hP hroom hcrowded
    · obtain ⟨hpage, hlisted⟩ := hI.resident_use hplace ht
      exact hguarded (hpage ▸ hM.guarded_of_pinned hP ht hlisted hpins)
  have hperform : st.fetchPage n N p = st.grant p page := by
    rw [PageStore.fetchPage, hpage]
    exact if_neg hnot
  rw [hperform]
  have hshown : Shown n N s' (st.grant p page).2 c' g' :=
    ⟨h.sim, h.sound, h.alone, hM.granted hids hguards h.idle (h.history hcreated) h.pending page⟩
  exact ⟨hshown.answer_guard hguards hpage, hshown⟩

theorem deletePage (h : Ended n N s st c₀ g (.deletePage p) e r s' c' g')
    (hvalid : c₀.place p = .unused → p < N) :
    s'.answer (.returned r) = some (st.deletePage N p).1 ∧
      Shown n N s' (st.deletePage N p).2 c' g' := by
  obtain ⟨hcreated, hguards, ⟨hunused, hids⟩ | ⟨hused, hpins, hids, hunused⟩⟩ := h.returned
  · have hperform : st.deletePage N p = (.unit, st) := by
      rw [PageStore.deletePage, (h.start.mirrors.unused p).mpr hunused]
      exact if_pos (hvalid hunused)
    rw [hperform]
    exact h.unchanged hcreated hids hguards
  · obtain rfl := h.result_unit hguards
    obtain ⟨page, hpage⟩ := h.start.contents_of_used hused
    have hnot : p ∉ st.guarded := by
      intro hguarded
      obtain ⟨f, t, hplace, ht, -, hne⟩ :=
        h.start.mirrors.pinned_of_guarded h.start.sound.owned h.start.alone.pinned hguarded
      exact hne (hpins f t hplace ht)
    have hperform : st.deletePage N p =
        (.unit, { st.setPage p none with freed := p :: st.freed }) := by
      rw [PageStore.deletePage, hpage]
      exact if_neg hnot
    rw [hperform]
    exact ⟨rfl, h.sim, h.sound, h.alone, h.start.mirrors.deleted hids hunused hguards h.idle
      (h.history hcreated) h.pending⟩

end Ended

end

/-! ## Every operation -/

section

variable [CompleteReplacer R] {call : Call} {failure : Option Error}

/-- A call answers as the store does, and leaves the system as the store. -/
theorem Shown.executes (h : Shown n N s st c g) (hfew : s.FewGuards)
    (hexec : s.Executes call failure s' out) (hanswer : s'.answer out = some answer) :
    answer = (st.perform n N (.call call, failure)).1 ∧
      ∃ c' g', Shown n N s' (st.perform n N (.call call, failure)).2 c' g' := by
  have hA : Amid n N g c := ⟨h.sound, g, h.alone, rfl, rfl⟩
  obtain ⟨I, hI⟩ : ∃ I, Tracks n N (CompleteReplacer R) g c call I :=
    exists_tracks hA h.mirrors.idle call
  rcases incall_of_executes hI.kept h.sim hA hI.start hfew hexec with
    ⟨rfl, -⟩ | ⟨hout, m, c₂, c₁, e, c', hpiece, hlast⟩
  · cases hanswer
  obtain ⟨y, hnote, hends⟩ := hlast.ends
  obtain ⟨hsound, g', halone, hpending, hhistory, hcreated⟩ :=
    hlast.amid.ends hlast.step hlast.fits hnote hends
  have hidle : c'.phase () = .suspended .idle := by
    rw [hlast.sim.phase, idle_of_lastPiece hpiece (System.answer_ne_none hanswer)]
  rcases hout with ⟨r, rfl, rfl⟩ | ⟨err, rfl⟩
  · have hok : ∀ err, e ≠ .ended () (.error err) := by
      intro err he
      obtain ⟨err', hthrew⟩ := hlast.throws.mpr ⟨err, he⟩
      cases hthrew
    have hserves := hlast.serves.resolve_right fun ⟨_, err, he⟩ => hok err he
    have hended : Ended n N s st c g call e r s' c' g' := {
      start := h
      sim := hlast.sim
      sound := hsound
      alone := halone
      idle := hidle
      pending := hpending
      history := hhistory
      created := hcreated
      returned := hI.returns c₁ e c' y hlast.amid hlast.property hserves hlast.step hnote hends hok
      guards := by
        rw [hlast.sim.guards, hpiece.guards, ← hlast.start.guards,
          hI.guards c₂ hlast.start_property] }
    have hreturns : ∀ {m : System R Unit} {err : Error},
        s.step (.call () call) ≠ some (m, .threw err) := by
      intro m err hstep
      cases (hexec.eq_of_ends hstep Outcome.noConfusion).2.2
    cases call with
    | newPage =>
      obtain ⟨ha, hshown⟩ := hended.newPage
      exact ⟨Option.some.inj (hanswer.symm.trans ha), c', g', hshown⟩
    | fetchPage p =>
      obtain ⟨ha, hshown⟩ := hended.fetchPage
      exact ⟨Option.some.inj (hanswer.symm.trans ha), c', g', hshown⟩
    | flushPage p =>
      obtain ⟨hcreated, hids, hguards⟩ := hended.returned
      obtain ⟨ha, hshown⟩ := hended.unchanged hcreated hids hguards
      have hused : c.place p ≠ .unused := by
        intro hunused
        obtain ⟨m, hm⟩ := h.step_flushPage_missing hunused
        exact hreturns hm
      obtain ⟨page, hpage⟩ := h.contents_of_used hused
      have hperform : st.perform n N (.call (.flushPage p), none) = (.unit, st) := by
        change st.flushPage N p = _
        rw [PageStore.flushPage, hpage]
      rw [hperform]
      exact ⟨Option.some.inj (hanswer.symm.trans ha), c', g', hshown⟩
    | flushAllPages =>
      obtain ⟨hcreated, hids, hguards⟩ := hended.returned
      obtain ⟨ha, hshown⟩ := hended.unchanged hcreated hids hguards
      exact ⟨Option.some.inj (hanswer.symm.trans ha), c', g', hshown⟩
    | deletePage p =>
      obtain ⟨ha, hshown⟩ := hended.deletePage fun _ => by
        by_contra hp
        obtain ⟨m, hm⟩ := h.step_deletePage_invalid hp
        exact hreturns hm
      exact ⟨Option.some.inj (hanswer.symm.trans ha), c', g', hshown⟩
  · obtain rfl := Option.some.inj hanswer
    obtain ⟨err', he⟩ := hlast.throws.mp ⟨err, rfl⟩
    obtain ⟨hids, hguards⟩ := hI.throws c₁ e c' err' hlast.amid hlast.property hlast.step he
    have hshown : Shown n N s' st c' g' := by
      refine ⟨hlast.sim, hsound, halone, h.mirrors.congr hids hguards hidle (hhistory ?_) hpending⟩
      intro t p f hcreated
      rw [he] at hcreated
      cases hcreated
    have hperform : st.perform n N (.call call, failure) = (.threw err, st) := by
      rcases reason_of_threw hI.unhindered hpiece hlast with rfl | ⟨rfl, hstep, hfails⟩
      · rfl
      · exact h.perform_of_fails hfew hstep hfails
    rw [hperform]
    exact ⟨rfl, c', g', hshown⟩

/-- Every operation does. -/
theorem Shown.performs (h : Shown n N s st c g) (hfew : s.FewGuards)
    {l : (Operation × Option Error) × Answer} (hstep : s.Performs l s') :
    l.2 = (st.perform n N l.1).1 ∧ ∃ c' g', Shown n N s' (st.perform n N l.1).2 c' g' := by
  cases hstep with
  | call hexec hanswer => exact h.executes hfew hexec hanswer
  | @use op action s' out answer hop hst hanswer =>
    cases op with
    | call call | write slot page => cases hop
    | read slot =>
      obtain rfl := Option.some.inj hop
      obtain ⟨ha, h'⟩ := h.read hst hanswer
      exact ⟨ha, c, g, h'⟩
    | drop slot =>
      obtain rfl := Option.some.inj hop
      exact h.drop hst hanswer
    | destroy slot =>
      obtain rfl := Option.some.inj hop
      exact h.destroy hst hanswer
    | moveConstruct slot =>
      obtain rfl := Option.some.inj hop
      exact h.moveConstruct hst hanswer
    | moveAssign slot source =>
      obtain rfl := Option.some.inj hop
      exact h.moveAssign hst hanswer
  | write hwrite hmark hanswer => exact h.write hwrite hmark hanswer
  | writeThrew hwrite =>
    obtain ⟨ha, h'⟩ := h.writeThrew hwrite
    exact ⟨ha, c, g, h'⟩

end

/-- `NewPage` finds no id where all are in use. -/
theorem Shown.newPage_throws_iff (h : Shown n N s st c g) :
    (∃ e, (st.newPage n N).1 = .threw e) ↔
      (∀ p, p < N → st.contents p ≠ none) ∨ st.Crowded n := by
  have hids : st.ids N = [] ↔ ∀ p, p < N → st.contents p ≠ none := by
    rw [h.mirrors.ids, ← h.sim.rep.upcoming, List.eq_nil_iff_forall_not_mem]
    refine forall_congr' fun p => ?_
    rw [h.sim.rep.table_inv.mem_upcoming, h.sim.rep.maxPageCount, h.sim.rep.state_eq,
      Represents.state_unused_iff, ne_eq, h.mirrors.unused, not_and]
  rw [← hids]
  cases hcase : st.ids N with
  | nil =>
    rw [PageStore.newPage, PageStore.takeId_none hcase]
    exact iff_of_true ⟨_, rfl⟩ (Or.inl rfl)
  | cons p rest =>
    obtain ⟨st₁, htake, -⟩ := PageStore.takeId_some hcase
    rw [PageStore.newPage, htake, or_iff_right (List.cons_ne_nil p rest)]
    by_cases hcrowded : st.Crowded n
    · exact iff_of_true ⟨_, congrArg Prod.fst (if_pos hcrowded)⟩ hcrowded
    · refine iff_of_false ?_ hcrowded
      rintro ⟨e, he⟩
      cases (congrArg Prod.fst (if_neg hcrowded)).symm.trans he

end Refinement

/-! ## Runs -/

variable {R : Type} [Replacer R] [LawfulReplacer R] {n N : Nat}

/-- Every run of one thread gets the answers of the page store, a `NewPage` throws just where
all ids are in use or as many pages are guarded as there are frames, and every call ends. -/
theorem refines_pageStore [CompleteReplacer R] {s₀ s : System R Unit}
    {ls : List ((Operation × Option Error) × Answer)} (h₀ : System.Initial n N s₀)
    (h : Path (Under (fun s _ => s.FewGuards) System.Performs) s₀ ls s) :
    ∃ st : PageStore, perform (PageStore.perform n N) {} (ls.map Prod.fst) = (ls, st) ∧
      (∀ op e, (st.perform n N op).1 = .threw e → (st.perform n N op).2 = st) ∧
      ((∃ e, (st.perform n N (.call .newPage, none)).1 = .threw e) ↔
        (∀ p, p < N → st.contents p ≠ none) ∨ n ≤ st.guarded.card) ∧
      (s.FewGuards → ∀ call, ∃ m out, s.step (.call () call) = some (m, out) ∧ m.Finishes out) := by
  obtain ⟨c₀, hshown₀⟩ := Shown.initial h₀
  have hstep : ∀ (s : System R Unit) (st : PageStore) l s', (∃ c g, Shown n N s st c g) →
      Under (fun s _ => s.FewGuards) System.Performs s l s' →
      l.2 = (st.perform n N l.1).1 ∧ ∃ c g, Shown n N s' (st.perform n N l.1).2 c g := by
    rintro s st l s' ⟨c, g, hshown⟩ ⟨hfew, hst⟩
    exact hshown.performs hfew hst
  obtain ⟨hanswers, c, g, hshown⟩ := h.perform_eq hstep ⟨c₀, {}, hshown₀⟩
  refine ⟨_, Prod.ext hanswers rfl, fun op e => PageStore.perform_threw, hshown.newPage_throws_iff,
    fun hfew call => ?_⟩
  have hA : Amid n N g c := ⟨hshown.sound, g, hshown.alone, rfl, rfl⟩
  obtain ⟨I, hI⟩ : ∃ I, Tracks n N (CompleteReplacer R) g c call I :=
    exists_tracks hA hshown.mirrors.idle call
  exact finishes_of_call hI.kept hI.unhindered hshown.sim hA hI.start hfew hshown.idle

/-- Operations that have been done from construction, with a fact about where they lead. -/
theorem exists_of_followAll {xs : List (Operation × List (Action Unit))}
    {P : List ((Operation × Option Error) × Answer) → System ClockReplacer Unit → Bool}
    (h : (System.makeWithClock n N fun _ => Page.zero).toOption.any
      (fun s₀ : System ClockReplacer Unit => (s₀.followAll xs).any fun y => P y.1 y.2) = true) :
    ∃ (s₀ s : System ClockReplacer Unit) (ls : List ((Operation × Option Error) × Answer)),
      System.Initial n N s₀ ∧ Path (Under (fun s _ => s.FewGuards) System.Performs) s₀ ls s ∧
        P ls s = true := by
  cases hmake : (System.makeWithClock n N fun _ => Page.zero :
      Except Error (System ClockReplacer Unit)) with
  | ok s₀ =>
    rw [hmake] at h
    change (s₀.followAll xs).any (fun y => P y.1 y.2) = true at h
    obtain ⟨⟨ls, s⟩, hfollow, hP⟩ := (Option.any_eq_true _ _).mp h
    exact ⟨s₀, s, ls, initial_makeWithClock hmake, System.path_of_followAll hfollow, hP⟩
  | error e =>
    rw [hmake] at h
    cases h

/-- With one frame, the write of page 0 fails as a `NewPage` evicts it, the next `NewPage`
evicts it, and a `FetchPage` reads it again. -/
theorem refines_pageStore_evicting : ∃ (s : System ClockReplacer Unit)
    (ls : List ((Operation × Option Error) × Answer)) (st : PageStore),
    ls.any (fun l => l.1.2.isSome) = true ∧
      perform (PageStore.perform 1 2) {} (ls.map Prod.fst) = (ls, st) ∧
        ∀ call, ∃ m out, s.step (.call () call) = some (m, out) ∧ m.Finishes out := by
  obtain ⟨s₀, s, ls, h₀, hpath, hP⟩ := exists_of_followAll (n := 1) (N := 2)
    (P := fun ls s => ls.any (fun l => l.1.2.isSome) && decide s.FewGuards)
    (show Option.any (fun s₀ => Option.any _ (System.followAll s₀ [(.call .newPage, []),
      (.write 0 ⟨fun _ => 7⟩, []), (.drop 0, []),
      (.call .newPage, [.failWrite () 9 ⟨.runtimeError, "pwrite failed: Input/output error"⟩,
        .resume ()]),
      (.call .newPage, [.transfer (), .resume ()]), (.drop 1, []),
      (.call (.fetchPage 0), [.transfer (), .resume (), .transfer (), .resume ()])])) _ = true
      by decide +kernel)
  obtain ⟨hfailed, hfew⟩ := Bool.and_eq_true_iff.mp hP
  obtain ⟨st, hperform, -, -, hfinishes⟩ := refines_pageStore h₀ hpath
  exact ⟨s, ls, st, hfailed, hperform, hfinishes (of_decide_eq_true hfew)⟩

end BufferManager
