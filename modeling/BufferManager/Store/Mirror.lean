/-
  Store/Mirror.lean --- a page store mirrors a configuration between two calls.

  The store has the ids that the configuration has to hand out, a content for each page in
  use, the last one of the account, and the guards without their frames.  As many pages
  are guarded as there are frames just where no frame is free and none can be evicted.
-/
import BufferManager.Protocol.Completion
import BufferManager.Store.PageStore

set_option autoImplicit false

namespace BufferManager

/-- The page a guard is on. -/
def PageGuard.page (gd : PageGuard) : Option Nat := if gd.valid = true then some gd.pageId else none

@[simp] theorem PageGuard.page_empty : PageGuard.page {} = none := rfl

theorem PageGuard.page_eq_some {gd : PageGuard} {p : Nat} :
    gd.page = some p ↔ gd.valid = true ∧ gd.pageId = p := by
  unfold PageGuard.page
  split
  · next hv => simp [hv]
  · next hv => simp [hv]

namespace Protocol

open BufferManager.Lib

variable {n N : Nat} {c c₀ c' : Cfg Unit} {g g' : Ledger Unit} {st st' : PageStore} {p f : Nat}

/-- The store is what a client knows of the configuration and its account. -/
structure Mirrors (N : Nat) (c : Cfg Unit) (g : Ledger Unit) (st : PageStore) : Prop where
  idle : c.phase () = .suspended .idle
  pending : ∀ slot, g.pending slot = 0
  ids : st.ids N = c.upcoming
  unused : ∀ p, st.contents p = none ↔ c.place p = .unused
  contents : ∀ p page, st.contents p = some page → (g.history p).getLast? = some page
  guards : st.guards = c.guards.map PageGuard.page

namespace Mirrors

/-! ## Guards -/

theorem guardOn (hM : Mirrors N c g st) {slot : Nat} {gd : PageGuard}
    (hg : c.guards[slot]? = some gd) : st.guardOn slot = gd.page := by
  rw [PageStore.guardOn, hM.guards, List.getElem?_map, hg]
  rfl

theorem mem_guarded (hM : Mirrors N c g st) :
    p ∈ st.guarded ↔ ∃ gd ∈ c.guards, gd.valid = true ∧ gd.pageId = p := by
  rw [PageStore.mem_guarded, hM.guards, List.mem_map]
  simp only [PageGuard.page_eq_some]

/-- A guarded page is in a frame of its own, pinned. -/
theorem pinned_of_guarded (hM : Mirrors N c g st) (hI : Owned n c) (hP : Pinned c)
    (hp : p ∈ st.guarded) : ∃ f r, c.place p = .resident f ∧ c.frame f = .resident r ∧
      r.page = p ∧ r.pins ≠ 0 := by
  obtain ⟨gd, hg, hv, rfl⟩ := hM.mem_guarded.mp hp
  obtain ⟨r, hr, hpage, -, hpins, hplace⟩ := hP.of_guard hI hg hv
  exact ⟨gd.frameId, r, hplace, hr, hpage, by omega⟩

theorem guarded_of_pinned (hM : Mirrors N c g st) (hP : Pinned c) {r : Tenant}
    (hr : c.frame f = .resident r) (hlisted : r.listed = true) (hpins : r.pins ≠ 0) :
    r.page ∈ st.guarded := by
  rw [hP.pins_eq f r hr hlisted] at hpins
  rcases exists_of_refs_pos (Nat.pos_of_ne_zero hpins) with ⟨gd, hg, hv, hpage, -⟩ | ⟨t, ht⟩
  · exact hM.mem_guarded.mpr ⟨gd, hg, hv, hpage⟩
  · rw [hM.idle] at ht
    cases ht

/-! ## Frames -/

/-- Where all frames are pinned, as many pages are guarded. -/
theorem crowded_of_not_room (hM : Mirrors N c g st) (hI : Owned n c) (hP : Pinned c)
    (hL : Listed c) (h : ¬ Room n c) : st.Crowded n := by
  have hstill := Still.of_idle hI hM.idle
  have hresident : ∀ f, f < n → ∃ p, c.place p = .resident f ∧ p ∈ st.guarded := by
    intro f hf
    have htransient := hstill.frame f
    cases hu : c.frame f with
    | free => exact absurd ⟨f, hf, Or.inl hu⟩ h
    | loading p | evicting p dirty epoch =>
      rw [hu] at htransient
      exact absurd trivial htransient
    | resident r =>
      have hpins : r.pins ≠ 0 := fun hpins => h ⟨f, hf, Or.inr ⟨r, hu, hpins⟩⟩
      exact ⟨r.page, hI.place_eq_resident hu (hL f r hu),
        hM.guarded_of_pinned hP hu (hL f r hu) hpins⟩
  choose! page hplace hguarded using hresident
  have hcard : (Finset.range n).card ≤ st.guarded.card := by
    apply Finset.card_le_card_of_injOn page
    · intro f hf
      exact hguarded f (Finset.mem_range.mp hf)
    · intro f hf f' hf' heq
      have hf₁ := hplace f (Finset.mem_range.mp hf)
      rw [heq, hplace f' (Finset.mem_range.mp hf')] at hf₁
      exact (Place.resident.inj hf₁).symm
  rwa [Finset.card_range] at hcard

/-- Where there is room, fewer pages are guarded than there are frames. -/
theorem not_crowded_of_room (hM : Mirrors N c g st) (hI : Owned n c) (hP : Pinned c)
    (h : Room n c) : ¬ st.Crowded n := by
  obtain ⟨f, hf, hroom⟩ := h
  have hframe : ∀ p ∈ st.guarded, ∃ f', c.place p = .resident f' ∧
      f' ∈ (Finset.range n).erase f := by
    intro p hp
    obtain ⟨f', r, hplace, hr, -, hpins⟩ := hM.pinned_of_guarded hI hP hp
    refine ⟨f', hplace, Finset.mem_erase.mpr ⟨?_, Finset.mem_range.mpr ?_⟩⟩
    · rintro rfl
      rcases hroom with hfree | ⟨r', hr', hzero⟩
      · rw [hr] at hfree
        cases hfree
      · rw [hr] at hr'
        obtain rfl := Use.resident.inj hr'
        exact hpins hzero
    · exact hI.allocated_lt f' (hI.allocated_of_use (by simp [hr]))
  choose! frame hplace hmem using hframe
  have hcard : st.guarded.card ≤ ((Finset.range n).erase f).card := by
    apply Finset.card_le_card_of_injOn frame hmem
    intro p hp q hq heq
    obtain ⟨r, hr, hpage, -⟩ := hI.resident (hplace p hp)
    obtain ⟨r', hr', hpage', -⟩ := hI.resident (hplace q hq)
    rw [heq, hr'] at hr
    obtain rfl := Use.resident.inj hr
    rw [← hpage, ← hpage']
  rw [Finset.card_erase_of_mem (Finset.mem_range.mpr hf), Finset.card_range] at hcard
  unfold PageStore.Crowded
  omega

/-! ## Contents -/

/-- A page in a frame has there what the store has of it. -/
theorem contents_of_place (hM : Mirrors N c g st) (hI : Owned n c) (hA : Alone c g)
    (hplace : c.place p = .resident f) : st.contents p = some (c.bytes f) := by
  have hused : c.place p ≠ .unused := by
    rw [hplace]
    exact Place.noConfusion
  obtain ⟨page, hpage⟩ := Option.ne_none_iff_exists'.mp fun hnone => hused ((hM.unused p).mp hnone)
  have hmarked := (hA.current.live p hused).resolve_right (not_reserved_of_phase hM.idle rfl)
  have hlast := hA.durable.getLast hmarked
    (hA.current.latest hA.durable hI hA.pinned hmarked (Or.inl hplace))
  rw [hpage, ← hlast]
  exact (hM.contents p page hpage).symm

/-- The ids, the pages in use and the guards are as before, and so is the account. -/
theorem congr (hM : Mirrors N c₀ g st) (hids : SameIds c₀ c') (hguards : c'.guards = c₀.guards)
    (hidle : c'.phase () = .suspended .idle) (hhistory : g'.history = g.history)
    (hpending : g'.pending = g.pending) : Mirrors N c' g' st where
  idle := hidle
  pending slot := by rw [hpending, hM.pending]
  ids := hM.ids.trans hids.upcoming.symm
  unused p := (hM.unused p).trans (hids.unused p).symm
  contents p page hp := by rw [hhistory, hM.contents p page hp]
  guards := by rw [hguards, hM.guards]

/-- A page in use has got another guard. -/
theorem granted (hM : Mirrors N c₀ g st) (hids : SameIds c₀ c')
    (hguards : c'.guards = c₀.guards ++ [⟨true, p, f⟩]) (hidle : c'.phase () = .suspended .idle)
    (hhistory : g'.history = g.history) (hpending : g'.pending = g.pending) (page : Page) :
    Mirrors N c' g' (st.grant p page).2 where
  idle := hidle
  pending slot := by rw [hpending, hM.pending]
  ids := hM.ids.trans hids.upcoming.symm
  unused q := (hM.unused q).trans (hids.unused q).symm
  contents q x hq := by rw [hhistory, hM.contents q x hq]
  guards := by
    rw [hguards, List.map_append, ← hM.guards]
    rfl

/-- A page has been made. -/
theorem created (hM : Mirrors N c₀ g st) {st₁ : PageStore} (hids : st₁.ids N = c'.upcoming)
    (hcontents : st₁.contents = st.contents) (hst : st₁.guards = st.guards)
    (hunused : ∀ q, c'.place q = .unused ↔ q ≠ p ∧ c₀.place q = .unused)
    (hguards : c'.guards = c₀.guards ++ [⟨true, p, f⟩]) (hidle : c'.phase () = .suspended .idle)
    (hhistory : g'.history = Function.update g.history p (g.history p ++ [Page.zero]))
    (hpending : g'.pending = g.pending) :
    Mirrors N c' g' ((st₁.setPage p (some Page.zero)).grant p Page.zero).2 := by
  refine ⟨hidle, fun slot => by rw [hpending, hM.pending], hids, fun q => ?_, fun q x hx => ?_, ?_⟩
  · change Function.update st₁.contents p (some Page.zero) q = none ↔ _
    rw [hunused, hcontents]
    by_cases hq : q = p
    · simp [hq]
    · rw [Function.update_of_ne hq, hM.unused]
      exact (and_iff_right hq).symm
  · change Function.update st₁.contents p (some Page.zero) q = some x at hx
    rw [hhistory]
    by_cases hq : q = p
    · subst hq
      rw [Function.update_self] at hx ⊢
      rw [List.getLast?_append, ← hx]
      rfl
    · rw [Function.update_of_ne hq] at hx ⊢
      rw [hcontents] at hx
      exact hM.contents q x hx
  · change st₁.guards ++ [some p] = _
    rw [hguards, List.map_append, ← hM.guards, hst]
    rfl

/-- A page has been deleted. -/
theorem deleted (hM : Mirrors N c₀ g st) (hids : c'.upcoming = p :: c₀.upcoming)
    (hunused : ∀ q, c'.place q = .unused ↔ q = p ∨ c₀.place q = .unused)
    (hguards : c'.guards = c₀.guards) (hidle : c'.phase () = .suspended .idle)
    (hhistory : g'.history = g.history) (hpending : g'.pending = g.pending) :
    Mirrors N c' g' { st.setPage p none with freed := p :: st.freed } := by
  refine ⟨hidle, fun slot => by rw [hpending, hM.pending], ?_, fun q => ?_, fun q x hx => ?_, ?_⟩
  · rw [hids, ← hM.ids]
    rfl
  · change Function.update st.contents p none q = none ↔ _
    rw [hunused]
    by_cases hq : q = p
    · simp [hq]
    · rw [Function.update_of_ne hq, hM.unused]
      exact (or_iff_right hq).symm
  · change Function.update st.contents p none q = some x at hx
    rw [hhistory]
    by_cases hq : q = p
    · rw [hq, Function.update_self] at hx
      cases hx
    · rw [Function.update_of_ne hq] at hx
      exact hM.contents q x hx
  · rw [hguards]
    exact hM.guards

/-! ## Uses of a guard -/

variable {complete : Prop} {e : Event Unit}

/-- A use of a guard that changes no page. -/
theorem regard (hM : Mirrors N c g st) (h : Step n N complete c e c') {y : Note Unit}
    (hnote : e.note = some y) (hguard : y.OnGuard) (hhistory : g'.history = g.history)
    (hpending : ∀ slot, g'.pending slot = 0) : Mirrors N c' g' { st with
      guards := c'.guards.map PageGuard.page } := by
  obtain ⟨hplace, hupcoming, hphase⟩ := h.keeps_pages hnote hguard
  exact {
    idle := by rw [hphase, hM.idle]
    pending := hpending
    ids := hM.ids.trans hupcoming.symm
    unused := fun p => by rw [hplace]; exact hM.unused p
    contents := fun p page hp => by rw [hhistory]; exact hM.contents p page hp
    guards := rfl }

theorem dropped (hM : Mirrors N c g st) {slot : Nat} {failure : Option Error}
    (h : Step n N complete c (.dropped slot failure) c')
    (hguards : c'.guards = c.guards.set slot {}) :
    Mirrors N c' ((Event.dropped slot failure).enter (Ledger.after false) g)
      { st with guards := st.guards.set slot none } := by
  have hst : { st with guards := st.guards.set slot none } =
      { st with guards := c'.guards.map PageGuard.page } := by
    rw [hguards, hM.guards, List.map_set, PageGuard.page_empty]
  rw [hst]
  refine hM.regard h rfl trivial (by rfl) ?_
  intro slot'
  change Function.update g.pending slot 0 slot' = 0
  by_cases hslot : slot' = slot
  · rw [hslot, Function.update_self]
  · rw [Function.update_of_ne hslot, hM.pending]

theorem moved (hM : Mirrors N c g st) {source slot : Nat}
    (h : Step n N complete c (.moved source slot) c') :
    Mirrors N c' ((Event.moved source slot).enter (Ledger.after false) g)
      { st with guards := c'.guards.map PageGuard.page } := by
  refine hM.regard h rfl trivial (by rfl) ?_
  intro slot'
  change Function.update (Function.update g.pending slot (g.pending source)) source 0 slot' = 0
  by_cases hsource : slot' = source
  · rw [hsource, Function.update_self]
  · rw [Function.update_of_ne hsource]
    by_cases hslot : slot' = slot
    · rw [hslot, Function.update_self, hM.pending]
    · rw [Function.update_of_ne hslot, hM.pending]

/-- A change of a page that is marked. -/
theorem written (hM : Mirrors N c g st) {slot : Nat} {page : Page} {clash : Prop}
    (h : Step n N complete c (.changed slot p page) c₀)
    (h' : Step n N complete c₀ (.marked slot p clash) c') (hguards : c'.guards = c.guards)
    (hused : c.place p ≠ .unused) :
    Mirrors N c' ((Event.marked slot p clash).enter (Ledger.after false)
      ((Event.changed slot p page).enter (Ledger.after false) g)) (st.setPage p (some page)) := by
  obtain ⟨hplace, hupcoming, hphase⟩ := h.keeps_pages rfl trivial
  obtain ⟨hplace', hupcoming', hphase'⟩ := h'.keeps_pages rfl trivial
  refine ⟨by rw [hphase', hphase, hM.idle], fun slot' => ?_, ?_, fun q => ?_, fun q x hx => ?_, ?_⟩
  · change Function.update (Function.update g.pending slot _) slot 0 slot' = 0
    rw [Function.update_idem]
    by_cases hslot : slot' = slot
    · rw [hslot, Function.update_self]
    · rw [Function.update_of_ne hslot, hM.pending]
  · exact hM.ids.trans (hupcoming'.trans hupcoming).symm
  · rw [hplace', hplace]
    change Function.update st.contents p (some page) q = none ↔ _
    by_cases hq : q = p
    · subst hq
      rw [Function.update_self]
      exact iff_of_false (by simp) hused
    · rw [Function.update_of_ne hq]
      exact hM.unused q
  · change Function.update st.contents p (some page) q = some x at hx
    change (Function.update g.history p (g.history p ++ [page]) q).getLast? = some x
    by_cases hq : q = p
    · subst hq
      rw [Function.update_self] at hx ⊢
      rw [List.getLast?_append, ← hx]
      rfl
    · rw [Function.update_of_ne hq] at hx ⊢
      exact hM.contents q x hx
  · rw [hguards]
    exact hM.guards

end Mirrors

end Protocol

end BufferManager
