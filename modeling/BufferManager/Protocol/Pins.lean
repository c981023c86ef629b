/-
  Protocol/Pins.lean --- a frame's pin count is the number of guards on it and of
  `FlushPage` calls that write it.

  `refs c p f` counts the live guards on page `p` in frame `f` and the `FlushPage`
  calls writing `p` from `f`.  In a run in which no `FlushPage` meets a full count
  the two agree exactly (`Pinned`), and what refers to a page keeps it where it is.
  Without that assumption a count is still never larger than what refers to the
  frame (`Covered`).
-/
import BufferManager.Protocol.Ownership
import Mathlib.Data.Fintype.Basic

set_option autoImplicit false

namespace BufferManager.Protocol

open BufferManager.Lib

variable {τ : Type} [Fintype τ] {n N : Nat} {complete : Prop} {c c' : Cfg τ}

/-! ## Counting references -/

/-- The guard is live, on page `p` in frame `f`. -/
def guardOn (p f : Nat) (g : PageGuard) : Bool :=
  g.valid && (g.pageId == p && g.frameId == f)

omit [Fintype τ] in
/-- The live guards on page `p` in frame `f`. -/
def Cfg.guardsOn (c : Cfg τ) (p f : Nat) : Nat := c.guards.countP (guardOn p f)

/-- The `FlushPage` calls writing page `p` from frame `f`. -/
def Cfg.writersOn (c : Cfg τ) (p f : Nat) : Nat :=
  (Finset.univ.filter fun t => (c.phase t).writes = some (p, f)).card

/-- What refers to page `p` in frame `f`. -/
def Cfg.refs (c : Cfg τ) (p f : Nat) : Nat := c.guardsOn p f + c.writersOn p f

theorem guardOn_iff {p f : Nat} {g : PageGuard} :
    guardOn p f g = true ↔ g.valid = true ∧ g.pageId = p ∧ g.frameId = f := by
  simp [guardOn]

@[simp] theorem guardOn_empty (p f : Nat) : guardOn p f {} = false := rfl

theorem refs_congr (hguards : c'.guards = c.guards)
    (hwrites : ∀ t, (c'.phase t).writes = (c.phase t).writes) (p f : Nat) :
    c'.refs p f = c.refs p f := by
  simp only [Cfg.refs, Cfg.guardsOn, Cfg.writersOn, hguards, hwrites]

theorem refs_pos_of_guard {g : PageGuard} (hg : g ∈ c.guards) (hv : g.valid = true) :
    0 < c.refs g.pageId g.frameId := by
  have : 0 < c.guardsOn g.pageId g.frameId :=
    List.countP_pos_iff.mpr ⟨g, hg, guardOn_iff.mpr ⟨hv, rfl, rfl⟩⟩
  exact Nat.add_pos_left this _

theorem refs_pos_of_writer {t : τ} {p f : Nat} (h : (c.phase t).writes = some (p, f)) :
    0 < c.refs p f := by
  have : 0 < c.writersOn p f := Finset.card_pos.mpr ⟨t, by simp [h]⟩
  exact Nat.add_pos_right _ this

/-- What has references has a guard or a writer. -/
theorem exists_of_refs_pos {p f : Nat} (h : 0 < c.refs p f) :
    (∃ g ∈ c.guards, g.valid = true ∧ g.pageId = p ∧ g.frameId = f) ∨
      ∃ t, (c.phase t).writes = some (p, f) := by
  rcases Nat.add_pos_iff_pos_or_pos.mp h with hg | hw
  · obtain ⟨g, hg, hon⟩ := List.countP_pos_iff.mp hg
    exact Or.inl ⟨g, hg, guardOn_iff.mp hon⟩
  · obtain ⟨t, ht⟩ := Finset.card_pos.mp hw
    exact Or.inr ⟨t, by simpa using ht⟩

/-- A new guard. -/
theorem refs_addGuard (p f q g : Nat) :
    (c.addGuard p f).refs q g = c.refs q g + if q = p ∧ g = f then 1 else 0 := by
  have hwriters : (c.addGuard p f).writersOn q g = c.writersOn q g := rfl
  have hon : guardOn q g ⟨true, p, f⟩ = true ↔ q = p ∧ g = f := by
    rw [guardOn_iff, eq_comm (a := p), eq_comm (a := f)]
    exact and_iff_right rfl
  have hguards : (c.addGuard p f).guardsOn q g =
      c.guardsOn q g + if q = p ∧ g = f then 1 else 0 := by
    simp only [Cfg.guardsOn, Cfg.addGuard, List.countP_append, List.countP_singleton, hon]
  rw [Cfg.refs, Cfg.refs, hwriters, hguards]
  omega

/-- A guard is put in the place of another. -/
theorem countP_set_guard {guards : List PageGuard} {slot : Nat} {x y : PageGuard}
    (h : guards[slot]? = some x) (q g : Nat) :
    (guards.set slot y).countP (guardOn q g) + (if guardOn q g x = true then 1 else 0) =
      guards.countP (guardOn q g) + if guardOn q g y = true then 1 else 0 := by
  obtain ⟨hlt, hx⟩ := List.getElem?_eq_some_iff.mp h
  have hle : (if guardOn q g guards[slot] = true then 1 else 0) ≤ guards.countP (guardOn q g) := by
    split
    · exact List.countP_pos_iff.mpr ⟨_, List.getElem_mem hlt, by assumption⟩
    · exact Nat.zero_le _
  rw [List.countP_set hlt, hx] at *
  omega

/-- A guard is emptied. -/
theorem refs_emptied {slot : Nat} {x : PageGuard} (h : c.guards[slot]? = some x)
    (hv : x.valid = true) (q g : Nat) :
    { c with guards := c.guards.set slot {} }.refs q g +
      (if q = x.pageId ∧ g = x.frameId then 1 else 0) = c.refs q g := by
  have hcount := countP_set_guard (y := {}) h q g
  have hiff : guardOn q g x = true ↔ q = x.pageId ∧ g = x.frameId := by
    rw [guardOn_iff]
    constructor
    · rintro ⟨-, rfl, rfl⟩
      exact ⟨rfl, rfl⟩
    · rintro ⟨rfl, rfl⟩
      exact ⟨hv, rfl, rfl⟩
  simp only [guardOn_empty, Bool.false_eq_true, if_false, hiff] at hcount
  simp only [Cfg.refs, Cfg.guardsOn, Cfg.writersOn]
  omega

/-- A guard moves to a new object. -/
theorem refs_move {slot : Nat} {x : PageGuard} (h : c.guards[slot]? = some x) (q g : Nat) :
    { c with guards := c.guards.set slot {} ++ [x] }.refs q g = c.refs q g := by
  have hcount := countP_set_guard (y := {}) h q g
  simp only [guardOn_empty, Bool.false_eq_true, if_false] at hcount
  simp only [Cfg.refs, Cfg.guardsOn, Cfg.writersOn, List.countP_append, List.countP_singleton]
  omega

/-- A guard moves to an empty one. -/
theorem refs_assign {slot source : Nat} {x y : PageGuard} (hne : slot ≠ source)
    (hx : c.guards[slot]? = some x) (hv : x.valid = false) (hy : c.guards[source]? = some y)
    (q g : Nat) :
    { c with guards := (c.guards.set slot y).set source {} }.refs q g = c.refs q g := by
  have hfirst := countP_set_guard (y := y) hx q g
  have hy' : (c.guards.set slot y)[source]? = some y := by
    rw [List.getElem?_set_ne hne]
    exact hy
  have hsecond := countP_set_guard (y := {}) hy' q g
  have hx' : guardOn q g x = false := by simp [guardOn, hv]
  simp only [guardOn_empty, hx', Bool.false_eq_true, if_false] at hfirst hsecond
  simp only [Cfg.refs, Cfg.guardsOn, Cfg.writersOn]
  omega

section

variable [DecidableEq τ]

/-- A thread becomes a writer, or stops being one. -/
theorem writersOn_goto (t : τ) (ph : Phase) (q g : Nat) :
    (c.goto t ph).writersOn q g + (if (c.phase t).writes = some (q, g) then 1 else 0) =
      c.writersOn q g + if ph.writes = some (q, g) then 1 else 0 := by
  have hsplit : ∀ P : τ → Prop, ∀ [DecidablePred P], (Finset.univ.filter P).card =
      ((Finset.univ.erase t).filter P).card + if P t then 1 else 0 := by
    intro P _
    rw [← Finset.insert_erase (Finset.mem_univ t), Finset.filter_insert]
    split
    · rw [Finset.card_insert_of_notMem (by simp)]
      simp
    · simp
  have hsame :
      ((Finset.univ.erase t).filter fun u => ((c.goto t ph).phase u).writes = some (q, g)) =
      (Finset.univ.erase t).filter fun u => (c.phase u).writes = some (q, g) := by
    refine Finset.filter_congr fun u hu => ?_
    simp [Finset.ne_of_mem_erase hu]
  have hafter := hsplit fun u => ((c.goto t ph).phase u).writes = some (q, g)
  have hbefore := hsplit fun u => (c.phase u).writes = some (q, g)
  have hself : (c.goto t ph).phase t = ph := Function.update_self _ _ _
  rw [hsame, hself] at hafter
  simp only [Cfg.writersOn]
  omega

theorem refs_goto {t : τ} {ph : Phase} (h : ph.writes = (c.phase t).writes) (q g : Nat) :
    (c.goto t ph).refs q g = c.refs q g := by
  apply refs_congr
  · rfl
  · intro u
    by_cases hu : u = t
    · subst hu
      simpa using h
    · simp [hu]

/-- A `FlushPage` begins to write `p` from `f`. -/
theorem refs_goto_writing {t : τ} {w : Phase} {p f : Nat} (hbefore : (c.phase t).writes = none)
    (hafter : w.writes = some (p, f)) (q g : Nat) :
    (c.goto t w).refs q g = c.refs q g + if q = p ∧ g = f then 1 else 0 := by
  have h := writersOn_goto (c := c) t w q g
  simp only [hbefore, hafter, reduceCtorEq, if_false, Option.some.injEq, Prod.mk.injEq,
    eq_comm (a := p), eq_comm (a := f)] at h
  have hguards : (c.goto t w).guardsOn q g = c.guardsOn q g := rfl
  simp only [Cfg.refs, hguards]
  omega

/-- A `FlushPage` that wrote `p` from `f` has unpinned. -/
theorem refs_goto_written {t : τ} {ph : Phase} {p f : Nat}
    (hbefore : (c.phase t).writes = some (p, f)) (hafter : ph.writes = none) (q g : Nat) :
    (c.goto t ph).refs q g + (if q = p ∧ g = f then 1 else 0) = c.refs q g := by
  have h := writersOn_goto (c := c) t ph q g
  simp only [hbefore, hafter, reduceCtorEq, if_false, Option.some.injEq, Prod.mk.injEq,
    eq_comm (a := p), eq_comm (a := f)] at h
  have hguards : (c.goto t ph).guardsOn q g = c.guardsOn q g := rfl
  simp only [Cfg.refs, hguards]
  omega

/-- A call returns its guard. -/
theorem refs_returned {t : τ} (p f : Nat) (h : (c.phase t).writes = none)
    (q g : Nat) :
    ((c.addGuard p f).goto t (.suspended .idle)).refs q g =
      c.refs q g + if q = p ∧ g = f then 1 else 0 := by
  rw [refs_goto (by rw [Cfg.addGuard, h]; rfl), refs_addGuard]

end

/-! ## Guards and bytes -/

/-- The event is no operation on a guard. -/
def Event.spares : Event τ → Prop
  | .changed _ _ _ | .dropped _ _ | .moved _ _ => False
  | _ => True

omit [Fintype τ] in
/-- A step that is no operation on a guard only adds guards, and leaves the bytes of a
resident frame as they are. -/
theorem Step.spares [DecidableEq τ] {e : Event τ} (h : Step n N complete c e c') (he : e.spares)
    (hI : Owned n c) : (∃ gs, c'.guards = c.guards ++ gs) ∧
      ∀ f r, c.frame f = .resident r → c'.bytes f = c.bytes f := by
  have hother : ∀ {t f u}, (c.phase t).claim = some (f, u) → (∀ r, u ≠ .resident r) →
      ∀ page g r, c.frame g = .resident r → Function.update c.bytes f page g = c.bytes g := by
    intro t f u hclaim hu page g r hr
    refine Function.update_of_ne ?_ _ _
    rintro rfl
    exact hu r ((hI.claim_use t g u hclaim).symm.trans hr)
  cases h with
  | create t p f hph => exact ⟨⟨_, rfl⟩, hother (t := t) (by rw [hph]; rfl) (by simp) _⟩
  | block t p f e hph =>
    exact ⟨⟨[], by simp⟩, hother (t := t) (by rw [hph]; rfl) (by simp) _⟩
  | readCopy t p f hph | readCopyFailed t p f left e hph =>
    exact ⟨⟨[], by simp⟩, hother (t := t) (by rw [hph]; rfl) (by simp) _⟩
  | pin | loaded => exact ⟨⟨_, rfl⟩, fun _ _ _ => rfl⟩
  | @unpinned c₁ t p f caller failure hph hunpin =>
    exact ⟨⟨[], by simp [hunpin.frame_only]⟩, fun _ _ _ => by simp [hunpin.frame_only]⟩
  | @unpinThrew c₁ t p f caller failure e hph hunpin =>
    exact ⟨⟨[], by simp [hunpin.frame_only]⟩, fun _ _ _ => by simp [hunpin.frame_only]⟩
  | change | drop | dropStale | move | assign => exact he.elim
  | _ => exact ⟨⟨[], by simp⟩, fun _ _ _ => rfl⟩

/-! ## The invariants -/

/-- No `FlushPage` pins a frame whose count is full. -/
def Event.Fits : Event τ → Prop
  | .flushPinned pins => pins ≠ maxPinCount
  | _ => True

/-- Exact pin counts, while no `FlushPage` has met a full count. -/
structure Pinned (c : Cfg τ) : Prop where
  /-- What refers to a page keeps it resident in its frame. -/
  resident_of_refs : ∀ p f, 0 < c.refs p f → c.place p = .resident f
  pins_eq : ∀ f r, c.frame f = .resident r → r.listed = true → r.pins = c.refs r.page f
  evictable_iff : ∀ f r, c.frame f = .resident r → r.listed = true →
    (f ∈ c.evictable ↔ r.pins = 0)
  /-- A frame left behind keeps the pin of its `NewPage`. -/
  unlisted_pins : ∀ f r, c.frame f = .resident r → r.listed = false → r.pins = 1
  pins_le : ∀ f r, c.frame f = .resident r → r.pins ≤ maxPinCount

namespace Pinned

theorem refs_eq_zero (hP : Pinned c) {p : Nat} (h : ∀ f, c.place p ≠ .resident f) (f : Nat) :
    c.refs p f = 0 := by
  by_contra hne
  exact h f (hP.resident_of_refs p f (Nat.pos_of_ne_zero hne))

/-- A page in an unpinned frame has no references at all. -/
theorem refs_eq_zero_of_unpinned (hP : Pinned c) {p f : Nat} {r : Tenant}
    (hp : c.place p = .resident f) (hr : c.frame f = .resident r) (hpage : r.page = p)
    (hlisted : r.listed = true) (hpins : r.pins = 0) (g : Nat) : c.refs p g = 0 := by
  by_contra hne
  have hg := hP.resident_of_refs p g (Nat.pos_of_ne_zero hne)
  rw [hp] at hg
  injection hg with hg
  subst hg
  exact hne (by rw [← hpage, ← hP.pins_eq f r hr hlisted, hpins])

theorem congr (hP : Pinned c) (hplace : c'.place = c.place) (hframe : c'.frame = c.frame)
    (hevictable : c'.evictable = c.evictable) (hrefs : ∀ p f, c'.refs p f = c.refs p f) :
    Pinned c' := by
  constructor <;> simp only [hplace, hframe, hevictable, hrefs]
  · exact hP.resident_of_refs
  · exact hP.pins_eq
  · exact hP.evictable_iff
  · exact hP.unlisted_pins
  · exact hP.pins_le

/-- A frame changes its use and pages that nothing refers to their places; the frame
ends with `k` pins and as many references. -/
theorem replace (hP : Pinned c) {p f k : Nat}
    (hfree : ∀ q, c'.place q ≠ c.place q → ∀ g, c.refs q g = 0)
    (hrefs : ∀ q g, c'.refs q g = c.refs q g + if q = p ∧ g = f then k else 0)
    (hk : 0 < k → c'.place p = .resident f)
    (hframe : ∀ g, g ≠ f → c'.frame g = c.frame g)
    (hevictable : ∀ g, g ≠ f → (g ∈ c'.evictable ↔ g ∈ c.evictable))
    (hself : ∀ r, c'.frame f = .resident r →
      (r.listed = true ∧ r.page = p ∧ r.pins = k ∧ k ≤ 1 ∧ (f ∈ c'.evictable ↔ k = 0) ∧
        c.refs p f = 0) ∨ (r.listed = false ∧ r.pins = 1 ∧ k = 0)) : Pinned c' := by
  have hother : ∀ q g, g ≠ f → c'.refs q g = c.refs q g := by
    intro q g hg
    rw [hrefs, if_neg (fun h => hg h.2), Nat.add_zero]
  refine ⟨?_, ?_, ?_, ?_, ?_⟩
  · intro q g h
    by_cases hqg : q = p ∧ g = f ∧ 0 < k
    · obtain ⟨rfl, rfl, hk'⟩ := hqg
      exact hk hk'
    · have hsame : c'.refs q g = c.refs q g := by
        rw [hrefs]
        split
        · rename_i hpf
          have : ¬ 0 < k := fun hk' => hqg ⟨hpf.1, hpf.2, hk'⟩
          omega
        · rfl
      rw [hsame] at h
      by_contra hne
      have hplace := hP.resident_of_refs q g h
      have hchanged : c'.place q ≠ c.place q := fun heq => hne (heq.trans hplace)
      have := hfree q hchanged g
      omega
  · intro g r hr hl
    by_cases hg : g = f
    · subst hg
      rcases hself r hr with ⟨-, rfl, hpins, -, -, hzero⟩ | ⟨hl', -⟩
      · rw [hrefs, if_pos ⟨rfl, rfl⟩, hzero, hpins, Nat.zero_add]
      · rw [hl] at hl'
        cases hl'
    · rw [hother _ g hg]
      rw [hframe g hg] at hr
      exact hP.pins_eq g r hr hl
  · intro g r hr hl
    by_cases hg : g = f
    · subst hg
      rcases hself r hr with ⟨-, -, hpins, -, hev, -⟩ | ⟨hl', -⟩
      · rw [hev, hpins]
      · rw [hl] at hl'
        cases hl'
    · rw [hevictable g hg]
      rw [hframe g hg] at hr
      exact hP.evictable_iff g r hr hl
  · intro g r hr hl
    by_cases hg : g = f
    · subst hg
      rcases hself r hr with ⟨hl', -⟩ | ⟨-, hpins, -⟩
      · rw [hl] at hl'
        cases hl'
      · exact hpins
    · rw [hframe g hg] at hr
      exact hP.unlisted_pins g r hr hl
  · intro g r hr
    by_cases hg : g = f
    · subst hg
      have : 1 ≤ maxPinCount := by decide
      rcases hself r hr with ⟨-, -, hpins, hk1, -⟩ | ⟨-, hpins, -⟩ <;> omega
    · rw [hframe g hg] at hr
      exact hP.pins_le g r hr

/-- The counters of a resident frame change as its references do. -/
theorem repin (hP : Pinned c) {f : Nat} {r w : Tenant} (hr : c.frame f = .resident r)
    (hlisted : r.listed = true) (hplace : c'.place = c.place)
    (hresident : c.place r.page = .resident f)
    (hframe : c'.frame = Function.update c.frame f (.resident w))
    (hpage' : w.page = r.page) (hlisted' : w.listed = r.listed)
    (hrefs : ∀ q g, ¬ (q = r.page ∧ g = f) → c'.refs q g = c.refs q g)
    (hpins : w.pins = c'.refs r.page f) (hle : w.pins ≤ maxPinCount)
    (hevictable : ∀ g, g ≠ f → (g ∈ c'.evictable ↔ g ∈ c.evictable))
    (hself : f ∈ c'.evictable ↔ w.pins = 0) : Pinned c' := by
  have heq : c'.frame f = .resident w := by rw [hframe, Function.update_self]
  have hne : ∀ g, g ≠ f → c'.frame g = c.frame g := by
    intro g hg
    rw [hframe, Function.update_of_ne hg]
  refine ⟨?_, ?_, ?_, ?_, ?_⟩
  · intro q g h
    rw [hplace]
    by_cases hqg : q = r.page ∧ g = f
    · rw [hqg.1, hqg.2, hresident]
    · exact hP.resident_of_refs q g (hrefs q g hqg ▸ h)
  · intro g r₁ hr₁ hl₁
    by_cases hg : g = f
    · subst hg
      rw [heq] at hr₁
      injection hr₁ with hr₁
      rw [← hr₁, hpage']
      exact hpins
    · rw [hrefs _ _ fun h => hg h.2]
      exact hP.pins_eq g r₁ (hne g hg ▸ hr₁) hl₁
  · intro g r₁ hr₁ hl₁
    by_cases hg : g = f
    · subst hg
      rw [heq] at hr₁
      injection hr₁ with hr₁
      rw [← hr₁]
      exact hself
    · rw [hevictable g hg]
      exact hP.evictable_iff g r₁ (hne g hg ▸ hr₁) hl₁
  · intro g r₁ hr₁ hl₁
    by_cases hg : g = f
    · subst hg
      rw [heq] at hr₁
      injection hr₁ with hr₁
      rw [← hr₁, hlisted', hlisted] at hl₁
      cases hl₁
    · exact hP.unlisted_pins g r₁ (hne g hg ▸ hr₁) hl₁
  · intro g r₁ hr₁
    by_cases hg : g = f
    · subst hg
      rw [heq] at hr₁
      injection hr₁ with hr₁
      rw [← hr₁]
      exact hle
    · exact hP.pins_le g r₁ (hne g hg ▸ hr₁)

end Pinned

section

variable [DecidableEq τ]

omit [Fintype τ] in
/-- Unpinning a listed frame that has pins. -/
theorem Unpin.listed {f k : Nat} {r : Tenant} {failure : Option Error}
    (h : Unpin c f c' failure) (hI : Owned n c) (hr : c.frame f = .resident r)
    (hlisted : r.listed = true) (hpins : r.pins = k + 1) :
    failure = none ∧ c'.frame = Function.update c.frame f (.resident { r with pins := k }) ∧
      ∀ g, g ∈ c'.evictable ↔ g ∈ c.evictable ∨ (g = f ∧ k = 0) := by
  have hpresent : f ∈ c.present := (hI.present_iff f).mpr ⟨r, hr, hlisted⟩
  cases h with
  | kept r' k' hr' hpins' =>
    rw [hr] at hr'
    injection hr' with hr'
    subst hr'
    have hk : k = k' + 1 := by omega
    exact ⟨rfl, by rw [hk]; rfl, fun g => by simp [hk]⟩
  | last r' hr' hpins' hpresent' =>
    rw [hr] at hr'
    injection hr' with hr'
    subst hr'
    have hk : k = 0 := by omega
    exact ⟨rfl, by rw [hk]; rfl, fun g => by simp [hk, or_comm]⟩
  | unknown r' e hr' hpins' hnot => exact absurd hpresent hnot
  | refused e hzero =>
    have := hzero r hr
    omega

end

/-! ## Exact counts -/

namespace Pinned

theorem rename (hP : Pinned c) (hfree : ∀ q, c'.place q ≠ c.place q → ∀ g, c.refs q g = 0)
    (hframe : c'.frame = c.frame) (hevictable : c'.evictable = c.evictable)
    (hrefs : ∀ p f, c'.refs p f = c.refs p f) : Pinned c' := by
  constructor <;> simp only [hframe, hevictable, hrefs]
  · intro q g h
    by_contra hne
    have hplace := hP.resident_of_refs q g h
    have := hfree q (fun heq => hne (heq.trans hplace)) g
    omega
  · exact hP.pins_eq
  · exact hP.evictable_iff
  · exact hP.unlisted_pins
  · exact hP.pins_le

/-- The same for a frame that ends without references. -/
theorem vacate (hP : Pinned c) {p f : Nat} (hfree : c'.place p ≠ c.place p → ∀ g, c.refs p g = 0)
    (hrefs : ∀ q g, c'.refs q g = c.refs q g) (hplace : ∀ q, q ≠ p → c'.place q = c.place q)
    (hframe : ∀ g, g ≠ f → c'.frame g = c.frame g)
    (hevictable : ∀ g, g ≠ f → (g ∈ c'.evictable ↔ g ∈ c.evictable))
    (hself : ∀ r, c'.frame f = .resident r →
      (r.listed = true ∧ r.page = p ∧ r.pins = 0 ∧ f ∈ c'.evictable ∧ c.refs p f = 0) ∨
        (r.listed = false ∧ r.pins = 1)) : Pinned c' := by
  refine hP.replace (p := p) (f := f) (k := 0) ?_ (by simpa using hrefs) (by simp) hframe
    hevictable ?_
  · intro q hq
    have hqp : q = p := by
      by_contra hne
      exact hq (hplace q hne)
    exact hqp ▸ hfree (hqp ▸ hq)
  · intro r hr
    rcases hself r hr with ⟨hl, hp, hpins, hev, hzero⟩ | ⟨hl, hpins⟩
    · exact Or.inl ⟨hl, hp, hpins, Nat.zero_le _, by simp [hev], hzero⟩
    · exact Or.inr ⟨hl, hpins, rfl⟩

/-- What refers to a page finds it resident, with that many pins. -/
theorem of_refs (hP : Pinned c) (hI : Owned n c) {p f : Nat} (h : 0 < c.refs p f) :
    ∃ k r, c.frame f = .resident r ∧ r.page = p ∧ r.listed = true ∧ r.pins = k + 1 ∧
      c.refs p f = k + 1 := by
  obtain ⟨r, hr, rfl, hlisted⟩ := hI.resident (hP.resident_of_refs p f h)
  have hpins := hP.pins_eq f r hr hlisted
  exact ⟨c.refs r.page f - 1, r, hr, rfl, hlisted, by omega, by omega⟩

/-- What a live guard names is resident, with a pin. -/
theorem of_guard (hP : Pinned c) (hI : Owned n c) {g : PageGuard} (hg : g ∈ c.guards)
    (hv : g.valid = true) : ∃ r, c.frame g.frameId = .resident r ∧ r.page = g.pageId ∧
      r.listed = true ∧ 1 ≤ r.pins ∧ c.place g.pageId = .resident g.frameId := by
  have hpos := refs_pos_of_guard hg hv
  obtain ⟨k, r, hr, hpage, hlisted, hpins, -⟩ := hP.of_refs hI hpos
  exact ⟨r, hr, hpage, hlisted, by omega, hP.resident_of_refs _ _ hpos⟩

/-- One reference goes, and the pin it held. -/
theorem unref (hP : Pinned c) (hI : Owned n c) {f k : Nat} {r : Tenant}
    (hr : c.frame f = .resident r) (hlisted : r.listed = true) (hpins : r.pins = k + 1)
    (hplace : c'.place = c.place)
    (hframe : c'.frame = Function.update c.frame f (.resident { r with pins := k }))
    (hevictable : ∀ g, g ∈ c'.evictable ↔ g ∈ c.evictable ∨ (g = f ∧ k = 0))
    (hrefs : ∀ q g, c'.refs q g + (if q = r.page ∧ g = f then 1 else 0) = c.refs q g) :
    Pinned c' := by
  have heq := hP.pins_eq f r hr hlisted
  have hle := hP.pins_le f r hr
  have hnot : f ∉ c.evictable := by
    rw [hP.evictable_iff f r hr hlisted]
    omega
  refine hP.repin (w := { r with pins := k }) hr hlisted hplace (hI.place_eq_resident hr hlisted)
    hframe rfl rfl ?_ ?_ ?_ ?_ ?_
  · intro q g hqg
    have := hrefs q g
    rw [if_neg hqg] at this
    exact this
  · have := hrefs r.page f
    rw [if_pos ⟨rfl, rfl⟩] at this
    change k = _
    omega
  · change k ≤ maxPinCount
    omega
  · intro g hg
    rw [hevictable]
    simp [hg]
  · rw [hevictable]
    simp [hnot]

variable [DecidableEq τ]

theorem goto (hP : Pinned c) {t : τ} {w : Phase} (h : w.writes = (c.phase t).writes) :
    Pinned (c.goto t w) :=
  hP.congr rfl rfl rfl (refs_goto h)

attribute [local simp] Phase.writes unpinPhase failPhase

theorem step {e : Event τ} (h : Step n N complete c e c') (he : e.Fits) (hI : Owned n c)
    (hP : Pinned c) : Pinned c' := by
  cases h with
  | visit t v hph => exact hP.goto (by simp [hph])
  | noIds => exact hP
  | reserve t p rest hph hids =>
    have hunused := hI.upcoming_unused p (hids ▸ List.mem_cons_self)
    refine (hP.goto (t := t) (w := .acquiring (.newPage p)) (by simp [hph])).rename ?_ rfl rfl
      (fun _ _ => rfl)
    intro q hq g
    obtain rfl : q = p := by
      by_contra hqp
      simp [hqp] at hq
    rw [refs_goto (by simp [hph])]
    exact hP.refs_eq_zero (by simp [hunused]) g
  | snapshot t hph => exact hP.goto (by simp [hph])
  | wakePage t v hph => exact (hP.goto (by simp [hph])).congr rfl rfl rfl fun _ _ => rfl
  | wakeFrame t a hph => exact (hP.goto (by simp [hph])).congr rfl rfl rfl fun _ _ => rfl
  | nextFlush t p rest hph => exact hP.goto (by simp [hph])
  | leave t v e hph => exact hP.goto (by simp [hph])
  | sleepPage t v hph => exact (hP.goto (by simp [hph])).congr rfl rfl rfl fun _ _ => rfl
  | pin t p f r hph hplace hr hpins =>
    obtain ⟨rfl, hlisted⟩ := hI.resident_use hplace hr
    have hrefs :=
      refs_returned (c := ((c.setUse f (.resident { r with pins := r.pins + 1 })).enlist f))
      (t := t) r.page f (by simp [hph])
    have hsame : ∀ q g, ((c.setUse f (.resident { r with pins := r.pins + 1 })).enlist f).refs q g =
      c.refs q g := fun _ _ => rfl
    refine hP.repin (w := { r with pins := r.pins + 1 }) hr hlisted rfl hplace rfl rfl rfl ?_ ?_
      (lt_of_le_of_ne (hP.pins_le f r hr) hpins) ?_ ?_
    · intro q g hqg
      rw [hrefs, if_neg hqg, hsame, Nat.add_zero]
    · rw [hrefs, if_pos ⟨rfl, rfl⟩, hsame, ← hP.pins_eq f r hr hlisted]
    · simp +contextual
    · simp
  | seek t p hph => exact hP.goto (by simp [hph])
  | skipFlush t p caller hph => exact hP.goto (by simp [hph])
  | flushReturn t caller hph =>
    refine hP.goto ?_
    rw [hph]
    cases caller with
    | flushPage => rfl
    | flushAllPages rest => cases rest <;> rfl
  | capture t p f r caller hph hplace hr hd =>
    obtain ⟨rfl, hlisted⟩ := hI.resident_use hplace hr
    have hlt : r.pins + 1 < 2 ^ 32 := by
      have hne : r.pins ≠ 2 ^ 32 - 1 := he
      have hle : r.pins ≤ 2 ^ 32 - 1 := hP.pins_le f r hr
      omega
    rw [Nat.mod_eq_of_lt hlt]
    have hrefs :=
      refs_goto_writing (c := { c.setUse f (.resident { r with pins := r.pins + 1 }) with
      evictable := c.evictable \ {f} }) (t := t)
      (w := .suspended (.writing r.page f r.epoch caller .running)) (by simp [hph]) rfl
    have hsame : ∀ q g, { c.setUse f (.resident { r with pins := r.pins + 1 }) with
      evictable := c.evictable \ {f} }.refs q g = c.refs q g := fun _ _ => rfl
    refine hP.repin (w := { r with pins := r.pins + 1 }) hr hlisted rfl hplace rfl rfl rfl ?_ ?_
      (Nat.le_of_lt_succ hlt) ?_ ?_
    · intro q g hqg
      rw [hrefs, if_neg hqg, hsame, Nat.add_zero]
    · rw [hrefs, if_pos ⟨rfl, rfl⟩, hsame, ← hP.pins_eq f r hr hlisted]
    · simp +contextual
    · simp
  | deleteUnused t p hph => exact hP.goto (by simp [hph])
  | deleteResident t p f r hph hplace hr hpins =>
    obtain ⟨hpage, hlisted⟩ := hI.resident_use hplace hr
    have hzero := hP.refs_eq_zero_of_unpinned hplace hr hpage hlisted hpins
    refine hP.vacate (p := p) (f := f) (fun _ => hzero) (fun q g => refs_goto (by simp [hph]) q g)
      ?_ ?_ ?_ ?_ <;> simp +contextual
  | deleteNonResident t p hph hplace =>
    refine hP.rename ?_ rfl rfl (fun q g => refs_goto (by simp [hph]) q g)
    intro q hq g
    obtain rfl : q = p := by
      by_contra hqp
      simp [hqp] at hq
    exact hP.refs_eq_zero (by simp [hplace]) g
  | recheck t p hph => exact hP.goto (by simp [hph])
  | tookFrame t a f hph hn hf => exact (hP.goto (by simp [hph])).congr rfl rfl rfl fun _ _ => rfl
  | evictBegin t a f r hph hf hplace hr hpins =>
    obtain ⟨-, hlisted⟩ := hI.resident_use hplace hr
    have hzero := hP.refs_eq_zero_of_unpinned hplace hr rfl hlisted hpins
    refine hP.vacate (p := r.page) (f := f) (fun _ => hzero)
      (fun q g => refs_goto (by simp [hph]) q g) ?_ ?_ ?_ ?_ <;> simp +contextual
  | sleepFrame t a hph => exact (hP.goto (by simp [hph])).congr rfl rfl rfl fun _ _ => rfl
  | noFrame t a hph => exact hP.goto (by cases a <;> simp [hph])
  | evictDone t a ev hph =>
    have hplace := hI.place_of_claim (t := t) (by rw [hph]; rfl) rfl
    refine hP.vacate (p := ev.oldPageId) (f := ev.frameId)
      (fun _ => hP.refs_eq_zero (by simp [hplace])) (fun q g => refs_goto (by simp [hph]) q g)
      ?_ ?_ ?_ ?_ <;> simp +contextual
  | evictFail t a ev e hph =>
    have hplace := hI.place_of_claim (t := t) (by rw [hph]; rfl) rfl
    have hzero := hP.refs_eq_zero (p := ev.oldPageId) (by simp [hplace])
    refine hP.vacate (p := ev.oldPageId) (f := ev.frameId) (fun _ => hzero)
      (fun q g => refs_goto (by cases a <;> simp [hph]) q g) ?_ ?_ ?_ ?_ <;>
        simp +contextual [hzero]
  | create t p f hph hplace =>
    have hzero := hP.refs_eq_zero (p := p) (by simp [hplace])
    refine hP.replace (p := p) (f := f) (k := 1) ?_ (refs_returned p f (by simp [hph]))
      ?_ ?_ ?_ ?_ <;> simp +contextual [hzero, Function.update_apply, hplace]
  | block t p f e hph hplace =>
    refine hP.vacate (p := p) (f := f) (fun h => absurd rfl h)
      (fun q g => refs_goto (by simp [hph]) q g) ?_ ?_ ?_ ?_ <;> simp +contextual
  | loadBegin t p f hph hplace =>
    refine hP.vacate (p := p) (f := f) (fun _ => hP.refs_eq_zero (by simp [hplace]))
      (fun q g => refs_goto (by simp [hph]) q g) ?_ ?_ ?_ ?_ <;> simp +contextual
  | surplus t p f hph hplace =>
    refine hP.vacate (p := p) (f := f) (fun h => absurd rfl h)
      (fun q g => refs_goto (by simp [hph]) q g) ?_ ?_ ?_ ?_ <;> simp +contextual
  | rollback t p e hph hplace =>
    refine hP.rename ?_ rfl rfl (fun q g => refs_goto (by simp [hph]) q g)
    intro q hq g
    obtain rfl : q = p := by
      by_contra hqp
      simp [hqp] at hq
    exact hP.refs_eq_zero (by simp [hplace]) g
  | abandon t p e hph => exact (hP.goto (by simp [hph])).congr rfl rfl rfl fun _ _ => rfl
  | loaded t p f hph =>
    have hplace := hI.place_of_claim (t := t) (by rw [hph]; rfl) rfl
    have hzero := hP.refs_eq_zero (p := p) (by simp [hplace])
    refine hP.replace (p := p) (f := f) (k := 1) ?_ (refs_returned p f (by simp [hph]))
      ?_ ?_ ?_ ?_ <;> simp +contextual [hzero, Function.update_apply, hplace]
  | loadFailed t p f e hph =>
    have hplace := hI.place_of_claim (t := t) (by rw [hph]; rfl) rfl
    refine hP.vacate (p := p) (f := f) (fun _ => hP.refs_eq_zero (by simp [hplace]))
      (fun q g => refs_goto (by simp [hph]) q g) ?_ ?_ ?_ ?_ <;> simp +contextual
  | written t p f epoch caller hph =>
    have hgoto := hP.goto (t := t) (w := .unpinning p f caller none) (by simp [hph])
    have hplace := hP.resident_of_refs p f (refs_pos_of_writer (t := t) (by simp [hph]))
    rcases Use.cleaned_cases p epoch (c.frame f) with ⟨r, hr, rfl, -, hclean⟩ | hclean
    · obtain ⟨-, hlisted⟩ := hI.resident_use hplace hr
      exact hgoto.repin (r := r) (w := { r with dirty := false }) hr hlisted rfl hplace
        (by simp [hclean]) rfl rfl (fun _ _ _ => rfl) (hgoto.pins_eq f r hr hlisted)
        (hP.pins_le f r hr) (fun _ _ => Iff.rfl) (hP.evictable_iff f r hr hlisted)
    · exact hgoto.congr rfl (by simp [hclean]) rfl fun _ _ => rfl
  | writeFailed t p f epoch caller e hph => exact hP.goto (by simp [hph])
  | @unpinned c₁ t p f caller failure hph hunpin =>
    obtain ⟨k, r, hr, rfl, hlisted, hpins, -⟩ :=
      hP.of_refs hI (refs_pos_of_writer (c := c) (t := t) (p := p) (f := f) (by simp [hph]))
    obtain ⟨-, hframe, hevictable⟩ := hunpin.listed hI hr hlisted hpins
    obtain ⟨hphase, hplace, -, -, -, -, -, -, hguards⟩ := hunpin.frame_only
    refine hP.unref hI hr hlisted hpins hplace hframe hevictable fun q g => ?_
    have hsame : c₁.refs q g = c.refs q g :=
      refs_congr hguards (fun u => by rw [hphase]) q g
    rw [← hsame]
    refine refs_goto_written (c := c₁.notify) ?_ ?_ q g
    · simp [hphase, hph]
    · cases failure <;> simp
  | unpinThrew t p f caller failure e hph hunpin =>
    have hpos := refs_pos_of_writer (c := c) (t := t) (p := p) (f := f) (by simp [hph])
    obtain ⟨k, r, hr, -, hlisted, hpins, -⟩ := hP.of_refs hI hpos
    exact absurd (hunpin.listed hI hr hlisted hpins).1 (by simp)
  | evictCopy t a ev hph => exact (hP.goto (by simp [hph])).congr rfl rfl rfl fun _ _ => rfl
  | evictCopyFailed t a ev k e hph =>
    exact (hP.goto (by simp [hph])).congr rfl rfl rfl fun _ _ => rfl
  | writeCopy t p f epoch caller hph =>
    exact (hP.goto (by simp [hph])).congr rfl rfl rfl fun _ _ => rfl
  | writeCopyFailed t p f epoch caller k e hph =>
    exact (hP.goto (by simp [hph])).congr rfl rfl rfl fun _ _ => rfl
  | readCopy t p f hph => exact (hP.goto (by simp [hph])).congr rfl rfl rfl fun _ _ => rfl
  | readCopyFailed t p f left e hph =>
    exact (hP.goto (by simp [hph])).congr rfl rfl rfl fun _ _ => rfl
  | change => exact hP.congr rfl rfl rfl fun _ _ => rfl
  | mark slot g r hg hv hr hpage =>
    have hplace := hP.resident_of_refs _ _ (refs_pos_of_guard (List.mem_of_getElem? hg) hv)
    obtain ⟨-, hlisted⟩ := hI.resident_use hplace hr
    exact hP.repin (r := r) (w := { r with dirty := true, epoch := (r.epoch + 1) % 2 ^ 64 }) hr
      hlisted rfl (hpage ▸ hplace) rfl rfl rfl (fun _ _ _ => rfl) (hP.pins_eq _ r hr hlisted)
      (hP.pins_le _ r hr) (fun _ _ => Iff.rfl) (hP.evictable_iff _ r hr hlisted)
  | drop slot g failure hg hv hp hunpin =>
    obtain ⟨k, r, hr, hpage, hlisted, hpins, -⟩ :=
      hP.of_refs hI (refs_pos_of_guard (List.mem_of_getElem? hg) hv)
    have hI' : Owned n { c with guards := c.guards.set slot {} } :=
      hI.congr rfl rfl rfl rfl rfl rfl fun _ => rfl
    obtain ⟨rfl, hframe, hevictable⟩ := hunpin.listed hI' hr hlisted hpins
    obtain ⟨hphase, hplace, -, -, -, -, -, -, hguards⟩ := hunpin.frame_only
    refine hP.unref hI hr hlisted hpins hplace hframe hevictable fun q g' => ?_
    rw [← refs_emptied hg hv q g', hpage]
    congr 1
    exact refs_congr hguards (fun u => by rw [hphase]) q g'
  | dropStale slot g e hg hv hp =>
    have hplace := hP.resident_of_refs _ _ (refs_pos_of_guard (List.mem_of_getElem? hg) hv)
    obtain ⟨r, hr, hpage, -⟩ := hI.resident hplace
    exact absurd (by simp [hr, Use.meta, hpage]) hp
  | move slot g hg => exact hP.congr rfl rfl rfl (refs_move hg)
  | assign slot source g g' hne hg hv hg' => exact hP.congr rfl rfl rfl (refs_assign hne hg hv hg')

end Pinned

/-! ## Counts without an assumption -/

/-- No frame has more pins than there are references to its page. -/
def Covered (c : Cfg τ) : Prop :=
  ∀ f r, c.frame f = .resident r → r.listed = true → r.pins ≤ c.refs r.page f

namespace Covered

/-- Only frame `f` and the references to it differ. -/
theorem atFrame (hC : Covered c) {f : Nat} (hframe : ∀ g, g ≠ f → c'.frame g = c.frame g)
    (hrefs : ∀ q g, g ≠ f → c'.refs q g = c.refs q g)
    (hself : ∀ r, c'.frame f = .resident r → r.listed = true → r.pins ≤ c'.refs r.page f) :
    Covered c' := by
  intro g r hr hl
  by_cases hg : g = f
  · subst hg
    exact hself r hr hl
  · rw [hrefs _ g hg]
    exact hC g r (hframe g hg ▸ hr) hl

theorem congr (hC : Covered c) (hframe : c'.frame = c.frame)
    (hrefs : ∀ p f, c'.refs p f = c.refs p f) : Covered c' := by
  intro f r hr hl
  rw [hrefs]
  exact hC f r (hframe ▸ hr) hl

end Covered

section

variable [DecidableEq τ]

omit [Fintype τ] in
/-- However it ends, unpinning takes at most one pin, and from its frame only. -/
theorem Unpin.pred {f : Nat} {failure : Option Error} (h : Unpin c f c' failure) :
    (∀ g, g ≠ f → c'.frame g = c.frame g) ∧ ∀ r', c'.frame f = .resident r' →
      ∃ r, c.frame f = .resident r ∧ r'.page = r.page ∧ r'.listed = r.listed ∧
        r'.pins = r.pins - 1 := by
  cases h with
  | kept r k hr hpins =>
    refine ⟨by simp +contextual, fun r' hr' => ⟨r, hr, ?_⟩⟩
    obtain rfl : _ = r' := by simpa using hr'
    simp [hpins]
  | last r hr hpins =>
    refine ⟨by simp +contextual, fun r' hr' => ⟨r, hr, ?_⟩⟩
    obtain rfl : _ = r' := by simpa using hr'
    simp [hpins]
  | unknown r e hr hpins =>
    refine ⟨by simp +contextual, fun r' hr' => ⟨r, hr, ?_⟩⟩
    obtain rfl : _ = r' := by simpa using hr'
    simp [hpins]
  | refused e hzero =>
    refine ⟨fun _ _ => rfl, fun r hr => ⟨r, hr, rfl, rfl, ?_⟩⟩
    rw [hzero r hr]

theorem Unpin.refs {f : Nat} {failure : Option Error} (h : Unpin c f c' failure)
    (p g : Nat) : c'.refs p g = c.refs p g :=
  refs_congr h.frame_only.2.2.2.2.2.2.2.2 (fun t => by rw [h.frame_only.1]) p g

end

namespace Covered

variable [DecidableEq τ]

attribute [local simp] Phase.writes unpinPhase failPhase

theorem goto (hC : Covered c) {t : τ} {w : Phase} (h : w.writes = (c.phase t).writes) :
    Covered (c.goto t w) :=
  hC.congr rfl (refs_goto h)

omit [DecidableEq τ] in
/-- A page in frame `f` gets a reference, and at most one pin more than it had
references. -/
theorem gain (hC : Covered c) {p f : Nat} (hframe : ∀ g, g ≠ f → c'.frame g = c.frame g)
    (hrefs : ∀ q g, c'.refs q g = c.refs q g + if q = p ∧ g = f then 1 else 0)
    (hself : ∀ r, c'.frame f = .resident r → r.listed = true →
      r.page = p ∧ r.pins ≤ c.refs p f + 1) : Covered c' := by
  refine hC.atFrame hframe (fun q g hg => ?_) fun r hr hl => ?_
  · rw [hrefs, if_neg fun h => hg h.2, Nat.add_zero]
  · obtain ⟨rfl, hpins⟩ := hself r hr hl
    rw [hrefs, if_pos ⟨rfl, rfl⟩]
    exact hpins

/-- A page in frame `f` loses a reference, and `UnpinFrameLocked(f)` has run. -/
theorem lose {c₁ : Cfg τ} (hC : Covered c) {p f : Nat} {failure : Option Error}
    (h : Unpin c₁ f c' failure) (hsame : c₁.frame = c.frame) {c'' : Cfg τ}
    (hframe : c''.frame = c'.frame)
    (hrefs : ∀ q g, c''.refs q g + (if q = p ∧ g = f then 1 else 0) = c.refs q g) :
    Covered c'' := by
  obtain ⟨hne, hself⟩ := h.pred
  refine hC.atFrame (f := f) (fun g hg => ?_) (fun q g hg => ?_) fun r hr hl => ?_
  · rw [hframe, hne g hg, hsame]
  · have := hrefs q g
    rw [if_neg fun h => hg h.2] at this
    exact this
  · obtain ⟨r₀, hr₀, hpage, hlisted, hpins⟩ := hself r (hframe ▸ hr)
    have hle := hC f r₀ (hsame ▸ hr₀) (hlisted ▸ hl)
    have := hrefs r.page f
    rw [hpage] at this ⊢
    split at this <;> omega

omit [DecidableEq τ] in
/-- A frame moves to a use without pins, and no reference changes. -/
theorem move (hC : Covered c) {f : Nat} (hframe : ∀ g, g ≠ f → c'.frame g = c.frame g)
    (hrefs : ∀ q g, c'.refs q g = c.refs q g)
    (hself : ∀ r, c'.frame f = .resident r → r.listed = true → r.pins = 0) : Covered c' :=
  hC.atFrame hframe (fun q g _ => hrefs q g) fun r hr hl => hself r hr hl ▸ Nat.zero_le _

theorem step {e : Event τ} (h : Step n N complete c e c') (hI : Owned n c) (hC : Covered c) :
    Covered c' := by
  cases h with
  | visit t v hph => exact hC.goto (by simp [hph])
  | noIds => exact hC
  | reserve t p rest hph => exact hC.congr rfl fun q g => refs_goto (by simp [hph]) q g
  | snapshot t hph => exact hC.goto (by simp [hph])
  | wakePage t v hph => exact hC.congr rfl fun q g => refs_goto (by simp [hph]) q g
  | wakeFrame t a hph => exact hC.congr rfl fun q g => refs_goto (by simp [hph]) q g
  | nextFlush t p rest hph => exact hC.goto (by simp [hph])
  | leave t v e hph => exact hC.goto (by simp [hph])
  | sleepPage t v hph => exact hC.congr rfl fun q g => refs_goto (by simp [hph]) q g
  | pin t p f r hph hplace hr hpins =>
    obtain ⟨rfl, -⟩ := hI.resident_use hplace hr
    refine hC.gain (p := r.page) (f := f) (by simp +contextual)
      (refs_returned r.page f (by simp [hph])) fun r' hr' hl => ?_
    obtain rfl : _ = r' := by simpa using hr'
    exact ⟨rfl, Nat.add_le_add_right (hC f r hr hl) 1⟩
  | seek t p hph => exact hC.goto (by simp [hph])
  | skipFlush t p caller hph => exact hC.goto (by simp [hph])
  | flushReturn t caller hph =>
    refine hC.goto ?_
    rw [hph]
    cases caller with
    | flushPage => rfl
    | flushAllPages rest => cases rest <;> rfl
  | capture t p f r caller hph hplace hr hd =>
    obtain ⟨rfl, -⟩ := hI.resident_use hplace hr
    refine hC.gain (p := r.page) (f := f) (by simp +contextual)
      (refs_goto_writing (by simp [hph]) rfl) fun r' hr' hl => ?_
    obtain rfl : _ = r' := by simpa using hr'
    exact ⟨rfl, (Nat.mod_le _ _).trans (Nat.add_le_add_right (hC f r hr hl) 1)⟩
  | deleteUnused t p hph => exact hC.goto (by simp [hph])
  | deleteResident t p f r hph =>
    exact hC.move (f := f) (by simp +contextual) (fun q g => refs_goto (by simp [hph]) q g)
      (by simp)
  | deleteNonResident t p hph => exact hC.congr rfl fun q g => refs_goto (by simp [hph]) q g
  | recheck t p hph => exact hC.goto (by simp [hph])
  | tookFrame t a f hph => exact hC.congr rfl fun q g => refs_goto (by simp [hph]) q g
  | evictBegin t a f r hph =>
    exact hC.move (f := f) (by simp +contextual) (fun q g => refs_goto (by simp [hph]) q g)
      (by simp)
  | sleepFrame t a hph => exact hC.congr rfl fun q g => refs_goto (by simp [hph]) q g
  | noFrame t a hph => exact hC.goto (by cases a <;> simp [hph])
  | evictDone t a ev hph =>
    exact hC.move (f := ev.frameId) (by simp +contextual)
      (fun q g => refs_goto (by simp [hph]) q g) (by simp)
  | evictFail t a ev e hph =>
    exact hC.move (f := ev.frameId) (by simp +contextual)
      (fun q g => refs_goto (by cases a <;> simp [hph]) q g) (by simp +contextual)
  | create t p f hph =>
    refine hC.gain (p := p) (f := f) (by simp +contextual)
      (refs_returned p f (by simp [hph])) fun r' hr' hl => ?_
    obtain rfl : _ = r' := by simpa using hr'
    exact ⟨rfl, Nat.le_add_left 1 _⟩
  | block t p f e hph =>
    exact hC.move (f := f) (by simp +contextual) (fun q g => refs_goto (by simp [hph]) q g)
      (by simp +contextual)
  | loadBegin t p f hph =>
    exact hC.move (f := f) (by simp +contextual) (fun q g => refs_goto (by simp [hph]) q g)
      (by simp)
  | surplus t p f hph =>
    exact hC.move (f := f) (by simp +contextual) (fun q g => refs_goto (by simp [hph]) q g)
      (by simp)
  | rollback t p e hph => exact hC.congr rfl fun q g => refs_goto (by simp [hph]) q g
  | abandon t p e hph => exact hC.congr rfl fun q g => refs_goto (by simp [hph]) q g
  | loaded t p f hph =>
    refine hC.gain (p := p) (f := f) (by simp +contextual)
      (refs_returned p f (by simp [hph])) fun r' hr' hl => ?_
    obtain rfl : _ = r' := by simpa using hr'
    exact ⟨rfl, Nat.le_add_left 1 _⟩
  | loadFailed t p f e hph =>
    exact hC.move (f := f) (by simp +contextual) (fun q g => refs_goto (by simp [hph]) q g)
      (by simp)
  | written t p f epoch caller hph =>
    have hgoto := hC.goto (t := t) (w := .unpinning p f caller none) (by simp [hph])
    rcases Use.cleaned_cases p epoch (c.frame f) with ⟨r, hr, -, -, hclean⟩ | hclean
    · refine hgoto.atFrame (f := f) (by simp +contextual) (fun _ _ _ => rfl) fun r' hr' hl => ?_
      obtain rfl : _ = r' := by simpa [hclean] using hr'
      exact hgoto f r hr hl
    · exact hgoto.congr (by simp [hclean]) fun _ _ => rfl
  | writeFailed t p f epoch caller e hph => exact hC.goto (by simp [hph])
  | @unpinned c₁ t p f caller failure hph hunpin =>
    refine hC.lose (p := p) hunpin rfl rfl fun q g => ?_
    rw [← hunpin.refs]
    refine refs_goto_written (c := c₁.notify) ?_ ?_ q g
    · simp [hunpin.frame_only.1, hph]
    · cases failure <;> simp
  | @unpinThrew c₁ t p f caller failure e hph hunpin =>
    refine hC.lose (p := p) hunpin rfl rfl fun q g => ?_
    rw [← hunpin.refs]
    refine refs_goto_written (c := c₁) ?_ rfl q g
    simp [hunpin.frame_only.1, hph]
  | evictCopy t a ev hph => exact hC.congr rfl fun q g => refs_goto (by simp [hph]) q g
  | evictCopyFailed t a ev k e hph => exact hC.congr rfl fun q g => refs_goto (by simp [hph]) q g
  | writeCopy t p f epoch caller hph => exact hC.congr rfl fun q g => refs_goto (by simp [hph]) q g
  | writeCopyFailed t p f epoch caller k e hph =>
    exact hC.congr rfl fun q g => refs_goto (by simp [hph]) q g
  | readCopy t p f hph => exact hC.congr rfl fun q g => refs_goto (by simp [hph]) q g
  | readCopyFailed t p f left e hph => exact hC.congr rfl fun q g => refs_goto (by simp [hph]) q g
  | change => exact hC.congr rfl fun _ _ => rfl
  | mark slot g r hg hv hr hpage =>
    refine hC.atFrame (f := g.frameId) (by simp +contextual) (fun _ _ _ => rfl) fun r' hr' hl => ?_
    obtain rfl : _ = r' := by simpa using hr'
    exact hC g.frameId r hr hl
  | @drop c₁ slot g failure hg hv hp hunpin =>
    have hC' : ∀ q f, c₁.refs q f + (if q = g.pageId ∧ f = g.frameId then 1 else 0) =
        c.refs q f := by
      intro q f
      rw [hunpin.refs]
      exact refs_emptied hg hv q f
    cases failure with
    | none => exact hC.lose (p := g.pageId) hunpin rfl rfl hC'
    | some e => exact hC.lose (p := g.pageId) hunpin rfl rfl hC'
  | dropStale slot g e hg hv hp =>
    have hrefs := refs_emptied hg hv
    refine hC.atFrame (f := g.frameId) (fun _ _ => rfl) (fun q f hf => ?_) fun r hr hl => ?_
    · have := hrefs q f
      rw [if_neg fun h => hf h.2] at this
      exact this
    · have hne : ¬ (r.page = g.pageId ∧ g.frameId = g.frameId) := by
        rintro ⟨h, -⟩
        exact hp (by rw [show c.frame g.frameId = _ from hr]; simp [Use.meta, h])
      have := hrefs r.page g.frameId
      rw [if_neg hne] at this
      exact (hC g.frameId r hr hl).trans_eq this.symm
  | move slot g hg => exact hC.congr rfl (refs_move hg)
  | assign slot source g g' hne hg hv hg' => exact hC.congr rfl (refs_assign hne hg hv hg')

end Covered

end BufferManager.Protocol
