/-
  Protocol/Ownership.lean --- every frame in transit has one owner, and the page
  table, the metadata, the bitmap and the replacer agree.

  `Owned` holds in every configuration of every run, whatever the ids the clients
  use, the replacer's choices and the number of pins.  A rule that moves a frame
  from one use to another is checked at its own frame and thread (`Owned.moveFrame`);
  a rule that changes only a resident frame's counters, or only where threads are,
  has nothing to check (`Owned.retenant`, `Owned.congr`).
-/
import BufferManager.Protocol.Step
import BufferManager.Lib.Transition

set_option autoImplicit false

namespace BufferManager.Protocol

open BufferManager.Lib

variable {τ : Type} {n : Nat} {c c' : Cfg τ}

section

attribute [local simp] Place.frame Use.place Use.transient Phase.claim failPhase

/-- The place a use asks for names the frame. -/
theorem Use.frame_of_place {u : Use} {f p : Nat} {x : Place} (h : u.place f = some (p, x)) :
    x.frame = some f := by
  cases u with
  | free => simp at h
  | loading q =>
    simp at h
    rw [← h.2]
    rfl
  | resident r =>
    simp at h
    rw [← h.2.2]
    rfl
  | evicting q d e =>
    simp at h
    rw [← h.2]
    rfl

/-- The structures agree on every frame and page, and what is in transit belongs to
one thread. -/
structure Owned (n : Nat) (c : Cfg τ) : Prop where
  /-- The page a frame's use names is where the use says. -/
  place_of_use : ∀ f p x, (c.frame f).place f = some (p, x) → c.place p = x
  /-- The frame a page's place names is used for that page. -/
  use_of_place : ∀ p f, (c.place p).frame = some f → (c.frame f).place f = some (p, c.place p)
  /-- A frame that a thread has to itself is in the use the thread put it to. -/
  claim_use : ∀ t f u, (c.phase t).claim = some (f, u) → c.frame f = u
  claim_unique : ∀ t t' f u u', (c.phase t).claim = some (f, u) →
    (c.phase t').claim = some (f, u') → t = t'
  /-- A frame being loaded or evicted belongs to a thread. -/
  transient_claimed : ∀ f, (c.frame f).transient → ∃ t, (c.phase t).claim = some (f, c.frame f)
  allocated_lt : ∀ f, f ∈ c.allocated → f < n
  allocated_iff : ∀ f, f ∈ c.allocated ↔
    c.frame f ≠ .free ∨ ∃ t, (c.phase t).claim = some (f, .free)
  present_iff : ∀ f, f ∈ c.present ↔ ∃ r, c.frame f = .resident r ∧ r.listed = true
  evictable_unpinned : ∀ f, f ∈ c.evictable →
    ∃ r, c.frame f = .resident r ∧ r.listed = true ∧ r.pins = 0
  upcoming_unused : ∀ p, p ∈ c.upcoming → c.place p = .unused
  upcoming_nodup : c.upcoming.Nodup

namespace Owned

/-! ## What ownership says about one frame and one page -/

theorem place_eq_resident (hI : Owned n c) {f : Nat} {r : Tenant} (h : c.frame f = .resident r)
    (hr : r.listed = true) : c.place r.page = .resident f :=
  hI.place_of_use f r.page (.resident f) (by simp [h, hr])

/-- A page the table holds resident is in the frame named. -/
theorem resident (hI : Owned n c) {p f : Nat} (h : c.place p = .resident f) :
    ∃ r, c.frame f = .resident r ∧ r.page = p ∧ r.listed = true := by
  have hplace := hI.use_of_place p f (by simp [h])
  rw [h] at hplace
  cases hu : c.frame f with
  | free => simp [hu] at hplace
  | loading q => simp [hu] at hplace
  | evicting q d e => simp [hu] at hplace
  | resident r =>
    rw [hu] at hplace
    cases hl : r.listed with
    | false => simp [hl] at hplace
    | true =>
      simp [hl] at hplace
      exact ⟨r, rfl, hplace, hl⟩

theorem resident_use (hI : Owned n c) {p f : Nat} {r : Tenant} (h : c.place p = .resident f)
    (hr : c.frame f = .resident r) : r.page = p ∧ r.listed = true := by
  obtain ⟨r', hr', hpage, hlisted⟩ := hI.resident h
  rw [hr] at hr'
  injection hr' with hr'
  subst hr'
  exact ⟨hpage, hlisted⟩

theorem allocated_of_use (hI : Owned n c) {f : Nat} (h : c.frame f ≠ .free) :
    f ∈ c.allocated :=
  (hI.allocated_iff f).mpr (Or.inl h)

/-- The page of a frame that a thread has to itself is where the thread put it. -/
theorem place_of_claim (hI : Owned n c) {t : τ} {f p : Nat} {u : Use} {x : Place}
    (h : (c.phase t).claim = some (f, u)) (hu : u.place f = some (p, x)) : c.place p = x :=
  hI.place_of_use f p x (by rw [hI.claim_use t f u h, hu])

/-- No place names a frame whose use names no page. -/
theorem unnamed (hI : Owned n c) {f : Nat} (h : (c.frame f).place f = none) (q : Nat) :
    (c.place q).frame ≠ some f := by
  intro hq
  rw [hI.use_of_place q f hq] at h
  exact Option.some_ne_none _ h

/-- Only one place names a frame. -/
theorem named (hI : Owned n c) {f p : Nat} {x : Place} (h : (c.frame f).place f = some (p, x))
    (q : Nat) (hq : (c.place q).frame = some f) : q = p := by
  rw [hI.use_of_place q f hq] at h
  simp only [Option.some.injEq, Prod.mk.injEq] at h
  exact h.1

/-- A frame whose page is resident belongs to no thread. -/
theorem unclaimed_of_resident (hI : Owned n c) {f : Nat} {r : Tenant}
    (h : c.frame f = .resident r) (t : τ) (u : Use) : (c.phase t).claim ≠ some (f, u) := by
  intro hclaim
  have huse := hI.claim_use t f u hclaim
  rw [h] at huse
  subst huse
  revert hclaim
  cases hph : c.phase t with
  | suspended pc => cases pc <;> simp
  | _ => simp

/-- A frame outside the bitmap belongs to no thread and is free. -/
theorem unclaimed_of_not_allocated (hI : Owned n c) {f : Nat} (h : f ∉ c.allocated) :
    c.frame f = .free ∧ ∀ t u, (c.phase t).claim ≠ some (f, u) := by
  have hfree : c.frame f = .free := by
    by_contra hne
    exact h ((hI.allocated_iff f).mpr (Or.inl hne))
  refine ⟨hfree, fun t u hclaim => ?_⟩
  have huse := hI.claim_use t f u hclaim
  rw [hfree] at huse
  subst huse
  exact h ((hI.allocated_iff f).mpr (Or.inr ⟨t, hclaim⟩))

/-! ## Rules that move no frame -/

/-- Ownership does not look at the bytes, the disk, the sleepers, the guards, or at
where a thread is beyond what it claims. -/
theorem congr (hI : Owned n c) (hplace : c'.place = c.place) (hupcoming : c'.upcoming = c.upcoming)
    (hframe : c'.frame = c.frame) (hallocated : c'.allocated = c.allocated)
    (hpresent : c'.present = c.present) (hevictable : c'.evictable = c.evictable)
    (hclaim : ∀ t, (c'.phase t).claim = (c.phase t).claim) : Owned n c' := by
  constructor <;>
    simp only [hplace, hupcoming, hframe, hallocated, hpresent, hevictable, hclaim]
  · exact hI.place_of_use
  · exact hI.use_of_place
  · exact hI.claim_use
  · exact hI.claim_unique
  · exact hI.transient_claimed
  · exact hI.allocated_lt
  · exact hI.allocated_iff
  · exact hI.present_iff
  · exact hI.evictable_unpinned
  · exact hI.upcoming_unused
  · exact hI.upcoming_nodup

/-- Moving a thread between two places where it claims the same. -/
theorem goto [DecidableEq τ] (hI : Owned n c) {t : τ} {w : Phase}
    (h : w.claim = (c.phase t).claim) :
    Owned n (c.goto t w) := by
  refine hI.congr rfl rfl rfl rfl rfl rfl fun u => ?_
  by_cases hu : u = t
  · subst hu
    simpa using h
  · simp [hu]

/-- Changing the counters of a resident frame. -/
theorem retenant (hI : Owned n c) {f : Nat} {r w : Tenant} (hr : c.frame f = .resident r)
    (hpage : w.page = r.page) (hlisted : w.listed = r.listed)
    (hplace : c'.place = c.place) (hupcoming : c'.upcoming = c.upcoming)
    (hframe : c'.frame = Function.update c.frame f (.resident w))
    (hallocated : c'.allocated = c.allocated) (hpresent : ∀ g, g ∈ c'.present ↔ g ∈ c.present)
    (hevictable : ∀ g, g ∈ c'.evictable → g ≠ f → g ∈ c.evictable)
    (hpins : f ∈ c'.evictable → w.listed = true ∧ w.pins = 0)
    (hclaim : ∀ t, (c'.phase t).claim = (c.phase t).claim) : Owned n c' := by
  have huse : ∀ g, (c'.frame g).place g = (c.frame g).place g := by
    intro g
    rw [hframe]
    by_cases hg : g = f
    · subst hg
      simp [hr, hpage, hlisted]
    · rw [Function.update_of_ne hg]
  have hne : ∀ t u, (c.phase t).claim ≠ some (f, u) := hI.unclaimed_of_resident hr
  have hother : ∀ t g u, (c.phase t).claim = some (g, u) → c'.frame g = c.frame g := by
    intro t g u h
    have hg : g ≠ f := fun hg => hne t u (hg ▸ h)
    rw [hframe, Function.update_of_ne hg]
  constructor
  · intro g p x h
    rw [huse] at h
    rw [hplace]
    exact hI.place_of_use g p x h
  · intro p g h
    rw [hplace] at h ⊢
    rw [huse]
    exact hI.use_of_place p g h
  · intro t g u h
    rw [hclaim] at h
    rw [hother t g u h]
    exact hI.claim_use t g u h
  · intro t t' g u u' h h'
    rw [hclaim] at h h'
    exact hI.claim_unique t t' g u u' h h'
  · intro g h
    by_cases hg : g = f
    · subst hg
      simp [hframe] at h
    · rw [hframe, Function.update_of_ne hg] at h ⊢
      simp only [hclaim]
      exact hI.transient_claimed g h
  · rw [hallocated]
    exact hI.allocated_lt
  · intro g
    simp only [hallocated, hclaim, hframe]
    by_cases hg : g = f
    · subst hg
      simp [(hI.allocated_iff g).mpr (Or.inl (by simp [hr]))]
    · rw [Function.update_of_ne hg]
      exact hI.allocated_iff g
  · intro g
    rw [hpresent, hI.present_iff, hframe]
    by_cases hg : g = f
    · subst hg
      simp [hr, hlisted]
    · rw [Function.update_of_ne hg]
  · intro g h
    by_cases hg : g = f
    · subst hg
      exact ⟨w, by simp [hframe], hpins h⟩
    · rw [hframe, Function.update_of_ne hg]
      exact hI.evictable_unpinned g (hevictable g h hg)
  · rw [hplace, hupcoming]
    exact hI.upcoming_unused
  · rw [hupcoming]
    exact hI.upcoming_nodup

/-! ## Rules that move one frame -/

/-- Nothing but frame `f`, the places that name it and thread `t` differs. -/
structure Touches (t : τ) (f : Nat) (c c' : Cfg τ) : Prop where
  phase : ∀ u, u ≠ t → c'.phase u = c.phase u
  frame : ∀ g, g ≠ f → c'.frame g = c.frame g
  place : ∀ p, c'.place p = c.place p ∨
    ((∀ g, (c.place p).frame = some g → g = f) ∧ ∀ g, (c'.place p).frame = some g → g = f)
  allocated : ∀ g, g ≠ f → (g ∈ c'.allocated ↔ g ∈ c.allocated)
  present : ∀ g, g ≠ f → (g ∈ c'.present ↔ g ∈ c.present)
  evictable : ∀ g, g ≠ f → g ∈ c'.evictable → g ∈ c.evictable

/-- What has to hold at frame `f` and thread `t` once `f` has moved. -/
structure Settled (n : Nat) (t : τ) (f : Nat) (c' : Cfg τ) : Prop where
  place_of_use : ∀ p x, (c'.frame f).place f = some (p, x) → c'.place p = x
  use_of_place : ∀ p, (c'.place p).frame = some f →
    (c'.frame f).place f = some (p, c'.place p)
  claim_use : ∀ g u, (c'.phase t).claim = some (g, u) → g = f ∧ c'.frame f = u
  transient_claimed : (c'.frame f).transient → (c'.phase t).claim = some (f, c'.frame f)
  allocated_lt : f ∈ c'.allocated → f < n
  allocated_iff : f ∈ c'.allocated ↔
    c'.frame f ≠ .free ∨ (c'.phase t).claim = some (f, .free)
  present_iff : f ∈ c'.present ↔ ∃ r, c'.frame f = .resident r ∧ r.listed = true
  evictable_unpinned : f ∈ c'.evictable →
    ∃ r, c'.frame f = .resident r ∧ r.listed = true ∧ r.pins = 0

/-- A step at frame `f` by thread `t`, where `f` is `t`'s or nobody's. -/
theorem moveFrame (hI : Owned n c) {t : τ} {f : Nat} (h : Touches t f c c')
    (hbefore : ∀ g u, (c.phase t).claim = some (g, u) → g = f)
    (halone : ∀ t', t' ≠ t → ∀ u, (c.phase t').claim ≠ some (f, u))
    (hafter : Settled n t f c')
    (hupcoming : ∀ p, p ∈ c'.upcoming → c'.place p = .unused)
    (hnodup : c'.upcoming.Nodup) : Owned n c' := by
  -- what another thread claims is another frame, and it claimed it before
  have hother : ∀ t' g u, g ≠ f →
      ((c'.phase t').claim = some (g, u) ↔ (c.phase t').claim = some (g, u)) := by
    intro t' g u hg
    by_cases ht : t' = t
    · subst ht
      exact ⟨fun hc => absurd (hafter.claim_use g u hc).1 hg, fun hc => absurd (hbefore g u hc) hg⟩
    · rw [h.phase t' ht]
  have hmine : ∀ t' u, (c'.phase t').claim = some (f, u) → t' = t := by
    intro t' u hc
    by_contra ht
    rw [h.phase t' ht] at hc
    exact halone t' ht u hc
  constructor
  · intro g p x hg
    by_cases hgf : g = f
    · subst hgf
      exact hafter.place_of_use p x hg
    · rw [h.frame g hgf] at hg
      have hp := hI.place_of_use g p x hg
      rcases h.place p with heq | ⟨honly, -⟩
      · rw [heq, hp]
      · exact absurd (honly g (hp ▸ Use.frame_of_place hg)) hgf
  · intro p g hg
    by_cases hgf : g = f
    · subst hgf
      exact hafter.use_of_place p hg
    · rcases h.place p with heq | ⟨-, honly⟩
      · rw [heq] at hg ⊢
        rw [h.frame g hgf]
        exact hI.use_of_place p g hg
      · exact absurd (honly g hg) hgf
  · intro t' g u hc
    by_cases hgf : g = f
    · subst hgf
      rw [hmine t' u hc] at hc
      exact (hafter.claim_use g u hc).2
    · rw [h.frame g hgf]
      exact hI.claim_use t' g u ((hother t' g u hgf).mp hc)
  · intro t₁ t₂ g u₁ u₂ h₁ h₂
    by_cases hgf : g = f
    · subst hgf
      rw [hmine t₁ u₁ h₁, hmine t₂ u₂ h₂]
    · exact hI.claim_unique t₁ t₂ g u₁ u₂ ((hother t₁ g u₁ hgf).mp h₁)
        ((hother t₂ g u₂ hgf).mp h₂)
  · intro g hg
    by_cases hgf : g = f
    · subst hgf
      exact ⟨t, hafter.transient_claimed hg⟩
    · rw [h.frame g hgf] at hg ⊢
      obtain ⟨t', ht'⟩ := hI.transient_claimed g hg
      exact ⟨t', (hother t' g _ hgf).mpr ht'⟩
  · intro g hg
    by_cases hgf : g = f
    · subst hgf
      exact hafter.allocated_lt hg
    · exact hI.allocated_lt g ((h.allocated g hgf).mp hg)
  · intro g
    by_cases hgf : g = f
    · subst hgf
      rw [hafter.allocated_iff]
      constructor
      · rintro (hne | hc)
        · exact Or.inl hne
        · exact Or.inr ⟨t, hc⟩
      · rintro (hne | ⟨t', hc⟩)
        · exact Or.inl hne
        · rw [hmine t' _ hc] at hc
          exact Or.inr hc
    · rw [h.allocated g hgf, h.frame g hgf, hI.allocated_iff g]
      simp only [hother _ g _ hgf]
  · intro g
    by_cases hgf : g = f
    · subst hgf
      exact hafter.present_iff
    · rw [h.present g hgf, h.frame g hgf]
      exact hI.present_iff g
  · intro g hg
    by_cases hgf : g = f
    · subst hgf
      exact hafter.evictable_unpinned hg
    · rw [h.frame g hgf]
      exact hI.evictable_unpinned g (h.evictable g hgf hg)
  · exact hupcoming
  · exact hnodup

theorem not_present (hI : Owned n c) {f : Nat} (h : ∀ r, c.frame f ≠ .resident r) :
    f ∉ c.present ∧ f ∉ c.evictable := by
  constructor
  · intro hf
    obtain ⟨r, hr, -⟩ := (hI.present_iff f).mp hf
    exact h r hr
  · intro hf
    obtain ⟨r, hr, -⟩ := hI.evictable_unpinned f hf
    exact h r hr

/-- The frame a thread has to itself: its use, its owner, its bits. -/
structure Claimed (n : Nat) (c : Cfg τ) (t : τ) (f : Nat) (u : Use) : Prop where
  use : c.frame f = u
  mine : ∀ g u', (c.phase t).claim = some (g, u') → g = f
  alone : ∀ t', t' ≠ t → ∀ u', (c.phase t').claim ≠ some (f, u')
  allocated : f ∈ c.allocated
  lt : f < n
  not_present : f ∉ c.present
  not_evictable : f ∉ c.evictable

theorem claimed (hI : Owned n c) {t : τ} {f : Nat} {u : Use}
    (h : (c.phase t).claim = some (f, u)) : Claimed n c t f u := by
  have huse := hI.claim_use t f u h
  have hallocated : f ∈ c.allocated := by
    rw [hI.allocated_iff]
    by_cases hfree : c.frame f = .free
    · exact Or.inr ⟨t, by rw [h, ← huse, hfree]⟩
    · exact Or.inl hfree
  have hnot : ∀ r, c.frame f ≠ .resident r := fun r hr => hI.unclaimed_of_resident hr t u h
  refine ⟨huse, ?_, ?_, hallocated, hI.allocated_lt f hallocated, (hI.not_present hnot).1,
    (hI.not_present hnot).2⟩
  · intro g u' h'
    rw [h] at h'
    simp only [Option.some.injEq, Prod.mk.injEq] at h'
    exact h'.1.symm
  · exact fun t' ht' u' h' => ht' (hI.claim_unique t' t f u' u h' h)

/-- Changing the place of a page in use keeps the unused ids apart. -/
theorem upcoming_setPlace (hI : Owned n c) {q : Nat} (x : Place) (hq : c.place q ≠ .unused) :
    ∀ p, p ∈ c.upcoming → Function.update c.place q x p = .unused := by
  intro p hp
  have hpq : p ≠ q := by
    rintro rfl
    exact hq (hI.upcoming_unused p hp)
  rw [Function.update_of_ne hpq]
  exact hI.upcoming_unused p hp

/-- A page in use becomes unused, and its id the next to be handed out. -/
theorem upcoming_freeId (hI : Owned n c) {q : Nat} (hq : c.place q ≠ .unused) :
    (∀ p, p ∈ q :: c.upcoming → Function.update c.place q .unused p = .unused) ∧
      (q :: c.upcoming).Nodup := by
  constructor
  · intro p hp
    by_cases hpq : p = q
    · subst hpq
      simp
    · rw [Function.update_of_ne hpq]
      exact hI.upcoming_unused p ((List.mem_cons.mp hp).resolve_left hpq)
  · exact List.nodup_cons.mpr ⟨fun h => hq (hI.upcoming_unused q h), hI.upcoming_nodup⟩

/-- Thread `t` may move frame `f` and page `p` together: nobody else claims the frame,
and at most the two name each other. -/
structure Movable (n : Nat) (c : Cfg τ) (t : τ) (f p : Nat) : Prop where
  mine : ∀ g u, (c.phase t).claim = some (g, u) → g = f
  alone : ∀ t', t' ≠ t → ∀ u, (c.phase t').claim ≠ some (f, u)
  page : ∀ g, (c.place p).frame = some g → g = f
  named : ∀ q, (c.place q).frame = some f → q = p
  lt : f < n

/-- Thread `t` has moved frame `f` to the use `u` and page `p` to the place `x`. -/
structure Moved (t : τ) (f p : Nat) (u : Use) (x : Place) (c c' : Cfg τ) : Prop where
  place : c'.place = Function.update c.place p x
  frame : c'.frame = Function.update c.frame f u
  phase : ∀ t', t' ≠ t → c'.phase t' = c.phase t'
  allocated : ∀ g, g ≠ f → (g ∈ c'.allocated ↔ g ∈ c.allocated)
  present : ∀ g, g ≠ f → (g ∈ c'.present ↔ g ∈ c.present)
  evictable : ∀ g, g ≠ f → g ∈ c'.evictable → g ∈ c.evictable
  agree : x.frame = none ∧ u.place f = none ∨ x.frame = some f ∧ u.place f = some (p, x)
  claim : ∀ g u', (c'.phase t).claim = some (g, u') → g = f ∧ u = u'
  transient : u.transient → (c'.phase t).claim = some (f, u)
  bit : f ∈ c'.allocated ↔ u ≠ .free ∨ (c'.phase t).claim = some (f, .free)
  listed : f ∈ c'.present ↔ ∃ r, u = .resident r ∧ r.listed = true
  unpinned : f ∈ c'.evictable → ∃ r, u = .resident r ∧ r.listed = true ∧ r.pins = 0

theorem movePage (hI : Owned n c) {t : τ} {f p : Nat} {u : Use} {x : Place}
    (hb : Movable n c t f p) (h : Moved t f p u x c c')
    (hupcoming : ∀ q, q ∈ c'.upcoming → Function.update c.place p x q = .unused)
    (hnodup : c'.upcoming.Nodup) : Owned n c' := by
  have hself : c'.frame f = u := by rw [h.frame, Function.update_self]
  refine hI.moveFrame (t := t) (f := f)
    ⟨h.phase, ?_, ?_, h.allocated, h.present, h.evictable⟩ hb.mine hb.alone
    ⟨?_, ?_, ?_, ?_, fun _ => hb.lt, ?_, ?_, ?_⟩ (h.place ▸ hupcoming) hnodup
  · intro g hg
    rw [h.frame, Function.update_of_ne hg]
  · intro q
    rw [h.place]
    by_cases hq : q = p
    · subst hq
      refine Or.inr ⟨hb.page, fun g hg => ?_⟩
      rw [Function.update_self] at hg
      rcases h.agree with ⟨hx, -⟩ | ⟨hx, -⟩
      · rw [hx] at hg
        exact absurd hg (Option.some_ne_none _).symm
      · rw [hx] at hg
        exact (Option.some.inj hg).symm
    · exact Or.inl (Function.update_of_ne hq _ _)
  · intro q y hq
    rw [hself] at hq
    rcases h.agree with ⟨-, hu⟩ | ⟨-, hu⟩
    · rw [hu] at hq
      exact absurd hq (Option.some_ne_none _).symm
    · rw [hu] at hq
      simp only [Option.some.injEq, Prod.mk.injEq] at hq
      obtain ⟨rfl, rfl⟩ := hq
      rw [h.place, Function.update_self]
  · intro q hq
    rw [h.place] at hq ⊢
    rw [hself]
    by_cases hqp : q = p
    · subst hqp
      rw [Function.update_self] at hq ⊢
      rcases h.agree with ⟨hx, -⟩ | ⟨-, hu⟩
      · rw [hx] at hq
        exact absurd hq (Option.some_ne_none _).symm
      · exact hu
    · rw [Function.update_of_ne hqp] at hq
      exact absurd (hb.named q hq) hqp
  · rw [hself]
    exact h.claim
  · rw [hself]
    exact h.transient
  · rw [hself]
    exact h.bit
  · rw [hself]
    exact h.listed
  · rw [hself]
    exact h.unpinned

/-- A thread may move the frame it has to itself, with the page of that frame. -/
theorem Claimed.movable {t : τ} {f : Nat} {u : Use} (hC : Claimed n c t f u) (hI : Owned n c)
    {p : Nat} {x : Place} (hu : u.place f = some (p, x)) : Movable n c t f p := by
  have huse : (c.frame f).place f = some (p, x) := by rw [hC.use, hu]
  refine ⟨hC.mine, hC.alone, fun g hg => ?_, hI.named huse, hC.lt⟩
  rw [hI.place_of_use f p x huse, Use.frame_of_place huse] at hg
  exact (Option.some.inj hg).symm

/-- A thread may put the frame it has taken under any page that is in no frame. -/
theorem Claimed.movable_free {t : τ} {f : Nat} (hC : Claimed n c t f .free) (hI : Owned n c)
    {p : Nat} (hp : (c.place p).frame = none) : Movable n c t f p := by
  refine ⟨hC.mine, hC.alone, fun g hg => ?_, fun q hq => ?_, hC.lt⟩
  · rw [hp] at hg
    exact absurd hg (Option.some_ne_none _).symm
  · exact absurd hq (hI.unnamed (by rw [hC.use]; rfl) q)

/-- A thread that claims nothing may move a resident frame with its page. -/
theorem movable_resident (hI : Owned n c) {t : τ} {f p : Nat} {r : Tenant}
    (hclaim : (c.phase t).claim = none) (hp : c.place p = .resident f)
    (hr : c.frame f = .resident r) : Movable n c t f p := by
  refine ⟨fun g u h => ?_, fun t' _ => hI.unclaimed_of_resident hr t', fun g hg => ?_,
    hI.named (hI.use_of_place p f (by simp [hp])), hI.allocated_lt f (hI.allocated_of_use ?_)⟩
  · rw [hclaim] at h
    exact absurd h (Option.some_ne_none _).symm
  · simpa [hp] using hg.symm
  · simp [hr]

/-- A page without a frame becomes another page without a frame. -/
theorem rename (hI : Owned n c) {p : Nat} {x : Place} (hp : (c.place p).frame = none)
    (hx : x.frame = none) (hplace : c'.place = Function.update c.place p x)
    (hframe : c'.frame = c.frame) (hallocated : c'.allocated = c.allocated)
    (hpresent : c'.present = c.present) (hevictable : c'.evictable = c.evictable)
    (hclaim : ∀ t, (c'.phase t).claim = (c.phase t).claim)
    (hupcoming : ∀ q, q ∈ c'.upcoming → Function.update c.place p x q = .unused)
    (hnodup : c'.upcoming.Nodup) : Owned n c' := by
  constructor
  · intro f q y h
    rw [hframe] at h
    have hq := hI.place_of_use f q y h
    have hqp : q ≠ p := by
      rintro rfl
      have hf : (c.place q).frame = some f := hq ▸ Use.frame_of_place h
      rw [hp] at hf
      exact Option.some_ne_none _ hf.symm
    rw [hplace, Function.update_of_ne hqp]
    exact hq
  · intro q f h
    have hqp : q ≠ p := by
      rintro rfl
      rw [hplace, Function.update_self, hx] at h
      exact Option.some_ne_none _ h.symm
    rw [hplace, Function.update_of_ne hqp] at h ⊢
    rw [hframe]
    exact hI.use_of_place q f h
  · simpa only [hframe, hclaim] using hI.claim_use
  · simpa only [hclaim] using hI.claim_unique
  · simpa only [hframe, hclaim] using hI.transient_claimed
  · simpa only [hallocated] using hI.allocated_lt
  · simpa only [hallocated, hframe, hclaim] using hI.allocated_iff
  · simpa only [hpresent, hframe] using hI.present_iff
  · simpa only [hevictable, hframe] using hI.evictable_unpinned
  · exact hplace ▸ hupcoming
  · exact hnodup

theorem evictable_resident (hI : Owned n c) {f : Nat} {r : Tenant} (hf : f ∈ c.evictable)
    (hr : c.frame f = .resident r) : r.listed = true ∧ r.pins = 0 := by
  obtain ⟨r', hr', h⟩ := hI.evictable_unpinned f hf
  rw [hr] at hr'
  injection hr' with hr'
  exact hr' ▸ h

end Owned

/-! ## Errors -/

/-- A visit ends with the same errors where its page and the page's frame are the same. -/
theorem Leaves.congr {v : Visit} {e : Error} (h : Leaves c' v e)
    (hplace : c'.place v.pageId = c.place v.pageId)
    (hframe : ∀ f, c'.place v.pageId = .resident f → c'.frame f = c.frame f) : Leaves c v e := by
  cases h with
  | invalid _ hp => exact .invalid v (hplace ▸ hp)
  | fetchUnused p hp => exact .fetchUnused p (hplace ▸ hp)
  | flushUnused p caller hp => exact .flushUnused p caller (hplace ▸ hp)
  | pinOverflow p f r hp hr hpins =>
    exact .pinOverflow p f r (hplace ▸ hp) (hframe f hp ▸ hr) hpins
  | deletePinned p f r hp hr hpins =>
    exact .deletePinned p f r (hplace ▸ hp) (hframe f hp ▸ hr) hpins

theorem Cfg.Full.congr {n : Nat} {complete : Prop} (h : c'.Full n complete)
    (hframe : c'.frame = c.frame) (hallocated : c'.allocated = c.allocated)
    (hevictable : c'.evictable = c.evictable) : c.Full n complete where
  allocated := hallocated ▸ h.allocated
  settled := fun ⟨f, hf, ht⟩ => h.settled ⟨f, hf, hframe ▸ ht⟩
  unevictable := hevictable ▸ h.unevictable

/-- The end of an eviction changes nothing about the other pages. -/
theorem Leaves.before_eviction {n : Nat} {t : τ} {a : Acquirer} {ev : Eviction} {io : Io}
    {v : Visit} {e : Error} (h : Leaves c' v e) (hI : Owned n c)
    (hph : c.phase t = .suspended (.evicting a ev io))
    (hplace : c'.place = Function.update c.place ev.oldPageId .nonResident)
    (hframe : c'.frame = Function.update c.frame ev.frameId .free)
    (hv : c'.place v.pageId ≠ .nonResident) : Leaves c v e := by
  have hne : v.pageId ≠ ev.oldPageId := by
    intro heq
    rw [hplace, heq] at hv
    exact hv (by simp)
  have hsame : c'.place v.pageId = c.place v.pageId := by rw [hplace, Function.update_of_ne hne]
  refine h.congr hsame fun f hf => ?_
  have hclaim : (c.phase t).claim =
      some (ev.frameId, .evicting ev.oldPageId ev.dirty ev.dirtyEpoch) := by rw [hph]; rfl
  obtain ⟨r, hr, -⟩ := hI.resident (hsame ▸ hf)
  have hfe : f ≠ ev.frameId := by
    rintro rfl
    exact hI.unclaimed_of_resident hr t _ hclaim
  rw [hframe, Function.update_of_ne hfe]

/-- Clearing the dirty bit gives no pin and takes none. -/
theorem Cfg.Unpinnable.of_cleaned [DecidableEq τ] {t : τ} {f p epoch : Nat} {ph : Phase}
    (h : ((c.setUse f ((c.frame f).cleaned p epoch)).goto t ph).Unpinnable f) :
    c.Unpinnable f := by
  intro r hr
  rcases Use.cleaned_cases p epoch (c.frame f) with ⟨r', hr', -, -, hclean⟩ | hsame
  · obtain rfl := Use.resident.inj (hr.symm.trans hr')
    exact h { r with dirty := false } (by simpa using hclean)
  · exact h r (by simpa [hsame] using hr)

/-! ## UnpinFrameLocked -/

section

variable [DecidableEq τ]

/-- Unpinning changes a frame's use and the evictable frames, and nothing else. -/
theorem Unpin.frame_only {f : Nat} {failure : Option Error} (h : Unpin c f c' failure) :
    c'.phase = c.phase ∧ c'.place = c.place ∧ c'.upcoming = c.upcoming ∧
      c'.allocated = c.allocated ∧ c'.present = c.present ∧ c'.bytes = c.bytes ∧
      c'.disk = c.disk ∧ c'.asleep = c.asleep ∧ c'.guards = c.guards := by
  cases h <;> simp

theorem Unpin.unpinnable {f : Nat} {e : Error} (h : Unpin c f c' (some e)) : c.Unpinnable f := by
  cases h with
  | unknown r _ hr _ habsent =>
    intro r' _
    exact Or.inr habsent
  | refused _ hpins => exact fun r hr => Or.inl (hpins r hr)

theorem Unpin.owned {f : Nat} {failure : Option Error} (h : Unpin c f c' failure)
    (hI : Owned n c) : Owned n c' := by
  cases h with
  | kept r k hr hpins =>
    refine hI.retenant (r := r) (w := { r with pins := k + 1 }) hr rfl rfl rfl rfl rfl rfl
      (fun _ => Iff.rfl) (fun _ h _ => h) (fun h => ?_) fun _ => rfl
    have := (hI.evictable_resident h hr).2
    omega
  | last r hr hpins hpresent =>
    refine hI.retenant (r := r) (w := { r with pins := 0 }) hr rfl rfl rfl rfl rfl rfl
      (fun _ => Iff.rfl) ?_ (fun _ => ⟨?_, rfl⟩) fun _ => rfl
    · simp +contextual
    · obtain ⟨r', hr', hlisted⟩ := (hI.present_iff f).mp hpresent
      rw [hr] at hr'
      injection hr' with hr'
      exact hr' ▸ hlisted
  | unknown r e hr hpins hpresent =>
    refine hI.retenant (r := r) (w := { r with pins := 0 }) hr rfl rfl rfl rfl rfl rfl
      (fun _ => Iff.rfl) (fun _ h _ => h) (fun h => ?_) fun _ => rfl
    exact ⟨(hI.evictable_resident h hr).1, rfl⟩
  | refused => exact hI

end

/-! ## Every rule -/

namespace Owned

variable [DecidableEq τ] {N : Nat} {complete : Prop}

/-- Every step keeps what is owned. -/
theorem step {e : Event τ} (h : Step n N complete c e c') (hI : Owned n c) : Owned n c' := by
  cases h with
  | visit t v hph => exact hI.goto (by simp [hph])
  | noIds => exact hI
  | reserve t p rest hph hids =>
    have hunused := hI.upcoming_unused
    have hnodup := hI.upcoming_nodup
    rw [hids] at hunused hnodup
    have hp := hunused p List.mem_cons_self
    refine hI.rename (p := p) (x := .nonResident) (by simp [hp]) rfl rfl rfl rfl rfl rfl ?_ ?_
      (List.nodup_cons.mp hnodup).2
    · intro u
      by_cases hu : u = t
      · subst hu
        simp [hph]
      · simp [hu]
    · intro q hq
      have hqp : q ≠ p := fun h => (List.nodup_cons.mp hnodup).1 (h ▸ hq)
      rw [Function.update_of_ne hqp]
      exact hunused q (List.mem_cons_of_mem _ hq)
  | snapshot t hph => exact hI.goto (by simp [hph])
  | wakePage t v hph => exact (hI.goto (by simp [hph])).congr rfl rfl rfl rfl rfl rfl fun _ => rfl
  | wakeFrame t a hph => exact (hI.goto (by simp [hph])).congr rfl rfl rfl rfl rfl rfl fun _ => rfl
  | nextFlush t p rest hph => exact hI.goto (by simp [hph])
  | leave t v e hph => exact hI.goto (by simp [hph])
  | sleepPage t v hph => exact (hI.goto (by simp [hph])).congr rfl rfl rfl rfl rfl rfl fun _ => rfl
  | pin t p f r hph hplace hr hpins =>
    obtain ⟨hpage, hlisted⟩ := hI.resident_use hplace hr
    refine (hI.goto (w := .suspended .idle) (t := t) (by simp [hph])).retenant (r := r)
      (w := { r with pins := r.pins + 1 }) hr rfl rfl rfl rfl rfl rfl ?_ ?_ ?_ fun _ => rfl
    · have hf : f ∈ c.present := (hI.present_iff f).mpr ⟨r, hr, hlisted⟩
      intro g
      by_cases hg : g = f
      · subst hg
        simp [hf]
      · simp [hg]
    · simp +contextual
    · simp
  | seek t p hph => exact hI.goto (by simp [hph])
  | skipFlush t p caller hph => exact hI.goto (by simp [hph])
  | flushReturn t caller hph =>
    refine hI.goto ?_
    rw [hph]
    cases caller with
    | flushPage => rfl
    | flushAllPages rest => cases rest <;> rfl
  | capture t p f r caller hph hplace hr hd => 
    refine (hI.goto (t := t) (w := .suspended (.writing p f r.epoch caller .running))
      (by simp [hph])).retenant (r := r) (w := { r with pins := (r.pins + 1) % 2 ^ 32 }) hr rfl rfl
      rfl rfl rfl rfl (fun _ => Iff.rfl) ?_ ?_ fun _ => rfl
    · simp +contextual
    · simp
  | deleteUnused t p hph => exact hI.goto (by simp [hph])
  | deleteResident t p f r hph hplace hr hpins =>
    have hm := hI.movable_resident (t := t) (by simp [hph]) hplace hr
    obtain ⟨hunused, hnodup⟩ := hI.upcoming_freeId (q := p) (by simp [hplace])
    refine hI.movePage (u := .free) (x := .unused) hm ?_ hunused hnodup
    constructor <;> simp +contextual
  | deleteNonResident t p hph hplace =>
    obtain ⟨hunused, hnodup⟩ := hI.upcoming_freeId (q := p) (by simp [hplace])
    refine (hI.goto (w := .suspended .idle) (t := t) (by simp [hph])).rename (p := p) (x := .unused)
      (by simp [hplace]) rfl rfl rfl rfl rfl rfl (fun _ => rfl) hunused hnodup
  | recheck t p hph => exact hI.goto (by simp [hph])
  | tookFrame t a f hph hn hf =>
    obtain ⟨hfree, hnobody⟩ := hI.unclaimed_of_not_allocated hf
    have hnot := hI.not_present (f := f) (by simp [hfree])
    refine hI.moveFrame (t := t) (f := f) ?_ (by simp [hph]) (fun t' _ u => hnobody t' u) ?_
      hI.upcoming_unused hI.upcoming_nodup
    · constructor <;> simp +contextual
    · constructor
      case use_of_place => exact fun q hq => absurd hq (hI.unnamed (by simp [hfree]) q)
      all_goals simp +contextual [hfree, hn, hnot]
  | evictBegin t a f r hph hf hplace hr hpins =>
    have hm := hI.movable_resident (t := t) (by simp [hph]) hplace hr
    have hallocated := hI.allocated_of_use (f := f) (by simp [hr])
    refine hI.movePage (u := .evicting r.page r.dirty r.epoch) (x := .evicting f) hm ?_
      (hI.upcoming_setPlace _ (by simp [hplace])) hI.upcoming_nodup
    constructor <;> simp +contextual [hallocated]
  | sleepFrame t a hph =>
    exact (hI.goto (by simp [hph])).congr rfl rfl rfl rfl rfl rfl fun _ => rfl
  | noFrame t a hph => exact hI.goto (by cases a <;> simp [hph])
  | evictDone t a ev hph => 
    have hC := hI.claimed (t := t) (f := ev.frameId)
      (u := .evicting ev.oldPageId ev.dirty ev.dirtyEpoch) (by simp [hph])
    have hplace := hI.place_of_use ev.frameId ev.oldPageId (.evicting ev.frameId) (by simp [hC.use])
    refine hI.movePage (u := .free) (x := .nonResident) (hC.movable hI rfl) ?_
      (hI.upcoming_setPlace _ (by simp [hplace])) hI.upcoming_nodup
    constructor <;> simp +contextual [hC.allocated, hC.not_present, hC.not_evictable]
  | evictFail t a ev e hph => 
    have hC := hI.claimed (t := t) (f := ev.frameId)
      (u := .evicting ev.oldPageId ev.dirty ev.dirtyEpoch) (by simp [hph])
    have hplace := hI.place_of_use ev.frameId ev.oldPageId (.evicting ev.frameId) (by simp [hC.use])
    refine hI.movePage (u := .resident ⟨ev.oldPageId, 0, ev.dirty, ev.dirtyEpoch, true⟩)
      (x := .resident ev.frameId) (hC.movable hI rfl) ?_
      (hI.upcoming_setPlace _ (by simp [hplace])) hI.upcoming_nodup
    constructor
    case claim => cases a <;> simp
    all_goals simp +contextual [hC.allocated]
  | create t p f hph hplace =>
    have hC := hI.claimed (t := t) (f := f) (u := .free) (by simp [hph])
    refine hI.movePage (u := .resident ⟨p, 1, true, 1, true⟩) (x := .resident f)
      (hC.movable_free hI (p := p) (by simp [hplace])) ?_
      (hI.upcoming_setPlace _ (by simp [hplace])) hI.upcoming_nodup
    constructor <;> simp +contextual [hC.allocated]
  | block t p f e hph hplace =>
    have hC := hI.claimed (t := t) (f := f) (u := .free) (by simp [hph])
    refine hI.moveFrame (t := t) (f := f) ?_ hC.mine hC.alone ?_ hI.upcoming_unused
      hI.upcoming_nodup
    · constructor <;> simp +contextual
    · constructor
      case use_of_place => exact fun q hq => absurd hq (hI.unnamed (by simp [hC.use]) q)
      all_goals simp [hC.allocated, hC.lt, hC.not_present, hC.not_evictable]
  | loadBegin t p f hph hplace => 
    have hC := hI.claimed (t := t) (f := f) (u := .free) (by simp [hph])
    refine hI.movePage (u := .loading p) (x := .loading f)
      (hC.movable_free hI (p := p) (by simp [hplace])) ?_
      (hI.upcoming_setPlace _ (by simp [hplace])) hI.upcoming_nodup
    constructor <;> simp +contextual [hC.allocated, hC.not_present, hC.not_evictable]
  | surplus t p f hph hplace => 
    have hC := hI.claimed (t := t) (f := f) (u := .free) (by simp [hph])
    refine hI.moveFrame (t := t) (f := f) ?_ hC.mine hC.alone ?_ hI.upcoming_unused
      hI.upcoming_nodup
    · constructor <;> simp +contextual
    · constructor
      case use_of_place => exact fun q hq => absurd hq (hI.unnamed (by simp [hC.use]) q)
      all_goals simp [hC.not_present, hC.not_evictable]
  | rollback t p e hph hplace => 
    obtain ⟨hunused, hnodup⟩ := hI.upcoming_freeId (q := p) (by simp [hplace])
    refine (hI.goto (w := .suspended .idle) (t := t) (by simp [hph])).rename (p := p) (x := .unused)
      (by simp [hplace]) rfl rfl rfl rfl rfl rfl (fun _ => rfl) hunused hnodup
  | abandon t p e hph => exact (hI.goto (by simp [hph])).congr rfl rfl rfl rfl rfl rfl fun _ => rfl
  | loaded t p f hph =>
    have hC := hI.claimed (t := t) (f := f) (u := .loading p) (by simp [hph])
    have hplace := hI.place_of_use f p (.loading f) (by simp [hC.use])
    refine hI.movePage (u := .resident ⟨p, 1, false, 0, true⟩) (x := .resident f)
      (hC.movable hI rfl) ?_
      (hI.upcoming_setPlace _ (by simp [hplace])) hI.upcoming_nodup
    constructor <;> simp +contextual [hC.allocated]
  | loadFailed t p f e hph =>
    have hC := hI.claimed (t := t) (f := f) (u := .loading p) (by simp [hph])
    have hplace := hI.place_of_use f p (.loading f) (by simp [hC.use])
    refine hI.movePage (u := .free) (x := .nonResident) (hC.movable hI rfl) ?_
      (hI.upcoming_setPlace _ (by simp [hplace])) hI.upcoming_nodup
    constructor <;> simp +contextual [hC.not_present, hC.not_evictable]
  | written t p f epoch caller hph =>
    have hgoto := hI.goto (t := t) (w := .unpinning p f caller none) (by simp [hph])
    rcases Use.cleaned_cases p epoch (c.frame f) with ⟨r, hr, -, -, hclean⟩ | hclean
    · exact hgoto.retenant (r := r) (w := { r with dirty := false }) hr rfl rfl rfl rfl
        (by simp [hclean]) rfl (fun _ => Iff.rfl) (fun _ h _ => h)
        (fun h => hI.evictable_resident (r := r) h hr) fun _ => rfl
    · exact hgoto.congr rfl rfl (by simp [hclean]) rfl rfl rfl fun _ => rfl
  | writeFailed t p f epoch caller e hph => exact hI.goto (by simp [hph])
  | unpinned t p f caller failure hph hunpin =>
    refine ((hunpin.owned hI).goto (t := t) (w := unpinPhase caller failure) ?_).congr
      rfl rfl rfl rfl rfl rfl fun _ => rfl
    rw [hunpin.frame_only.1, hph]
    cases failure <;> rfl
  | unpinThrew t p f caller failure e hph hunpin =>
    refine (hunpin.owned hI).goto ?_
    rw [hunpin.frame_only.1, hph]
    rfl
  | evictCopy t a ev hph =>
    exact (hI.goto (by simp [hph])).congr rfl rfl rfl rfl rfl rfl fun _ => rfl
  | evictCopyFailed t a ev k e hph =>
    exact (hI.goto (by simp [hph])).congr rfl rfl rfl rfl rfl rfl fun _ => rfl
  | writeCopy t p f epoch caller hph =>
    exact (hI.goto (by simp [hph])).congr rfl rfl rfl rfl rfl rfl fun _ => rfl
  | writeCopyFailed t p f epoch caller k e hph =>
    exact (hI.goto (by simp [hph])).congr rfl rfl rfl rfl rfl rfl fun _ => rfl
  | readCopy t p f hph => exact (hI.goto (by simp [hph])).congr rfl rfl rfl rfl rfl rfl fun _ => rfl
  | readCopyFailed t p f left e hph =>
    exact (hI.goto (by simp [hph])).congr rfl rfl rfl rfl rfl rfl fun _ => rfl
  | change => exact hI.congr rfl rfl rfl rfl rfl rfl fun _ => rfl
  | mark slot g r hg hv hr hpage => 
    exact hI.retenant (r := r) (w := { r with dirty := true, epoch := (r.epoch + 1) % 2 ^ 64 })
      hr rfl rfl rfl rfl rfl rfl (fun _ => Iff.rfl) (fun _ h _ => h)
      (fun h => hI.evictable_resident (r := r) h hr) fun _ => rfl
  | drop slot g failure hg hv hp hunpin =>
    have hI' := hunpin.owned (hI.congr rfl rfl rfl rfl rfl rfl fun _ => rfl)
    cases failure with
    | none => exact hI'.congr rfl rfl rfl rfl rfl rfl fun _ => rfl
    | some e => exact hI'
  | dropStale => exact hI.congr rfl rfl rfl rfl rfl rfl fun _ => rfl
  | move => exact hI.congr rfl rfl rfl rfl rfl rfl fun _ => rfl
  | assign => exact hI.congr rfl rfl rfl rfl rfl rfl fun _ => rfl

/-- A path from an owned configuration is owned throughout. -/
theorem path {es : List (Event τ)} (h : Path (Step n N complete) c es c') (hI : Owned n c) :
    Owned n c' :=
  h.preserves (P := fun _ => True) (fun _ _ _ _ hs hI => step hs hI) (fun _ _ => trivial) hI

end Owned

end

/-! ## Ids in range -/

/-- A call that acquires a frame, or holds one, wants it for an id of the table. -/
def Within (N : Nat) (c : Cfg τ) : Prop := ∀ t p, (c.phase t).acquires = some p → p < N

namespace Within

variable [DecidableEq τ] {N : Nat} {complete : Prop}

theorem goto (hW : Within N c) {t : τ} {w : Phase}
    (h : ∀ p, w.acquires = some p → (c.phase t).acquires = some p ∨ p < N)
    (hphase : c'.phase = (c.goto t w).phase) : Within N c' := by
  intro u p hp
  rw [hphase] at hp
  by_cases hu : u = t
  · subst hu
    rcases h p (by simpa using hp) with h | h
    · exact hW u p h
    · exact h
  · exact hW u p (by simpa [hu] using hp)

attribute [local simp] Phase.acquires failPhase unpinPhase phaseOf

theorem step {e : Event τ} (h : Step n N complete c e c') (hW : Within N c) : Within N c' := by
  cases h with
  | noIds => exact hW
  | reserve t p rest hph hids hp =>
    exact hW.goto (t := t) (by simp +contextual [Acquirer.pageId, hp]) rfl
  | seek t p hph hplace hp =>
    exact hW.goto (t := t) (by simp +contextual [Acquirer.pageId, hp]) rfl
  | flushReturn t caller hph =>
    cases caller with
    | flushPage => exact hW.goto (t := t) (by simp [Manager.flushReturn]) rfl
    | flushAllPages rest =>
      cases rest <;> exact hW.goto (t := t) (by simp [Manager.flushReturn]) rfl
  | noFrame t a hph =>
    refine hW.goto (t := t) ?_ rfl
    cases a <;> simp +contextual [Acquirer.pageId, hph]
  | evictFail t a ev e hph =>
    refine hW.goto (t := t) ?_ rfl
    cases a <;> simp +contextual [Acquirer.pageId, hph]
  | @unpinned c₁ t p f caller failure hph hunpin =>
    refine hW.goto (t := t) (w := unpinPhase caller failure) ?_ ?_
    · cases failure <;> simp
    · simp [hunpin.frame_only.1]
  | @unpinThrew c₁ t p f caller failure e hph hunpin =>
    exact hW.goto (t := t) (w := .suspended .idle) (by simp) (by simp [hunpin.frame_only.1])
  | change => exact hW
  | mark => exact hW
  | @drop c₁ slot g failure hg hv hp hunpin =>
    have hphase := hunpin.frame_only.1
    cases failure <;> exact fun t p hp => hW t p (by simpa [hphase] using hp)
  | dropStale => exact hW
  | move => exact hW
  | assign => exact hW
  | block t p f e hph => exact hW.goto (t := t) (by simp +contextual [Acquirer.pageId, hph]) rfl
  | wakeFrame t a hph | tookFrame t a f hph | evictBegin t a f r hph | sleepFrame t a hph
  | evictDone t a ev hph | evictCopy t a ev hph | evictCopyFailed t a ev k e hph =>
    exact hW.goto (t := t) (by simp +contextual [hph]) rfl
  | visit t | snapshot t | wakePage t | nextFlush t | leave t | sleepPage t | pin t | skipFlush t
  | capture t | deleteUnused t | deleteResident t | deleteNonResident t | recheck t | create t
  | loadBegin t | surplus t | rollback t | abandon t | loaded t | loadFailed t | written t
  | writeFailed t | writeCopy t | writeCopyFailed t | readCopy t | readCopyFailed t =>
    exact hW.goto (t := t) (by simp) rfl

end Within

end BufferManager.Protocol
