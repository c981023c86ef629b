/-
  Protocol/Wakeups.lean --- the sleepers on `state_changed_` and their reasons.

  A step either leaves every frame that is being loaded or evicted as it is, or it
  empties the set of sleepers; and the thread that takes a step is not asleep, unless
  the step puts it to sleep.  So a sleeper's reason stays.
-/
import BufferManager.Protocol.Ownership

set_option autoImplicit false

namespace BufferManager.Protocol

open BufferManager.Lib

variable {τ : Type} [DecidableEq τ] {n N : Nat} {complete : Prop} {c c' : Cfg τ}

/-- The reason for which thread `t` sleeps: its page is being loaded or evicted, or,
where it waits for a frame, some frame is. -/
def Cfg.Waits (c : Cfg τ) (t : τ) : Prop :=
  (∃ v, c.phase t = .suspended (.waitPage v) ∧ (c.place v.pageId).transient) ∨
    ∃ a f, c.phase t = .suspended (.waitFrame a) ∧ (c.frame f).transient

/-- Every sleeper still has its reason. -/
def Wakeful (c : Cfg τ) : Prop := ∀ t, t ∈ c.asleep → c.Waits t

section

attribute [local simp] Use.transient

omit [DecidableEq τ] in
theorem ne_of_transient {f g : Nat} {u : Use} (hu : c.frame f = u) (hn : ¬ u.transient)
    (hg : (c.frame g).transient) : g ≠ f := by
  rintro rfl
  exact hn (hu ▸ hg)

/-- A step that ends a load or an eviction wakes everyone. -/
theorem Step.hushed {e : Event τ} (h : Step n N complete c e c') (hI : Owned n c) :
    c'.asleep = ∅ ∨ ∀ f, (c.frame f).transient → c'.frame f = c.frame f := by
  cases h with
  | pin t p f r hph hplace hr | capture t p f r caller hph hplace hr
  | evictBegin t a f r hph hev hplace hr | mark slot g r hg hv hr =>
    refine Or.inr fun g' hg' => ?_
    simp [ne_of_transient hr (by simp) hg']
  | block t p f e hph | loadBegin t p f hph =>
    have hC := hI.claimed (t := t) (f := f) (u := .free) (by rw [hph]; rfl)
    refine Or.inr fun g' hg' => ?_
    simp [ne_of_transient hC.use (by simp) hg']
  | @written t p f epoch caller hph =>
    refine Or.inr fun g' hg' => ?_
    by_cases hg : g' = f
    · subst hg
      cases hu : c.frame g' <;> simp [hu, Use.cleaned] at hg' ⊢
    · simp [hg]
  | @drop c₁ slot g failure hg hv hp hunpin =>
    cases failure with
    | none => exact Or.inl rfl
    | some e =>
      refine Or.inr fun g' hg' => ?_
      cases hunpin with
      | unknown r e hr => simp [ne_of_transient (c := c) hr (by simp) hg']
      | refused => rfl
  | @unpinThrew c₁ t p f caller failure e hph hunpin =>
    refine Or.inr fun g' hg' => ?_
    cases hunpin with
    | unknown r e hr => simp [ne_of_transient hr (by simp) hg']
    | refused => rfl
  | deleteResident | deleteNonResident | evictDone | evictFail | create | surplus | rollback
  | abandon | loaded | loadFailed | unpinned => exact Or.inl rfl
  | _ => exact Or.inr fun _ _ => rfl

end

omit [DecidableEq τ] in
/-- What a page's place says of it lasts as long as the frame's use. -/
theorem transient_place (hI : Owned n c) (hI' : Owned n c')
    (hframe : ∀ f, (c.frame f).transient → c'.frame f = c.frame f) {p : Nat}
    (hp : (c.place p).transient) : c'.place p = c.place p := by
  obtain ⟨f, hf⟩ : ∃ f, (c.place p).frame = some f := by
    cases hx : c.place p <;> simp [hx, Place.transient, Place.frame] at hp ⊢
  have huse := hI.use_of_place p f hf
  have hu : (c.frame f).transient := by
    cases hx : c.frame f with
    | resident r =>
      rw [hx, Use.place] at huse
      split at huse
      · rw [← (Prod.mk.inj (Option.some.inj huse)).2] at hp
        exact hp.elim
      · cases huse
    | free => rw [hx] at huse; cases huse
    | _ => trivial
  exact hI'.place_of_use f p _ (hframe f hu ▸ huse)

namespace Wakeful

omit [DecidableEq τ] in
/-- The thread that moves was not asleep, and does not fall asleep. -/
theorem goto (hW : Wakeful c) (hI : Owned n c) (hI' : Owned n c')
    (hhush : c'.asleep = ∅ ∨ ∀ f, (c.frame f).transient → c'.frame f = c.frame f)
    (hmoved : ∀ t, t ∈ c'.asleep → c'.Waits t ∨ t ∈ c.asleep ∧ c'.phase t = c.phase t) :
    Wakeful c' := by
  intro t ht
  rcases hhush with hempty | hframe
  · rw [hempty] at ht
    exact absurd ht (Finset.notMem_empty t)
  rcases hmoved t ht with hw | ⟨hold, hphase⟩
  · exact hw
  · rcases hW t hold with ⟨v, hv, hp⟩ | ⟨a, f, ha, hf⟩
    · refine Or.inl ⟨v, hphase.trans hv, ?_⟩
      rw [transient_place hI hI' hframe hp]
      exact hp
    · exact Or.inr ⟨a, f, hphase.trans ha, (hframe f hf).symm ▸ hf⟩

omit [DecidableEq τ] in
theorem not_asleep (hW : Wakeful c) {t : τ} {ph : Phase} (hph : c.phase t = ph)
    (hv : ∀ v, ph ≠ .suspended (.waitPage v)) (ha : ∀ a, ph ≠ .suspended (.waitFrame a)) :
    t ∉ c.asleep := by
  intro ht
  rcases hW t ht with ⟨v, h, -⟩ | ⟨a, -, h, -⟩
  · exact hv v (hph.symm.trans h)
  · exact ha a (hph.symm.trans h)

/-- A sleeper is where it was after another thread has moved. -/
theorem stays (hW : Wakeful c) {t u : τ} {p q : Phase} (hph : c.phase t = p)
    (hv : ∀ v, p ≠ .suspended (.waitPage v)) (ha : ∀ a, p ≠ .suspended (.waitFrame a))
    (hphase : c'.phase = Function.update c.phase t q) (hu : u ∈ c.asleep) :
    c'.Waits u ∨ u ∈ c.asleep ∧ c'.phase u = c.phase u := by
  have hne : u ≠ t := by
    rintro rfl
    exact hW.not_asleep hph hv ha hu
  exact Or.inr ⟨hu, by rw [hphase, Function.update_of_ne hne]⟩

theorem step {e : Event τ} (h : Step n N complete c e c') (hI : Owned n c) (hW : Wakeful c) :
    Wakeful c' := by
  refine hW.goto hI (Owned.step h hI) (h.hushed hI) ?_
  cases h with
  | noIds | change | mark | dropStale | move | assign => exact fun u hu => Or.inr ⟨hu, rfl⟩
  | wakePage t v hph | wakeFrame t a hph =>
    intro u hu
    have hu' := Finset.mem_erase.mp hu
    exact Or.inr ⟨hu'.2, by simp [hu'.1]⟩
  | sleepPage t v hph htransient =>
    intro u hu
    rcases Finset.mem_insert.mp hu with rfl | hu'
    · exact Or.inl (Or.inl ⟨v, by simp, htransient⟩)
    · exact hW.stays hph (by simp) (by simp) rfl hu'
  | sleepFrame t a hph htransient =>
    obtain ⟨f, -, hf⟩ := htransient
    intro u hu
    rcases Finset.mem_insert.mp hu with rfl | hu'
    · exact Or.inl (Or.inr ⟨a, f, by simp, hf⟩)
    · exact hW.stays hph (by simp) (by simp) rfl hu'
  | @drop c₁ slot g failure hg hv hp hunpin =>
    have hframe := hunpin.frame_only
    cases failure with
    | none => exact fun u hu => absurd hu (Finset.notMem_empty u)
    | some e => exact fun u hu => Or.inr ⟨by simpa [hframe] using hu, by simp [hframe]⟩
  | unpinned => exact fun u hu => absurd hu (Finset.notMem_empty u)
  | @unpinThrew c₁ t p f caller failure e hph hunpin =>
    have hframe := hunpin.frame_only
    intro u hu
    have hu' : u ∈ c.asleep := by simpa [hframe] using hu
    exact hW.stays (q := .suspended .idle) hph (by simp) (by simp) (by simp [hframe]) hu'
  | evictDone | evictFail | create | surplus | rollback | abandon | loaded | loadFailed
  | deleteResident | deleteNonResident => exact fun u hu => absurd hu (Finset.notMem_empty u)
  | visit t v hph | reserve t p rest hph | snapshot t hph | nextFlush t p rest hph
  | leave t v e hph | pin t p f r hph | seek t p hph | skipFlush t p caller hph
  | flushReturn t caller hph | capture t p f r caller hph | deleteUnused t p hph
  | recheck t p hph | tookFrame t a f hph | evictBegin t a f r hph | noFrame t a hph
  | block t p f e hph | loadBegin t p f hph | written t p f epoch caller hph
  | writeFailed t p f epoch caller e hph | evictCopy t a ev hph | evictCopyFailed t a ev k e hph
  | writeCopy t p f epoch caller hph | writeCopyFailed t p f epoch caller k e hph
  | readCopy t p f hph | readCopyFailed t p f left e hph =>
    exact fun u hu => hW.stays hph (by simp) (by simp) rfl hu

end Wakeful

end BufferManager.Protocol
