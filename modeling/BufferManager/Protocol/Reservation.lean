/-
  Protocol/Reservation.lean --- the id of a `NewPage` in progress, and what holds
  as long as nobody else takes it.

  `NewPage` reserves its id by making it `kNonResident`, which other calls take for
  a page that is out of memory.  While no load begins on a reserved id and no
  `DeletePage` frees one (`Event.Respects`), a reserved id stays non-resident and has
  one owner, so `NewPage` finds its id as it left it.  While no `NewPage` finds its id
  taken (`Event.Installs`), every resident frame is named by the page table.
-/
import BufferManager.Protocol.Ownership

set_option autoImplicit false

namespace BufferManager.Protocol

open BufferManager.Lib

variable {τ : Type} {n N : Nat} {complete : Prop} {c c' : Cfg τ}

/-! ## Frames left behind -/

/-- No `NewPage` with a frame found its id taken. -/
def Event.Installs : Event τ → Prop
  | .installBlocked _ _ => False
  | _ => True

/-- The page table names every resident frame. -/
def Listed (c : Cfg τ) : Prop := ∀ f r, c.frame f = .resident r → r.listed = true

namespace Listed

/-- Only frame `f` gets another use. -/
theorem update (hL : Listed c) {f : Nat} {u : Use} (hframe : c'.frame = Function.update c.frame f u)
    (hu : ∀ r, u = .resident r → r.listed = true) : Listed c' := by
  intro g r hr
  rw [hframe] at hr
  by_cases hg : g = f
  · subst hg
    exact hu r (by simpa using hr)
  · exact hL g r (by simpa [hg] using hr)

variable [DecidableEq τ]

theorem unpin {f : Nat} {failure : Option Error} (h : Unpin c f c' failure) (hL : Listed c) :
    Listed c' := by
  cases h with
  | kept r k hr | last r hr | unknown r e hr =>
    refine hL.update rfl fun r' hr' => ?_
    obtain rfl := Use.resident.inj hr'
    exact hL f r hr
  | refused => exact hL

theorem step {e : Event τ} (h : Step n N complete c e c') (he : e.Installs) (hL : Listed c) :
    Listed c' := by
  cases h with
  | pin t p f r hph hplace hr | capture t p f r caller hph hplace hr
  | mark slot g r hg hv hr =>
    refine hL.update rfl fun r' hr' => ?_
    obtain rfl := Use.resident.inj hr'
    exact hL _ r hr
  | deleteResident t p f r | evictDone t a ev | surplus t p f | loadFailed t p f
  | evictBegin t a f r | loadBegin t p f =>
    exact hL.update rfl (by simp)
  | evictFail t a ev | create t p f | loaded t p f =>
    refine hL.update rfl fun r' hr' => ?_
    obtain rfl := Use.resident.inj hr'
    rfl
  | block => exact he.elim
  | @written t p f epoch caller hph =>
    refine hL.update rfl fun r' hr' => ?_
    rcases Use.cleaned_cases p epoch (c.frame f) with ⟨r, hr, -, -, hclean⟩ | hsame
    · rw [hclean] at hr'
      obtain rfl := Use.resident.inj hr'
      exact hL f r hr
    · exact hL f r' (hsame.symm.trans hr')
  | @unpinned c₁ t p f caller failure hph hunpin => exact (hL.unpin hunpin : Listed c₁)
  | @unpinThrew c₁ t p f caller failure e hph hunpin => exact (hL.unpin hunpin : Listed c₁)
  | @drop c₁ slot g failure hg hv hp hunpin =>
    have h₁ : Listed c₁ := unpin (c := { c with guards := c.guards.set slot {} }) hunpin hL
    cases failure <;> exact h₁
  | _ => exact hL

end Listed

/-! ## Reserved ids -/

/-- Nobody loads a reserved page or deletes a reserved id. -/
def Event.Respects : Event τ → Prop
  | .loadBegan _ _ reserved => ¬ reserved
  | .deleted _ _ reserved => ¬ reserved
  | _ => True

/-- A reserved id is out of memory and has one owner. -/
structure Reservations (c : Cfg τ) : Prop where
  nonResident : ∀ t p, (c.phase t).reserves = some p → c.place p = .nonResident
  unique : ∀ t u p, (c.phase t).reserves = some p → (c.phase u).reserves = some p → t = u

namespace Reservations

theorem not_reserved (hR : Reservations c) {p : Nat} (hp : c.place p ≠ .nonResident) :
    ¬ c.Reserved p := fun ⟨t, ht⟩ => hp (hR.nonResident t p ht)

/-- No thread reserves anything new, and what is still reserved keeps its place. -/
theorem keep (hR : Reservations c)
    (hres : ∀ t p, (c'.phase t).reserves = some p → (c.phase t).reserves = some p)
    (hplace : ∀ t p, (c'.phase t).reserves = some p → c'.place p = c.place p) :
    Reservations c' :=
  ⟨fun t p h => (hplace t p h).trans (hR.nonResident t p (hres t p h)),
    fun t u p h h' => hR.unique t u p (hres t p h) (hres u p h')⟩

variable [DecidableEq τ]

omit [DecidableEq τ] in
/-- The same with the places that change listed. -/
theorem keep_place (hR : Reservations c)
    (hres : ∀ t p, (c'.phase t).reserves = some p → (c.phase t).reserves = some p)
    {q : Nat} {x : Place} (hplace : c'.place = Function.update c.place q x)
    (hq : ∀ t, (c'.phase t).reserves ≠ some q) : Reservations c' := by
  refine hR.keep hres fun t p h => ?_
  have hne : p ≠ q := by
    rintro rfl
    exact hq t h
  rw [hplace, Function.update_of_ne hne]

/-- The thread that moves reserves no more than it did. -/
theorem reserves_of_goto {t u : τ} {w : Phase} {p : Nat}
    (hres : ∀ q, w.reserves = some q → (c.phase t).reserves = some q)
    (h : ((c.goto t w).phase u).reserves = some p) : (c.phase u).reserves = some p := by
  by_cases hu : u = t
  · subst hu
    exact hres p (by simpa using h)
  · simpa [hu] using h

attribute [local simp] Phase.reserves failPhase unpinPhase phaseOf

theorem step {e : Event τ} (h : Step n N complete c e c') (he : e.Respects) (hI : Owned n c)
    (hR : Reservations c) : Reservations c' := by
  -- what a reserved id's place is not
  have hfree : ∀ {p : Nat}, c.place p ≠ .nonResident → ∀ t, (c.phase t).reserves ≠ some p :=
    fun hp t ht => hp (hR.nonResident t _ ht)
  cases h with
  | noIds | change | mark | dropStale | move | assign => exact ⟨hR.nonResident, hR.unique⟩
  | @reserve t p rest hph hids hlt =>
    have hunused : c.place p = .unused :=
      hI.upcoming_unused p (hids ▸ List.mem_cons_self)
    have hnot := hfree (p := p) (by simp [hunused])
    refine ⟨fun u q hq => ?_, fun u v q hu hv => ?_⟩
    · by_cases hqp : q = p
      · simp [hqp]
      · by_cases hut : u = t
        · subst hut
          simp at hq
          exact absurd hq.symm hqp
        · simpa [hqp] using hR.nonResident u q (by simpa [hut] using hq)
    · by_cases hut : u = t <;> by_cases hvt : v = t
      · rw [hut, hvt]
      · subst hut
        simp at hu
        subst hu
        exact absurd (by simpa [hvt] using hv) (hnot v)
      · subst hvt
        simp at hv
        subst hv
        exact absurd (by simpa [hut] using hu) (hnot u)
      · exact hR.unique u v q (by simpa [hut] using hu) (by simpa [hvt] using hv)
  | @create t p f hph =>
    have hown : (c.phase t).reserves = some p := by simp [hph]
    refine hR.keep_place (fun u q => reserves_of_goto (by simp)) rfl fun u hu => ?_
    have hut := hR.unique u t p (reserves_of_goto (by simp) hu) hown
    subst hut
    simp at hu
  | @rollback t p e hph =>
    have hown : (c.phase t).reserves = some p := by simp [hph]
    refine hR.keep_place (fun u q => reserves_of_goto (by simp)) rfl fun u hu => ?_
    have hut := hR.unique u t p (reserves_of_goto (by simp) hu) hown
    subst hut
    simp at hu
  | @block t p f e hph hplace => exact absurd (by simp [hph]) (hfree hplace t)
  | @loadBegin t p f hph hplace =>
    refine hR.keep_place (fun u q => reserves_of_goto (by simp)) rfl fun u hu => he ⟨u, ?_⟩
    exact reserves_of_goto (by simp) hu
  | @deleteNonResident t p hph hplace =>
    refine hR.keep_place (fun u q => reserves_of_goto (by simp)) rfl fun u hu => he ⟨u, ?_⟩
    exact reserves_of_goto (by simp) hu
  | @deleteResident t p f r hph hplace =>
    refine hR.keep_place (fun u q => reserves_of_goto (by simp)) rfl fun u hu => he ⟨u, ?_⟩
    exact reserves_of_goto (by simp) hu
  | @evictBegin t a f r hph hev hplace =>
    refine hR.keep_place (fun u q => reserves_of_goto ?_) rfl fun u hu => ?_
    · cases a <;> simp [hph]
    · refine hfree (p := r.page) (by simp [hplace]) u (reserves_of_goto ?_ hu)
      cases a <;> simp [hph]
  | @evictDone t a ev hph =>
    have hplace := hI.place_of_claim (t := t) (by rw [hph]; rfl) rfl
    refine hR.keep_place (fun u q => reserves_of_goto ?_) rfl fun u hu => ?_
    · cases a <;> simp [hph]
    · refine hfree (p := ev.oldPageId) (by simp [hplace]) u (reserves_of_goto ?_ hu)
      cases a <;> simp [hph]
  | @evictFail t a ev e hph =>
    have hplace := hI.place_of_claim (t := t) (by rw [hph]; rfl) rfl
    refine hR.keep_place (fun u q => reserves_of_goto ?_) rfl fun u hu => ?_
    · cases a <;> simp [hph]
    · refine hfree (p := ev.oldPageId) (by simp [hplace]) u (reserves_of_goto ?_ hu)
      cases a <;> simp [hph]
  | @loaded t p f hph =>
    have hplace := hI.place_of_claim (t := t) (by rw [hph]; rfl) rfl
    refine hR.keep_place (fun u q => reserves_of_goto (by simp)) rfl fun u hu => ?_
    exact hfree (p := p) (by simp [hplace]) u (reserves_of_goto (by simp) hu)
  | @loadFailed t p f e hph =>
    have hplace := hI.place_of_claim (t := t) (by rw [hph]; rfl) rfl
    refine hR.keep_place (fun u q => reserves_of_goto (by simp)) rfl fun u hu => ?_
    exact hfree (p := p) (by simp [hplace]) u (reserves_of_goto (by simp) hu)
  | @drop c₁ slot g failure hg hv hp hunpin =>
    have hframe := hunpin.frame_only
    refine hR.keep (fun u q hu => ?_) fun u q _ => ?_
    · cases failure <;> simpa [hframe] using hu
    · cases failure <;> simp [hframe]
  | @unpinned c₁ t p f caller failure hph hunpin =>
    have hframe := hunpin.frame_only
    refine hR.keep (fun u q hu => reserves_of_goto (t := t) (w := unpinPhase caller failure) ?_ ?_)
      fun u q _ => by simp [hframe]
    · cases failure <;> simp
    · simpa [hframe] using hu
  | @unpinThrew c₁ t p f caller failure e hph hunpin =>
    have hframe := hunpin.frame_only
    exact hR.keep (fun u q hu => reserves_of_goto (t := t) (w := .suspended .idle) (by simp)
      (by simpa [hframe] using hu)) fun u q _ => by simp [hframe]
  | flushReturn t caller hph =>
    refine hR.keep (fun u q => reserves_of_goto ?_) fun _ _ _ => rfl
    rcases caller with - | rest
    · simp [Manager.flushReturn]
    · cases rest <;> simp [Manager.flushReturn]
  | wakeFrame t a hph | tookFrame t a f hph | sleepFrame t a hph | noFrame t a hph
  | evictCopy t a ev hph | evictCopyFailed t a ev k e hph =>
    refine hR.keep (fun u q => reserves_of_goto ?_) fun _ _ _ => rfl
    cases a <;> simp [hph]
  | visit t | snapshot t | wakePage t | nextFlush t | leave t | sleepPage t | pin t | seek t
  | skipFlush t | capture t | deleteUnused t | recheck t | surplus t | abandon t | written t
  | writeFailed t | writeCopy t | writeCopyFailed t | readCopy t | readCopyFailed t =>
    exact hR.keep (fun u q => reserves_of_goto (by simp)) fun _ _ _ => rfl

/-- A `NewPage` with a frame finds its id as it left it. -/
theorem installs {e : Event τ} (hR : Reservations c) (h : Step n N complete c e c') :
    e.Installs := by
  cases h with
  | block t p f e hph hplace => exact hplace (hR.nonResident t p (by rw [hph]; rfl))
  | flushReturn t caller =>
    rcases caller with - | rest
    · trivial
    · cases rest <;> trivial
  | noFrame t a | evictFail t a => cases a <;> trivial
  | evictDone t a ev => cases hd : ev.dirty <;> simp [Event.Installs]
  | unpinned t p f caller failure => cases failure <;> trivial
  | _ => trivial

end Reservations

end BufferManager.Protocol
