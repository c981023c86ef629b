/-
  Replacement/SecondChance.lean --- what `Victim` chooses, and how long a frame waits.

  Frames are ordered by how far they lie ahead of the clock hand.  A sweep passes
  frames in this order (`Passed`) and stops at the first unreferenced evictable one
  (`sweep_passed`); when there is none, the second sweep finds every evictable frame
  unreferenced.  So `Victim` is the second-chance rule (`SecondChance`), and each
  call that returns another frame brings the hand nearer to a waiting one
  (`SecondChance.nearer`).
-/
import BufferManager.Lib.Cyclic
import BufferManager.Replacement.ClockReplacer

set_option autoImplicit false

namespace BufferManager

open Lib.Cyclic

/-! ## Calls and reachable states -/

/-- A call on the replacer. -/
inductive ReplacerCall where
  | recordAccess (frameId : Nat)
  | setEvictable (frameId : Nat) (evictable : Bool)
  | remove (frameId : Nat)
  | victim
  deriving DecidableEq, Repr

/-- The frame a call names. -/
def ReplacerCall.frame : ReplacerCall → Option Nat
  | .recordAccess f => some f
  | .setEvictable f _ => some f
  | .remove f => some f
  | .victim => none

namespace ClockReplacer

/-- The state an attempt leaves: every `throw` comes before the first change. -/
def attempt (r : ClockReplacer) : Except Error ClockReplacer → ClockReplacer
  | .ok r' => r'
  | .error _ => r

/-- The state a call leaves. -/
def after (r : ClockReplacer) : ReplacerCall → ClockReplacer
  | .recordAccess f => r.attempt (r.recordAccess f)
  | .setEvictable f b => r.attempt (r.setEvictable f b)
  | .remove f => r.attempt (r.remove f)
  | .victim => r.attempt (r.victim.map Prod.snd)

/-- The state a sequence of calls leaves. -/
def run (r : ClockReplacer) (calls : List ReplacerCall) : ClockReplacer :=
  calls.foldl after r

/-- What the `Victim` calls of a sequence return, in order. -/
def victims (r : ClockReplacer) : List ReplacerCall → List (Except Error (Option Nat))
  | [] => []
  | .victim :: calls => r.victim.map Prod.fst :: victims (r.after .victim) calls
  | c :: calls => victims (r.after c) calls

/-- A state some sequence of calls leads to, from a replacer of `n` frames as built. -/
def Reachable (n : Nat) (r : ClockReplacer) : Prop :=
  ∃ r₀ calls, make n = .ok r₀ ∧ r = r₀.run calls

section Outside

variable {n : Nat} {r : ClockReplacer} {f : Nat}

theorem validateFrameId_error (hf : r.frameCount ≤ f) :
    r.validateFrameId f = .error ⟨.outOfRange, "invalid frame id"⟩ := by
  rw [validateFrameId, if_pos hf]

theorem recordAccess_error (hf : r.frameCount ≤ f) :
    r.recordAccess f = .error ⟨.outOfRange, "invalid frame id"⟩ := by
  rw [recordAccess, validateFrameId_error hf]
  rfl

theorem setEvictable_error (b : Bool) (hf : r.frameCount ≤ f) :
    r.setEvictable f b = .error ⟨.outOfRange, "invalid frame id"⟩ := by
  rw [setEvictable, validateFrameId_error hf]
  rfl

theorem remove_error (hf : r.frameCount ≤ f) :
    r.remove f = .error ⟨.outOfRange, "invalid frame id"⟩ := by
  rw [remove, validateFrameId_error hf]
  rfl

end Outside

theorem Inv.after {n : Nat} {r : ClockReplacer} (hinv : r.Inv n) (c : ReplacerCall) :
    (r.after c).Inv n := by
  have hsize := hinv.frameCount_eq
  cases c with
  | recordAccess f =>
    rw [ClockReplacer.after]
    by_cases hf : f < n
    · obtain ⟨r', h, hinv', -⟩ := recordAccess_spec hinv hf
      rwa [h]
    · rwa [recordAccess_error (by omega)]
  | setEvictable f b =>
    rw [ClockReplacer.after]
    by_cases hf : f < n
    · by_cases hp : f ∈ r.present
      · obtain ⟨r', h, hinv', -⟩ := setEvictable_spec hinv b hp
        rwa [h]
      · rwa [setEvictable_absent hinv b hf hp]
    · rwa [setEvictable_error b (by omega)]
  | remove f =>
    rw [ClockReplacer.after]
    by_cases hf : f < n
    · obtain ⟨r', h, hinv', -⟩ := remove_spec hinv hf
      rwa [h]
    · rwa [remove_error (by omega)]
  | victim =>
    obtain ⟨choice, r', h, hinv', -⟩ := victim_spec hinv
    rw [ClockReplacer.after, h]
    exact hinv'

theorem Inv.run {n : Nat} {r : ClockReplacer} (hinv : r.Inv n) (calls : List ReplacerCall) :
    (r.run calls).Inv n := by
  induction calls generalizing r with
  | nil => exact hinv
  | cons c calls ih => exact ih (hinv.after c)

theorem Reachable.inv {n : Nat} {r : ClockReplacer} (h : Reachable n r) : r.Inv n := by
  obtain ⟨r₀, calls, hmake, rfl⟩ := h
  exact (make_spec hmake).1.run calls

/-! ## The second-chance rule -/

/-- How far a frame lies ahead of the clock hand. -/
def ahead (r : ClockReplacer) (f : Nat) : Nat := distance r.frameCount r.clockHand f

/-- The evictable frames that are not referenced. -/
def cold (r : ClockReplacer) : Set Nat :=
  {f | f ∈ r.evictable ∧ (r.entries f).referenced = false}

/-- The first frame of a set, in cyclic order from the clock hand. -/
def First (r : ClockReplacer) (s : Set Nat) (f : Nat) : Prop :=
  f ∈ s ∧ ∀ g, g ∈ s → r.ahead f ≤ r.ahead g

/-- The frames whose reference bit the choice of `f` clears: the evictable ones
before it, and all of them when none was unreferenced. -/
def cleared (r : ClockReplacer) (f : Nat) : Set Nat :=
  {g | g ∈ r.evictable ∧ (r.cold.Nonempty → r.ahead g < r.ahead f)}

/-- The second-chance rule: `f` is chosen in `r`, and `r'` is left. -/
structure SecondChance (r : ClockReplacer) (f : Nat) (r' : ClockReplacer) : Prop where
  /-- An unreferenced frame goes first. -/
  first_cold : r.cold.Nonempty → r.First r.cold f
  first_evictable : ¬r.cold.Nonempty → r.First r.evictable f
  entry_reset : r'.entries f = {}
  entries_cleared : ∀ g, g ≠ f → g ∈ r.cleared f →
    r'.entries g = { r.entries g with referenced := false }
  entries_kept : ∀ g, g ≠ f → g ∉ r.cleared f → r'.entries g = r.entries g
  hand_eq : r'.clockHand = (f + 1) % r.frameCount
  frameCount_eq : r'.frameCount = r.frameCount
  count_eq : r'.evictableCount + 1 = r.evictableCount

theorem Inv.lt_of_evictable {n : Nat} {r : ClockReplacer} (hinv : r.Inv n) {f : Nat}
    (h : f ∈ r.evictable) : f < n :=
  hinv.lt_of_present h.1

/-! ## Sweeps -/

/-- `r'` is `r` after `k` entries were passed. -/
structure Passed (r : ClockReplacer) (k : Nat) (r' : ClockReplacer) : Prop where
  hand : r'.clockHand = (r.clockHand + k) % r.frameCount
  size : r'.frameCount = r.frameCount
  count : r'.evictableCount = r.evictableCount
  spared : ∀ g, g ∈ r.evictable → r.ahead g < k →
    r'.entries g = { r.entries g with referenced := false }
  others : ∀ g, (g ∈ r.evictable → k ≤ r.ahead g) → r'.entries g = r.entries g

theorem Passed.zero {n : Nat} {r : ClockReplacer} (hinv : r.Inv n) : Passed r 0 r where
  hand := by
    rw [Nat.add_zero, Nat.mod_eq_of_lt (hinv.frameCount_eq ▸ hinv.hand_lt)]
  size := rfl
  count := rfl
  spared g _ h := absurd h (Nat.not_lt_zero _)
  others _ _ := rfl

section Passing

variable {n k : Nat} {r q : ClockReplacer}

/-- The entry under the hand has not been passed before. -/
theorem Passed.ahead_hand (h : Passed r k q) (hinv : r.Inv n) (hk : k < n) :
    r.ahead q.clockHand = k := by
  have hsize := hinv.frameCount_eq
  rw [h.hand, ahead, distance_add (hsize ▸ hinv.hand_lt) (by omega)]

theorem Passed.entry_hand (h : Passed r k q) (hinv : r.Inv n) (hk : k < n) :
    q.entries q.clockHand = r.entries q.clockHand :=
  h.others _ fun _ => Nat.le_of_eq (h.ahead_hand hinv hk).symm

theorem Passed.evictable_iff (h : Passed r k q) (g : Nat) :
    g ∈ q.evictable ↔ g ∈ r.evictable := by
  by_cases hg : g ∈ r.evictable ∧ r.ahead g < k
  · simp only [ClockReplacer.evictable, Set.mem_ofPred_eq, h.spared g hg.1 hg.2]
  · simp only [ClockReplacer.evictable, Set.mem_ofPred_eq,
      h.others g fun hev => Nat.not_lt.mp fun hlt => hg ⟨hev, hlt⟩]

/-- The choosable entry is the unreferenced frame under the hand. -/
theorem Passed.choosable_iff (h : Passed r k q) (hinv : r.Inv n) (hk : k < n) :
    q.choosable = true ↔ q.clockHand ∈ r.cold := by
  unfold choosable cold ClockReplacer.evictable
  rw [h.entry_hand hinv hk]
  simp only [Bool.and_eq_true, Bool.not_eq_true', Set.mem_ofPred_eq]

theorem Passed.step (h : Passed r k q) (hinv : r.Inv n) (hinvq : q.Inv n) (hk : k < n) :
    Passed r (k + 1) q.pass := by
  have hsize := hinv.frameCount_eq
  have hhand := h.ahead_hand hinv hk
  have hlt := hinvq.hand_lt
  have hne : ∀ g, g ∈ r.evictable → r.ahead g ≠ k → g ≠ q.clockHand := by
    rintro g - hg rfl
    exact hg hhand
  have heq : ∀ g, g ∈ r.evictable → r.ahead g = k → g = q.clockHand := fun g hg hga =>
    eq_of_distance_eq hinv.hand_lt (hinv.lt_of_evictable hg) hlt
      (by rw [ahead, hsize] at hga hhand; omega)
  have hother : ∀ g, g ≠ q.clockHand → q.pass.entries g = q.entries g := by
    intro g hg
    unfold pass
    split <;> simp [spare, setEntry, advanceClockHand, hg]
  refine ⟨?_, ?_, ?_, ?_, ?_⟩
  · rw [pass_hand, nextHand_eq_mod hinvq, h.hand, hsize, Nat.mod_add_mod, Nat.add_assoc]
  · rw [← h.size]
    unfold pass
    split <;> rfl
  · rw [← h.count]
    unfold pass
    split <;> rfl
  · intro g hg hga
    by_cases hk' : r.ahead g = k
    · obtain rfl := heq g hg hk'
      have hev : (q.entries q.clockHand).present = true ∧
          (q.entries q.clockHand).evictable = true := (h.evictable_iff _).mpr hg
      rw [← h.entry_hand hinv hk, pass, if_pos (by simp [hev])]
      simp [spare, setEntry, advanceClockHand]
    · rw [hother g (hne g hg hk'), h.spared g hg (by omega)]
  · intro g hg
    by_cases hgh : g = q.clockHand
    · subst hgh
      have hnev : q.clockHand ∉ r.evictable := fun hev => by
        have := hg hev
        omega
      have hnq :
          ¬((q.entries q.clockHand).present && (q.entries q.clockHand).evictable) = true := by
        rw [Bool.and_eq_true]
        exact fun hev => hnev ((h.evictable_iff _).mp hev)
      rw [← h.entry_hand hinv hk, pass, if_neg hnq]
      rfl
    · rw [hother g hgh]
      exact h.others g fun hev => by
        have := hg hev
        omega

/-- `Victim` takes the frame under the hand: its entry is reset, and the hand moves on. -/
def take (r : ClockReplacer) : ClockReplacer :=
  { r.setEntry r.clockHand {} with evictableCount := r.evictableCount - 1 }.advanceClockHand

theorem sweep_choosable (scans : Nat) (hinv : r.Inv n) (h : r.choosable = true) :
    sweep (scans + 1) r = .ok (some r.clockHand, r.take) := by
  have hhand := hinv.hand_lt
  have hle := hinv.frameCount_le
  have hsize := hinv.frameCount_eq
  rw [sweep_succ, if_pos h, Nat.mod_eq_of_lt (by omega), remove, validateFrameId_ok (by omega)]
  simp only [choosable, Bool.and_eq_true] at h
  simp only [h.1.1, h.1.2]
  rfl

/-- A sweep that has passed `k` entries stops at the first unreferenced frame that is
left, or passes the rest. -/
theorem sweep_passed (hinv : r.Inv n) :
    ∀ (scans k : Nat) {q : ClockReplacer}, k + scans ≤ n → q.Inv n → Passed r k q →
      (∃ q', sweep scans q = .ok (none, q') ∧ q'.Inv n ∧ Passed r (k + scans) q' ∧
        ∀ g, g ∈ r.cold → r.ahead g < k ∨ k + scans ≤ r.ahead g) ∨
      (∃ f q', sweep scans q = .ok (some f, q'.take) ∧ q'.Inv n ∧ Passed r (r.ahead f) q' ∧
        q'.clockHand = f ∧ f ∈ r.cold ∧
          ∀ g, g ∈ r.cold → r.ahead g < k ∨ r.ahead f ≤ r.ahead g) := by
  intro scans
  induction scans with
  | zero =>
    intro k q _ hinvq hq
    exact .inl ⟨q, rfl, hinvq, hq, fun g _ => by omega⟩
  | succ scans ih =>
    intro k q hle hinvq hq
    have hk : k < n := by omega
    have hhand := hq.ahead_hand hinv hk
    by_cases hchoose : q.choosable = true
    · refine .inr ⟨q.clockHand, q, sweep_choosable scans hinvq hchoose, hinvq, ?_, rfl,
        (hq.choosable_iff hinv hk).mp hchoose, fun g _ => by omega⟩
      rw [hhand]
      exact hq
    · have hnot : q.clockHand ∉ r.cold := fun h => hchoose ((hq.choosable_iff hinv hk).mpr h)
      -- only the frame under the hand lies `k` ahead
      have hskip : ∀ g, g ∈ r.cold → r.ahead g ≠ k := by
        intro g hg hga
        have hgh : g = q.clockHand := eq_of_distance_eq hinv.hand_lt
          (hinv.lt_of_evictable hg.1) hinvq.hand_lt
          (by rw [ahead, hinv.frameCount_eq] at hga hhand; omega)
        exact hnot (hgh ▸ hg)
      rw [sweep_succ, if_neg hchoose]
      obtain ⟨q', hsweep, hinv', hq', hcold⟩ | ⟨f, q', hsweep, hinv', hq', hf, hfc, hcold⟩ :=
        ih (k + 1) (by omega) hinvq.pass (hq.step hinv hinvq hk)
      · refine .inl ⟨q', hsweep, hinv', by rwa [show k + (scans + 1) = k + 1 + scans by omega],
          fun g hg => ?_⟩
        have := hskip g hg
        have := hcold g hg
        omega
      · refine .inr ⟨f, q', hsweep, hinv', hq', hf, hfc, fun g hg => ?_⟩
        have := hskip g hg
        have := hcold g hg
        omega

end Passing

/-! ## Victim -/

section Victim

variable {n : Nat} {r : ClockReplacer}

theorem ahead_lt (hinv : r.Inv n) (g : Nat) : r.ahead g < n := by
  have hsize := hinv.frameCount_eq
  have hlt : r.ahead g < r.frameCount := distance_lt (hsize ▸ hinv.hand_lt)
  omega

/-- What is taken after a number of passes. -/
theorem Passed.take {f k : Nat} {q : ClockReplacer} (h : Passed r k q) (hf : q.clockHand = f)
    (hev : f ∈ q.evictable) (hinvq : q.Inv n) :
    q.take.entries f = {} ∧ (∀ g, g ≠ f → q.take.entries g = q.entries g) ∧
      q.take.clockHand = (f + 1) % r.frameCount ∧ q.take.frameCount = r.frameCount ∧
      q.take.evictableCount + 1 = r.evictableCount := by
  subst hf
  have hmem : q.clockHand ∈ q.candidates :=
    mem_candidates.mpr ⟨hinvq.frameCount_eq ▸ hinvq.hand_lt, hev.1, hev.2⟩
  have hpos : 0 < q.evictableCount := by
    rw [hinvq.count_eq]
    exact Finset.card_pos.mpr ⟨_, hmem⟩
  refine ⟨?_, ?_, ?_, h.size, ?_⟩
  · simp [ClockReplacer.take, setEntry, advanceClockHand]
  · intro g hg
    simp [ClockReplacer.take, setEntry, advanceClockHand, hg]
  · rw [← h.size, hinvq.frameCount_eq, ← nextHand_eq_mod hinvq]
    rfl
  · rw [← h.count]
    exact Nat.sub_add_cancel hpos

/-- The first sweep finds an unreferenced frame. -/
theorem secondChance_first {f : Nat} {q : ClockReplacer} (hinvq : q.Inv n)
    (h : Passed r (r.ahead f) q) (hf : q.clockHand = f) (hfirst : r.First r.cold f) :
    r.SecondChance f q.take := by
  have hev : f ∈ q.evictable := (h.evictable_iff f).mpr hfirst.1.1
  obtain ⟨hreset, hrest, hhand, hsize, hcount⟩ := h.take hf hev hinvq
  have hne : r.cold.Nonempty := ⟨f, hfirst.1⟩
  refine ⟨fun _ => hfirst, fun hno => absurd hne hno, hreset, ?_, ?_, hhand, hsize, hcount⟩
  · intro g hg hc
    rw [hrest g hg, h.spared g hc.1 (hc.2 hne)]
  · intro g hg hc
    rw [hrest g hg]
    exact h.others g fun hgev => Nat.not_lt.mp fun hlt => hc ⟨hgev, fun _ => hlt⟩

/-- The first sweep passed every frame: every evictable one is unreferenced now. -/
theorem Passed.cold_eq {q : ClockReplacer} (h : Passed r n q) (hinv : r.Inv n) :
    q.cold = r.evictable := by
  ext g
  constructor
  · exact fun hg => (h.evictable_iff g).mp hg.1
  · intro hg
    refine ⟨(h.evictable_iff g).mpr hg, ?_⟩
    rw [h.spared g hg (ahead_lt hinv g)]

/-- The first sweep clears every bit, and the second takes the first evictable frame. -/
theorem secondChance_second {f : Nat} {q q' : ClockReplacer} (hinv : r.Inv n)
    (hempty : ¬r.cold.Nonempty) (h : Passed r n q) (hinv' : q'.Inv n)
    (h' : Passed q (q.ahead f) q') (hf : q'.clockHand = f) (hfirst : q.First q.cold f) :
    r.SecondChance f q'.take := by
  have hsize := hinv.frameCount_eq
  have hhandq : q.clockHand = r.clockHand := by
    rw [h.hand, hsize, Nat.add_mod_right, Nat.mod_eq_of_lt hinv.hand_lt]
  have hahead : ∀ g, q.ahead g = r.ahead g := fun g => by
    rw [ahead, ahead, hhandq, h.size]
  have hev : f ∈ q'.evictable := (h'.evictable_iff f).mpr hfirst.1.1
  obtain ⟨hreset, hrest, hhand, hsz, hcount⟩ := h'.take hf hev hinv'
  rw [h.cold_eq hinv] at hfirst
  refine ⟨fun hne => absurd hne hempty, fun _ => ⟨hfirst.1, fun g hg => ?_⟩, hreset, ?_, ?_,
    hhand.trans (by rw [h.size]), hsz.trans h.size, hcount.trans h.count⟩
  · have := hfirst.2 g hg
    rwa [hahead, hahead] at this
  · intro g hg hc
    rw [hrest g hg, ← h.spared g hc.1 (ahead_lt hinv g)]
    by_cases hlt : q.ahead g < q.ahead f
    · -- a bit that is clear already
      rw [h'.spared g ((h.evictable_iff g).mpr hc.1) hlt, h.spared g hc.1 (ahead_lt hinv g)]
    · exact h'.others g fun _ => Nat.not_lt.mp hlt
  · intro g hg hc
    have hnot : g ∉ r.evictable := fun hgev => hc ⟨hgev, fun hne => absurd hne hempty⟩
    rw [hrest g hg, h'.others g fun hgev => absurd ((h.evictable_iff g).mp hgev) hnot,
      h.others g fun hgev => absurd hgev hnot]

/-- `Victim` is the second-chance rule while anything is evictable. -/
theorem victim_secondChance (hinv : r.Inv n) (hpos : r.evictableCount ≠ 0) :
    ∃ f r', r.victim = .ok (some f, r') ∧ r.SecondChance f r' := by
  have hsize := hinv.frameCount_eq
  unfold victim
  rw [if_neg hpos, hsize]
  obtain ⟨q, hsweep, hinvq, hq, hcold⟩ | ⟨f, q, hsweep, hinvq, hq, hf, hfc, hcold⟩ :=
    sweep_passed hinv n 0 (by omega) hinv (Passed.zero hinv)
  · rw [Nat.zero_add] at hq hcold
    rw [hsweep]
    change ∃ f r', sweep q.frameCount q = .ok (some f, r') ∧ r.SecondChance f r'
    have hempty : ¬r.cold.Nonempty := by
      rintro ⟨g, hg⟩
      have := hcold g hg
      have := ahead_lt hinv g
      omega
    rw [hinvq.frameCount_eq]
    obtain ⟨q', hsweep', hinv', hq', hcold'⟩ | ⟨f, q', hsweep', hinv', hq', hf, hfc, hcold'⟩ :=
      sweep_passed hinvq n 0 (by omega) hinvq (Passed.zero hinvq)
    · -- a frame is evictable, and the first sweep left it unreferenced
      rw [hinv.count_eq] at hpos
      obtain ⟨g, hg⟩ := Finset.card_ne_zero.mp hpos
      have hgev : g ∈ q.cold := hq.cold_eq hinv ▸ (mem_candidates.mp hg).2
      have := hcold' g hgev
      have := ahead_lt hinvq g
      omega
    · exact ⟨f, q'.take, hsweep', secondChance_second hinv hempty hq hinv' hq' hf
        ⟨hfc, fun g hg => by have := hcold' g hg; omega⟩⟩
  · rw [hsweep]
    exact ⟨f, q.take, rfl, secondChance_first hinvq hq hf
      ⟨hfc, fun g hg => by have := hcold g hg; omega⟩⟩

end Victim

/-! ## How long a frame waits -/

/-- The steps of the hand before `f` is chosen at the latest: to `f`, and once more
around when `f` is referenced. -/
def waits (r : ClockReplacer) (f : Nat) : Nat :=
  r.ahead f + if (r.entries f).referenced then r.frameCount else 0

section Waiting

variable {n f g : Nat} {r r' : ClockReplacer}

theorem waits_lt (hinv : r.Inv n) (f : Nat) : r.waits f < 2 * n := by
  have hsize := hinv.frameCount_eq
  have hlt := ahead_lt hinv f
  unfold waits
  split <;> omega

/-- Choosing another frame keeps `f` evictable and brings the hand nearer to it. -/
theorem SecondChance.nearer (h : r.SecondChance g r') (hinv : r.Inv n) (hf : f ∈ r.evictable)
    (hne : f ≠ g) : f ∈ r'.evictable ∧ r'.waits f < r.waits f := by
  have hsize := hinv.frameCount_eq
  have hhand : r.clockHand < r.frameCount := hsize ▸ hinv.hand_lt
  have hfn : f < r.frameCount := hsize ▸ hinv.lt_of_evictable hf
  have hgev : g ∈ r.evictable := by
    by_cases hc : r.cold.Nonempty
    · exact (h.first_cold hc).1.1
    · exact (h.first_evictable hc).1
  have hgn : g < r.frameCount := hsize ▸ hinv.lt_of_evictable hgev
  have hahead' : r'.ahead f = distance r.frameCount ((g + 1) % r.frameCount) f := by
    rw [ahead, h.hand_eq, h.frameCount_eq]
  have hdist : r.ahead g ≠ r.ahead f := fun heq =>
    hne (eq_of_distance_eq hhand hgn hfn heq).symm
  by_cases hcleared : f ∈ r.cleared g
  · have hentry := h.entries_cleared f hne hcleared
    refine ⟨by simpa only [ClockReplacer.evictable, Set.mem_ofPred_eq, hentry] using hf, ?_⟩
    -- `f` lost its reference bit: it was passed, or no frame was unreferenced
    have href : (r.entries f).referenced = true := by
      by_contra hclear
      have hfc : f ∈ r.cold := ⟨hf, by simpa using hclear⟩
      have hlt := hcleared.2 ⟨f, hfc⟩
      have hle := (h.first_cold ⟨f, hfc⟩).2 f hfc
      omega
    have hlt : distance r.frameCount ((g + 1) % r.frameCount) f < r.frameCount :=
      distance_lt (Nat.mod_lt _ (by omega))
    unfold waits
    rw [hentry, if_pos href, hahead']
    by_cases hbefore : r.ahead g < r.ahead f
    · have hpast := distance_past_of_lt hhand hgn hfn hbefore
      simp only [Bool.false_eq_true, if_false]
      unfold ahead at hpast ⊢
      omega
    · have hpast := distance_past_of_gt hhand hgn hfn
        (show r.ahead f < r.ahead g by omega)
      simp only [Bool.false_eq_true, if_false]
      unfold ahead at hpast ⊢
      omega
  · have hentry := h.entries_kept f hne hcleared
    refine ⟨by simpa only [ClockReplacer.evictable, Set.mem_ofPred_eq, hentry] using hf, ?_⟩
    -- `f` was not passed: the hand stopped before it
    have hbefore : r.ahead g < r.ahead f := by
      by_contra hle
      exact hcleared ⟨hf, fun _ => by omega⟩
    have hpast := distance_past_of_lt hhand hgn hfn hbefore
    unfold waits
    rw [hentry, hahead', h.frameCount_eq]
    unfold ahead at hpast ⊢
    omega

/-- A call on another frame leaves the hand and the entry of `f`. -/
theorem after_other {c : ReplacerCall} (hc : c.frame ≠ some f) (hv : c ≠ .victim) :
    (r.after c).entries f = r.entries f ∧ (r.after c).clockHand = r.clockHand ∧
      (r.after c).frameCount = r.frameCount := by
  cases c with
  | recordAccess g =>
    have hfg : f ≠ g := fun h => hc (h ▸ rfl)
    by_cases hg : g < r.frameCount
    · rw [after, recordAccess, validateFrameId_ok hg]
      exact ⟨Function.update_of_ne hfg _ _, rfl, rfl⟩
    · rw [after, recordAccess_error (by omega)]
      exact ⟨rfl, rfl, rfl⟩
  | setEvictable g b =>
    have hfg : f ≠ g := fun h => hc (h ▸ rfl)
    by_cases hg : g < r.frameCount
    · rw [after, setEvictable, validateFrameId_ok hg]
      cases hp : (r.entries g).present with
      | false =>
        simp only [hp]
        exact ⟨rfl, rfl, rfl⟩
      | true =>
        by_cases hb : (r.entries g).evictable = b
        · simp only [hp, hb]
          exact ⟨rfl, rfl, rfl⟩
        · simp only [hp, hb]
          exact ⟨Function.update_of_ne hfg _ _, rfl, rfl⟩
    · rw [after, setEvictable_error b (by omega)]
      exact ⟨rfl, rfl, rfl⟩
  | remove g =>
    have hfg : f ≠ g := fun h => hc (h ▸ rfl)
    by_cases hg : g < r.frameCount
    · rw [after, remove, validateFrameId_ok hg]
      cases hp : (r.entries g).present with
      | false =>
        simp only [hp]
        exact ⟨rfl, rfl, rfl⟩
      | true =>
        simp only [hp]
        exact ⟨Function.update_of_ne hfg _ _, rfl, rfl⟩
    · rw [after, remove_error (by omega)]
      exact ⟨rfl, rfl, rfl⟩
  | victim => exact absurd rfl hv

theorem victims_cons_other {c : ReplacerCall} (hv : c ≠ .victim) (calls : List ReplacerCall) :
    r.victims (c :: calls) = (r.after c).victims calls := by
  cases c with
  | victim => exact absurd rfl hv
  | _ => rfl

/-- While only other frames are touched, fewer than `r.waits f + 1` victims come
before `f`. -/
theorem mem_victims_take (calls : List ReplacerCall) :
    ∀ (m : Nat) {r : ClockReplacer}, r.Inv n → f ∈ r.evictable →
      (∀ c, c ∈ calls → c.frame ≠ some f) → r.waits f < m → m ≤ calls.count .victim →
      .ok (some f) ∈ (r.victims calls).take m := by
  induction calls with
  | nil =>
    intro m r _ _ _ hm hcount
    rw [List.count_nil] at hcount
    omega
  | cons c calls ih =>
    intro m r hinv hf hothers hm hcount
    have hrest : ∀ c', c' ∈ calls → c'.frame ≠ some f :=
      fun c' hc' => hothers c' (List.mem_cons_of_mem _ hc')
    by_cases hv : c = .victim
    · subst hv
      obtain ⟨m, rfl⟩ : ∃ k, m = k + 1 := ⟨m - 1, by omega⟩
      have hpos : r.evictableCount ≠ 0 := fun h0 => by
        rw [evictable_eq_empty_of_count hinv h0] at hf
        cases hf
      obtain ⟨g, r', hvictim, hchance⟩ := victim_secondChance hinv hpos
      have hafter : r.after .victim = r' := by rw [after, hvictim]; rfl
      have hinv' : r'.Inv n := hafter ▸ hinv.after .victim
      rw [victims, hafter, hvictim, List.take_succ_cons]
      by_cases hgf : f = g
      · subst hgf
        exact List.mem_cons_self
      · obtain ⟨hf', hless⟩ := hchance.nearer hinv hf hgf
        refine List.mem_cons_of_mem _ (ih m hinv' hf' hrest (by omega) ?_)
        rw [List.count_cons_self] at hcount
        omega
    · obtain ⟨hentry, hhand, hsize⟩ := after_other (r := r) (hothers c List.mem_cons_self) hv
      have hf' : f ∈ (r.after c).evictable := by
        simpa only [ClockReplacer.evictable, Set.mem_ofPred_eq, hentry] using hf
      have hwaits : (r.after c).waits f = r.waits f := by
        rw [waits, waits, ahead, ahead, hentry, hhand, hsize]
      rw [victims_cons_other hv]
      rw [List.count_cons_of_ne hv] at hcount
      exact ih m (hinv.after c) hf' hrest (by rw [hwaits]; exact hm) hcount

end Waiting

end ClockReplacer

end BufferManager
