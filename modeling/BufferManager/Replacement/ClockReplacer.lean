/-
  Replacement/ClockReplacer.lean --- second-chance replacement.

  Source: `src/replacement/clock_replacer.{h,cc}`.

  `sweep` is the inner loop of `Victim`; `victim` runs it twice, as the source
  does.  A sweep that finds nothing leaves every evictable entry it passed
  unreferenced (`sweep_none_clears`), and can only have passed referenced ones
  (`sweep_none_referenced`), so two full sweeps cannot both come back empty.
-/
import BufferManager.Replacement.Replacer
import Mathlib.Data.Finset.Card
import Mathlib.Data.Finset.Range
import Mathlib.Tactic

set_option autoImplicit false

namespace BufferManager

/-- `struct ClockReplacer::Entry`. -/
structure ClockEntry where
  present : Bool := false
  evictable : Bool := false
  referenced : Bool := false
  deriving DecidableEq, Repr

/-- `class ClockReplacer`; `frameCount` is `entries_.size()`. -/
structure ClockReplacer where
  frameCount : Nat
  entries : Nat → ClockEntry
  clockHand : Nat
  evictableCount : Nat

namespace ClockReplacer

/-- The constructor. -/
def make (frameCount : Nat) : Except Error ClockReplacer :=
  if frameCount = 0 then
    .error ⟨.invalidArgument, "frame_count must be greater than zero"⟩
  else if frameCount > 2 ^ 32 - 1 then
    .error ⟨.invalidArgument, "frame_count does not fit into FrameId"⟩
  else
    .ok { frameCount := frameCount, entries := fun _ => {}, clockHand := 0, evictableCount := 0 }

/-- `ValidateFrameId`. -/
def validateFrameId (r : ClockReplacer) (frameId : Nat) : Except Error Unit :=
  if frameId ≥ r.frameCount then .error ⟨.outOfRange, "invalid frame id"⟩ else .ok ()

/-- Assignment to `entries_[frame_id]`. -/
def setEntry (r : ClockReplacer) (frameId : Nat) (entry : ClockEntry) : ClockReplacer :=
  { r with entries := Function.update r.entries frameId entry }

/-- `AdvanceClockHand`. -/
def advanceClockHand (r : ClockReplacer) : ClockReplacer :=
  { r with clockHand := if r.clockHand + 1 = r.frameCount then 0 else r.clockHand + 1 }

/-- `RecordAccess`. -/
def recordAccess (r : ClockReplacer) (frameId : Nat) : Except Error ClockReplacer := do
  r.validateFrameId frameId
  return r.setEntry frameId { r.entries frameId with present := true, referenced := true }

/-- `SetEvictable`. -/
def setEvictable (r : ClockReplacer) (frameId : Nat) (evictable : Bool) :
    Except Error ClockReplacer := do
  r.validateFrameId frameId
  let entry := r.entries frameId
  if !entry.present then
    throw ⟨.logicError, "cannot change evictability of an unknown frame"⟩
  else if entry.evictable = evictable then
    return r
  else
    return { r.setEntry frameId { entry with evictable := evictable } with
      evictableCount := if evictable then r.evictableCount + 1 else r.evictableCount - 1 }

/-- `Remove`. -/
def remove (r : ClockReplacer) (frameId : Nat) : Except Error ClockReplacer := do
  r.validateFrameId frameId
  let entry := r.entries frameId
  if !entry.present then
    return r
  else
    return { r.setEntry frameId {} with
      evictableCount := if entry.evictable then r.evictableCount - 1 else r.evictableCount }

/-- The inner loop of `Victim`, over the `scans` entries still to be scanned. -/
def sweep : (scans : Nat) → ClockReplacer → Except Error (Option Nat × ClockReplacer)
  | 0, r => .ok (none, r)
  | scans + 1, r =>
      let entry := r.entries r.clockHand
      if entry.present && entry.evictable then
        if entry.referenced then
          sweep scans (r.setEntry r.clockHand { entry with referenced := false }).advanceClockHand
        else do
          let victim := r.clockHand % 2 ^ 32
          let r ← r.remove victim
          return (some victim, r.advanceClockHand)
      else sweep scans r.advanceClockHand

/-- `Victim`. -/
def victim (r : ClockReplacer) : Except Error (Option Nat × ClockReplacer) :=
  if r.evictableCount = 0 then .ok (none, r)
  else
    match sweep r.frameCount r with
    | .error e => .error e
    | .ok (some f, r) => .ok (some f, r)
    | .ok (none, r) => sweep r.frameCount r

instance : Replacer ClockReplacer where
  recordAccess := recordAccess
  setEvictable := setEvictable
  victim := victim
  remove := remove

/-! ## The two sets and the invariant -/

/-- The frames with a present entry. -/
def present (r : ClockReplacer) : Set Nat := {f | (r.entries f).present = true}

/-- The frames whose entry is present and evictable. -/
def evictable (r : ClockReplacer) : Set Nat :=
  {f | (r.entries f).present = true ∧ (r.entries f).evictable = true}

/-- The frames that `evictable_count_` counts. -/
def candidates (r : ClockReplacer) : Finset Nat :=
  (Finset.range r.frameCount).filter fun f =>
    (r.entries f).present = true ∧ (r.entries f).evictable = true

/-- The representation invariant of the replacer of `n` frames. -/
structure Inv (n : Nat) (r : ClockReplacer) : Prop where
  frameCount_eq : r.frameCount = n
  frameCount_le : n ≤ 2 ^ 32 - 1
  hand_lt : r.clockHand < n
  /-- Entries outside the vector do not exist. -/
  outside : ∀ f, n ≤ f → r.entries f = {}
  /-- An absent entry is not evictable: `Remove` resets the whole entry. -/
  evictable_present : ∀ f, (r.entries f).evictable = true → (r.entries f).present = true
  count_eq : r.evictableCount = r.candidates.card

theorem mem_candidates {r : ClockReplacer} {f : Nat} :
    f ∈ r.candidates ↔ f < r.frameCount ∧ (r.entries f).present = true ∧
      (r.entries f).evictable = true := by
  simp [candidates]

theorem Inv.lt_of_present {n : Nat} {r : ClockReplacer} (hinv : r.Inv n) {f : Nat}
    (h : (r.entries f).present = true) : f < n := by
  by_contra hge
  rw [hinv.outside f (Nat.le_of_not_lt hge)] at h
  cases h

theorem validateFrameId_ok {r : ClockReplacer} {f : Nat} (hf : f < r.frameCount) :
    r.validateFrameId f = .ok () := by
  simp only [validateFrameId, ge_iff_le, Nat.not_le.mpr hf, if_false]

/-- Replacing one entry that exists: what is left to check is the new entry and
the count. -/
theorem Inv.setEntry {n : Nat} {r q : ClockReplacer} (hinv : r.Inv n) {f : Nat}
    {e : ClockEntry} (hf : f < n) (hentries : q.entries = Function.update r.entries f e)
    (hsize : q.frameCount = r.frameCount) (hhand : q.clockHand < n)
    (he : e.evictable = true → e.present = true)
    (hcount : q.evictableCount = q.candidates.card) : q.Inv n := by
  refine ⟨hsize.trans hinv.frameCount_eq, hinv.frameCount_le, hhand, ?_, ?_, hcount⟩
  · intro g hg
    rw [hentries, Function.update_of_ne (by omega)]
    exact hinv.outside g hg
  · intro g hg
    rw [hentries] at hg ⊢
    by_cases hgf : g = f
    · subst hgf
      simpa using he (by simpa using hg)
    · rw [Function.update_of_ne hgf] at hg ⊢
      exact hinv.evictable_present g hg

/-- The candidates after one entry was replaced. -/
theorem candidates_update {r q : ClockReplacer} {f : Nat} {e : ClockEntry}
    (hf : f < r.frameCount) (hentries : q.entries = Function.update r.entries f e)
    (hsize : q.frameCount = r.frameCount) :
    q.candidates = if e.present = true ∧ e.evictable = true then insert f r.candidates
      else r.candidates.erase f := by
  ext g
  rw [mem_candidates, hentries, hsize]
  by_cases hgf : g = f
  · subst hgf
    split <;> simp_all
  · split <;> simp [hgf, mem_candidates]

/-! ## RecordAccess, SetEvictable, Remove -/

theorem recordAccess_spec {n : Nat} {r : ClockReplacer} (hinv : r.Inv n) {f : Nat}
    (hf : f < n) :
    ∃ r', r.recordAccess f = .ok r' ∧ r'.Inv n ∧ r'.present = insert f r.present ∧
      r'.evictable = r.evictable := by
  have hsize := hinv.frameCount_eq
  let r' := r.setEntry f { r.entries f with present := true, referenced := true }
  have hep := hinv.evictable_present f
  have hcand : r'.candidates = r.candidates := by
    ext g
    rw [mem_candidates, mem_candidates]
    by_cases hg : g = f
    · subst hg
      simp only [r', setEntry, Function.update_self]
      constructor
      · rintro ⟨h₁, _, h₃⟩
        exact ⟨h₁, hep h₃, h₃⟩
      · rintro ⟨h₁, _, h₃⟩
        exact ⟨h₁, trivial, h₃⟩
    · simp [r', setEntry, hg]
  refine ⟨r', ?_, ?_, ?_, ?_⟩
  · rw [recordAccess, validateFrameId_ok (by omega)]
    rfl
  · exact hinv.setEntry hf rfl rfl hinv.hand_lt (fun _ => rfl)
      (by rw [hcand]; exact hinv.count_eq)
  · ext g
    by_cases hg : g = f
    · subst hg
      simp [r', setEntry, present]
    · simp [r', setEntry, present, hg]
  · ext g
    by_cases hg : g = f
    · subst hg
      simpa [r', setEntry, evictable] using hep
    · simp [r', setEntry, evictable, hg]

theorem setEvictable_spec {n : Nat} {r : ClockReplacer} (hinv : r.Inv n) {f : Nat} (b : Bool)
    (hf : f ∈ r.present) :
    ∃ r', r.setEvictable f b = .ok r' ∧ r'.Inv n ∧ r'.present = r.present ∧
      r'.evictable = if b then insert f r.evictable else r.evictable \ {f} := by
  have hpres : (r.entries f).present = true := hf
  have hlt := hinv.lt_of_present hpres
  have hsize := hinv.frameCount_eq
  by_cases hsame : (r.entries f).evictable = b
  · refine ⟨r, ?_, hinv, rfl, ?_⟩
    · rw [setEvictable, validateFrameId_ok (by omega)]
      simp only [hpres, hsame]
      rfl
    · cases b with
      | true =>
        rw [if_pos rfl, Set.insert_eq_of_mem]
        exact ⟨hpres, hsame⟩
      | false =>
        rw [if_neg (by decide), Set.sdiff_singleton_eq_self]
        rintro ⟨_, h⟩
        rw [hsame] at h
        cases h
  · let r' : ClockReplacer := { r.setEntry f { r.entries f with evictable := b } with
      evictableCount := if b then r.evictableCount + 1 else r.evictableCount - 1 }
    have hcand := candidates_update (r := r) (q := r') (by omega) rfl rfl
    have hcount : r'.evictableCount = r'.candidates.card := by
      rw [hcand]
      cases b with
      | true =>
        have hnot : f ∉ r.candidates := by
          rw [mem_candidates]
          rintro ⟨_, _, h⟩
          exact hsame h
        rw [if_pos ⟨hpres, rfl⟩, Finset.card_insert_of_notMem hnot, ← hinv.count_eq]
        rfl
      | false =>
        have hev : (r.entries f).evictable = true := by simpa using hsame
        have hmem : f ∈ r.candidates := mem_candidates.mpr ⟨by omega, hpres, hev⟩
        rw [if_neg (by simp), Finset.card_erase_of_mem hmem, ← hinv.count_eq]
        rfl
    refine ⟨r', ?_, ?_, ?_, ?_⟩
    · rw [setEvictable, validateFrameId_ok (by omega)]
      change (if (!(r.entries f).present) = true then _ else
        if (r.entries f).evictable = b then _ else _) = _
      rw [if_neg (by simp [hpres]), if_neg hsame]
      rfl
    · exact hinv.setEntry hlt rfl rfl hinv.hand_lt (fun _ => hpres) hcount
    · ext g
      by_cases hg : g = f
      · subst hg
        simp [r', setEntry, present]
      · simp [r', setEntry, present, hg]
    · ext g
      by_cases hg : g = f
      · subst hg
        cases b <;> simp [r', setEntry, evictable, hpres]
      · cases b <;> simp [r', setEntry, evictable, hg]

theorem setEvictable_absent {n : Nat} {r : ClockReplacer} (hinv : r.Inv n) {f : Nat} (b : Bool)
    (hlt : f < n) (hf : f ∉ r.present) :
    r.setEvictable f b =
      .error ⟨.logicError, "cannot change evictability of an unknown frame"⟩ := by
  have hsize := hinv.frameCount_eq
  have hpres : (r.entries f).present = false := by simpa [present] using hf
  rw [setEvictable, validateFrameId_ok (by omega)]
  simp only [hpres]
  rfl

theorem remove_spec {n : Nat} {r : ClockReplacer} (hinv : r.Inv n) {f : Nat} (hf : f < n) :
    ∃ r', r.remove f = .ok r' ∧ r'.Inv n ∧ r'.present = r.present \ {f} ∧
      r'.evictable = r.evictable \ {f} ∧ r'.frameCount = r.frameCount ∧
      r'.clockHand = r.clockHand := by
  have hsize := hinv.frameCount_eq
  cases hpres : (r.entries f).present with
  | false =>
    refine ⟨r, ?_, hinv, ?_, ?_, rfl, rfl⟩
    · rw [remove, validateFrameId_ok (by omega)]
      simp only [hpres]
      rfl
    · rw [Set.sdiff_singleton_eq_self]
      simp [present, hpres]
    · rw [Set.sdiff_singleton_eq_self]
      simp [evictable, hpres]
  | true =>
    let r' : ClockReplacer := { r.setEntry f {} with
      evictableCount :=
        if (r.entries f).evictable then r.evictableCount - 1 else r.evictableCount }
    have hcand := candidates_update (r := r) (q := r') (by omega) rfl rfl
    have hcount : r'.evictableCount = r'.candidates.card := by
      rw [hcand, if_neg (by simp)]
      cases hev : (r.entries f).evictable with
      | true =>
        have hmem : f ∈ r.candidates := mem_candidates.mpr ⟨by omega, hpres, hev⟩
        rw [Finset.card_erase_of_mem hmem, ← hinv.count_eq]
        simp [r', hev]
      | false =>
        have hnot : f ∉ r.candidates := by
          rw [mem_candidates, hev]
          simp
        rw [Finset.erase_eq_of_notMem hnot, ← hinv.count_eq]
        simp [r', hev]
    refine ⟨r', ?_, ?_, ?_, ?_, rfl, rfl⟩
    · rw [remove, validateFrameId_ok (by omega)]
      simp only [hpres]
      rfl
    · exact hinv.setEntry hf rfl rfl hinv.hand_lt (fun h => by cases h) hcount
    · ext g
      by_cases hg : g = f
      · subst hg
        simp [r', setEntry, present]
      · simp [r', setEntry, present, hg]
    · ext g
      by_cases hg : g = f
      · subst hg
        simp [r', setEntry, evictable]
      · simp [r', setEntry, evictable, hg]

/-! ## Victim -/

/-- The hand after one step. -/
def nextHand (r : ClockReplacer) : Nat :=
  if r.clockHand + 1 = r.frameCount then 0 else r.clockHand + 1

theorem nextHand_eq_mod {n : Nat} {r : ClockReplacer} (hinv : r.Inv n) :
    r.nextHand = (r.clockHand + 1) % n := by
  have hhand := hinv.hand_lt
  unfold nextHand
  rw [hinv.frameCount_eq]
  split
  · rename_i h
    rw [h, Nat.mod_self]
  · rw [Nat.mod_eq_of_lt (by omega)]

theorem nextHand_lt {n : Nat} {r : ClockReplacer} (hinv : r.Inv n) : r.nextHand < n := by
  have hhand := hinv.hand_lt
  rw [nextHand_eq_mod hinv]
  exact Nat.mod_lt _ (by omega)

theorem Inv.advance {n : Nat} {r : ClockReplacer} (hinv : r.Inv n) : r.advanceClockHand.Inv n :=
  ⟨hinv.frameCount_eq, hinv.frameCount_le, nextHand_lt hinv, hinv.outside,
    hinv.evictable_present, hinv.count_eq⟩

/-- The entry under the hand loses its reference bit and the hand moves on: one
scanning step over an evictable, referenced frame. -/
def spare (r : ClockReplacer) : ClockReplacer :=
  (r.setEntry r.clockHand { r.entries r.clockHand with referenced := false }).advanceClockHand

theorem Inv.spare {n : Nat} {r : ClockReplacer} (hinv : r.Inv n) : r.spare.Inv n := by
  have hnext : r.spare.clockHand < n := by
    change r.nextHand < n
    exact nextHand_lt hinv
  refine hinv.setEntry (q := r.spare) hinv.hand_lt rfl rfl hnext (hinv.evictable_present _) ?_
  rw [candidates_update (r := r) (q := r.spare) (hinv.frameCount_eq ▸ hinv.hand_lt) rfl rfl]
  change r.evictableCount = _
  have hsize := hinv.frameCount_eq
  have hhand := hinv.hand_lt
  rw [hinv.count_eq]
  split
  · rename_i h
    rw [Finset.insert_eq_of_mem (mem_candidates.mpr ⟨by omega, h⟩)]
  · rename_i h
    rw [Finset.erase_eq_of_notMem fun hm => h (mem_candidates.mp hm).2]

/-- Only reference bits differ between the two states, and they only fell. -/
structure Spared (r r' : ClockReplacer) : Prop where
  present : ∀ f, (r'.entries f).present = (r.entries f).present
  evictable : ∀ f, (r'.entries f).evictable = (r.entries f).evictable
  referenced : ∀ f, (r'.entries f).referenced = true → (r.entries f).referenced = true

theorem Spared.refl (r : ClockReplacer) : Spared r r :=
  ⟨fun _ => rfl, fun _ => rfl, fun _ h => h⟩

theorem Spared.trans {r₁ r₂ r₃ : ClockReplacer} (h₁ : Spared r₁ r₂) (h₂ : Spared r₂ r₃) :
    Spared r₁ r₃ :=
  ⟨fun f => (h₂.present f).trans (h₁.present f), fun f => (h₂.evictable f).trans (h₁.evictable f),
    fun f h => h₁.referenced f (h₂.referenced f h)⟩

theorem spared_spare (r : ClockReplacer) : Spared r r.spare := by
  refine ⟨?_, ?_, ?_⟩ <;> intro f <;> by_cases h : f = r.clockHand
  all_goals first
    | subst h; simp [spare, setEntry, advanceClockHand]
    | simp [spare, setEntry, advanceClockHand, h]

theorem spared_advance (r : ClockReplacer) : Spared r r.advanceClockHand :=
  ⟨fun _ => rfl, fun _ => rfl, fun _ h => h⟩

theorem Spared.sets {r r' : ClockReplacer} (h : Spared r r') :
    r'.present = r.present ∧ r'.evictable = r.evictable := by
  constructor
  · ext f
    simp [ClockReplacer.present, h.present]
  · ext f
    simp [ClockReplacer.evictable, h.present, h.evictable]

/-- One scanning step that does not choose the entry under the hand. -/
def pass (r : ClockReplacer) : ClockReplacer :=
  if (r.entries r.clockHand).present && (r.entries r.clockHand).evictable then r.spare
  else r.advanceClockHand

/-- The frame under the hand is the one to choose. -/
def choosable (r : ClockReplacer) : Bool :=
  (r.entries r.clockHand).present && (r.entries r.clockHand).evictable &&
    !(r.entries r.clockHand).referenced

theorem Inv.pass {n : Nat} {r : ClockReplacer} (hinv : r.Inv n) : r.pass.Inv n := by
  unfold ClockReplacer.pass
  split
  · exact hinv.spare
  · exact hinv.advance

theorem spared_pass (r : ClockReplacer) : Spared r r.pass := by
  unfold pass
  split
  · exact spared_spare r
  · exact spared_advance r

theorem pass_hand (r : ClockReplacer) : r.pass.clockHand = r.nextHand := by
  unfold pass
  split <;> rfl

/-- A passed entry is left unreferenced if it is evictable. -/
theorem pass_clears (r : ClockReplacer)
    (h : ((r.entries r.clockHand).present && (r.entries r.clockHand).evictable) = true) :
    (r.pass.entries r.clockHand).referenced = false := by
  unfold pass
  rw [if_pos h]
  simp [spare, setEntry, advanceClockHand]

/-- `sweep` as a sequence of passes up to the first choosable entry. -/
theorem sweep_succ (scans : Nat) (r : ClockReplacer) :
    sweep (scans + 1) r =
      if r.choosable then do
        let r' ← r.remove (r.clockHand % 2 ^ 32)
        return (some (r.clockHand % 2 ^ 32), r'.advanceClockHand)
      else sweep scans r.pass := by
  rw [sweep]
  unfold choosable pass spare
  cases hp : (r.entries r.clockHand).present <;> cases he : (r.entries r.clockHand).evictable <;>
    cases hr : (r.entries r.clockHand).referenced <;> simp [hp, he]

/-- What a sweep comes back with. -/
theorem sweep_spec {n : Nat} :
    ∀ (scans : Nat) {r : ClockReplacer}, r.Inv n →
      ∃ choice r', sweep scans r = .ok (choice, r') ∧ r'.Inv n ∧
        match choice with
        | none => Spared r r' ∧ r'.clockHand = (r.clockHand + scans) % n
        | some f => f < n ∧ f ∈ r.evictable ∧ r'.present = r.present \ {f} ∧
            r'.evictable = r.evictable \ {f} := by
  intro scans
  induction scans with
  | zero =>
    intro r hinv
    exact ⟨none, r, rfl, hinv, Spared.refl r, by rw [Nat.add_zero, Nat.mod_eq_of_lt hinv.hand_lt]⟩
  | succ scans ih =>
    intro r hinv
    have hhand := hinv.hand_lt
    have hle := hinv.frameCount_le
    rw [sweep_succ]
    split
    · rename_i hchoose
      have hmod : r.clockHand % 2 ^ 32 = r.clockHand := Nat.mod_eq_of_lt (by omega)
      obtain ⟨r', hremove, hinv', hpres, hev, _, _⟩ := remove_spec hinv hhand
      simp only [choosable, Bool.and_eq_true] at hchoose
      refine ⟨some r.clockHand, r'.advanceClockHand, ?_, hinv'.advance, hhand,
        ⟨hchoose.1.1, hchoose.1.2⟩, hpres, hev⟩
      rw [hmod, hremove]
      rfl
    · obtain ⟨choice, r', hsweep, hinv', hres⟩ := ih hinv.pass
      have hsets := (spared_pass r).sets
      refine ⟨choice, r', hsweep, hinv', ?_⟩
      cases choice with
      | none =>
        refine ⟨(spared_pass r).trans hres.1, ?_⟩
        rw [hres.2, pass_hand, nextHand_eq_mod hinv, Nat.mod_add_mod]
        congr 1
        omega
      | some f => rwa [hsets.1, hsets.2] at hres

/-- A sweep that comes back empty only passed frames that were not evictable or
were referenced. -/
theorem sweep_none_referenced {n : Nat} :
    ∀ (scans : Nat) {r r' : ClockReplacer}, r.Inv n → sweep scans r = .ok (none, r') →
      ∀ k, k < scans → (r.clockHand + k) % n ∈ r.evictable →
        (r.entries ((r.clockHand + k) % n)).referenced = true := by
  intro scans
  induction scans with
  | zero => intro r r' _ _ k hk; omega
  | succ scans ih =>
    intro r r' hinv h k hk hev
    rw [sweep_succ] at h
    split at h
    · obtain ⟨r'', hremove, -⟩ := remove_spec hinv hinv.hand_lt
      have hle := hinv.frameCount_le
      have hhand := hinv.hand_lt
      rw [Nat.mod_eq_of_lt (by omega), hremove] at h
      cases h
    · rename_i hchoose
      cases k with
      | zero =>
        rw [Nat.add_zero, Nat.mod_eq_of_lt hinv.hand_lt] at hev ⊢
        simpa [choosable, hev.1, hev.2] using hchoose
      | succ k =>
        have hidx : (r.pass.clockHand + k) % n = (r.clockHand + (k + 1)) % n := by
          rw [pass_hand, nextHand_eq_mod hinv, Nat.mod_add_mod]
          congr 1
          omega
        have := ih hinv.pass h k (by omega) (by rw [hidx, (spared_pass r).sets.2]; exact hev)
        rw [hidx] at this
        exact (spared_pass r).referenced _ this

/-- A sweep that comes back empty leaves every evictable frame it passed
unreferenced. -/
theorem sweep_none_clears {n : Nat} :
    ∀ (scans : Nat) {r r' : ClockReplacer}, r.Inv n → sweep scans r = .ok (none, r') →
      ∀ k, k < scans → (r.clockHand + k) % n ∈ r.evictable →
        (r'.entries ((r.clockHand + k) % n)).referenced = false := by
  intro scans
  induction scans with
  | zero => intro r r' _ _ k hk; omega
  | succ scans ih =>
    intro r r' hinv h k hk hev
    rw [sweep_succ] at h
    split at h
    · obtain ⟨r'', hremove, -⟩ := remove_spec hinv hinv.hand_lt
      have hle := hinv.frameCount_le
      have hhand := hinv.hand_lt
      rw [Nat.mod_eq_of_lt (by omega), hremove] at h
      cases h
    · cases k with
      | zero =>
        rw [Nat.add_zero, Nat.mod_eq_of_lt hinv.hand_lt] at hev ⊢
        obtain ⟨choice, r'', hsweep, -, hres⟩ := sweep_spec scans hinv.pass
        rw [h] at hsweep
        cases hsweep
        -- later passes only clear bits, so the bit cleared first stays clear
        by_contra hset
        have := hres.1.referenced _ (by simpa using hset)
        rw [pass_clears r (by simp [hev.1, hev.2])] at this
        cases this
      | succ k =>
        have hidx : (r.pass.clockHand + k) % n = (r.clockHand + (k + 1)) % n := by
          rw [pass_hand, nextHand_eq_mod hinv, Nat.mod_add_mod]
          congr 1
          omega
        have := ih hinv.pass h k (by omega) (by rw [hidx, (spared_pass r).sets.2]; exact hev)
        rwa [hidx] at this

/-- Every frame is under the hand within one turn. -/
theorem exists_scan {n : Nat} {r : ClockReplacer} (hinv : r.Inv n) {f : Nat} (hf : f < n) :
    ∃ k, k < n ∧ (r.clockHand + k) % n = f := by
  have hhand := hinv.hand_lt
  refine ⟨(f + n - r.clockHand) % n, Nat.mod_lt _ (by omega), ?_⟩
  rw [Nat.add_mod_mod, show r.clockHand + (f + n - r.clockHand) = f + n by omega,
    Nat.add_mod_right, Nat.mod_eq_of_lt hf]

/-- Two sweeps never both come back empty while a frame is evictable. -/
theorem two_sweeps {n : Nat} {r r₁ r₂ : ClockReplacer} (hinv : r.Inv n)
    (h₁ : sweep r.frameCount r = .ok (none, r₁))
    (h₂ : sweep r₁.frameCount r₁ = .ok (none, r₂)) : r.evictable = ∅ := by
  rw [hinv.frameCount_eq] at h₁
  obtain ⟨choice, r', hsweep, hinv₁, hres⟩ := sweep_spec n hinv
  rw [h₁] at hsweep
  cases hsweep
  rw [hinv₁.frameCount_eq] at h₂
  rw [Set.eq_empty_iff_forall_notMem]
  intro f hf
  have hlt := hinv.lt_of_present hf.1
  obtain ⟨k, hk, hkf⟩ := exists_scan hinv hlt
  have hclear := sweep_none_clears n hinv h₁ k hk (hkf ▸ hf)
  obtain ⟨k', hk', hkf'⟩ := exists_scan hinv₁ hlt
  have hset := sweep_none_referenced n hinv₁ h₂ k' hk' (by
    rw [hkf', hres.1.sets.2]
    exact hf)
  rw [hkf] at hclear
  rw [hkf', hclear] at hset
  cases hset

theorem evictable_eq_empty_of_count {n : Nat} {r : ClockReplacer} (hinv : r.Inv n)
    (h : r.evictableCount = 0) : r.evictable = ∅ := by
  rw [Set.eq_empty_iff_forall_notMem]
  intro f hf
  have hmem : f ∈ r.candidates :=
    mem_candidates.mpr ⟨hinv.frameCount_eq ▸ hinv.lt_of_present hf.1, hf.1, hf.2⟩
  rw [hinv.count_eq, Finset.card_eq_zero] at h
  rw [h] at hmem
  cases hmem

theorem victim_spec {n : Nat} {r : ClockReplacer} (hinv : r.Inv n) :
    ∃ choice r', r.victim = .ok (choice, r') ∧ r'.Inv n ∧
      match choice with
      | none => r'.present = r.present ∧ r'.evictable = r.evictable
      | some f => f < n ∧ f ∈ r.evictable ∧ r'.present = r.present \ {f} ∧
          r'.evictable = r.evictable \ {f} := by
  unfold victim
  split
  · exact ⟨none, r, rfl, hinv, rfl, rfl⟩
  · obtain ⟨choice, r₁, h₁, hinv₁, hres₁⟩ := sweep_spec r.frameCount hinv
    rw [h₁]
    cases choice with
    | some f => exact ⟨some f, r₁, rfl, hinv₁, hres₁⟩
    | none =>
      obtain ⟨choice, r₂, h₂, hinv₂, hres₂⟩ := sweep_spec r₁.frameCount hinv₁
      have hsets := hres₁.1.sets
      refine ⟨choice, r₂, h₂, hinv₂, ?_⟩
      cases choice with
      | none =>
        have hsets₂ := hres₂.1.sets
        exact ⟨hsets₂.1.trans hsets.1, hsets₂.2.trans hsets.2⟩
      | some f => rwa [hsets.1, hsets.2] at hres₂

/-- `Victim` returns nothing only when nothing is evictable. -/
theorem victim_none {n : Nat} {r r' : ClockReplacer} (hinv : r.Inv n)
    (h : r.victim = .ok (none, r')) : r.evictable = ∅ := by
  unfold victim at h
  split at h
  · exact evictable_eq_empty_of_count hinv ‹_›
  · obtain ⟨choice, r₁, h₁, hinv₁, hres₁⟩ := sweep_spec r.frameCount hinv
    rw [h₁] at h
    cases choice with
    | some f => cases h
    | none => exact two_sweeps hinv h₁ h

instance : LawfulReplacer ClockReplacer where
  Inv n r := r.Inv n
  present := present
  evictable := evictable
  evictable_subset _ _ hf := hf.1
  recordAccess_spec hinv hf := recordAccess_spec hinv hf
  setEvictable_spec b hinv hf := setEvictable_spec hinv b hf
  setEvictable_absent b hinv hlt hf := ⟨_, setEvictable_absent hinv b hlt hf⟩
  victim_spec hinv := victim_spec hinv
  remove_spec hinv hf := by
    obtain ⟨r', h, hinv', hp, he, -⟩ := remove_spec hinv hf
    exact ⟨r', h, hinv', hp, he⟩

instance : CompleteReplacer ClockReplacer where
  victim_none hinv h := victim_none hinv h

/-- The replacer as built knows no frame. -/
theorem make_ok {n : Nat} (hpos : 0 < n) (hle : n ≤ 2 ^ 32 - 1) :
    ∃ r, make n = .ok r ∧ r.Inv n ∧ r.present = ∅ := by
  refine ⟨⟨n, fun _ => {}, 0, 0⟩, ?_, ⟨rfl, hle, hpos, fun _ _ => rfl, fun _ h => h, ?_⟩, ?_⟩
  · simp only [make, Nat.ne_of_gt hpos, if_false, gt_iff_lt, Nat.not_lt.mpr hle]
  · simp [candidates]
  · simp [present]

/-- What the constructor returns, when it returns. -/
theorem make_spec {n : Nat} {r : ClockReplacer} (h : make n = .ok r) :
    r.Inv n ∧ r.present = ∅ := by
  have hbounds : 0 < n ∧ n ≤ 2 ^ 32 - 1 := by
    unfold make at h
    split at h
    · cases h
    · split at h
      · cases h
      · omega
  obtain ⟨r', hr', hspec⟩ := make_ok hbounds.1 hbounds.2
  obtain rfl := Except.ok.inj (hr'.symm.trans h)
  exact hspec

end ClockReplacer

end BufferManager
