/-
  Protocol/Progress.lean --- what the threads have still to do.

  Whatever the interleaving, a step of a call uses something up: the call enters a later
  stage, a page leaves memory, a guard is dropped, or the thread takes a turn of the stage
  it is in.  `Cfg.labour` weighs the four; waiting and being woken leave it alone.  A call
  can go back to an earlier turn only where a page has left memory, and a page comes into
  memory only where a call enters a later stage.
-/
import BufferManager.Protocol.Completion
import BufferManager.Refinement.Sections

set_option autoImplicit false

namespace BufferManager

/-! ## Stages and turns -/

/-- The stages of a call in its loop over `State(page_id)`. -/
def Visit.stages : Visit → Nat
  | .fetchPage _ => 2
  | .flushPage _ caller => 4 + 5 * caller.left
  | .deletePage _ => 1

/-- The stages a suspended call has still before it, at most. -/
def Pc.stages : Pc → Nat
  | .idle => 0
  | .waitPage v => v.stages
  | .waitFrame _ | .evicting _ _ _ => 2
  | .reading _ _ _ => 1
  | .writing _ _ _ caller _ => 3 + 5 * caller.left
  | .nextFlush _ rest => 5 + 5 * rest.length

/-- The turns in the loop over `State(page_id)`; `out` says which pages are out of
memory. -/
def Visit.turns (out : Nat → Bool) : Visit → Nat
  | .fetchPage p => if out p = true then 6 else 0
  | .flushPage _ _ | .deletePage _ => 0

/-- The turns a suspended call has still to take in its stage, at most, unless a page
leaves memory. -/
def Pc.turns (out : Nat → Bool) : Pc → Nat
  | .idle | .nextFlush _ _ => 0
  | .waitPage v => v.turns out
  | .waitFrame _ => 5
  | .evicting _ _ io => 3 + io.work
  | .reading _ _ io | .writing _ _ _ _ io => io.work

/-- The note is of a step of thread `t`, and of no guard. -/
def Note.By {τ : Type} (t : τ) : Note τ → Prop
  | .called u _ | .created u _ | .deleted u _ | .returned u | .failed u | .flushAll u
  | .copied u _ | .wrote u _ => u = t
  | .changed _ _ _ | .marked _ _ | .dropped _ | .moved _ _ => False

namespace Protocol

open BufferManager.Lib BufferManager.Refinement

/-- The stages a call has still before it, at most. -/
def Phase.stages : Phase → Nat
  | .suspended pc => pc.stages
  | .visiting v => v.stages
  | .acquiring _ | .holding _ _ => 2
  | .unpinning _ _ caller _ => 2 + 5 * caller.left
  | .flushed caller => 1 + 5 * caller.left
  | .unwinding _ _ => 1

/-- The turns a call has still to take in its stage. -/
def Phase.turns (out : Nat → Bool) : Phase → Nat
  | .suspended pc => pc.turns out
  | .visiting v => v.turns out
  | .acquiring _ => 5
  | .holding _ _ => 4
  | .unpinning _ _ _ _ | .flushed _ | .unwinding _ _ => 0

theorem Phase.turns_le (out : Nat → Bool) (ph : Phase) : ph.turns out ≤ 6 := by
  have hvisit : ∀ v : Visit, v.turns out ≤ 6 := by
    intro v
    cases v with
    | fetchPage p =>
      rw [Visit.turns]
      split <;> omega
    | flushPage | deletePage => exact Nat.zero_le 6
  have hio : ∀ io : Io, io.work ≤ 1 := fun io => by cases io <;> simp [Io.work]
  cases ph with
  | suspended pc =>
    cases pc with
    | waitPage v => exact hvisit v
    | evicting a ev io | reading p f io | writing p f epoch caller io =>
      have := hio io
      simp only [Phase.turns, Pc.turns]
      omega
    | idle | waitFrame a | nextFlush p rest => simp [Phase.turns, Pc.turns]
  | visiting v => exact hvisit v
  | acquiring | holding | unpinning | flushed | unwinding => simp [Phase.turns]

/-- The frame holds a page, or is being rid of one. -/
def Use.occupied : Use → Bool
  | .resident _ | .evicting _ _ _ => true
  | .free | .loading _ => false

namespace Cfg

variable {τ : Type} [Fintype τ]

/-- The pages that are out of memory. -/
def out (c : Cfg τ) (p : Nat) : Bool := decide (c.place p = .nonResident)

/-- The stages that all calls have still before them. -/
def stages (c : Cfg τ) : Nat := ∑ t, (c.phase t).stages

/-- The turns that all calls have still to take. -/
def turns (c : Cfg τ) : Nat := ∑ t, (c.phase t).turns c.out

omit [Fintype τ] in
/-- The live guards and the frames with pages. -/
def occupied (n : Nat) (c : Cfg τ) : Nat :=
  c.guards.countP (·.valid) + (List.range n).countP fun f => (c.frame f).occupied

/-- What is to be done, in units that exceed the number of threads. -/
def labour (n : Nat) (c : Cfg τ) : Nat :=
  (Fintype.card τ + 1) *
    ((6 * Fintype.card τ + 1) * (3 * c.stages + c.occupied n) + c.turns)

theorem turns_le (c : Cfg τ) : c.turns ≤ 6 * Fintype.card τ := by
  refine (Finset.sum_le_card_nsmul _ _ 6 fun t _ => (c.phase t).turns_le c.out).trans ?_
  rw [Finset.card_univ, smul_eq_mul, Nat.mul_comm]

end Cfg

/-! ## What lowers the labour -/

variable {τ : Type} [Fintype τ] {n N : Nat} {complete : Prop} {c c' c'' : Cfg τ} {e : Event τ}
  {t : τ}

/-- Something is used up, by more than all threads waiting can make up for. -/
def Eases (n : Nat) (c c' : Cfg τ) : Prop :=
  c'.labour n + (Fintype.card τ + 1) ≤ c.labour n

/-- Where a call enters a later stage, a frame and a guard may come with it. -/
theorem Eases.of_stages (hstages : c'.stages < c.stages)
    (hoccupied : c'.occupied n ≤ c.occupied n + 2) : Eases n c c' := by
  have hturns := c'.turns_le
  unfold Eases Cfg.labour
  set T := Fintype.card τ
  have hstep : (6 * T + 1) * (3 * c'.stages + c'.occupied n) + (6 * T + 1) ≤
      (6 * T + 1) * (3 * c.stages + c.occupied n) := by
    rw [← Nat.mul_succ]
    exact Nat.mul_le_mul_left _ (by omega)
  rw [← Nat.mul_succ]
  exact Nat.mul_le_mul_left _ (by omega)

/-- Where a page leaves memory or a guard is dropped, every call may begin its stage
anew. -/
theorem Eases.of_occupied (hstages : c'.stages ≤ c.stages)
    (hoccupied : c'.occupied n < c.occupied n) :
    Eases n c c' := by
  have hturns := c'.turns_le
  unfold Eases Cfg.labour
  set T := Fintype.card τ
  have hstep : (6 * T + 1) * (3 * c'.stages + c'.occupied n) + (6 * T + 1) ≤
      (6 * T + 1) * (3 * c.stages + c.occupied n) := by
    rw [← Nat.mul_succ]
    exact Nat.mul_le_mul_left _ (by omega)
  rw [← Nat.mul_succ]
  exact Nat.mul_le_mul_left _ (by omega)

theorem Eases.of_turns (hstages : c'.stages ≤ c.stages) (hoccupied : c'.occupied n ≤ c.occupied n)
    (hturns : c'.turns < c.turns) : Eases n c c' := by
  unfold Eases Cfg.labour
  set T := Fintype.card τ
  have hstep : (6 * T + 1) * (3 * c'.stages + c'.occupied n) ≤
      (6 * T + 1) * (3 * c.stages + c.occupied n) :=
    Nat.mul_le_mul_left _ (by omega)
  rw [← Nat.mul_succ]
  exact Nat.mul_le_mul_left _ (by omega)

/-! ## Sums over the threads and the frames -/

variable [DecidableEq τ]

/-- Only one thread counts differently. -/
theorem sum_add_of_ne {f g : τ → Nat} {t : τ} (h : ∀ u, u ≠ t → f u = g u) :
    ∑ u, f u + g t = ∑ u, g u + f t := by
  have hrest : ∑ u ∈ Finset.univ.erase t, f u = ∑ u ∈ Finset.univ.erase t, g u :=
    Finset.sum_congr rfl fun u hu => h u (Finset.ne_of_mem_erase hu)
  rw [← Finset.add_sum_erase _ (fun u => f u) (Finset.mem_univ t),
    ← Finset.add_sum_erase _ (fun u => g u) (Finset.mem_univ t), hrest]
  omega

/-- Only the thread that moves counts differently. -/
theorem sum_update_add (F : Phase → Nat) (phase : τ → Phase) (t : τ) (ph : Phase) :
    ∑ u, F (Function.update phase t ph u) + F (phase t) = ∑ u, F (phase u) + F ph := by
  have hsum := sum_add_of_ne (f := fun u => F (Function.update phase t ph u))
    (g := fun u => F (phase u)) (t := t) fun u hu => by rw [Function.update_of_ne hu]
  rwa [Function.update_self] at hsum

omit [Fintype τ] [DecidableEq τ] in
/-- Only the frame that is put to another use counts differently. -/
theorem countP_update_add (frame : Nat → Use) (f : Nat) (u : Use) (n : Nat) :
    ((List.range n).countP fun g => (Function.update frame f u g).occupied) +
        (if f < n ∧ (frame f).occupied = true then 1 else 0) =
      ((List.range n).countP fun g => (frame g).occupied) +
        (if f < n ∧ u.occupied = true then 1 else 0) := by
  induction n with
  | zero => simp
  | succ n ih =>
    rw [List.range_succ, List.countP_append, List.countP_append, List.countP_singleton,
      List.countP_singleton]
    by_cases hfn : f = n
    · subst hfn
      rw [Function.update_self]
      simp only [lt_irrefl, false_and, if_false, Nat.add_zero, Nat.lt_succ_self, true_and] at ih ⊢
      omega
    · rw [Function.update_of_ne (Ne.symm hfn)]
      have hlt : f < n + 1 ↔ f < n := by omega
      simp only [hlt]
      omega

theorem stages_lt {ph : Phase} (hphase : c'.phase = Function.update c.phase t ph)
    (h : ph.stages < (c.phase t).stages) : c'.stages < c.stages := by
  have hsum := sum_update_add Phase.stages c.phase t ph
  unfold Cfg.stages
  rw [hphase]
  omega

theorem stages_eq {ph : Phase} (hphase : c'.phase = Function.update c.phase t ph)
    (h : ph.stages = (c.phase t).stages) : c'.stages = c.stages := by
  have hsum := sum_update_add Phase.stages c.phase t ph
  unfold Cfg.stages
  rw [hphase]
  omega

theorem turns_add {ph : Phase} (hphase : c'.phase = Function.update c.phase t ph)
    (hout : c'.out = c.out) :
    c'.turns + (c.phase t).turns c.out = c.turns + ph.turns c.out := by
  unfold Cfg.turns
  rw [hphase, hout]
  exact sum_update_add (Phase.turns c.out) c.phase t ph

omit [Fintype τ] [DecidableEq τ] in
theorem occupied_le {f : Nat} {u : Use} (hframe : c'.frame = Function.update c.frame f u)
    (hguards : c'.guards.countP (·.valid) ≤ c.guards.countP (·.valid) + 1) :
    c'.occupied n ≤ c.occupied n + 2 := by
  have hcount := countP_update_add c.frame f u n
  unfold Cfg.occupied
  rw [hframe]
  split at hcount <;> split at hcount <;> omega

/-- A call that enters a later stage, with one frame put to another use. -/
theorem Eases.enter {ph : Phase} {f : Nat} {u : Use}
    (hphase : c'.phase = Function.update c.phase t ph) (h : ph.stages < (c.phase t).stages)
    (hframe : c'.frame = Function.update c.frame f u)
    (hguards : c'.guards.countP (·.valid) ≤ c.guards.countP (·.valid) + 1) : Eases n c c' :=
  .of_stages (stages_lt hphase h) (occupied_le hframe hguards)

/-- The same without a change of the frames and the guards. -/
theorem Eases.leave {ph : Phase} (hphase : c'.phase = Function.update c.phase t ph)
    (h : ph.stages < (c.phase t).stages) (hframe : c'.frame = c.frame)
    (hguards : c'.guards = c.guards) : Eases n c c' :=
  .of_stages (stages_lt hphase h) (by unfold Cfg.occupied; rw [hframe, hguards]; omega)

/-- A call that takes a turn of its stage. -/
theorem Eases.turn {ph : Phase} (hphase : c'.phase = Function.update c.phase t ph)
    (hstages : ph.stages = (c.phase t).stages) (hout : c'.out = c.out)
    (h : ph.turns c.out < (c.phase t).turns c.out) (hoccupied : c'.occupied n ≤ c.occupied n) :
    Eases n c c' := by
  have hturns := turns_add hphase hout
  exact .of_turns (stages_eq hphase hstages).le hoccupied (by omega)

/-! ## The steps of a call -/

attribute [local simp] Phase.stages Pc.stages Visit.stages Phase.turns Pc.turns Visit.turns
  FlushCaller.left Io.work

/-- The thread waits on `state_changed_`, or looks whether it has to. -/
def Phase.Waits : Phase → Prop
  | .suspended (.waitPage _) | .suspended (.waitFrame _) | .visiting _ | .acquiring _ => True
  | _ => False

/-- Thread `t` falls asleep or wakes up, and nothing else happens. -/
structure Dozes (n : Nat) (t : τ) (c c' : Cfg τ) : Prop where
  labour : c'.labour n = c.labour n
  others : ∀ u, u ≠ t → (u ∈ c'.asleep ↔ u ∈ c.asleep)
  before : (c.phase t).Waits
  after : (c'.phase t).Waits
  asleep : ∀ pc, c'.phase t = .suspended pc → t ∈ c'.asleep

theorem labour_goto {ph : Phase} (hphase : c'.phase = Function.update c.phase t ph)
    (hstages : ph.stages = (c.phase t).stages)
    (hturns : ph.turns c.out = (c.phase t).turns c.out) (hplace : c'.place = c.place)
    (hframe : c'.frame = c.frame) (hguards : c'.guards = c.guards) :
    c'.labour n = c.labour n := by
  have hout : c'.out = c.out := by
    unfold Cfg.out
    rw [hplace]
  have hsum := turns_add hphase hout
  unfold Cfg.labour Cfg.occupied
  rw [stages_eq hphase hstages, hframe, hguards, show c'.turns = c.turns by omega]

theorem Dozes.of_goto {ph : Phase} (hphase : c'.phase = Function.update c.phase t ph)
    (hstages : ph.stages = (c.phase t).stages)
    (hturns : ph.turns c.out = (c.phase t).turns c.out) (hplace : c'.place = c.place)
    (hframe : c'.frame = c.frame) (hguards : c'.guards = c.guards) (hbefore : (c.phase t).Waits)
    (hafter : ph.Waits) (hothers : ∀ u, u ≠ t → (u ∈ c'.asleep ↔ u ∈ c.asleep))
    (hasleep : ∀ pc, ph = .suspended pc → t ∈ c'.asleep) : Dozes n t c c' := by
  have hself : c'.phase t = ph := by rw [hphase, Function.update_self]
  exact ⟨labour_goto hphase hstages hturns hplace hframe hguards, hothers, hbefore, hself ▸ hafter,
    hself ▸ hasleep⟩

omit [Fintype τ] [DecidableEq τ] in
theorem out_eq {p : Nat} {x : Place} (hplace : c'.place = Function.update c.place p x)
    (hx : x ≠ .nonResident) (hp : c.place p ≠ .nonResident) : c'.out = c.out := by
  funext q
  unfold Cfg.out
  rw [hplace]
  by_cases hq : q = p
  · subst hq
    simp [hx, hp]
  · rw [Function.update_of_ne hq]

omit [Fintype τ] in
/-- An unpin leaves its frame occupied as it was. -/
theorem Unpin.frame_update {f : Nat} {failure : Option Error} (h : Unpin c f c' failure) :
    ∃ u, c'.frame = Function.update c.frame f u ∧ u.occupied = (c.frame f).occupied := by
  cases h with
  | kept r k hr | last r hr | unknown r err hr => exact ⟨_, rfl, by rw [hr]; rfl⟩
  | refused => exact ⟨_, (Function.update_eq_self f _).symm, rfl⟩

omit [Fintype τ] [DecidableEq τ] in
theorem occupied_add {f : Nat} {u : Use} (hframe : c'.frame = Function.update c.frame f u)
    (hguards : c'.guards = c.guards) :
    c'.occupied n + (if f < n ∧ (c.frame f).occupied = true then 1 else 0) =
      c.occupied n + (if f < n ∧ u.occupied = true then 1 else 0) := by
  have hcount := countP_update_add c.frame f u n
  unfold Cfg.occupied
  rw [hframe, hguards]
  omega

/-- A step of a thread that is in a call uses something up, or lets the thread wait. -/
theorem Step.eases (h : Step n N complete c e c') (hI : Owned n c)
    (hnote : ∀ y, e.note = some y → y.By t) (hbusy : c.phase t ≠ .suspended .idle)
    (hothers : ∀ u, u ≠ t → c'.phase u = c.phase u) : Eases n c c' ∨ Dozes n t c c' := by
  have hmine : ∀ {u : τ} {ph : Phase}, c'.phase u = ph → c.phase u ≠ ph → u = t := by
    intro u ph hu hne
    by_contra hut
    exact hne ((hothers u hut).symm.trans hu)
  cases h with
  | change | mark | drop | dropStale | move | assign => exact (hnote _ rfl).elim
  | noIds u hph =>
    obtain rfl : u = t := hnote _ rfl
    exact absurd hph hbusy
  | visit u v hph | snapshot u hph | reserve u p rest hph =>
    obtain rfl : u = t := hmine (Function.update_self _ _ _) (by rw [hph]; simp)
    exact absurd hph hbusy
  | wakePage u v hph =>
    obtain rfl : u = t := hmine (Function.update_self _ _ _) (by rw [hph]; simp)
    refine Or.inr (.of_goto rfl (by simp [hph]) (by simp [hph]) rfl rfl rfl (by rw [hph]; trivial)
      trivial (fun w hw => by simp [hw]) (by simp))
  | wakeFrame u a hph =>
    obtain rfl : u = t := hmine (Function.update_self _ _ _) (by rw [hph]; simp)
    refine Or.inr (.of_goto rfl (by simp [hph]) (by simp [hph]) rfl rfl rfl (by rw [hph]; trivial)
      trivial (fun w hw => by simp [hw]) (by simp))
  | sleepPage u v hph htransient =>
    obtain rfl : u = t := hmine (Function.update_self _ _ _) (by rw [hph]; simp)
    refine Or.inr (.of_goto rfl (by simp [hph]) (by simp [hph]) rfl rfl rfl (by rw [hph]; trivial)
      trivial (fun w hw => by simp [hw]) (by simp))
  | sleepFrame u a hph htransient =>
    obtain rfl : u = t := hmine (Function.update_self _ _ _) (by rw [hph]; simp)
    refine Or.inr (.of_goto rfl (by simp [hph]) (by simp [hph]) rfl rfl rfl (by rw [hph]; trivial)
      trivial (fun w hw => by simp [hw]) (by simp))
  | nextFlush u p rest hph | skipFlush u p caller hph | deleteUnused u p hph
  | deleteNonResident u p hph | abandon u p err hph | rollback u p err hph
  | writeFailed u p f epoch caller err hph =>
    exact Or.inl (.leave (t := u) rfl (by simp [hph]) rfl rfl)
  | leave u v err hph =>
    exact Or.inl (.leave (t := u) rfl (by rw [hph]; cases v <;> simp) rfl rfl)
  | flushReturn u caller hph =>
    refine Or.inl (.leave (t := u) rfl ?_ rfl rfl)
    rw [hph]
    rcases phaseOf_flushReturn caller with hidle | ⟨p, rest, rfl, hnext⟩
    · simp [hidle]
    · simp [hnext]
      omega
  | noFrame u a hph =>
    refine Or.inl (.leave (t := u) rfl ?_ rfl rfl)
    rw [hph]
    cases a <;> simp [failPhase]
  | evictFail u a ev err hph =>
    refine Or.inl (.enter (t := u) rfl ?_ rfl (by simp))
    rw [hph]
    cases a <;> simp [failPhase]
  | pin u p f r hph | deleteResident u p f r hph | create u p f hph
  | block u p f err hph | loadBegin u p f hph | loaded u p f hph | loadFailed u p f err hph
  | written u p f epoch caller hph | capture u p f r caller hph =>
    exact Or.inl (.enter (t := u) rfl (by simp [hph]) rfl (by simp))
  | @unpinned c₁ u p f caller failure hph hunpin =>
    obtain ⟨hphase, -, -, -, -, -, -, -, hguards⟩ := hunpin.frame_only
    obtain ⟨w, hframe, -⟩ := hunpin.frame_update
    have hmoved : (c₁.notify.goto u (unpinPhase caller failure)).phase =
        Function.update c.phase u (unpinPhase caller failure) := by simp [hphase]
    refine Or.inl (.enter hmoved ?_ hframe (by simp [hguards]))
    rw [hph]
    cases failure <;> simp [unpinPhase]
  | @unpinThrew c₁ u p f caller failure err hph hunpin =>
    obtain ⟨hphase, -, -, -, -, -, -, -, hguards⟩ := hunpin.frame_only
    obtain ⟨w, hframe, -⟩ := hunpin.frame_update
    have hmoved : (c₁.goto u (.suspended .idle)).phase =
        Function.update c.phase u (.suspended .idle) := by simp [hphase]
    exact Or.inl (.enter hmoved (by simp [hph]) hframe (by simp [hguards]))
  | seek u p hph hplace =>
    refine Or.inl (.turn (t := u) rfl (by simp [hph]) rfl ?_ le_rfl)
    simp [hph, Cfg.out, hplace]
  | recheck u p hph hplace =>
    refine Or.inl (.turn (t := u) rfl (by simp [hph]) rfl ?_ le_rfl)
    simp [hph, Cfg.out, hplace]
  | tookFrame u a f hph =>
    exact Or.inl (.turn (t := u) rfl (by simp [hph]) rfl (by simp [hph]) le_rfl)
  | surplus u p f hph hplace =>
    refine Or.inl (.turn (t := u) rfl (by simp [hph]) rfl ?_ ?_)
    · simp [hph, Cfg.out, hplace]
    · have hadd : (((c.release f).notify).goto u (.visiting (.fetchPage p))).occupied n + _ =
          _ + (if f < n ∧ Use.free.occupied = true then 1 else 0) := occupied_add rfl rfl
      simp only [Use.occupied, Bool.false_eq_true, and_false, if_false] at hadd
      omega
  | evictBegin u a f r hph hev hplace hr hpins =>
    refine Or.inl (.turn (t := u) rfl (by simp [hph]) ?_ ?_ ?_)
    · exact out_eq rfl (by simp) (by simp [hplace])
    · simp [hph]
      split <;> omega
    · have hadd : (c.setUse f (.evicting r.page r.dirty r.epoch)).occupied n +
          (if f < n ∧ (c.frame f).occupied = true then 1 else 0) = _ := occupied_add rfl rfl
      rw [hr] at hadd
      exact Nat.le_of_add_le_add_right hadd.le
  | evictDone u a ev hph =>
    have hC := hI.claimed (t := u) (f := ev.frameId) (by rw [hph]; rfl)
    have hadd : (c.setUse ev.frameId .free).occupied n +
        (if ev.frameId < n ∧ (c.frame ev.frameId).occupied = true then 1 else 0) = _ :=
      occupied_add rfl rfl
    rw [hC.use] at hadd
    simp only [hC.lt, Use.occupied, and_self, if_true, Bool.false_eq_true, and_false,
      if_false] at hadd
    exact Or.inl (.of_occupied (stages_eq (t := u) rfl (by simp [hph])).le
      (Nat.lt_of_succ_le hadd.le))
  | evictCopy u a ev hph | evictCopyFailed u a ev k err hph
  | writeCopy u p f epoch caller hph | writeCopyFailed u p f epoch caller k err hph
  | readCopy u p f hph | readCopyFailed u p f left err hph =>
    exact Or.inl (.turn (t := u) rfl (by simp [hph]) rfl (by simp [hph]) le_rfl)

/-! ## Locked pieces -/

omit [DecidableEq τ] in
theorem Eases.le (h : Eases n c c') : c'.labour n ≤ c.labour n := (Nat.le_add_right _ _).trans h

omit [DecidableEq τ] in
theorem Eases.trans_le (h : Eases n c c') (h' : c''.labour n ≤ c'.labour n) : Eases n c c'' :=
  (Nat.add_le_add_right h' _).trans h

omit [DecidableEq τ] in
theorem Eases.of_le (h : c'.labour n ≤ c.labour n) (h' : Eases n c' c'') : Eases n c c'' :=
  Nat.le_trans h' h

omit [DecidableEq τ] in
theorem Dozes.trans (h : Dozes n t c c') (h' : Dozes n t c' c'') : Dozes n t c c'' :=
  ⟨h'.labour.trans h.labour, fun u hu => (h'.others u hu).trans (h.others u hu), h.before, h'.after,
    h'.asleep⟩

omit [DecidableEq τ] in
theorem labour_le (h : Eases n c c' ∨ Dozes n t c c') : c'.labour n ≤ c.labour n :=
  h.elim Eases.le fun hdozes => hdozes.labour.le

omit [DecidableEq τ] in
/-- One step after another. -/
theorem eases_or_dozes_trans (h : Eases n c c' ∨ Dozes n t c c')
    (h' : Eases n c' c'' ∨ Dozes n t c' c'') : Eases n c c'' ∨ Dozes n t c c'' := by
  rcases h with heases | hdozes
  · exact Or.inl (heases.trans_le (labour_le h'))
  · exact h'.imp (Eases.of_le hdozes.labour.le) hdozes.trans

omit [Fintype τ] in
/-- A step of thread `t` that does not end a call leaves it in one. -/
theorem busy_of_stepBy (h : StepBy n N complete t c e c')
    (hnote : ∀ y, e.note = some y → y.By t ∧ ¬ y.Ends) : c'.phase t ≠ .suspended .idle := by
  have hset : ∀ {u : τ} {ph : Phase}, c'.phase u = ph → c.phase u ≠ ph → ph ≠ .suspended .idle →
      c'.phase t ≠ .suspended .idle := by
    intro u ph hu hne hph
    obtain rfl : u = t := by
      by_contra hut
      exact hne ((h.others u hut).symm.trans hu)
    rwa [hu]
  cases h.step with
  | change | mark | drop | dropStale | move | assign => exact (hnote _ rfl).1.elim
  | noIds | leave | pin | deleteUnused | deleteResident | deleteNonResident | create | rollback
  | abandon | loaded | loadFailed | unpinThrew => exact absurd trivial (hnote _ rfl).2
  | visit u v hph | snapshot u hph | reserve u p rest hph | wakePage u v hph | wakeFrame u a hph
  | nextFlush u p rest hph | sleepPage u v hph | seek u p hph | skipFlush u p caller hph
  | capture u p f r caller hph
  | recheck u p hph | tookFrame u a f hph | evictBegin u a f r hph | sleepFrame u a hph
  | evictDone u a ev hph | block u p f err hph | loadBegin u p f hph | surplus u p f hph
  | written u p f epoch caller hph | writeFailed u p f epoch caller err hph
  | evictCopy u a ev hph | evictCopyFailed u a ev k err hph | writeCopy u p f epoch caller hph
  | writeCopyFailed u p f epoch caller k err hph | readCopy u p f hph
  | readCopyFailed u p f left err hph =>
    exact hset (u := u) (Function.update_self _ _ _) (by simp [hph]) (by simp)
  | flushReturn u caller hph =>
    rcases caller with - | rest
    · exact absurd trivial (hnote _ rfl).2
    · cases rest with
      | nil => exact absurd trivial (hnote _ rfl).2
      | cons p rest =>
        refine hset (u := u) (Function.update_self _ _ _) ?_ ?_
        · simp [hph, Manager.flushReturn, phaseOf]
        · simp [Manager.flushReturn, phaseOf]
  | noFrame u a hph | evictFail u a ev err hph =>
    cases a with
    | newPage p =>
      exact hset (u := u) (Function.update_self _ _ _) (by simp [hph, failPhase])
        (by simp [failPhase])
    | fetchPage p => exact absurd trivial (hnote _ rfl).2
  | @unpinned c₁ u p f caller failure hph hunpin =>
    cases failure with
    | none =>
      exact hset (u := u) (Function.update_self _ _ _) (by simp [hph, unpinPhase])
        (by simp [unpinPhase])
    | some err => exact absurd trivial (hnote _ rfl).2

omit [Fintype τ] in
/-- A piece of a call that does not end it leaves its thread in it. -/
theorem busy_of_path {es : List (Event τ)} (h : Path (StepBy n N complete t) c es c')
    (hnotes : ∀ y ∈ es.filterMap Event.note, y.By t ∧ ¬ y.Ends) (hne : es ≠ []) :
    c'.phase t ≠ .suspended .idle := by
  induction h with
  | nil => exact absurd rfl hne
  | @cons c c₁ c' e es hstep hrest ih =>
    by_cases hnil : es = []
    · subst hnil
      cases hrest
      exact busy_of_stepBy hstep fun y hy =>
        hnotes y (List.mem_filterMap.mpr ⟨e, List.mem_cons_self, hy⟩)
    · refine ih (fun y hy => ?_) hnil
      obtain ⟨e', he', hy'⟩ := List.mem_filterMap.mp hy
      exact hnotes y (List.mem_filterMap.mpr ⟨e', List.mem_cons_of_mem _ he', hy'⟩)

/-- A piece of a call that goes on. -/
theorem eases_or_dozes_of_path {es : List (Event τ)} (h : Path (StepBy n N complete t) c es c')
    (hI : Owned n c) (hbusy : c.phase t ≠ .suspended .idle)
    (hnotes : ∀ y ∈ es.filterMap Event.note, y.By t ∧ ¬ y.Ends) (hne : es ≠ []) :
    Eases n c c' ∨ Dozes n t c c' := by
  induction h with
  | nil => exact absurd rfl hne
  | @cons c c₁ c' e es hstep hrest ih =>
    have he : ∀ y, e.note = some y → y.By t ∧ ¬ y.Ends := fun y hy =>
      hnotes y (List.mem_filterMap.mpr ⟨e, List.mem_cons_self, hy⟩)
    have hfirst := hstep.step.eases hI (fun y hy => (he y hy).1) hbusy hstep.others
    by_cases hnil : es = []
    · subst hnil
      cases hrest
      exact hfirst
    · refine eases_or_dozes_trans hfirst
        (ih (.step hstep.step hI) (busy_of_stepBy hstep he) ?_ hnil)
      intro y hy
      obtain ⟨e', he', hy'⟩ := List.mem_filterMap.mp hy
      exact hnotes y (List.mem_filterMap.mpr ⟨e', List.mem_cons_of_mem _ he', hy'⟩)

omit [Fintype τ] in
/-- Where a call has ended nothing follows that is not noted. -/
theorem eq_of_unnoted_path {es : List (Event τ)} (h : Path (StepBy n N complete t) c es c')
    (hnotes : es.filterMap Event.note = []) (hidle : c'.phase t = .suspended .idle) : c = c' := by
  induction h with
  | nil => rfl
  | @cons c c₁ c' e es hstep hrest ih =>
    have hnone := List.filterMap_eq_nil_iff.mp hnotes e List.mem_cons_self
    rw [List.filterMap_cons_none hnone] at hnotes
    obtain rfl := ih hnotes hidle
    exact absurd hidle (busy_of_stepBy hstep fun z hz => by rw [hnone] at hz; cases hz)

/-- A piece that ends its call, with the note `y`. -/
theorem eases_of_path_end {es : List (Event τ)} {before : List (Note τ)} {y : Note τ}
    (h : Path (StepBy n N complete t) c es c') (hI : Owned n c)
    (hbusy : c.phase t ≠ .suspended .idle) (hidle : c'.phase t = .suspended .idle)
    (hnotes : es.filterMap Event.note = before ++ [y])
    (hbefore : ∀ z ∈ before, z.By t ∧ ¬ z.Ends) (hy : y.By t) : Eases n c c' := by
  induction h generalizing before with
  | nil => exact absurd hidle hbusy
  | @cons c c₁ c' e es hstep hrest ih =>
    have hgoes : (∀ z, e.note = some z → z.By t ∧ ¬ z.Ends) → Eases n c₁ c' → Eases n c c' :=
      fun he hlater =>
        .of_le (labour_le (hstep.step.eases hI (fun z hz => (he z hz).1) hbusy hstep.others)) hlater
    cases hnote : e.note with
    | none =>
      rw [List.filterMap_cons_none hnote] at hnotes
      have he : ∀ z, e.note = some z → z.By t ∧ ¬ z.Ends := fun z hz => by
        rw [hnote] at hz
        cases hz
      exact hgoes he (ih (.step hstep.step hI) (busy_of_stepBy hstep he) hidle hnotes hbefore)
    | some z =>
      rw [List.filterMap_cons_some hnote] at hnotes
      cases before with
      | nil =>
        obtain ⟨rfl, hnil⟩ := List.cons.inj hnotes
        obtain rfl := eq_of_unnoted_path hrest hnil hidle
        refine (hstep.step.eases hI (fun x hx => ?_) hbusy hstep.others).resolve_right
          fun hdozes => ?_
        · obtain rfl := Option.some.inj (hnote.symm.trans hx)
          exact hy
        · have hwaits := hdozes.after
          rw [hidle] at hwaits
          exact hwaits
      | cons z' before =>
        obtain ⟨rfl, hrest'⟩ := List.cons.inj hnotes
        have he : ∀ x, e.note = some x → x.By t ∧ ¬ x.Ends := fun x hx => by
          obtain rfl := Option.some.inj (hnote.symm.trans hx)
          exact hbefore _ List.mem_cons_self
        exact hgoes he (ih (.step hstep.step hI) (busy_of_stepBy hstep he) hidle hrest'
          fun x hx => hbefore x (List.mem_cons_of_mem _ hx))

/-! ## Where a call begins -/

/-- What a call brings to be done, at most: `FlushAllPages` has the most stages. -/
def callLabour (n T : Nat) : Nat := (T + 1) * ((6 * T + 1) * (3 * (5 * n + 4)) + 6 * T)

omit [DecidableEq τ] in
theorem labour_le_of_stages (hstages : c'.stages ≤ c.stages + (5 * n + 4))
    (hoccupied : c'.occupied n = c.occupied n) :
    c'.labour n ≤ c.labour n + callLabour n (Fintype.card τ) := by
  have hturns := c'.turns_le
  unfold Cfg.labour callLabour
  set T := Fintype.card τ
  rw [← Nat.mul_add]
  refine Nat.mul_le_mul_left _ ?_
  have hstep : (6 * T + 1) * (3 * c'.stages + c'.occupied n) ≤
      (6 * T + 1) * (3 * c.stages + c.occupied n) + (6 * T + 1) * (3 * (5 * n + 4)) := by
    rw [← Nat.mul_add]
    exact Nat.mul_le_mul_left _ (by omega)
  omega

/-- A call begins with one step that brings what it has to do. -/
theorem Step.labour_le_of_begin (h : Step n N complete c e c')
    (hidle : c.phase t = .suspended .idle) (hnote : ∀ y, e.note = some y → y.By t)
    (hothers : ∀ u, u ≠ t → c'.phase u = c.phase u) :
    c'.labour n ≤ c.labour n + callLabour n (Fintype.card τ) ∧
      (c'.phase t ≠ .suspended .idle ∨ ∃ y, e.note = some y ∧ y.Ends) := by
  have hbegin : ∀ {ph : Phase}, c'.phase = Function.update c.phase t ph → c'.frame = c.frame →
      c'.guards = c.guards → ph.stages ≤ 5 * n + 4 → ph ≠ .suspended .idle →
      c'.labour n ≤ c.labour n + callLabour n (Fintype.card τ) ∧
        (c'.phase t ≠ .suspended .idle ∨ ∃ y, e.note = some y ∧ y.Ends) := by
    intro ph hphase hframe hguards hstages hne
    have hsum := sum_update_add Phase.stages c.phase t ph
    refine ⟨labour_le_of_stages ?_ ?_, Or.inl ?_⟩
    · unfold Cfg.stages
      rw [hphase]
      omega
    · unfold Cfg.occupied
      rw [hframe, hguards]
    · rw [hphase, Function.update_self]
      exact hne
  -- Whoever is in a call and moves would be another thread.
  have hmine : ∀ {u : τ} {ph : Phase}, c'.phase u = ph → c.phase u ≠ ph → u = t := by
    intro u ph hu hne
    by_contra hut
    exact hne ((hothers u hut).symm.trans hu)
  have hbusy : ∀ {u : τ} {ph : Phase}, c'.phase u = ph → c.phase u ≠ ph →
      c.phase u ≠ .suspended .idle → False := by
    intro u ph hu hne hph
    obtain rfl := hmine hu hne
    exact hph hidle
  cases h with
  | change | mark | drop | dropStale | move | assign => exact (hnote _ rfl).elim
  | noIds u hph => exact ⟨Nat.le_add_right _ _, Or.inr ⟨_, rfl, trivial⟩⟩
  | visit u v hph hcall =>
    obtain rfl : u = t := hnote _ rfl
    refine hbegin rfl rfl rfl ?_ (by simp)
    cases v with
    | flushPage p caller =>
      obtain rfl : caller = .flushPage := hcall
      simp
    | fetchPage | deletePage => simp
  | snapshot u hph =>
    obtain rfl : u = t := hnote _ rfl
    have hlen : (c.dirtyPages n).length ≤ n :=
      (List.length_filterMap_le _ _).trans (List.length_range).le
    exact hbegin rfl rfl rfl (by simp; omega) (by simp)
  | reserve u p rest hph =>
    obtain rfl : u = t := hmine (Function.update_self _ _ _) (by rw [hph]; simp)
    exact hbegin rfl rfl rfl (by simp) (by simp)
  | wakePage u v hph | wakeFrame u a hph | nextFlush u p rest hph | leave u v err hph
  | sleepPage u v hph | pin u p f r hph | seek u p hph | skipFlush u p caller hph
  | capture u p f r caller hph | deleteUnused u p hph | deleteResident u p f r hph
  | deleteNonResident u p hph | recheck u p hph | tookFrame u a f hph | evictBegin u a f r hph
  | sleepFrame u a hph | evictDone u a ev hph | create u p f hph | block u p f err hph
  | loadBegin u p f hph | surplus u p f hph | rollback u p err hph | abandon u p err hph
  | loaded u p f hph | loadFailed u p f err hph | written u p f epoch caller hph
  | writeFailed u p f epoch caller err hph | unpinThrew u p f caller failure err hph
  | evictCopy u a ev hph | evictCopyFailed u a ev k err hph | writeCopy u p f epoch caller hph
  | writeCopyFailed u p f epoch caller k err hph | readCopy u p f hph
  | readCopyFailed u p f left err hph =>
    exact (hbusy (u := u) (Function.update_self _ _ _) (by simp [hph]) (by simp [hph])).elim
  | flushReturn u caller hph =>
    refine (hbusy (u := u) (Function.update_self _ _ _) ?_ (by simp [hph])).elim
    rw [hph]
    cases Manager.flushReturn caller <;> simp [phaseOf]
  | noFrame u a hph | evictFail u a ev err hph =>
    refine (hbusy (u := u) (Function.update_self _ _ _) ?_ (by simp [hph])).elim
    rw [hph]
    cases a <;> simp [failPhase]
  | unpinned u p f caller failure hph =>
    refine (hbusy (u := u) (Function.update_self _ _ _) ?_ (by simp [hph])).elim
    rw [hph]
    cases failure <;> simp [unpinPhase]

/-- What the first piece of a call leaves to be done. -/
theorem labour_le_of_call {es : List (Event τ)} {before last : List (Note τ)}
    (h : Path (StepBy n N complete t) c es c') (hI : Owned n c)
    (hidle : c.phase t = .suspended .idle) (hnotes : es.filterMap Event.note = before ++ last)
    (hbefore : ∀ z ∈ before, z.By t ∧ ¬ z.Ends)
    (hlast : last = [] ∨ ∃ y, last = [y] ∧ y.By t ∧ y.Ends ∧ c'.phase t = .suspended .idle) :
    c'.labour n ≤ c.labour n + callLabour n (Fintype.card τ) := by
  have hby : ∀ z ∈ es.filterMap Event.note, z.By t := by
    intro z hz
    rw [hnotes] at hz
    rcases List.mem_append.mp hz with hz | hz
    · exact (hbefore z hz).1
    · rcases hlast with rfl | ⟨y, rfl, hy, -⟩
      · cases hz
      · exact List.mem_singleton.mp hz ▸ hy
  cases h with
  | nil => exact Nat.le_add_right _ _
  | @cons _ c₁ _ e es hstep hrest =>
    obtain ⟨hfirst, hbusy⟩ := hstep.step.labour_le_of_begin hidle
      (fun y hy => hby y (List.mem_filterMap.mpr ⟨e, List.mem_cons_self, hy⟩)) hstep.others
    refine Nat.le_trans ?_ hfirst
    have hI₁ := Owned.step hstep.step hI
    rcases hbusy with hbusy | ⟨y, hy, hends⟩
    · rcases hlast with rfl | ⟨y, rfl, hy, -, hidle'⟩
      · -- The call goes on.
        by_cases hne : es = []
        · subst hne
          cases hrest
          exact le_rfl
        · refine labour_le (eases_or_dozes_of_path hrest hI₁ hbusy (fun z hz => hbefore z ?_) hne)
          rw [List.append_nil] at hnotes
          obtain ⟨e', he', hz'⟩ := List.mem_filterMap.mp hz
          exact hnotes ▸ List.mem_filterMap.mpr ⟨e', List.mem_cons_of_mem _ he', hz'⟩
      · cases hnote : e.note with
        | none =>
          rw [List.filterMap_cons_none hnote] at hnotes
          exact (eases_of_path_end hrest hI₁ hbusy hidle' hnotes hbefore hy).le
        | some z =>
          rw [List.filterMap_cons_some hnote] at hnotes
          cases before with
          | nil => rw [eq_of_unnoted_path hrest (List.cons.inj hnotes).2 hidle']
          | cons z' before =>
            have hlater : ∀ x ∈ before, x.By t ∧ ¬ x.Ends := fun x hx =>
              hbefore x (List.mem_cons_of_mem _ hx)
            exact (eases_of_path_end hrest hI₁ hbusy hidle' (List.cons.inj hnotes).2 hlater hy).le
    · -- `NewPage` has found no id.
      rw [List.filterMap_cons_some hy] at hnotes
      cases before with
      | nil =>
        rcases hlast with rfl | ⟨y', rfl, -, -, hidle'⟩
        · cases hnotes
        · rw [eq_of_unnoted_path hrest (List.cons.inj hnotes).2 hidle']
      | cons z before =>
        obtain rfl := (List.cons.inj hnotes).1
        exact absurd hends (hbefore _ List.mem_cons_self).2

/-! ## Guards -/

omit [Fintype τ] [DecidableEq τ] in
/-- Only the guard that is replaced counts differently. -/
theorem countP_set_valid {guards : List PageGuard} {slot : Nat} {x : PageGuard}
    (h : guards[slot]? = some x) (y : PageGuard) :
    (guards.set slot y).countP (·.valid) + (if x.valid = true then 1 else 0) =
      guards.countP (·.valid) + if y.valid = true then 1 else 0 := by
  obtain ⟨hlt, hx⟩ := List.getElem?_eq_some_iff.mp h
  have hle : (if guards[slot].valid = true then 1 else 0) ≤ guards.countP (·.valid) := by
    split
    · next hv => exact List.countP_pos_iff.mpr ⟨_, List.getElem_mem hlt, hv⟩
    · exact Nat.zero_le _
  rw [List.countP_set hlt, hx] at *
  omega

omit [DecidableEq τ] in
/-- A live guard is given up. -/
theorem Eases.drop {slot : Nat} {x : PageGuard} (h : c.guards[slot]? = some x)
    (hv : x.valid = true) {f : Nat} {u : Use} (hphase : c'.phase = c.phase)
    (hguards : c'.guards = c.guards.set slot {})
    (hframe : c'.frame = Function.update c.frame f u)
    (hu : u.occupied = (c.frame f).occupied) : Eases n c c' := by
  have hcount := countP_set_valid h {}
  have hframes := countP_update_add c.frame f u n
  rw [if_pos hv] at hcount
  rw [hu] at hframes
  refine .of_occupied (by unfold Cfg.stages; rw [hphase]) ?_
  unfold Cfg.occupied
  rw [hguards, hframe]
  simp only [Bool.false_eq_true, if_false] at hcount
  omega

/-- A guard that is dropped is given up, however the unpin ends. -/
theorem Step.eases_of_dropped (h : Step n N complete c e c') {slot : Nat}
    {failure : Option Error} (he : e = .dropped slot failure) : Eases n c c' := by
  have hplain : ¬ e.Plain := by
    rw [he]
    exact id
  cases h with
  | @drop c₁ slot g failure hg hv hpage hunpin =>
    obtain ⟨u, hframe, hu⟩ := hunpin.frame_update
    have hfields := hunpin.frame_only
    have heases : Eases n c c₁ := .drop hg hv hfields.1 hfields.2.2.2.2.2.2.2.2 hframe hu
    cases failure with
    | none => exact heases
    | some err => exact heases
  | dropStale slot g err hg hv =>
    exact .drop hg hv rfl rfl (Function.update_eq_self 0 c.frame).symm rfl
  | flushReturn t caller => exact absurd (plain_eventOf t _) hplain
  | noFrame t a | evictFail t a => exact absurd (plain_failEvent t a _) hplain
  | evictDone t a ev => exact absurd (plain_evictDone t ev) hplain
  | unpinned t p f caller failure => exact absurd (plain_unpinEvent t failure) hplain
  | _ => cases he

end Protocol

end BufferManager
