/-
  Guarantees/Replacement.lean --- what the clock replacer promises the buffer manager.

  In every state its operations lead to, the replacer chooses victims by the
  second-chance rule, and a frame that stays evictable is chosen within two turns of
  the hand, whatever happens to the other frames.
-/
import BufferManager.Replacement.SecondChance

set_option autoImplicit false

namespace BufferManager

open ClockReplacer

/-- `evictable_count` counts the evictable entries, and `Victim` is the second-chance
rule while there is one. -/
theorem clockReplacer_secondChance {n : Nat} {r : ClockReplacer} (h : Reachable n r) :
    r.evictableCount = r.candidates.card ∧
      (r.evictableCount = 0 → r.victim = .ok (none, r)) ∧
      (r.evictableCount ≠ 0 → ∃ f r', r.victim = .ok (some f, r') ∧ r.SecondChance f r') := by
  refine ⟨h.inv.count_eq, ?_, ?_⟩
  · intro hzero
    rw [victim, if_pos hzero]
  · intro hpos
    exact victim_secondChance h.inv hpos

/-- Three frames; the first victim left the hand on frame 1, which is not known. -/
theorem clockReplacer_secondChance_three :
    ∃ f r', ((⟨3, fun _ => {}, 0, 0⟩ : ClockReplacer).run
        [.recordAccess 0, .setEvictable 0 true, .recordAccess 2, .setEvictable 2 true,
          .victim, .recordAccess 0, .setEvictable 0 true]).victim = .ok (some f, r') ∧
      SecondChance ((⟨3, fun _ => {}, 0, 0⟩ : ClockReplacer).run
        [.recordAccess 0, .setEvictable 0 true, .recordAccess 2, .setEvictable 2 true,
          .victim, .recordAccess 0, .setEvictable 0 true]) f r' :=
  (clockReplacer_secondChance (n := 3) ⟨_, _, rfl, rfl⟩).2.2 (by decide)

/-- A frame that is evictable, and that no other call names, is among the next `2 n`
victims. -/
theorem clockReplacer_no_starvation {n f : Nat} {r : ClockReplacer} (h : Reachable n r)
    (hf : (r.entries f).present = true ∧ (r.entries f).evictable = true) (calls : List ReplacerCall)
    (hothers : ∀ c, c ∈ calls → c.frame ≠ some f) (hmany : 2 * n ≤ calls.count .victim) :
    .ok (some f) ∈ (r.victims calls).take (2 * n) :=
  mem_victims_take calls (2 * n) h.inv hf hothers (waits_lt h.inv f) hmany

/-- Two frames, the other one put back after every victim. -/
theorem clockReplacer_no_starvation_two :
    .ok (some 1) ∈ (((⟨2, fun _ => {}, 0, 0⟩ : ClockReplacer).run
        [.recordAccess 0, .setEvictable 0 true, .recordAccess 1, .setEvictable 1 true]).victims
      [.victim, .recordAccess 0, .setEvictable 0 true, .victim, .recordAccess 0,
        .setEvictable 0 true, .victim, .recordAccess 0, .victim]).take (2 * 2) :=
  clockReplacer_no_starvation ⟨_, _, rfl, rfl⟩ (by decide) _ (by decide) (by decide)

end BufferManager
