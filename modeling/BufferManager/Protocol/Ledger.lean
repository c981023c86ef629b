/-
  Protocol/Ledger.lean --- an account of the changes made to the pages.

  The changes of a page are numbered from one, over all the lives of its id: the zeros
  of its `NewPage` count as a change that is marked at once, and the content after each
  change is kept.  A change is marked when `MarkDirty` is called on the guard through
  which it was made.  Bytes include the changes up to one if each of them is as it was
  after that change or a later one; a transfer that fails can leave bytes of several.
-/
import BufferManager.Protocol.Clients

set_option autoImplicit false

namespace BufferManager

/-! ## Contents -/

/-- Each byte of `x` is as after change `m` or a later one of the page with this
history. -/
def Includes (history : List Page) (m : Nat) (x : Page) : Prop :=
  m = 0 ∨ ∀ j, ∃ y ∈ history.drop (m - 1), x.data j = y.data j

namespace Includes

variable {history : List Page} {m m' : Nat} {x y : Page}

theorem zero : Includes history 0 x := Or.inl rfl

theorem le_length (h : Includes history m x) : m ≤ history.length := by
  rcases h with rfl | h
  · exact Nat.zero_le _
  · obtain ⟨y, hy, -⟩ := h ⟨0, by decide⟩
    have hlen := List.length_pos_of_mem hy
    rw [List.length_drop] at hlen
    omega

/-- A byte is as after the change or a later one. -/
theorem byte (h : Includes history m x) (hm : m ≠ 0) (j : Fin kPageSize) :
    x.data j ∈ (history.map (·.data j)).drop (m - 1) := by
  obtain ⟨y, hy, hj⟩ := h.resolve_left hm j
  rw [← List.map_drop, hj]
  exact List.mem_map_of_mem hy

/-- What was there after a change is there after fewer. -/
theorem mono (h : Includes history m x) (hle : m' ≤ m) : Includes history m' x := by
  rcases h with rfl | h
  · exact Or.inl (Nat.le_zero.mp hle)
  · refine Or.inr fun j => ?_
    obtain ⟨y, hy, hj⟩ := h j
    refine ⟨y, ?_, hj⟩
    have hsplit : m - 1 = (m' - 1) + (m - 1 - (m' - 1)) := by omega
    rw [hsplit, ← List.drop_drop] at hy
    exact List.mem_of_mem_drop hy

theorem of_max (h : Includes history m x) (h' : Includes history m' x) :
    Includes history (max m m') x := by
  rcases Nat.le_total m m' with hle | hle
  · rwa [max_eq_right hle]
  · rwa [max_eq_left hle]

/-- A page gets another change. -/
theorem append (h : Includes history m x) (later : List Page) :
    Includes (history ++ later) m x := by
  rcases h with rfl | h
  · exact .zero
  · refine Or.inr fun j => ?_
    obtain ⟨y, hy, hj⟩ := h j
    refine ⟨y, ?_, hj⟩
    rw [List.drop_append]
    exact List.mem_append_left _ hy

/-- What a change leaves. -/
theorem last (hm : m ≤ history.length + 1) : Includes (history ++ [x]) m x := by
  refine Or.inr fun j => ⟨x, ?_, rfl⟩
  rw [List.drop_append_of_le_length (by omega)]
  exact List.mem_append_right _ (List.mem_singleton_self x)

/-- A transfer that fails mixes what it copies with what was there. -/
theorem overwrite (h : Includes history m x) (h' : Includes history m y) (k : Nat) :
    Includes history m (Page.overwrite k x y) := by
  rcases h with rfl | h
  · exact .zero
  · rcases h' with rfl | h'
    · exact .zero
    · refine Or.inr fun j => ?_
      rw [Page.overwrite_data]
      split
      · exact h j
      · exact h' j

/-- Bytes that include all changes are the last content. -/
theorem eq_last {h : Includes (history ++ [y]) (history.length + 1) x} : x = y := by
  rcases h with h | h
  · exact absurd h (Nat.succ_ne_zero _)
  · refine Page.ext (funext fun j => ?_)
    obtain ⟨z, hz, hj⟩ := h j
    rw [Nat.add_sub_cancel, List.drop_left, List.mem_singleton] at hz
    rw [hj, hz]

end Includes

/-! ## The account -/

/-- What is known of the changes. -/
structure Ledger (τ : Type) where
  clients : Clients τ := {}
  /-- The content of a page after each of its changes. -/
  history : Nat → List Page := fun _ => []
  /-- The number of the last change through a guard that is not marked, or zero. -/
  pending : Nat → Nat := fun _ => 0
  /-- The number of the last change of a page that is marked; zero for a page that is
  deleted. -/
  marked : Nat → Nat := fun _ => 0
  /-- How often `MarkDirty` has been called. -/
  marks : Nat := 0
  /-- What was marked of a page when thread `t`'s flush of it began, unless it has been
  deleted since. -/
  asked : τ → Nat → Nat := fun _ _ => 0
  /-- What was marked of its page when thread `t`'s last `WritePage` moved its bytes. -/
  copied : τ → Nat := fun _ => 0
  /-- The most that a `WritePage` of a page which has completed had found marked. -/
  completed : Nat → Nat := fun _ => 0

/-- What is marked of the pages that a call is to flush. -/
def Visit.asks (marked : Nat → Nat) : Visit → Nat → Nat
  | .flushPage p _ => Function.update (fun _ => 0) p (marked p)
  | .fetchPage _ | .deletePage _ => fun _ => 0

namespace Ledger

variable {τ : Type} [DecidableEq τ]

/-- Page `p` is changed. -/
def change (g : Ledger τ) (p : Nat) (page : Page) : Ledger τ :=
  { g with history := Function.update g.history p (g.history p ++ [page]) }

/-- What is known after an effect; `sweeps` says whether `FlushAllPages` is asked to flush
the pages. -/
def after (sweeps : Bool) (g : Ledger τ) (x : Note τ) : Ledger τ :=
  let g := { g with clients := g.clients.after x }
  match x with
  | .called t v => { g with asked := Function.update g.asked t (v.asks g.marked) }
  | .created _ p =>
      { g.change p Page.zero with
        marked := Function.update g.marked p ((g.history p).length + 1) }
  | .deleted _ p =>
      { g with
        marked := Function.update g.marked p 0
        asked := fun t => Function.update (g.asked t) p 0 }
  | .failed t => { g with asked := Function.update g.asked t fun _ => 0 }
  | .flushAll t =>
      { g with asked := Function.update g.asked t (if sweeps = true then g.marked else fun _ => 0) }
  | .changed slot p page =>
      { g.change p page with
        pending := Function.update g.pending slot ((g.history p).length + 1) }
  | .marked slot p =>
      { g with
        marked := Function.update g.marked p (max (g.marked p) (g.pending slot))
        pending := Function.update g.pending slot 0
        marks := g.marks + 1 }
  | .dropped slot => { g with pending := Function.update g.pending slot 0 }
  | .moved source slot =>
      { g with
        pending := Function.update (Function.update g.pending slot (g.pending source)) source 0 }
  | .copied t p => { g with copied := Function.update g.copied t (g.marked p) }
  | .wrote t p =>
      { g with completed := Function.update g.completed p (max (g.completed p) (g.copied t)) }
  | .returned _ => g

/-- Disciplined clients, and fewer than `2 ^ 64` calls of `MarkDirty`. -/
def Allows (g : Ledger τ) (x : Note τ) : Prop :=
  g.clients.Allows x ∧ ∀ slot p, x = .marked slot p → g.marks + 1 < 2 ^ 64

instance [Fintype τ] (g : Ledger τ) : ∀ x : Note τ, Decidable (g.Allows x)
  | .marked slot p => decidable_of_iff (g.clients.Allows (.marked slot p) ∧ g.marks + 1 < 2 ^ 64)
      (and_congr_right fun _ => ⟨fun h _ _ _ => h, fun h => h slot p rfl⟩)
  | .called t v => decidable_of_iff (g.clients.Allows (.called t v))
      (iff_self_and.mpr fun _ _ _ h => by cases h)
  | .deleted t p => decidable_of_iff (g.clients.Allows (.deleted t p))
      (iff_self_and.mpr fun _ _ _ h => by cases h)
  | .created _ _ | .returned _ | .failed _ | .flushAll _ | .copied _ _ | .wrote _ _
  | .changed _ _ _ | .dropped _ | .moved _ _ =>
      .isTrue ⟨trivial, fun _ _ h => by cases h⟩

end Ledger

end BufferManager
