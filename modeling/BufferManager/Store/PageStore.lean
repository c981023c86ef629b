/-
  Store/PageStore.lean --- a page store without a cache.

  What a client of one thread sees of the buffer manager: a map from the ids in use to
  their bytes, the ids that have been given back on top of a counter of fresh ones, and
  the guards it holds, each in its slot.  Frames and the disk do not appear, but for how
  many frames there are; that an operation meets a failing transfer is part of what is
  asked for.
-/
import BufferManager.Manager.System
import Mathlib.Data.List.ReduceOption

set_option autoImplicit false

namespace BufferManager

/-- What a client asks for. -/
inductive Operation where
  | call (c : Call)
  | read (slot : Nat)
  /-- The guard's page gets these bytes, and `MarkDirty` is called. -/
  | write (slot : Nat) (page : Page)
  | drop (slot : Nat)
  | destroy (slot : Nat)
  | moveConstruct (slot : Nat)
  | moveAssign (slot source : Nat)

/-- What it gets back. -/
inductive Answer where
  | unit
  /-- A guard on the page, and the bytes it shows. -/
  | guard (pageId : Nat) (page : Page)
  | bytes (page : Page)
  | threw (e : Error)
  | terminated

/-- The pages in use, the ids to come and the guards. -/
structure PageStore where
  contents : Nat → Option Page := fun _ => none
  freed : List Nat := []
  fresh : Nat := 0
  guards : List (Option Nat) := []

namespace PageStore

variable {n N : Nat} {st : PageStore}

/-! ## Operations -/

/-- The ids that can be handed out, in their order. -/
def ids (N : Nat) (st : PageStore) : List Nat := st.freed ++ List.range' st.fresh (N - st.fresh)

/-- The next id, and the store without it. -/
def takeId (N : Nat) (st : PageStore) : Option (Nat × PageStore) :=
  match st.freed with
  | p :: rest => some (p, { st with freed := rest })
  | [] => if st.fresh < N then some (st.fresh, { st with fresh := st.fresh + 1 }) else none

/-- The page of the guard in a slot. -/
def guardOn (st : PageStore) (slot : Nat) : Option Nat := st.guards[slot]?.join

/-- The pages that some guard is on. -/
def guarded (st : PageStore) : Finset Nat := st.guards.reduceOption.toFinset

/-- As many pages are guarded as there are frames. -/
def Crowded (n : Nat) (st : PageStore) : Prop := n ≤ st.guarded.card

instance (n : Nat) (st : PageStore) : Decidable (st.Crowded n) :=
  inferInstanceAs (Decidable (n ≤ st.guarded.card))

/-- The client gets a guard. -/
def grant (st : PageStore) (p : Nat) (page : Page) : Answer × PageStore :=
  (.guard p page, { st with guards := st.guards ++ [some p] })

/-- Page `p` gets other bytes, or leaves. -/
def setPage (st : PageStore) (p : Nat) (page : Option Page) : PageStore :=
  { st with contents := Function.update st.contents p page }

/-- A page that is not in use is asked for: its id is too large, or `e` is thrown. -/
def missing (N p : Nat) (e : Error) : Error :=
  if p < N then e else ⟨.outOfRange, "invalid page id"⟩

def newPage (n N : Nat) (st : PageStore) : Answer × PageStore :=
  match st.takeId N with
  | none => (.threw ⟨.runtimeError, "maximum number of pages reached"⟩, st)
  | some (p, st') =>
      if st.Crowded n then (.threw ⟨.runtimeError, "no frame available"⟩, st)
      else (st'.setPage p (some Page.zero)).grant p Page.zero

def fetchPage (n N p : Nat) (st : PageStore) : Answer × PageStore :=
  match st.contents p with
  | none => (.threw (missing N p ⟨.logicError, "cannot fetch an unused page"⟩), st)
  | some page =>
      if p ∉ st.guarded ∧ st.Crowded n then (.threw ⟨.runtimeError, "no frame available"⟩, st)
      else st.grant p page

def flushPage (N p : Nat) (st : PageStore) : Answer × PageStore :=
  match st.contents p with
  | none => (.threw (missing N p ⟨.logicError, "cannot flush an unused page"⟩), st)
  | some _ => (.unit, st)

def deletePage (N p : Nat) (st : PageStore) : Answer × PageStore :=
  match st.contents p with
  | none => if p < N then (.unit, st) else (.threw ⟨.outOfRange, "invalid page id"⟩, st)
  | some _ =>
      if p ∈ st.guarded then (.threw ⟨.logicError, "cannot delete a pinned page"⟩, st)
      else (.unit, { st.setPage p none with freed := p :: st.freed })

def read (slot : Nat) (st : PageStore) : Answer × PageStore :=
  match (st.guardOn slot).bind st.contents with
  | some page => (.bytes page, st)
  | none => (.threw System.emptyGuard, st)

def write (slot : Nat) (page : Page) (st : PageStore) : Answer × PageStore :=
  match st.guardOn slot with
  | some p => (.unit, st.setPage p (some page))
  | none => (.threw System.emptyGuard, st)

def drop (slot : Nat) (st : PageStore) : Answer × PageStore :=
  (.unit, { st with guards := st.guards.set slot none })

def moveConstruct (slot : Nat) (st : PageStore) : Answer × PageStore :=
  (.unit, { st with guards := st.guards.set slot none ++ [st.guardOn slot] })

def moveAssign (slot source : Nat) (st : PageStore) : Answer × PageStore :=
  if slot = source then (.unit, st)
  else (.unit, { st with guards := (st.guards.set slot (st.guardOn source)).set source none })

/-- One operation.  A call in which a transfer of the disk has failed throws its error. -/
def perform (n N : Nat) (st : PageStore) : Operation × Option Error → Answer × PageStore
  | (_, some e) => (.threw e, st)
  | (.call .newPage, none) => st.newPage n N
  | (.call (.fetchPage p), none) => st.fetchPage n N p
  | (.call (.flushPage p), none) => st.flushPage N p
  | (.call .flushAllPages, none) => (.unit, st)
  | (.call (.deletePage p), none) => st.deletePage N p
  | (.read slot, none) => st.read slot
  | (.write slot page, none) => st.write slot page
  | (.drop slot, none) | (.destroy slot, none) => st.drop slot
  | (.moveConstruct slot, none) => st.moveConstruct slot
  | (.moveAssign slot source, none) => st.moveAssign slot source

/-! ## What holds of a store -/

theorem mem_guarded {p : Nat} : p ∈ st.guarded ↔ some p ∈ st.guards := by
  rw [guarded, List.mem_toFinset, List.reduceOption_mem_iff]

theorem takeId_none (h : st.ids N = []) : st.takeId N = none := by
  obtain ⟨hfreed, hfresh⟩ := List.append_eq_nil_iff.mp h
  rw [List.range'_eq_nil_iff] at hfresh
  unfold takeId
  rw [hfreed]
  exact if_neg (by omega)

theorem takeId_some {p : Nat} {rest : List Nat} (h : st.ids N = p :: rest) :
    ∃ st', st.takeId N = some (p, st') ∧ st'.ids N = rest ∧ st'.contents = st.contents ∧
      st'.guards = st.guards := by
  obtain ⟨contents, freed, fresh, guards⟩ := st
  cases freed with
  | cons q freed =>
    obtain ⟨rfl, hrest⟩ := List.cons.inj h
    exact ⟨⟨contents, freed, fresh, guards⟩, rfl, hrest, rfl, rfl⟩
  | nil =>
    change List.range' fresh (N - fresh) = p :: rest at h
    have hlt : fresh < N := by
      by_contra hge
      rw [Nat.sub_eq_zero_of_le (Nat.le_of_not_lt hge)] at h
      cases h
    have hsub : N - fresh = N - (fresh + 1) + 1 := by omega
    rw [hsub, List.range'_succ] at h
    obtain ⟨rfl, hrest⟩ := List.cons.inj h
    exact ⟨⟨contents, [], fresh + 1, guards⟩, if_pos hlt, hrest, rfl, rfl⟩

/-! ## Operations that throw -/

section

variable {p : Nat} {e : Error}

theorem newPage_threw (h : (st.newPage n N).1 = .threw e) : (st.newPage n N).2 = st := by
  unfold newPage at h ⊢
  split at h
  · rfl
  · split at h
    · next hcrowded => rw [if_pos hcrowded]
    · cases h

theorem fetchPage_threw (h : (st.fetchPage n N p).1 = .threw e) : (st.fetchPage n N p).2 = st := by
  unfold fetchPage at h ⊢
  split at h
  · rfl
  · split at h
    · next hcrowded => rw [if_pos hcrowded]
    · cases h

theorem flushPage_snd : (st.flushPage N p).2 = st := by
  unfold flushPage
  split <;> rfl

theorem deletePage_threw (h : (st.deletePage N p).1 = .threw e) : (st.deletePage N p).2 = st := by
  unfold deletePage at h ⊢
  split at h
  · split <;> rfl
  · split at h
    · next hguarded => rw [if_pos hguarded]
    · cases h

theorem read_snd (slot : Nat) : (st.read slot).2 = st := by
  unfold read
  split <;> rfl

theorem write_threw {slot : Nat} {page : Page} (h : (st.write slot page).1 = .threw e) :
    (st.write slot page).2 = st := by
  unfold write at h ⊢
  split at h
  · cases h
  · rfl

theorem moveAssign_fst (slot source : Nat) : (st.moveAssign slot source).1 = .unit := by
  unfold moveAssign
  split <;> rfl

/-- An operation that throws changes nothing. -/
theorem perform_threw {op : Operation × Option Error} (h : (perform n N st op).1 = .threw e) :
    (perform n N st op).2 = st := by
  obtain ⟨op, failure⟩ := op
  cases failure with
  | some err => rfl
  | none =>
    cases op with
    | call call =>
      cases call with
      | newPage => exact newPage_threw h
      | fetchPage p => exact fetchPage_threw h
      | flushPage p => exact flushPage_snd
      | flushAllPages => rfl
      | deletePage p => exact deletePage_threw h
    | read slot => exact read_snd slot
    | write slot page => exact write_threw h
    | drop | destroy | moveConstruct => cases h
    | moveAssign slot source => cases (moveAssign_fst slot source).symm.trans h

end

end PageStore

end BufferManager
