/-
  Page/PageTable.lean --- page ids, their states and the frames that hold them.

  Source: `src/page/page_table.{h,cc}`.

  `pages_` is a total function here; every access goes through `entryFor`, which
  refuses ids at or above `max_page_count_` as the source does.  `free_page_ids_`
  is a list whose head is the vector's back.  `Inv` is the representation
  invariant, kept by every operation; `upcoming` is the sequence of ids that
  further `AllocatePageId` calls will hand out.
-/
import BufferManager.Types
import Mathlib.Data.Finset.Card
import Mathlib.Data.Finset.Range
import Mathlib.Tactic

set_option autoImplicit false

namespace BufferManager

/-- `enum class PageState`. -/
inductive PageState where
  | unused
  | nonResident
  | loading
  | resident
  | evicting
  deriving DecidableEq, Repr

/-- The states in which an entry names a frame. -/
def PageState.isManaged : PageState → Bool
  | .unused | .nonResident => false
  | .loading | .resident | .evicting => true

/-- `struct PageTable::Entry`. -/
structure Entry where
  state : PageState := .unused
  frameId : Option Nat := none
  deriving DecidableEq, Repr

/-- `class PageTable`. -/
structure PageTable where
  maxPageCount : Nat
  nextPageId : Nat
  allocatedCount : Nat
  pages : Nat → Entry
  freePageIds : List Nat

namespace PageTable

/-- The constructor. Behind the checks of a `DiskManager` the count is below `2 ^ 52`, which
a vector of entries can hold. -/
def make (maxPageCount : Nat) : Except Error PageTable :=
  if maxPageCount = 0 then
    .error ⟨.invalidArgument, "max_page_count must be greater than zero"⟩
  else if maxPageCount > 2 ^ 64 - 1 then
    .error ⟨.invalidArgument, "max_page_count does not fit into size_t"⟩
  else
    .ok {
      maxPageCount := maxPageCount
      nextPageId := 0
      allocatedCount := 0
      pages := fun _ => {}
      freePageIds := [] }

/-- `ValidatePageId`. -/
def validatePageId (pt : PageTable) (pageId : Nat) : Except Error Unit :=
  if pageId ≥ pt.maxPageCount then .error ⟨.outOfRange, "invalid page id"⟩ else .ok ()

/-- `EntryFor`, read. -/
def entryFor (pt : PageTable) (pageId : Nat) : Except Error Entry := do
  pt.validatePageId pageId
  return pt.pages pageId

/-- Assignment through the reference `EntryFor` returned. -/
def setEntry (pt : PageTable) (pageId : Nat) (entry : Entry) : PageTable :=
  { pt with pages := Function.update pt.pages pageId entry }

/-- The choice of the id in `AllocatePageId`: the back of the free list, else the
next fresh id. -/
def popPageId (pt : PageTable) : Except Error (Nat × PageTable) :=
  match pt.freePageIds with
  | pageId :: rest => .ok (pageId, { pt with freePageIds := rest })
  | [] =>
      if pt.nextPageId = pt.maxPageCount then
        .error ⟨.runtimeError, "maximum number of pages reached"⟩
      else .ok (pt.nextPageId, { pt with nextPageId := pt.nextPageId + 1 })

/-- `AllocatePageId`. -/
def allocatePageId (pt : PageTable) : Except Error (Nat × PageTable) := do
  let (pageId, pt) ← pt.popPageId
  let _ ← pt.entryFor pageId
  return (pageId, { pt.setEntry pageId ⟨.nonResident, none⟩ with
    allocatedCount := pt.allocatedCount + 1 })

/-- `FreePageId`. -/
def freePageId (pt : PageTable) (pageId : Nat) : Except Error PageTable := do
  let entry ← pt.entryFor pageId
  if entry.state = .unused then
    throw ⟨.logicError, "cannot free an unused page"⟩
  else if entry.state ≠ .nonResident then
    throw ⟨.logicError, "cannot free a page that is still memory-managed"⟩
  else
    return { pt.setEntry pageId {} with
      freePageIds := pageId :: pt.freePageIds
      allocatedCount := pt.allocatedCount - 1 }

/-- `State`. -/
def state (pt : PageTable) (pageId : Nat) : Except Error PageState := do
  let entry ← pt.entryFor pageId
  return entry.state

/-- `FrameForPage`. -/
def frameForPage (pt : PageTable) (pageId : Nat) : Except Error (Option Nat) := do
  let entry ← pt.entryFor pageId
  if entry.state = .unused then
    throw ⟨.logicError, "unused page has no frame"⟩
  else
    return entry.frameId

/-- `SetLoading`. -/
def setLoading (pt : PageTable) (pageId frameId : Nat) : Except Error PageTable := do
  let entry ← pt.entryFor pageId
  if entry.state = .unused then
    throw ⟨.logicError, "cannot load an unused page"⟩
  else if entry.state ≠ .nonResident then
    throw ⟨.logicError, "page must be nonresident before loading"⟩
  else
    return pt.setEntry pageId ⟨.loading, some frameId⟩

/-- `SetResident`. -/
def setResident (pt : PageTable) (pageId frameId : Nat) : Except Error PageTable := do
  let entry ← pt.entryFor pageId
  if entry.state = .unused then
    throw ⟨.logicError, "cannot make an unused page resident"⟩
  else if entry.state = .resident then
    throw ⟨.logicError, "page is already resident"⟩
  else if entry.state = .evicting then
    throw ⟨.logicError, "cannot make an evicting page resident"⟩
  else if entry.state = .loading ∧ entry.frameId ≠ some frameId then
    throw ⟨.logicError, "loading page frame mismatch"⟩
  else
    return pt.setEntry pageId ⟨.resident, some frameId⟩

/-- `SetNonResident`. -/
def setNonResident (pt : PageTable) (pageId : Nat) : Except Error PageTable := do
  let entry ← pt.entryFor pageId
  if entry.state = .unused then
    throw ⟨.logicError, "cannot make an unused page nonresident"⟩
  else
    return pt.setEntry pageId ⟨.nonResident, none⟩

/-- `SetEvicting`. -/
def setEvicting (pt : PageTable) (pageId : Nat) : Except Error PageTable := do
  let entry ← pt.entryFor pageId
  if entry.state = .unused then
    throw ⟨.logicError, "cannot evict an unused page"⟩
  else if entry.state ≠ .resident then
    throw ⟨.logicError, "only resident pages can become evicting"⟩
  else
    return pt.setEntry pageId { entry with state := .evicting }

/-! ## What each operation does -/

@[simp] theorem setEntry_pages (pt : PageTable) (p : Nat) (e : Entry) :
    (pt.setEntry p e).pages = Function.update pt.pages p e := rfl

@[simp] theorem setEntry_maxPageCount (pt : PageTable) (p : Nat) (e : Entry) :
    (pt.setEntry p e).maxPageCount = pt.maxPageCount := rfl

theorem entryFor_ok {pt : PageTable} {p : Nat} (hp : p < pt.maxPageCount) :
    pt.entryFor p = .ok (pt.pages p) := by
  simp only [entryFor, validatePageId, ge_iff_le, Nat.not_le.mpr hp, if_false]
  rfl

theorem entryFor_error {pt : PageTable} {p : Nat} (hp : pt.maxPageCount ≤ p) :
    pt.entryFor p = .error ⟨.outOfRange, "invalid page id"⟩ := by
  simp only [entryFor, validatePageId, ge_iff_le, hp, if_true]
  rfl

theorem state_ok {pt : PageTable} {p : Nat} (hp : p < pt.maxPageCount) :
    pt.state p = .ok (pt.pages p).state := by
  rw [state, entryFor_ok hp]
  rfl

theorem state_error {pt : PageTable} {p : Nat} (hp : pt.maxPageCount ≤ p) :
    pt.state p = .error ⟨.outOfRange, "invalid page id"⟩ := by
  rw [state, entryFor_error hp]
  rfl

theorem frameForPage_ok {pt : PageTable} {p : Nat} (hp : p < pt.maxPageCount)
    (hstate : (pt.pages p).state ≠ .unused) : pt.frameForPage p = .ok (pt.pages p).frameId := by
  simp only [frameForPage, entryFor_ok hp]
  change (if (pt.pages p).state = .unused then _ else _) = _
  rw [if_neg hstate]
  rfl

theorem setLoading_ok {pt : PageTable} {p : Nat} (f : Nat) (hp : p < pt.maxPageCount)
    (hstate : (pt.pages p).state = .nonResident) :
    pt.setLoading p f = .ok (pt.setEntry p ⟨.loading, some f⟩) := by
  simp only [setLoading, entryFor_ok hp]
  change (if (pt.pages p).state = .unused then _ else _) = _
  rw [hstate]
  rfl

theorem setNonResident_ok {pt : PageTable} {p : Nat} (hp : p < pt.maxPageCount)
    (hstate : (pt.pages p).state ≠ .unused) :
    pt.setNonResident p = .ok (pt.setEntry p ⟨.nonResident, none⟩) := by
  simp only [setNonResident, entryFor_ok hp]
  change (if (pt.pages p).state = .unused then _ else _) = _
  rw [if_neg hstate]
  rfl

theorem setEvicting_ok {pt : PageTable} {p : Nat} (hp : p < pt.maxPageCount)
    (hstate : (pt.pages p).state = .resident) :
    pt.setEvicting p = .ok (pt.setEntry p ⟨.evicting, (pt.pages p).frameId⟩) := by
  simp only [setEvicting, entryFor_ok hp]
  change (if (pt.pages p).state = .unused then _ else _) = _
  rw [hstate]
  rfl

/-- `SetResident` succeeds on a page that is out of memory, and on a page that is
being loaded into the very frame it names. -/
theorem setResident_ok {pt : PageTable} {p f : Nat} (hp : p < pt.maxPageCount)
    (hstate : (pt.pages p).state = .nonResident ∨ pt.pages p = ⟨.loading, some f⟩) :
    pt.setResident p f = .ok (pt.setEntry p ⟨.resident, some f⟩) := by
  simp only [setResident, entryFor_ok hp]
  change (if (pt.pages p).state = .unused then _ else _) = _
  rcases hstate with hstate | hstate
  · rw [hstate]
    rfl
  · rw [hstate]
    simp
    rfl

/-- The errors of `SetResident`. -/
def setResidentErrors : List Error :=
  [⟨.outOfRange, "invalid page id"⟩,
    ⟨.logicError, "cannot make an unused page resident"⟩,
    ⟨.logicError, "page is already resident"⟩,
    ⟨.logicError, "cannot make an evicting page resident"⟩,
    ⟨.logicError, "loading page frame mismatch"⟩]

/-- `SetResident` refuses every other page. -/
theorem setResident_error {a : PageTable} {p f : Nat}
    (hstate : p < a.maxPageCount → (a.pages p).state ≠ .nonResident)
    (hframe : (a.pages p).state = .loading → (a.pages p).frameId ≠ some f) :
    ∃ e ∈ setResidentErrors, a.setResident p f = .error e := by
  by_cases hp : p < a.maxPageCount
  · simp only [setResident, entryFor_ok hp]
    change ∃ e ∈ _, (if (a.pages p).state = .unused then _ else _) = _
    cases hs : (a.pages p).state with
    | unused => exact ⟨_, by simp [setResidentErrors], rfl⟩
    | nonResident => exact absurd hs (hstate hp)
    | loading =>
      refine ⟨⟨.logicError, "loading page frame mismatch"⟩, by simp [setResidentErrors], ?_⟩
      simp [hframe hs]
      rfl
    | resident => exact ⟨_, by simp [setResidentErrors], rfl⟩
    | evicting => exact ⟨_, by simp [setResidentErrors], rfl⟩
  · refine ⟨⟨.outOfRange, "invalid page id"⟩, by simp [setResidentErrors], ?_⟩
    rw [setResident, entryFor_error (Nat.le_of_not_lt hp)]
    rfl

theorem freePageId_ok {pt : PageTable} {p : Nat} (hp : p < pt.maxPageCount)
    (hstate : (pt.pages p).state = .nonResident) :
    pt.freePageId p = .ok { pt.setEntry p {} with
      freePageIds := p :: pt.freePageIds
      allocatedCount := pt.allocatedCount - 1 } := by
  simp only [freePageId, entryFor_ok hp]
  change (if (pt.pages p).state = .unused then _ else _) = _
  rw [hstate]
  rfl

/-! ## The representation invariant -/

/-- The ids that are in use. -/
def inUse (pt : PageTable) : Finset Nat :=
  (Finset.range pt.maxPageCount).filter fun p => (pt.pages p).state ≠ .unused

/-- The representation invariant of the page table. -/
structure Inv (pt : PageTable) : Prop where
  next_le : pt.nextPageId ≤ pt.maxPageCount
  free_nodup : pt.freePageIds.Nodup
  /-- The free list holds the ids that were handed out before and are unused now. -/
  mem_free : ∀ p, p ∈ pt.freePageIds ↔ p < pt.nextPageId ∧ (pt.pages p).state = .unused
  /-- Ids that were never handed out are unused. -/
  fresh : ∀ p, pt.nextPageId ≤ p → (pt.pages p).state = .unused
  count_eq : pt.allocatedCount = pt.inUse.card
  /-- A frame is recorded in the managed states and in no other. -/
  frame_iff : ∀ p, (pt.pages p).frameId.isSome = (pt.pages p).state.isManaged

/-- The ids that further `AllocatePageId` calls hand out, in order: the freed ids,
last freed first, then the fresh ones. -/
def upcoming (pt : PageTable) : List Nat :=
  pt.freePageIds ++ List.range' pt.nextPageId (pt.maxPageCount - pt.nextPageId)

theorem mem_inUse {pt : PageTable} {p : Nat} :
    p ∈ pt.inUse ↔ p < pt.maxPageCount ∧ (pt.pages p).state ≠ .unused := by
  simp [inUse]

theorem Inv.lt_of_state {pt : PageTable} (hinv : pt.Inv) {p : Nat}
    (h : (pt.pages p).state ≠ .unused) : p < pt.maxPageCount := by
  by_contra hge
  exact h (hinv.fresh p (le_trans hinv.next_le (Nat.le_of_not_lt hge)))

theorem Inv.mem_upcoming {pt : PageTable} (hinv : pt.Inv) {p : Nat} :
    p ∈ pt.upcoming ↔ p < pt.maxPageCount ∧ (pt.pages p).state = .unused := by
  have hnext := hinv.next_le
  have hfree := hinv.mem_free p
  have hfresh := hinv.fresh p
  rw [upcoming, List.mem_append, hfree, List.mem_range'_1]
  constructor
  · rintro (⟨hlt, hs⟩ | ⟨hge, hlt⟩)
    · exact ⟨by omega, hs⟩
    · exact ⟨by omega, hfresh hge⟩
  · rintro ⟨hlt, hs⟩
    by_cases h : p < pt.nextPageId
    · exact Or.inl ⟨h, hs⟩
    · exact Or.inr ⟨by omega, by omega⟩

theorem Inv.upcoming_nodup {pt : PageTable} (hinv : pt.Inv) : pt.upcoming.Nodup := by
  rw [upcoming, List.nodup_append]
  refine ⟨hinv.free_nodup, List.nodup_range', ?_⟩
  rintro a ha b hb rfl
  have hlt := ((hinv.mem_free a).mp ha).1
  have hge := (List.mem_range'_1.mp hb).1
  omega

/-- The table as built has every id unused, to be handed out in increasing order. -/
theorem make_ok {maxPageCount : Nat} (hpos : 0 < maxPageCount)
    (hle : maxPageCount ≤ 2 ^ 64 - 1) :
    ∃ pt, make maxPageCount = .ok pt ∧ pt.Inv ∧ (∀ p, pt.pages p = {}) ∧
      pt.maxPageCount = maxPageCount ∧ pt.upcoming = List.range maxPageCount := by
  refine ⟨⟨maxPageCount, 0, 0, fun _ => {}, []⟩, ?_, ?_, fun _ => rfl, rfl, ?_⟩
  · simp only [make, Nat.ne_of_gt hpos, if_false, gt_iff_lt, Nat.not_lt.mpr hle]
  · constructor <;> simp [inUse, PageState.isManaged]
  · simp [upcoming, List.range_eq_range']

/-- What the constructor returns, when it returns. -/
theorem make_spec {maxPageCount : Nat} {pt : PageTable} (h : make maxPageCount = .ok pt) :
    0 < maxPageCount ∧ pt.Inv ∧ (∀ p, pt.pages p = {}) ∧ pt.maxPageCount = maxPageCount ∧
      pt.upcoming = List.range maxPageCount := by
  have hbounds : 0 < maxPageCount ∧ maxPageCount ≤ 2 ^ 64 - 1 := by
    unfold make at h
    split at h
    · cases h
    · split at h
      · cases h
      · omega
  obtain ⟨pt', hpt', hspec⟩ := make_ok hbounds.1 hbounds.2
  obtain rfl := Except.ok.inj (hpt'.symm.trans h)
  exact ⟨hbounds.1, hspec⟩

theorem make_kind {n : Nat} {e : Error} (h : make n = .error e) :
    e.kind = .invalidArgument := by
  unfold make at h
  split at h
  · cases h
    rfl
  · split at h
    · cases h
      rfl
    · cases h

/-! ### Operations on one entry -/

/-- Changing the entry of an id in use to another in-use state keeps the
invariant: the free list, the fresh ids and the count do not see the change. -/
theorem Inv.setEntry {pt : PageTable} (hinv : pt.Inv) {p : Nat} {e : Entry}
    (hp : (pt.pages p).state ≠ .unused) (he : e.state ≠ .unused)
    (hframe : e.frameId.isSome = e.state.isManaged) : (pt.setEntry p e).Inv := by
  have hstate : ∀ q, ((pt.setEntry p e).pages q).state = .unused ↔
      (pt.pages q).state = .unused := by
    intro q
    by_cases hq : q = p
    · subst hq
      simp [hp, he]
    · simp [hq]
  have hinUse : (pt.setEntry p e).inUse = pt.inUse := by
    ext q
    rw [mem_inUse, mem_inUse, ne_eq, ne_eq, hstate, setEntry_maxPageCount]
  refine ⟨hinv.next_le, hinv.free_nodup, ?_, ?_, ?_, ?_⟩
  · intro q
    rw [hstate]
    exact hinv.mem_free q
  · intro q hq
    rw [hstate]
    exact hinv.fresh q hq
  · rw [hinUse]
    exact hinv.count_eq
  · intro q
    by_cases hq : q = p
    · subst hq
      simpa using hframe
    · simpa [hq] using hinv.frame_iff q

@[simp] theorem setEntry_upcoming (pt : PageTable) (p : Nat) (e : Entry) :
    (pt.setEntry p e).upcoming = pt.upcoming := rfl

/-! ### AllocatePageId and FreePageId -/

/-- Making the next unused id non-resident keeps the invariant. -/
theorem Inv.allocate {pt : PageTable} (hinv : pt.Inv) {p : Nat} {a : PageTable}
    (hmax : a.maxPageCount = pt.maxPageCount)
    (hpages : a.pages = Function.update pt.pages p ⟨.nonResident, none⟩)
    (hcount : a.allocatedCount = pt.allocatedCount + 1)
    (hupcoming : pt.upcoming = p :: a.upcoming)
    (hnext : pt.nextPageId ≤ a.nextPageId) (hp : p < a.nextPageId)
    (hle : a.nextPageId ≤ pt.maxPageCount)
    (hfree : ∀ q, q ∈ a.freePageIds ↔
      q ≠ p ∧ q < a.nextPageId ∧ (pt.pages q).state = .unused)
    (hnodup : a.freePageIds.Nodup) : a.Inv := by
  have hunused := (hinv.mem_upcoming (p := p)).mp (hupcoming ▸ List.mem_cons_self)
  have hinUse : a.inUse = insert p pt.inUse := by
    ext q
    rw [mem_inUse, Finset.mem_insert, mem_inUse, hmax, hpages]
    by_cases hq : q = p
    · subst hq
      simp [hunused.1]
    · simp [hq]
  refine ⟨hmax ▸ hle, hnodup, ?_, ?_, ?_, ?_⟩
  · intro q
    rw [hfree, hpages]
    by_cases hq : q = p
    · subst hq
      simp
    · simp [hq]
  · intro q hq
    have hne : q ≠ p := by omega
    rw [hpages, Function.update_of_ne hne]
    exact hinv.fresh q (by omega)
  · rw [hcount, hinUse, Finset.card_insert_of_notMem, hinv.count_eq]
    simp [mem_inUse, hunused.2]
  · intro q
    rw [hpages]
    by_cases hq : q = p
    · subst hq
      simp [PageState.isManaged]
    · simpa [hq] using hinv.frame_iff q

/-- `AllocatePageId` hands out the first upcoming id and makes it non-resident. -/
theorem allocatePageId_ok {pt : PageTable} (hinv : pt.Inv) {p : Nat} {rest : List Nat}
    (h : pt.upcoming = p :: rest) :
    ∃ pt', pt.allocatePageId = .ok (p, pt') ∧ pt'.Inv ∧ pt'.upcoming = rest ∧
      pt'.pages = Function.update pt.pages p ⟨.nonResident, none⟩ ∧
      pt'.maxPageCount = pt.maxPageCount := by
  have hunused := (hinv.mem_upcoming (p := p)).mp (h ▸ List.mem_cons_self)
  have hnext := hinv.next_le
  cases hfree : pt.freePageIds with
  | cons q rest' =>
    have hq : q = p ∧
        rest' ++ List.range' pt.nextPageId (pt.maxPageCount - pt.nextPageId) = rest := by
      simpa [upcoming, hfree] using h
    obtain ⟨rfl, hrest⟩ := hq
    let pt' : PageTable := { ({ pt with freePageIds := rest' } : PageTable).setEntry q
      ⟨.nonResident, none⟩ with allocatedCount := pt.allocatedCount + 1 }
    have hmem := (hinv.mem_free q).mp (hfree ▸ List.mem_cons_self)
    have hnodup := hinv.free_nodup
    rw [hfree, List.nodup_cons] at hnodup
    refine ⟨pt', ?_, ?_, hrest, rfl, rfl⟩
    · have hpop : pt.popPageId = .ok (q, { pt with freePageIds := rest' }) := by
        simp only [popPageId, hfree]
      have hentry : ({ pt with freePageIds := rest' } : PageTable).entryFor q =
          .ok (pt.pages q) := entryFor_ok hunused.1
      rw [allocatePageId, hpop]
      change (({ pt with freePageIds := rest' } : PageTable).entryFor q >>= _) = _
      rw [hentry]
      rfl
    · refine hinv.allocate (p := q) (a := pt') rfl rfl rfl ?_ le_rfl hmem.1 hnext ?_ hnodup.2
      · rw [h, ← hrest]
        rfl
      · intro r
        have hr := hinv.mem_free r
        rw [hfree, List.mem_cons] at hr
        constructor
        · intro hr'
          have hne : r ≠ q := fun heq => hnodup.1 (heq ▸ hr')
          exact ⟨hne, hr.mp (Or.inr hr')⟩
        · rintro ⟨hne, hr'⟩
          exact (hr.mpr hr').resolve_left hne
  | nil =>
    have hlt : pt.nextPageId < pt.maxPageCount := by
      by_contra hge
      have : pt.maxPageCount - pt.nextPageId = 0 := by omega
      simp [upcoming, hfree, this] at h
    have hsub : pt.maxPageCount - pt.nextPageId = (pt.maxPageCount - (pt.nextPageId + 1)) + 1 := by
      omega
    have hq : pt.nextPageId = p ∧
        List.range' (pt.nextPageId + 1) (pt.maxPageCount - (pt.nextPageId + 1)) = rest := by
      rw [upcoming, hfree, hsub, List.range'_succ] at h
      simpa using h
    obtain ⟨hp, hrest⟩ := hq
    let pt' : PageTable := { ({ pt with nextPageId := pt.nextPageId + 1 } : PageTable).setEntry p
      ⟨.nonResident, none⟩ with allocatedCount := pt.allocatedCount + 1 }
    have hupcoming' : pt'.upcoming = rest := by
      change pt.freePageIds ++ List.range' (pt.nextPageId + 1) _ = rest
      rw [hfree, List.nil_append]
      exact hrest
    refine ⟨pt', ?_, ?_, hupcoming', rfl, rfl⟩
    · have hpop : pt.popPageId = .ok (p, { pt with nextPageId := pt.nextPageId + 1 }) := by
        simp only [popPageId, hfree, Nat.ne_of_lt hlt, if_false]
        rw [hp]
      have hentry : ({ pt with nextPageId := pt.nextPageId + 1 } : PageTable).entryFor p =
          .ok (pt.pages p) := entryFor_ok hunused.1
      rw [allocatePageId, hpop]
      change (({ pt with nextPageId := pt.nextPageId + 1 } : PageTable).entryFor p >>= _) = _
      rw [hentry]
      rfl
    · refine hinv.allocate (p := p) (a := pt') rfl rfl rfl ?_ (Nat.le_succ _) ?_ hlt ?_ ?_
      · rw [h, hupcoming']
      · change p < pt.nextPageId + 1
        omega
      · intro r
        have hr := hinv.mem_free r
        rw [hfree] at hr
        change r ∈ pt.freePageIds ↔ _ ∧ r < pt.nextPageId + 1 ∧ _
        rw [hfree]
        constructor
        · intro h'
          cases h'
        · rintro ⟨hne, hlt', hs⟩
          exact absurd (hr.mpr ⟨by omega, hs⟩) List.not_mem_nil
      · exact hinv.free_nodup

/-- `AllocatePageId` throws exactly when no id is left. -/
theorem allocatePageId_error {pt : PageTable} (hinv : pt.Inv) (h : pt.upcoming = []) :
    pt.allocatePageId = .error ⟨.runtimeError, "maximum number of pages reached"⟩ := by
  have hnext := hinv.next_le
  obtain ⟨hfree, hrange⟩ := List.append_eq_nil_iff.mp h
  have : pt.nextPageId = pt.maxPageCount := by
    have := congrArg List.length hrange
    simp only [List.length_range', List.length_nil] at this
    omega
  have hpop : pt.popPageId = .error ⟨.runtimeError, "maximum number of pages reached"⟩ := by
    simp only [popPageId, hfree, this, if_true]
  rw [allocatePageId, hpop]
  rfl

/-- `FreePageId` of a page that is out of memory puts its id in front. -/
theorem freePageId_spec {pt : PageTable} (hinv : pt.Inv) {p : Nat}
    (hstate : (pt.pages p).state = .nonResident) :
    ∃ pt', pt.freePageId p = .ok pt' ∧ pt'.Inv ∧ pt'.upcoming = p :: pt.upcoming ∧
      pt'.pages = Function.update pt.pages p {} ∧ pt'.maxPageCount = pt.maxPageCount := by
  have hused : (pt.pages p).state ≠ .unused := by simp [hstate]
  have hp := hinv.lt_of_state hused
  have hlt : p < pt.nextPageId := by
    by_contra hge
    exact hused (hinv.fresh p (Nat.le_of_not_lt hge))
  have hnot : p ∉ pt.freePageIds := fun hmem => hused ((hinv.mem_free p).mp hmem).2
  let pt' : PageTable := { pt.setEntry p {} with
    freePageIds := p :: pt.freePageIds
    allocatedCount := pt.allocatedCount - 1 }
  have hinUse : pt'.inUse = pt.inUse.erase p := by
    ext q
    rw [mem_inUse, Finset.mem_erase, mem_inUse]
    change q < pt.maxPageCount ∧ (Function.update pt.pages p {} q).state ≠ _ ↔ _
    by_cases hq : q = p
    · subst hq
      simp
    · simp [hq]
  refine ⟨pt', freePageId_ok hp hstate, ⟨hinv.next_le, ?_, ?_, ?_, ?_, ?_⟩, rfl, rfl, rfl⟩
  · exact List.nodup_cons.mpr ⟨hnot, hinv.free_nodup⟩
  · intro q
    change q ∈ p :: pt.freePageIds ↔ q < pt.nextPageId ∧ (Function.update pt.pages p {} q).state = _
    rw [List.mem_cons, hinv.mem_free]
    by_cases hq : q = p
    · subst hq
      simp [hlt]
    · simp [hq]
  · intro q hq
    change (Function.update pt.pages p {} q).state = _
    by_cases hqp : q = p
    · subst hqp
      simp
    · rw [Function.update_of_ne hqp]
      exact hinv.fresh q hq
  · rw [hinUse, Finset.card_erase_of_mem (mem_inUse.mpr ⟨hp, hused⟩)]
    exact congrArg (· - 1) hinv.count_eq
  · intro q
    change (Function.update pt.pages p {} q).frameId.isSome =
      (Function.update pt.pages p {} q).state.isManaged
    by_cases hq : q = p
    · subst hq
      simp [PageState.isManaged]
    · simpa [hq] using hinv.frame_iff q

end PageTable

end BufferManager
