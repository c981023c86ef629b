/-
  Page/Refinement.lean --- the bitmap allocator and the page table over whole
  sequences of calls.

  The allocator stands for a finite set of frames; the page table stands for the
  entries of the ids.  Each is specified by the steps such a value may take, with
  what the call gives back, and the code's calls, throwing ones included, follow
  the specification from construction on.
-/
import BufferManager.Lib.Transition
import BufferManager.Page.FrameAllocator
import BufferManager.Page.PageTable

set_option autoImplicit false

namespace BufferManager

open BufferManager.Lib

/-! ## The frame allocator -/

namespace FrameAllocator

/-- `free_count()`, a difference of two `std::size_t`. -/
def freeCount (fa : FrameAllocator) : Nat :=
  (2 ^ 64 + fa.frameCount - fa.allocatedCount) % 2 ^ 64

/-- The calls that change the allocator. -/
inductive Op where
  | allocateFrame
  | freeFrame (frameId : Nat)

/-- A call, with what it returns or throws and the allocator it leaves. -/
def call (fa : FrameAllocator) : Op → Except Error (Option Nat) × FrameAllocator
  | .allocateFrame => (.ok fa.allocateFrame.1, fa.allocateFrame.2)
  | .freeFrame frameId =>
      match fa.freeFrame frameId with
      | .ok fa' => (.ok none, fa')
      | .error e => (.error e, fa)

/-- What may happen to the set of allocated frames, of `n` in all. -/
inductive SetStep (n : Nat) :
    Finset Nat → Op × Except Error (Option Nat) → Finset Nat → Prop where
  | take (s : Finset Nat) (f : Nat) : f < n → f ∉ s →
      SetStep n s (.allocateFrame, .ok (some f)) (insert f s)
  | full (s : Finset Nat) : (∀ f, f < n → f ∈ s) → SetStep n s (.allocateFrame, .ok none) s
  | give (s : Finset Nat) (f : Nat) : f ∈ s → SetStep n s (.freeFrame f, .ok none) (s.erase f)
  | refuse (s : Finset Nat) (f : Nat) (e : Error) : f ∉ s →
      SetStep n s (.freeFrame f, .error e) s

/-- The allocator stands for the set `s` of `n` frames. -/
structure StandsFor (n : Nat) (fa : FrameAllocator) (s : Finset Nat) : Prop where
  inv : fa.Inv
  frameCount : fa.frameCount = n
  allocated : fa.allocated = s

theorem freeFrame_error {fa : FrameAllocator} {f : Nat} (h : f ∉ fa.allocated) :
    ∃ e, fa.freeFrame f = .error e := by
  have hcheck : ∃ e, fa.validateAllocatedFrameId f = .error e := by
    unfold validateAllocatedFrameId validateFrameId
    by_cases hf : f < fa.frameCount
    · have hbit : fa.testBit f = false := by
        have := fun hbit => h (mem_allocated.mpr ⟨hf, hbit⟩)
        simpa using this
      rw [if_neg (Nat.not_le_of_lt hf), isAllocated_of_lt hf, hbit]
      exact ⟨_, rfl⟩
    · rw [if_pos (Nat.le_of_not_lt hf)]
      exact ⟨_, rfl⟩
  obtain ⟨e, he⟩ := hcheck
  refine ⟨e, ?_⟩
  unfold freeFrame
  rw [he]
  rfl

/-- Each call is a step of the set. -/
theorem call_refines (n : Nat) (fa : FrameAllocator) (s : Finset Nat) (op : Op)
    (h : StandsFor n fa s) :
    ∃ s', SetStep n s (op, (fa.call op).1) s' ∧ StandsFor n (fa.call op).2 s' := by
  obtain ⟨hinv, rfl, rfl⟩ := h
  cases op with
  | allocateFrame =>
    cases hres : fa.allocateFrame with
    | mk choice fa' =>
      simp only [call, hres]
      cases choice with
      | none =>
        obtain ⟨rfl, hfull⟩ := allocateFrame_none hinv hres
        refine ⟨_, .full _ fun f hf => ?_, ⟨hinv, rfl, rfl⟩⟩
        rw [hfull]
        exact Finset.mem_range.mpr hf
      | some f =>
        obtain ⟨hinv', hf, hnot, hadded, -, hcount⟩ := allocateFrame_some hinv hres
        exact ⟨_, .take _ f hf hnot, ⟨hinv', hcount, hadded⟩⟩
  | freeFrame f =>
    by_cases hf : f ∈ fa.allocated
    · obtain ⟨fa', hok, hinv', hremoved, -, hcount⟩ := freeFrame_ok hinv hf
      simp only [call, hok]
      exact ⟨_, .give _ f hf, ⟨hinv', hcount, hremoved⟩⟩
    · obtain ⟨e, he⟩ := freeFrame_error hf
      simp only [call, he]
      exact ⟨_, .refuse _ f e hf, ⟨hinv, rfl, rfl⟩⟩

namespace StandsFor

variable {n : Nat} {fa : FrameAllocator} {s : Finset Nat}

theorem lt (h : StandsFor n fa s) {f : Nat} (hf : f ∈ s) : f < n := by
  rw [← h.allocated, mem_allocated, h.frameCount] at hf
  exact hf.1

theorem card_le (h : StandsFor n fa s) : s.card ≤ n := by
  have hsub : s ⊆ Finset.range n := fun f hf => Finset.mem_range.mpr (h.lt hf)
  simpa using Finset.card_le_card hsub

theorem isAllocated (h : StandsFor n fa s) {f : Nat} (hf : f < n) :
    fa.isAllocated f = .ok (decide (f ∈ s)) := by
  have hlt : f < fa.frameCount := h.frameCount ▸ hf
  rw [isAllocated_of_lt hlt, ← h.allocated]
  simp [mem_allocated, hlt]

theorem allocatedCount (h : StandsFor n fa s) : fa.allocatedCount = s.card := by
  rw [h.inv.count_eq, h.allocated]

theorem freeCount (h : StandsFor n fa s) : fa.freeCount + s.card = n := by
  have hle := h.card_le
  have hbound := h.inv.frameCount_le
  rw [h.frameCount] at hbound
  unfold FrameAllocator.freeCount
  rw [h.frameCount, h.allocatedCount]
  omega

/-- The search hint plays no part in what the allocator stands for. -/
theorem withHint (h : StandsFor n fa s) {i : Nat} (hi : i < fa.allocationBitmap.length) :
    StandsFor n { fa with nextSearchWord := i } s :=
  ⟨⟨h.inv.frameCount_pos, h.inv.frameCount_le, h.inv.length_eq, h.inv.padding, h.inv.count_eq,
    hi⟩, h.frameCount, h.allocated⟩

end StandsFor

/-- From construction on, the allocator is a finite set of frames: whatever calls are
made, what they give back and what they do follow the set; the queries answer for the
set; the padding bits stay set; and wherever the search hint stands, the next frame
handed out is a frame outside the set. -/
theorem refines_finset {n : Nat} (hpos : 1 ≤ n) (hle : n ≤ 2 ^ 32 - 1) (ops : List Op) :
    ∃ fa₀, make n = .ok fa₀ ∧ ∃ s,
      Path (SetStep n) ∅ (perform call fa₀ ops).1 s ∧
      let fa := (perform call fa₀ ops).2
      (∀ f, f < n → fa.isAllocated f = .ok (decide (f ∈ s))) ∧
      (∀ f, f ∈ s → f < n) ∧
      fa.allocatedCount = s.card ∧ fa.freeCount + s.card = n ∧
      (∀ f, n ≤ f → f < kBitsPerWord * fa.allocationBitmap.length → fa.testBit f = true) ∧
      ∀ i, i < fa.allocationBitmap.length →
        ∃ s', SetStep n s (.allocateFrame,
          .ok ({ fa with nextSearchWord := i } : FrameAllocator).allocateFrame.1) s' := by
  obtain ⟨fa₀, hmake, hinv, hempty, hcount, -⟩ := make_ok hpos hle
  obtain ⟨s, hpath, h⟩ := perform_refines (call_refines n) ⟨hinv, hcount, hempty⟩ ops
  refine ⟨fa₀, hmake, s, hpath, fun f hf => h.isAllocated hf, fun f hf => h.lt hf,
    h.allocatedCount, h.freeCount, ?_, ?_⟩
  · intro f hf
    rw [← h.frameCount] at hf
    exact h.inv.padding f hf
  · intro i hi
    obtain ⟨s', hstep, -⟩ := call_refines n _ s .allocateFrame (h.withHint hi)
    exact ⟨s', hstep⟩

/-- Sixty-five frames take two words; the second has sixty-three padding bits. -/
theorem refines_finset_sixtyFive :
    ∃ fa₀, make 65 = .ok fa₀ ∧ ∃ s,
      Path (SetStep 65) ∅ (perform call fa₀ [.allocateFrame, .freeFrame 0, .freeFrame 70]).1 s := by
  obtain ⟨fa₀, hmake, s, hpath, -⟩ := refines_finset (n := 65) (by decide) (by decide)
    [.allocateFrame, .freeFrame 0, .freeFrame 70]
  exact ⟨fa₀, hmake, s, hpath⟩

end FrameAllocator

/-! ## The page table -/

namespace PageTable

/-- The calls that change the table. -/
inductive Op where
  | allocatePageId
  | freePageId (pageId : Nat)
  | setLoading (pageId frameId : Nat)
  | setResident (pageId frameId : Nat)
  | setNonResident (pageId : Nat)
  | setEvicting (pageId : Nat)
  deriving DecidableEq

/-- `AllocatePageId` with the table it leaves also where it throws: the id is taken
from the free list, or from the counter, before `EntryFor` checks it. -/
def allocateCall (pt : PageTable) : Except Error (Option Nat) × PageTable :=
  match pt.popPageId with
  | .error e => (.error e, pt)
  | .ok (pageId, popped) =>
      match popped.entryFor pageId with
      | .error e => (.error e, popped)
      | .ok _ => (.ok (some pageId), { popped.setEntry pageId ⟨.nonResident, none⟩ with
          allocatedCount := popped.allocatedCount + 1 })

/-- A call that checks before it changes anything: the table it leaves. -/
def checkedCall (pt : PageTable) (result : Except Error PageTable) :
    Except Error (Option Nat) × PageTable :=
  match result with
  | .ok pt' => (.ok none, pt')
  | .error e => (.error e, pt)

/-- A call, with what it returns or throws and the table it leaves. -/
def call (pt : PageTable) : Op → Except Error (Option Nat) × PageTable
  | .allocatePageId => pt.allocateCall
  | .freePageId pageId => pt.checkedCall (pt.freePageId pageId)
  | .setLoading pageId frameId => pt.checkedCall (pt.setLoading pageId frameId)
  | .setResident pageId frameId => pt.checkedCall (pt.setResident pageId frameId)
  | .setNonResident pageId => pt.checkedCall (pt.setNonResident pageId)
  | .setEvicting pageId => pt.checkedCall (pt.setEvicting pageId)

/-- The entry of each id. -/
abbrev Entries : Type := Nat → Entry

/-- The ids below `N` that are in no use. -/
def Entries.Exhausted (N : Nat) (s : Entries) : Prop := ∀ p, p < N → (s p).state ≠ .unused

/-- The entries allow the call. -/
def Entries.Allows (N : Nat) (s : Entries) : Op → Prop
  | .allocatePageId => ¬ s.Exhausted N
  | .freePageId p => (s p).state = .nonResident
  | .setLoading p _ => (s p).state = .nonResident
  | .setResident p f => (s p).state = .nonResident ∨ s p = ⟨.loading, some f⟩
  | .setNonResident p => (s p).state ≠ .unused
  | .setEvicting p => (s p).state = .resident

/-- What a call that is allowed makes of an entry; `AllocatePageId` makes the same of
the entry it finds as `SetNonResident` of the one it is given. -/
def Op.result (old : Entry) : Op → Entry
  | .allocatePageId | .setNonResident _ => ⟨.nonResident, none⟩
  | .freePageId _ => {}
  | .setLoading _ f => ⟨.loading, some f⟩
  | .setResident _ f => ⟨.resident, some f⟩
  | .setEvicting _ => ⟨.evicting, old.frameId⟩

/-- The id a call is given. -/
def Op.pageId : Op → Option Nat
  | .allocatePageId => none
  | .freePageId p | .setLoading p _ | .setResident p _ | .setNonResident p
  | .setEvicting p => some p

/-- What may happen to the entries of `N` ids. -/
inductive EntriesStep (N : Nat) : Entries → Op × Except Error (Option Nat) → Entries → Prop where
  | allocate (s : Entries) (p : Nat) : p < N → (s p).state = .unused →
      EntriesStep N s (.allocatePageId, .ok (some p))
        (Function.update s p (Op.allocatePageId.result (s p)))
  | change (s : Entries) (op : Op) (p : Nat) : op.pageId = some p → s.Allows N op →
      EntriesStep N s (op, .ok none) (Function.update s p (op.result (s p)))
  | refuse (s : Entries) (op : Op) (e : Error) : ¬ s.Allows N op →
      EntriesStep N s (op, .error e) s

/-- The table stands for the entries `s` of `N` ids. -/
structure StandsFor (N : Nat) (pt : PageTable) (s : Entries) : Prop where
  inv : pt.Inv
  maxPageCount : pt.maxPageCount = N
  pages : pt.pages = s

/-! ### Refused calls -/

section Refused

variable {pt : PageTable} {p : Nat}

theorem entryFor_cases (pt : PageTable) (p : Nat) :
    pt.entryFor p = .ok (pt.pages p) ∨ pt.entryFor p = .error ⟨.outOfRange, "invalid page id"⟩ := by
  by_cases hp : p < pt.maxPageCount
  · exact Or.inl (entryFor_ok hp)
  · exact Or.inr (entryFor_error (Nat.le_of_not_lt hp))

theorem freePageId_error (h : (pt.pages p).state ≠ .nonResident) :
    ∃ e, pt.freePageId p = .error e := by
  unfold freePageId
  rcases entryFor_cases pt p with hentry | hentry
  · rw [hentry]
    change ∃ e, (if (pt.pages p).state = .unused then _ else _) = _
    split
    · exact ⟨_, rfl⟩
    · exact ⟨_, rfl⟩
  · rw [hentry]
    exact ⟨_, rfl⟩

theorem setLoading_error {f : Nat} (h : (pt.pages p).state ≠ .nonResident) :
    ∃ e, pt.setLoading p f = .error e := by
  unfold setLoading
  rcases entryFor_cases pt p with hentry | hentry
  · rw [hentry]
    change ∃ e, (if (pt.pages p).state = .unused then _ else _) = _
    split
    · exact ⟨_, rfl⟩
    · exact ⟨_, rfl⟩
  · rw [hentry]
    exact ⟨_, rfl⟩

theorem setNonResident_error (h : (pt.pages p).state = .unused) :
    ∃ e, pt.setNonResident p = .error e := by
  unfold setNonResident
  rcases entryFor_cases pt p with hentry | hentry
  · rw [hentry]
    change ∃ e, (if (pt.pages p).state = .unused then _ else _) = _
    rw [if_pos h]
    exact ⟨_, rfl⟩
  · rw [hentry]
    exact ⟨_, rfl⟩

theorem setEvicting_error (h : (pt.pages p).state ≠ .resident) :
    ∃ e, pt.setEvicting p = .error e := by
  unfold setEvicting
  rcases entryFor_cases pt p with hentry | hentry
  · rw [hentry]
    change ∃ e, (if (pt.pages p).state = .unused then _ else _) = _
    split
    · exact ⟨_, rfl⟩
    · exact ⟨_, rfl⟩
  · rw [hentry]
    exact ⟨_, rfl⟩

end Refused

/-! ### One call -/

section OneCall

variable {N : Nat} {pt : PageTable} {s : Entries}

/-- A checked call that was refused is a step. -/
theorem StandsFor.refused (h : StandsFor N pt s) {op : Op} {result : Except Error PageTable}
    (hno : ¬ s.Allows N op) (herror : ∃ e, result = .error e) :
    ∃ s', EntriesStep N s (op, (pt.checkedCall result).1) s' ∧
      StandsFor N (pt.checkedCall result).2 s' := by
  obtain ⟨e, rfl⟩ := herror
  exact ⟨s, .refuse s op e hno, h⟩

/-- A checked call that replaced one entry is a step. -/
theorem StandsFor.changed (h : StandsFor N pt s) {op : Op} {p : Nat} {pt' : PageTable}
    {result : Except Error PageTable} (hp : op.pageId = some p) (hallows : s.Allows N op)
    (hok : result = .ok pt') (hinv : pt'.Inv) (hmax : pt'.maxPageCount = pt.maxPageCount)
    (hpages : pt'.pages = Function.update pt.pages p (op.result (pt.pages p))) :
    ∃ s', EntriesStep N s (op, (pt.checkedCall result).1) s' ∧
      StandsFor N (pt.checkedCall result).2 s' := by
  subst hok
  refine ⟨_, .change s op p hp hallows, ⟨hinv, hmax.trans h.maxPageCount, ?_⟩⟩
  rw [← h.pages]
  exact hpages

/-- A call that gives an id in use another entry in use is a step. -/
theorem StandsFor.entrySet (h : StandsFor N pt s) {op : Op} {p : Nat}
    {result : Except Error PageTable} (hp : op.pageId = some p) (hallows : s.Allows N op)
    (hok : result = .ok (pt.setEntry p (op.result (pt.pages p))))
    (hused : (pt.pages p).state ≠ .unused) (hset : (op.result (pt.pages p)).state ≠ .unused)
    (hframe : (op.result (pt.pages p)).frameId.isSome =
      (op.result (pt.pages p)).state.isManaged) :
    ∃ s', EntriesStep N s (op, (pt.checkedCall result).1) s' ∧
      StandsFor N (pt.checkedCall result).2 s' :=
  h.changed hp hallows hok (h.inv.setEntry hused hset hframe) rfl rfl

theorem allocateCall_of_ok {p : Nat} {pt' : PageTable} (h : pt.allocatePageId = .ok (p, pt')) :
    pt.allocateCall = (.ok (some p), pt') := by
  unfold allocatePageId at h
  unfold allocateCall
  cases hpop : pt.popPageId with
  | error e =>
    rw [hpop] at h
    cases h
  | ok x =>
    rw [hpop] at h
    change (x.2.entryFor x.1 >>= _) = _ at h
    cases hentry : x.2.entryFor x.1 with
    | error e =>
      rw [hentry] at h
      cases h
    | ok entry =>
      rw [hentry] at h
      obtain ⟨rfl, rfl⟩ := Prod.mk.inj (Except.ok.inj h)
      have hcount : x.2.allocatedCount = pt.allocatedCount := by
        unfold popPageId at hpop
        split at hpop
        · obtain rfl := Except.ok.inj hpop
          rfl
        · split at hpop
          · cases hpop
          · obtain rfl := Except.ok.inj hpop
            rfl
      simp [hentry, hcount]

theorem allocateCall_of_nil (hinv : pt.Inv) (h : pt.upcoming = []) :
    pt.allocateCall = (.error ⟨.runtimeError, "maximum number of pages reached"⟩, pt) := by
  obtain ⟨hfree, hrange⟩ := List.append_eq_nil_iff.mp h
  have hend : pt.nextPageId = pt.maxPageCount := by
    have hlen := congrArg List.length hrange
    have hnext := hinv.next_le
    simp only [List.length_range', List.length_nil] at hlen
    omega
  unfold allocateCall popPageId
  simp [hfree, hend]

/-- Each call is a step of the entries. -/
theorem call_refines (N : Nat) (pt : PageTable) (s : Entries) (op : Op)
    (h : StandsFor N pt s) :
    ∃ s', EntriesStep N s (op, (pt.call op).1) s' ∧ StandsFor N (pt.call op).2 s' := by
  obtain ⟨hinv, rfl, rfl⟩ := id h
  cases op with
  | allocatePageId =>
    cases hids : pt.upcoming with
    | nil =>
      simp only [call, allocateCall_of_nil hinv hids]
      refine ⟨_, .refuse _ _ _ ?_, h⟩
      intro hallows
      apply hallows
      intro p hp hunused
      have hmem := hinv.mem_upcoming.mpr ⟨hp, hunused⟩
      rw [hids] at hmem
      cases hmem
    | cons p rest =>
      obtain ⟨pt', hok, hinv', -, hpages, hmax⟩ := allocatePageId_ok hinv hids
      have hp := (hinv.mem_upcoming (p := p)).mp (hids ▸ List.mem_cons_self)
      simp only [call, allocateCall_of_ok hok]
      exact ⟨_, .allocate _ p hp.1 hp.2, ⟨hinv', hmax, hpages⟩⟩
  | freePageId p =>
    by_cases hstate : (pt.pages p).state = .nonResident
    · obtain ⟨pt', hok, hinv', -, hpages, hmax⟩ := freePageId_spec hinv hstate
      exact h.changed rfl hstate hok hinv' hmax hpages
    · exact h.refused hstate (freePageId_error hstate)
  | setLoading p f =>
    by_cases hstate : (pt.pages p).state = .nonResident
    · have hused : (pt.pages p).state ≠ .unused := by simp [hstate]
      exact h.entrySet rfl hstate (setLoading_ok f (hinv.lt_of_state hused) hstate) hused
        (by simp [Op.result]) rfl
    · exact h.refused hstate (setLoading_error hstate)
  | setResident p f =>
    by_cases hstate : (pt.pages p).state = .nonResident ∨ pt.pages p = ⟨.loading, some f⟩
    · have hused : (pt.pages p).state ≠ .unused := by
        rcases hstate with hstate | hstate <;> simp [hstate]
      exact h.entrySet rfl hstate (setResident_ok (hinv.lt_of_state hused) hstate) hused
        (by simp [Op.result]) rfl
    · obtain ⟨hne, hframe⟩ := not_or.mp hstate
      obtain ⟨e, -, he⟩ := setResident_error (p := p) (f := f) (fun _ => hne) fun hload hsome =>
        hframe (by
          cases hentry : pt.pages p with
          | mk state frameId =>
            rw [hentry] at hload hsome
            simp only at hload hsome
            rw [hload, hsome])
      exact h.refused hstate ⟨e, he⟩
  | setNonResident p =>
    by_cases hstate : (pt.pages p).state = .unused
    · exact h.refused (not_not_intro hstate) (setNonResident_error hstate)
    · exact h.entrySet rfl hstate (setNonResident_ok (hinv.lt_of_state hstate) hstate) hstate
        (by simp [Op.result]) rfl
  | setEvicting p =>
    by_cases hstate : (pt.pages p).state = .resident
    · have hused : (pt.pages p).state ≠ .unused := by simp [hstate]
      refine h.entrySet rfl hstate (setEvicting_ok (hinv.lt_of_state hused) hstate) hused
        (by simp [Op.result]) ?_
      have hframe := hinv.frame_iff p
      rw [hstate] at hframe
      exact hframe
    · exact h.refused hstate (setEvicting_error hstate)

/-- A call that throws leaves the table as it was. -/
theorem call_error (hinv : pt.Inv) {op : Op} {e : Error} (h : (pt.call op).1 = .error e) :
    (pt.call op).2 = pt := by
  have hchecked : ∀ result : Except Error PageTable, (pt.checkedCall result).1 = .error e →
      (pt.checkedCall result).2 = pt := by
    intro result hresult
    cases result with
    | ok pt' => cases hresult
    | error e' => rfl
  cases op with
  | allocatePageId =>
    cases hids : pt.upcoming with
    | nil => simp [call, allocateCall_of_nil hinv hids]
    | cons p rest =>
      obtain ⟨pt', hok, -⟩ := allocatePageId_ok hinv hids
      simp [call, allocateCall_of_ok hok] at h
  | freePageId p => exact hchecked _ h
  | setLoading p f => exact hchecked _ h
  | setResident p f => exact hchecked _ h
  | setNonResident p => exact hchecked _ h
  | setEvicting p => exact hchecked _ h

/-- The count never falls below zero: there is one id in use when one is freed. -/
theorem freePageId_count (hinv : pt.Inv) {p : Nat} {r : Option Nat}
    (h : (pt.call (.freePageId p)).1 = .ok r) :
    (pt.call (.freePageId p)).2.allocatedCount + 1 = pt.allocatedCount := by
  by_cases hstate : (pt.pages p).state = .nonResident
  · have hused : (pt.pages p).state ≠ .unused := by simp [hstate]
    have hp := hinv.lt_of_state hused
    have hpos : 0 < pt.inUse.card := Finset.card_pos.mpr ⟨p, mem_inUse.mpr ⟨hp, hused⟩⟩
    have hcount := hinv.count_eq
    simp only [call, checkedCall, freePageId_ok hp hstate]
    omega
  · obtain ⟨e, he⟩ := freePageId_error hstate
    simp [call, checkedCall, he] at h

end OneCall

/-! ### Sequences of calls -/

/-- How often the calls handed out `p`. -/
def handedOut (p : Nat) (trace : List (Op × Except Error (Option Nat))) : Nat :=
  trace.countP fun
    | (.allocatePageId, .ok (some q)) => q == p
    | _ => false

/-- How often the calls took `p` back. -/
def takenBack (p : Nat) (trace : List (Op × Except Error (Option Nat))) : Nat :=
  trace.countP fun
    | (.freePageId q, .ok _) => q == p
    | _ => false

/-- Whether `p` is in use, as a number. -/
def Entries.uses (s : Entries) (p : Nat) : Nat := if (s p).state = .unused then 0 else 1

theorem EntriesStep.uses {N : Nat} {s s' : Entries} {x : Op × Except Error (Option Nat)}
    (h : EntriesStep N s x s') (p : Nat) :
    s.uses p + handedOut p [x] = s'.uses p + takenBack p [x] := by
  have hself : ∀ q e, (Entries.uses (Function.update s q e) p) =
      if p = q then (if e.state = .unused then 0 else 1) else s.uses p := by
    intro q e
    unfold Entries.uses
    by_cases hq : p = q
    · subst hq
      simp
    · simp [hq]
  cases h with
  | allocate q hq hunused =>
    rw [hself]
    by_cases hpq : p = q
    · subst hpq
      simp [Entries.uses, hunused, handedOut, takenBack, Op.result]
    · simp [handedOut, takenBack, hpq, Ne.symm hpq]
  | change op q hop hallows =>
    rw [hself]
    by_cases hpq : p = q
    · subst hpq
      cases op with
      | allocatePageId => cases hop
      | freePageId r =>
        obtain rfl := Option.some.inj hop
        have hstate : (s r).state = .nonResident := hallows
        simp [Entries.uses, hstate, handedOut, takenBack, Op.result]
      | setLoading r f =>
        obtain rfl := Option.some.inj hop
        have hstate : (s r).state = .nonResident := hallows
        simp [Entries.uses, hstate, handedOut, takenBack, Op.result]
      | setResident r f =>
        obtain rfl := Option.some.inj hop
        have hstate : (s r).state ≠ .unused := by
          rcases hallows with hstate | hstate <;> simp [hstate]
        simp [Entries.uses, hstate, handedOut, takenBack, Op.result]
      | setNonResident r =>
        obtain rfl := Option.some.inj hop
        have hstate : (s r).state ≠ .unused := hallows
        simp [Entries.uses, hstate, handedOut, takenBack, Op.result]
      | setEvicting r =>
        obtain rfl := Option.some.inj hop
        have hstate : (s r).state = .resident := hallows
        simp [Entries.uses, hstate, handedOut, takenBack, Op.result]
    · rw [if_neg hpq]
      cases op with
      | allocatePageId => cases hop
      | freePageId r =>
        obtain rfl := Option.some.inj hop
        simp [handedOut, takenBack, Ne.symm hpq]
      | setLoading r f => simp [handedOut, takenBack]
      | setResident r f => simp [handedOut, takenBack]
      | setNonResident r => simp [handedOut, takenBack]
      | setEvicting r => simp [handedOut, takenBack]
  | refuse op e hno =>
    cases op <;> simp [handedOut, takenBack]

theorem uses_of_path {N : Nat} {s s' : Entries} {trace : List (Op × Except Error (Option Nat))}
    (h : Path (EntriesStep N) s trace s') (p : Nat) :
    s.uses p + handedOut p trace = s'.uses p + takenBack p trace := by
  induction h with
  | nil s => rfl
  | @cons s s₁ s' x xs hstep _ ih =>
    have hone := hstep.uses p
    have hout : handedOut p (x :: xs) = handedOut p [x] + handedOut p xs := by
      unfold handedOut
      rw [← List.countP_append, List.singleton_append]
    have hback : takenBack p (x :: xs) = takenBack p [x] + takenBack p xs := by
      unfold takenBack
      rw [← List.countP_append, List.singleton_append]
    omega

/-- From construction on, whatever calls are made with whatever arguments, the
representation agrees with itself, the calls follow the entries, an id is handed out
again exactly once for each time it was taken back, and a call that throws changes
nothing. -/
theorem keeps_representation {N : Nat} (hpos : 1 ≤ N) (hle : N ≤ 2 ^ 64 - 1) (ops : List Op) :
    ∃ pt₀, make N = .ok pt₀ ∧
      let trace := (perform call pt₀ ops).1
      let pt := (perform call pt₀ ops).2
      pt.freePageIds.Nodup ∧
      (∀ p, p ∈ pt.freePageIds ↔ p < pt.nextPageId ∧ (pt.pages p).state = .unused) ∧
      (∀ p, pt.nextPageId ≤ p → (pt.pages p).state = .unused) ∧
      pt.allocatedCount = pt.inUse.card ∧
      (∀ p, (pt.pages p).frameId.isSome ↔
        (pt.pages p).state = .loading ∨ (pt.pages p).state = .resident ∨
          (pt.pages p).state = .evicting) ∧
      Path (EntriesStep N) (fun _ => {}) trace pt.pages ∧
      (∀ p, (pt.call .allocatePageId).1 = .ok (some p) →
        p < N ∧ (pt.pages p).state = .unused) ∧
      ((∃ e, (pt.call .allocatePageId).1 = .error e) ↔
        ∀ p, p < N → (pt.pages p).state ≠ .unused) ∧
      (∀ p, handedOut p trace = Entries.uses pt.pages p + takenBack p trace) ∧
      (∀ p r, (pt.call (.freePageId p)).1 = .ok r →
        (pt.call (.freePageId p)).2.allocatedCount + 1 = pt.allocatedCount) ∧
      ∀ op e, (pt.call op).1 = .error e → (pt.call op).2 = pt := by
  obtain ⟨pt₀, hmake, hinv, hpages, hmax, -⟩ := make_ok hpos hle
  have hstart : StandsFor N pt₀ (fun _ => {}) := ⟨hinv, hmax, funext hpages⟩
  obtain ⟨s, hpath, h⟩ := perform_refines (call_refines N) hstart ops
  obtain ⟨hinv, -, rfl⟩ := id h
  obtain ⟨s', hnext, -⟩ := call_refines N _ _ .allocatePageId h
  refine ⟨pt₀, hmake, hinv.free_nodup, hinv.mem_free, hinv.fresh, hinv.count_eq, ?_, hpath, ?_, ?_,
    ?_, fun p r hr => freePageId_count hinv hr, fun op e he => call_error hinv he⟩
  · intro p
    rw [hinv.frame_iff p]
    cases ((perform call pt₀ ops).2.pages p).state <;> simp [PageState.isManaged]
  · intro p hp
    rw [hp] at hnext
    cases hnext with
    | allocate q hq hunused => exact ⟨hq, hunused⟩
  · constructor
    · rintro ⟨e, he⟩
      rw [he] at hnext
      cases hnext with
      | refuse op e' hno => exact not_not.mp hno
    · intro hall
      generalize ((perform call pt₀ ops).2.call .allocatePageId).1 = r at hnext ⊢
      cases hnext with
      | allocate q hq hunused => exact absurd hunused (hall q hq)
      | change op q hop hallows => cases hop
      | refuse op e hno => exact ⟨e, rfl⟩
  · intro p
    have hcount := uses_of_path hpath p
    have hzero : Entries.uses (fun _ => {}) p = 0 := rfl
    omega

/-- An id taken back is handed out again. -/
theorem keeps_representation_reused :
    ∃ pt₀, make 2 = .ok pt₀ ∧
      let trace := (perform call pt₀ [.allocatePageId, .freePageId 0, .allocatePageId]).1
      let pt := (perform call pt₀ [.allocatePageId, .freePageId 0, .allocatePageId]).2
      handedOut 0 trace = Entries.uses pt.pages 0 + takenBack 0 trace := by
  obtain ⟨pt₀, hmake, h⟩ := keeps_representation (N := 2) (by decide) (by decide)
    [.allocatePageId, .freePageId 0, .allocatePageId]
  exact ⟨pt₀, hmake, h.2.2.2.2.2.2.2.2.1 0⟩

end PageTable

end BufferManager
