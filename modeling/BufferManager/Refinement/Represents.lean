/-
  Refinement/Represents.lean --- which fields represent which configuration, and
  what each call on a member does to it.

  `Represents n N m c` relates the fields `m` of a manager of `n` frames and `N`
  page ids to the protocol's configuration `c`.  It says nothing of where threads
  are, of the guards and of the disk.  Each member call has one rule: from fields
  that represent `c`, it ends as said, in fields that represent the changed
  configuration.
-/
import BufferManager.Protocol.Step
import BufferManager.Lib.Simulation

set_option autoImplicit false

namespace BufferManager.Refinement

open BufferManager.Lib BufferManager.Manager BufferManager.Protocol

variable {R τ : Type} [Replacer R] [LawfulReplacer R]

/-- The fields `m` represent `c`. -/
structure Represents (n N : Nat) (m : Manager R τ) (c : Cfg τ) : Prop where
  frameCount : m.frameCount = n
  allocator_inv : m.frameAllocator.Inv
  allocator_count : m.frameAllocator.frameCount = n
  allocated : m.frameAllocator.allocated = c.allocated
  bytes : m.frameAllocator.frames = c.bytes
  table_inv : m.pageTable.Inv
  maxPageCount : m.pageTable.maxPageCount = N
  pages : ∀ p, m.pageTable.pages p = (c.place p).entry
  upcoming : m.pageTable.upcoming = c.upcoming
  replacer_inv : LawfulReplacer.Inv n m.replacer
  present : LawfulReplacer.present m.replacer = c.present
  evictable : LawfulReplacer.evictable m.replacer = c.evictable
  frameMeta : ∀ f, m.frameMeta f = (c.frame f).meta
  asleep : m.asleep = c.asleep

variable {n N : Nat} {m : Manager R τ} {c : Cfg τ} {α : Type}
  {E : Error → Manager R τ → Prop}

namespace Represents

/-! ## The page table -/

/-- The state of a place. -/
theorem state_eq (h : Represents n N m c) (p : Nat) :
    (m.pageTable.pages p).state = (c.place p).entry.state := by
  rw [h.pages]

theorem state_unused_iff {x : Place} : x.entry.state = .unused ↔ x = .unused := by
  cases x <;> simp [Place.entry]

theorem state_nonResident_iff {x : Place} : x.entry.state = .nonResident ↔ x = .nonResident := by
  cases x <;> simp [Place.entry]

theorem lt_of_used (h : Represents n N m c) {p : Nat} (hp : c.place p ≠ .unused) :
    p < m.pageTable.maxPageCount := by
  refine h.table_inv.lt_of_state ?_
  rw [h.state_eq, ne_eq, state_unused_iff]
  exact hp

/-- An entry is given another place. -/
theorem setPlace (h : Represents n N m c) {p : Nat} {x : Place} (hp : c.place p ≠ .unused)
    (hx : x ≠ .unused) :
    Represents n N { m with pageTable := m.pageTable.setEntry p x.entry } (c.setPlace p x) := by
  have hinv : (m.pageTable.setEntry p x.entry).Inv := by
    refine h.table_inv.setEntry ?_ ?_ ?_
    · rw [h.state_eq, ne_eq, state_unused_iff]
      exact hp
    · rw [ne_eq, state_unused_iff]
      exact hx
    · cases x <;> rfl
  refine { h with
    table_inv := hinv
    pages := fun q => ?_ }
  by_cases hq : q = p
  · subst hq
    simp
  · simpa [hq] using h.pages q

theorem wp_pageState {Q : PageState → Manager R τ → Prop} (h : Represents n N m c) {p : Nat}
    (hok : Q (c.place p).entry.state m)
    (herror : c.place p = .unused → E ⟨.outOfRange, "invalid page id"⟩ m) :
    wp (pageState p : Locked R τ PageState) Q E m := by
  by_cases hp : p < m.pageTable.maxPageCount
  · refine wp_of_ok (attempt_ok ?_) hok
    rw [PageTable.state_ok hp, h.state_eq]
    rfl
  · refine wp_of_error (attempt_error ?_) (herror ?_)
    · rw [PageTable.state_error (Nat.le_of_not_lt hp)]
      rfl
    · by_contra hne
      exact hp (h.lt_of_used hne)

theorem wp_pageState_of_lt {Q : PageState → Manager R τ → Prop} (h : Represents n N m c) {p : Nat}
    (hp : p < N) (hQ : Q (c.place p).entry.state m) :
    wp (pageState p : Locked R τ PageState) Q E m := by
  refine wp_of_ok (attempt_ok ?_) hQ
  rw [PageTable.state_ok (h.maxPageCount ▸ hp), h.state_eq]
  rfl

theorem wp_residentFrame {Q : Nat → Manager R τ → Prop} (h : Represents n N m c) {p f : Nat}
    (hp : c.place p = .resident f) (hQ : Q f m) :
    wp (residentFrame p : Locked R τ Nat) Q E m := by
  refine wp_of_ok (attempt_ok ?_) hQ
  rw [PageTable.frameForPage_ok (h.lt_of_used (by simp [hp])), h.pages, hp]
  · rfl
  · rw [h.pages, hp]
    exact PageState.noConfusion

theorem wp_setLoading {Q : Unit → Manager R τ → Prop} (h : Represents n N m c) {p f : Nat}
    (hp : c.place p = .nonResident)
    (hQ : ∀ m', Represents n N m' (c.setPlace p (.loading f)) → Q () m') :
    wp (setLoading p f : Locked R τ Unit) Q E m := by
  refine wp_of_ok (attempt_ok ?_) (hQ _ (h.setPlace (by simp [hp]) (x := .loading f) (by simp)))
  rw [PageTable.setLoading_ok f (h.lt_of_used (by simp [hp]))]
  · rfl
  · rw [h.pages, hp]
    rfl

theorem wp_setResident {Q : Unit → Manager R τ → Prop} (h : Represents n N m c) {p f : Nat}
    (hp : c.place p = .nonResident ∨ c.place p = .loading f)
    (hQ : ∀ m', Represents n N m' (c.setPlace p (.resident f)) → Q () m') :
    wp (setResident p f : Locked R τ Unit) Q E m := by
  have hne : c.place p ≠ .unused := by
    rcases hp with hp | hp <;> simp [hp]
  refine wp_of_ok (attempt_ok ?_) (hQ _ (h.setPlace hne (x := .resident f) (by simp)))
  rw [PageTable.setResident_ok (f := f) (h.lt_of_used hne)]
  · rfl
  · rw [h.pages]
    rcases hp with hp | hp
    · exact Or.inl (by rw [hp]; rfl)
    · exact Or.inr (by rw [hp]; rfl)

/-- `SetResident` throws where the page is taken. -/
theorem wp_setResident_error {Q : Unit → Manager R τ → Prop} (h : Represents n N m c) {p f : Nat}
    (hp : c.place p ≠ .nonResident) (hf : c.place p ≠ .loading f)
    (hE : ∀ e, e ∈ PageTable.setResidentErrors → E e m) :
    wp (setResident p f : Locked R τ Unit) Q E m := by
  obtain ⟨e, hmem, he⟩ := PageTable.setResident_error (a := m.pageTable) (p := p) (f := f)
    (fun _ => by rw [h.pages, ne_eq, state_nonResident_iff]; exact hp)
    (by
      rw [h.pages]
      cases hx : c.place p with
      | loading g => simpa [Place.entry] using fun heq => hf (by rw [hx, heq])
      | _ => simp [Place.entry])
  refine wp_of_error (attempt_error ?_) (hE e hmem)
  rw [he]
  rfl

theorem wp_setNonResident {Q : Unit → Manager R τ → Prop} (h : Represents n N m c) {p : Nat}
    (hp : c.place p ≠ .unused)
    (hQ : ∀ m', Represents n N m' (c.setPlace p .nonResident) → Q () m') :
    wp (setNonResident p : Locked R τ Unit) Q E m := by
  refine wp_of_ok (attempt_ok ?_) (hQ _ (h.setPlace hp (x := .nonResident) (by simp)))
  rw [PageTable.setNonResident_ok (h.lt_of_used hp)]
  · rfl
  · rw [h.state_eq, ne_eq, state_unused_iff]
    exact hp

theorem wp_setEvicting {Q : Unit → Manager R τ → Prop} (h : Represents n N m c) {p f : Nat}
    (hp : c.place p = .resident f)
    (hQ : ∀ m', Represents n N m' (c.setPlace p (.evicting f)) → Q () m') :
    wp (setEvicting p : Locked R τ Unit) Q E m := by
  refine wp_of_ok (attempt_ok ?_) (hQ _ (h.setPlace (by simp [hp]) (x := .evicting f) (by simp)))
  rw [PageTable.setEvicting_ok (h.lt_of_used (by simp [hp]))]
  · rw [h.pages, hp]
    rfl
  · rw [h.pages, hp]
    rfl

theorem wp_allocatePageId {Q : Nat → Manager R τ → Prop} (h : Represents n N m c)
    (hnone : c.upcoming = [] → E ⟨.runtimeError, "maximum number of pages reached"⟩ m)
    (hsome : ∀ p rest m', c.upcoming = p :: rest →
      Represents n N m' ({ c with upcoming := rest }.setPlace p .nonResident) → Q p m') :
    wp (allocatePageId : Locked R τ Nat) Q E m := by
  cases hids : c.upcoming with
  | nil =>
    refine wp_of_error (attempt_error ?_) (hnone hids)
    rw [PageTable.allocatePageId_error h.table_inv (h.upcoming.trans hids)]
    rfl
  | cons p rest =>
    obtain ⟨pt', hok, hinv, hupcoming, hpages, hmax⟩ :=
      PageTable.allocatePageId_ok h.table_inv (h.upcoming.trans hids)
    refine wp_of_ok (t := { m with pageTable := pt' }) (attempt_ok ?_) (hsome p rest _ hids ?_)
    · rw [hok]
      rfl
    · refine { h with
        table_inv := hinv
        upcoming := hupcoming
        maxPageCount := hmax.trans h.maxPageCount
        pages := fun q => ?_ }
      change pt'.pages q = _
      rw [hpages]
      by_cases hq : q = p
      · subst hq
        simp [Place.entry]
      · simpa [hq] using h.pages q

theorem wp_freePageId {Q : Unit → Manager R τ → Prop} (h : Represents n N m c) {p : Nat}
    (hp : c.place p = .nonResident) (hQ : ∀ m', Represents n N m' (c.freeId p) → Q () m') :
    wp (freePageId p : Locked R τ Unit) Q E m := by
  obtain ⟨pt', hok, hinv, hupcoming, hpages, hmax⟩ :=
    PageTable.freePageId_spec h.table_inv (p := p) (by rw [h.pages, hp]; rfl)
  refine wp_of_ok (t := { m with pageTable := pt' }) (attempt_ok ?_) (hQ _ ?_)
  · rw [hok]
    rfl
  · refine { h with
      table_inv := hinv
      upcoming := hupcoming.trans (by rw [h.upcoming]; rfl)
      maxPageCount := hmax.trans h.maxPageCount
      pages := fun q => ?_ }
    change pt'.pages q = _
    rw [hpages]
    by_cases hq : q = p
    · subst hq
      simp [Place.entry]
    · simpa [hq] using h.pages q

/-! ## The frame allocator -/

theorem wp_allocateFrame {Q : Option Nat → Manager R τ → Prop} (h : Represents n N m c)
    (hsome : ∀ f m', f < n → f ∉ c.allocated → Represents n N m' (c.allocate f) → Q (some f) m')
    (hnone : (∀ f, f < n → f ∈ c.allocated) → Q none m) :
    wp (allocateFrame : Locked R τ (Option Nat)) Q E m := by
  cases hfa : m.frameAllocator.allocateFrame with
  | mk choice fa' =>
    cases choice with
    | none =>
      obtain ⟨rfl, hall⟩ := FrameAllocator.allocateFrame_none h.allocator_inv hfa
      refine wp_of_ok (t := m) (attempt_ok ?_) (hnone fun f hf => ?_)
      · rw [hfa]
      · rw [← h.allocated, hall, h.allocator_count]
        exact Finset.mem_range.mpr hf
    | some f =>
      obtain ⟨hinv, hlt, hnot, hallocated, hframes, hcount⟩ :=
        FrameAllocator.allocateFrame_some h.allocator_inv hfa
      refine wp_of_ok (t := { m with frameAllocator := fa' }) (attempt_ok ?_)
        (hsome f _ (h.allocator_count ▸ hlt) (h.allocated ▸ hnot) ?_)
      · rw [hfa]
      · exact { h with
          allocator_inv := hinv
          allocator_count := hcount.trans h.allocator_count
          allocated := hallocated.trans (by rw [h.allocated]; rfl)
          bytes := hframes.trans h.bytes }

theorem wp_freeFrame {Q : Unit → Manager R τ → Prop} (h : Represents n N m c) {f : Nat}
    (hf : f ∈ c.allocated)
    (hQ : ∀ m', Represents n N m' { c with allocated := c.allocated.erase f } → Q () m') :
    wp (freeFrame f : Locked R τ Unit) Q E m := by
  obtain ⟨fa', hok, hinv, hallocated, hframes, hcount⟩ :=
    FrameAllocator.freeFrame_ok h.allocator_inv (h.allocated ▸ hf)
  refine wp_of_ok (t := { m with frameAllocator := fa' }) (attempt_ok ?_) (hQ _ ?_)
  · rw [hok]
    rfl
  · exact { h with
      allocator_inv := hinv
      allocator_count := hcount.trans h.allocator_count
      allocated := hallocated.trans (by rw [h.allocated])
      bytes := hframes.trans h.bytes }

theorem wp_framePage {Q : Page → Manager R τ → Prop} (h : Represents n N m c) {f : Nat}
    (hf : f ∈ c.allocated) (hQ : Q (c.bytes f) m) :
    wp (framePage f : Locked R τ Page) Q E m := by
  refine wp_of_ok (attempt_ok ?_) hQ
  rw [FrameAllocator.page_ok (h.allocated ▸ hf), h.bytes]
  rfl

/-- A store into a frame. -/
theorem setBytes (h : Represents n N m c) (f : Nat) (page : Page) :
    Represents n N { m with frameAllocator := m.frameAllocator.setPage f page }
      (c.setBytes f page) := by
  refine { h with
    allocator_inv := ⟨h.allocator_inv.frameCount_pos, h.allocator_inv.frameCount_le,
      h.allocator_inv.length_eq, h.allocator_inv.padding, h.allocator_inv.count_eq,
      h.allocator_inv.hint_lt⟩
    bytes := ?_ }
  change Function.update m.frameAllocator.frames f page = _
  rw [h.bytes]
  rfl

/-! ## The replacer -/

theorem wp_recordAccess {Q : Unit → Manager R τ → Prop} (h : Represents n N m c) {f : Nat}
    (hf : f < n)
    (hQ : ∀ m', Represents n N m' { c with present := insert f c.present } → Q () m') :
    wp (recordAccess f : Locked R τ Unit) Q E m := by
  obtain ⟨r', hok, hinv, hpresent, hevictable⟩ :=
    LawfulReplacer.recordAccess_spec h.replacer_inv hf
  refine wp_of_ok (t := { m with replacer := r' }) (attempt_ok ?_) (hQ _ ?_)
  · rw [hok]
    rfl
  · exact { h with
      replacer_inv := hinv
      present := hpresent.trans (by rw [h.present])
      evictable := hevictable.trans h.evictable }

theorem wp_setEvictable {Q : Unit → Manager R τ → Prop} (h : Represents n N m c) {f : Nat}
    (b : Bool) (hf : f ∈ c.present)
    (hQ : ∀ m', Represents n N m' { c with
      evictable := if b = true then insert f c.evictable else c.evictable \ {f} } → Q () m') :
    wp (setEvictable f b : Locked R τ Unit) Q E m := by
  obtain ⟨r', hok, hinv, hpresent, hevictable⟩ :=
    LawfulReplacer.setEvictable_spec b h.replacer_inv (h.present ▸ hf)
  refine wp_of_ok (t := { m with replacer := r' }) (attempt_ok ?_) (hQ _ ?_)
  · rw [hok]
    rfl
  · exact { h with
      replacer_inv := hinv
      present := hpresent.trans h.present
      evictable := hevictable.trans (by rw [h.evictable]) }

theorem wp_setEvictable_error {Q : Unit → Manager R τ → Prop} (h : Represents n N m c) {f : Nat}
    (b : Bool) (hlt : f < n) (hf : f ∉ c.present) (hE : ∀ e, E e m) :
    wp (setEvictable f b : Locked R τ Unit) Q E m := by
  obtain ⟨e, he⟩ := LawfulReplacer.setEvictable_absent b h.replacer_inv hlt (h.present ▸ hf)
  refine wp_of_error (attempt_error ?_) (hE e)
  rw [he]
  rfl

theorem wp_victim {Q : Option Nat → Manager R τ → Prop} (h : Represents n N m c)
    (hsome : ∀ f m', f ∈ c.evictable → Represents n N m' (c.delist f) → Q (some f) m')
    (hnone : ∀ m', (CompleteReplacer R → c.evictable = ∅) → Represents n N m' c → Q none m') :
    wp (victim : Locked R τ (Option Nat)) Q E m := by
  obtain ⟨choice, r', hok, hinv, hspec⟩ := LawfulReplacer.victim_spec h.replacer_inv
  refine wp_of_ok (a := choice) (t := { m with replacer := r' }) (attempt_ok ?_) ?_
  · rw [hok]
    rfl
  · cases choice with
    | none =>
      refine hnone _ (fun hc => ?_) { h with
        replacer_inv := hinv
        present := hspec.1.trans h.present
        evictable := hspec.2.trans h.evictable }
      rw [← h.evictable]
      exact CompleteReplacer.victim_none h.replacer_inv hok
    | some f =>
      obtain ⟨-, hf, hpresent, hevictable⟩ := hspec
      exact hsome f _ (h.evictable ▸ hf) { h with
        replacer_inv := hinv
        present := hpresent.trans (by rw [h.present]; rfl)
        evictable := hevictable.trans (by rw [h.evictable]; rfl) }

theorem wp_removeFrame {Q : Unit → Manager R τ → Prop} (h : Represents n N m c) {f : Nat}
    (hf : f < n) (hQ : ∀ m', Represents n N m' (c.delist f) → Q () m') :
    wp (removeFrame f : Locked R τ Unit) Q E m := by
  obtain ⟨r', hok, hinv, hpresent, hevictable⟩ := LawfulReplacer.remove_spec h.replacer_inv hf
  refine wp_of_ok (t := { m with replacer := r' }) (attempt_ok ?_) (hQ _ ?_)
  · rw [hok]
    rfl
  · exact { h with
      replacer_inv := hinv
      present := hpresent.trans (by rw [h.present]; rfl)
      evictable := hevictable.trans (by rw [h.evictable]; rfl) }

/-! ## The metadata and the sleepers -/

/-- Frame `f` gets the metadata of another use. -/
theorem setUse (h : Represents n N m c) (f : Nat) (u : Use) :
    Represents n N { m with frameMeta := Function.update m.frameMeta f u.meta } (c.setUse f u) := by
  refine { h with frameMeta := fun g => ?_ }
  by_cases hg : g = f
  · subst hg
    simp
  · simpa [hg] using h.frameMeta g

theorem hasTransient_iff (h : Represents n N m c) :
    m.hasTransient = true ↔ c.HasTransient n := by
  simp only [Manager.hasTransient, h.frameCount, List.any_eq_true, List.mem_range, h.frameMeta,
    Cfg.HasTransient]
  refine exists_congr fun f => and_congr_right fun _ => ?_
  cases c.frame f <;> simp [Use.meta, Use.transient]

theorem notify (h : Represents n N m c) : Represents n N { m with asleep := ∅ } c.notify :=
  { h with asleep := rfl }

theorem sleep [DecidableEq τ] (h : Represents n N m c) (t : τ) :
    Represents n N { m with asleep := insert t m.asleep } { c with asleep := insert t c.asleep } :=
  { h with asleep := congrArg (insert t) h.asleep }

theorem wake [DecidableEq τ] (h : Represents n N m c) (t : τ) :
    Represents n N { m with asleep := m.asleep.erase t } { c with asleep := c.asleep.erase t } :=
  { h with asleep := congrArg (Finset.erase · t) h.asleep }

theorem dirtyPages_eq (h : Represents n N m c) : m.dirtyPages = c.dirtyPages n := by
  simp only [Manager.dirtyPages, Cfg.dirtyPages, h.frameCount]
  refine congrArg (fun x => List.filterMap x (List.range n)) ?_
  funext f
  rw [h.frameMeta, Cfg.dirtyPage]
  cases c.frame f <;> simp [Use.meta]

end Represents

end BufferManager.Refinement
