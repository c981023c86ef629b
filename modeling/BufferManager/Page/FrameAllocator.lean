/-
  Page/FrameAllocator.lean --- the bitmap of allocated frames.

  Source: `src/page/frame_allocator.{h,cc}`.

  The bitmap is a list of 64-bit words, the low bit of word `w` standing for
  frame `64 * w`.  Bits at and above `frame_count` in the last word are set by
  the constructor and are never handed out.  `Inv` is the representation
  invariant; `isAllocated` is the set of frames the bitmap stands for, and the
  lemmas `allocateFrame_some`, `allocateFrame_none` and `freeFrame_ok` say what
  the two operations do to that set.
-/
import BufferManager.Types
import Mathlib.Data.Finset.Card
import Mathlib.Data.Finset.Range
import Mathlib.Tactic

set_option autoImplicit false

namespace BufferManager

/-- `kFullWord = ~std::uint64_t{0}`. -/
def kFullWord : BitVec 64 := BitVec.allOnes 64

/-- `std::countr_zero`: the number of consecutive zero bits from the lowest, 64
for the zero word. -/
def countrZero (word : BitVec 64) : Nat :=
  ((List.range 64).find? fun i => word.getLsbD i).getD 64

/-- `class FrameAllocator`. -/
structure FrameAllocator where
  frameCount : Nat
  allocatedCount : Nat
  nextSearchWord : Nat
  frames : Nat → Page
  allocationBitmap : List (BitVec 64)

namespace FrameAllocator

/-- `kBitsPerWord`. -/
def kBitsPerWord : Nat := 64

/-- `WordIndex`. -/
def wordIndex (frameId : Nat) : Nat := frameId / kBitsPerWord

/-- `BitMask`. -/
def bitMask (frameId : Nat) : BitVec 64 := 1#64 <<< (frameId % kBitsPerWord)

/-- `MaskUnusedTailBits`, on the bitmap. -/
def maskUnusedTailBits (frameCount : Nat) (bitmap : List (BitVec 64)) : List (BitVec 64) :=
  let validTailBits := frameCount % kBitsPerWord
  if validTailBits = 0 then bitmap
  else
    let validMask := (1#64 <<< validTailBits) - 1#64
    let invalidMask := ~~~validMask
    bitmap.set (bitmap.length - 1) (bitmap.getD (bitmap.length - 1) 0 ||| invalidMask)

/-- `std::vector<Page>::max_size()`. -/
def framesMaxSize : Nat := (2 ^ 63 - 1) / kPageSize

/-- The constructor. -/
def make (frameCount : Nat) : Except Error FrameAllocator :=
  -- the initializer `frames_(frame_count)` runs before the checks
  if frameCount > framesMaxSize then
    .error ⟨.lengthError, "cannot create std::vector larger than max_size()"⟩
  else if frameCount = 0 then
    .error ⟨.invalidArgument, "frame_count must be greater than zero"⟩
  else if frameCount > 2 ^ 32 - 1 then
    .error ⟨.invalidArgument, "frame_count does not fit into FrameId"⟩
  else
    .ok {
      frameCount := frameCount
      allocatedCount := 0
      nextSearchWord := 0
      frames := fun _ => Page.zero
      allocationBitmap := maskUnusedTailBits frameCount
        (List.replicate ((frameCount + kBitsPerWord - 1) / kBitsPerWord) 0) }

/-- The word `allocation_bitmap_[index]`. -/
def word (fa : FrameAllocator) (index : Nat) : BitVec 64 := fa.allocationBitmap.getD index 0

/-- The probing loop of `AllocateFrame`: the first word index, from
`next_search_word_ + probe` on and modulo the word count, whose word is not
full.  `remaining` counts the probes left. -/
def findWord (fa : FrameAllocator) : (remaining probe : Nat) → Option Nat
  | 0, _ => none
  | remaining + 1, probe =>
      let index := (fa.nextSearchWord + probe) % fa.allocationBitmap.length
      if fa.word index = kFullWord then findWord fa remaining (probe + 1)
      else some index

/-- The body of `AllocateFrame`'s loop at the word it stops at. -/
def takeBit (fa : FrameAllocator) (index : Nat) : Nat × FrameAllocator :=
  let freeBits := ~~~(fa.word index)
  let bitIndex := countrZero freeBits
  let frameId := (index * kBitsPerWord + bitIndex) % 2 ^ 32
  let newWord := fa.word index ||| (1#64 <<< bitIndex)
  (frameId,
    { fa with
      allocationBitmap := fa.allocationBitmap.set index newWord
      allocatedCount := fa.allocatedCount + 1
      nextSearchWord :=
        if newWord = kFullWord then (index + 1) % fa.allocationBitmap.length else index })

/-- `AllocateFrame`. -/
def allocateFrame (fa : FrameAllocator) : Option Nat × FrameAllocator :=
  if fa.allocatedCount = fa.frameCount then (none, fa)
  else
    match fa.findWord fa.allocationBitmap.length 0 with
    | none => (none, fa)
    | some index => ((fa.takeBit index).1, (fa.takeBit index).2)

/-- `ValidateFrameId`. -/
def validateFrameId (fa : FrameAllocator) (frameId : Nat) : Except Error Unit :=
  if frameId ≥ fa.frameCount then .error ⟨.outOfRange, "invalid frame id"⟩ else .ok ()

/-- The bit test of `IsAllocated`. -/
def testBit (fa : FrameAllocator) (frameId : Nat) : Bool :=
  (fa.word (wordIndex frameId) &&& bitMask frameId) != 0#64

/-- `IsAllocated`. -/
def isAllocated (fa : FrameAllocator) (frameId : Nat) : Except Error Bool := do
  fa.validateFrameId frameId
  return fa.testBit frameId

/-- `ValidateAllocatedFrameId`. -/
def validateAllocatedFrameId (fa : FrameAllocator) (frameId : Nat) : Except Error Unit := do
  fa.validateFrameId frameId
  if !(← fa.isAllocated frameId) then
    throw ⟨.logicError, "frame is not allocated"⟩

/-- `FreeFrame`. -/
def freeFrame (fa : FrameAllocator) (frameId : Nat) : Except Error FrameAllocator := do
  fa.validateAllocatedFrameId frameId
  let index := wordIndex frameId
  return { fa with
    allocationBitmap := fa.allocationBitmap.set index (fa.word index &&& ~~~(bitMask frameId))
    allocatedCount := fa.allocatedCount - 1
    nextSearchWord := index }

/-- `page(frame_id)`: a reference to the frame's bytes, refused for a frame that
is not allocated. -/
def page (fa : FrameAllocator) (frameId : Nat) : Except Error Page := do
  fa.validateAllocatedFrameId frameId
  return fa.frames frameId

/-- Storing bytes through the reference `page(frame_id)` returned. -/
def setPage (fa : FrameAllocator) (frameId : Nat) (page : Page) : FrameAllocator :=
  { fa with frames := Function.update fa.frames frameId page }

/-! ## The set of allocated frames -/

/-- The frames the bitmap marks as allocated. -/
def allocated (fa : FrameAllocator) : Finset Nat :=
  (Finset.range fa.frameCount).filter fun f => fa.testBit f = true

/-- The representation invariant of the allocator. -/
structure Inv (fa : FrameAllocator) : Prop where
  frameCount_pos : 0 < fa.frameCount
  frameCount_le : fa.frameCount ≤ 2 ^ 32 - 1
  /-- The bitmap has one bit for every frame, rounded up to whole words. -/
  length_eq : fa.allocationBitmap.length = (fa.frameCount + kBitsPerWord - 1) / kBitsPerWord
  /-- The padding bits of the last word stay set. -/
  padding : ∀ f, fa.frameCount ≤ f → f < kBitsPerWord * fa.allocationBitmap.length →
    fa.testBit f = true
  count_eq : fa.allocatedCount = fa.allocated.card
  hint_lt : fa.nextSearchWord < fa.allocationBitmap.length

theorem mem_allocated {fa : FrameAllocator} {f : Nat} :
    f ∈ fa.allocated ↔ f < fa.frameCount ∧ fa.testBit f = true := by
  simp [allocated]

theorem isAllocated_ok {fa : FrameAllocator} {f : Nat} (hf : f < fa.frameCount) {b : Bool}
    (hb : fa.testBit f = b) : fa.isAllocated f = .ok b := by
  rw [isAllocated, validateFrameId, if_neg (Nat.not_le_of_lt hf), hb]
  rfl

theorem mod_kBitsPerWord_lt (f : Nat) : f % kBitsPerWord < 64 :=
  Nat.mod_lt _ (by decide)

theorem and_bitMask_eq_zero_iff (word : BitVec 64) (f : Nat) :
    word &&& bitMask f = 0#64 ↔ word.getLsbD (f % kBitsPerWord) = false := by
  have hlt := mod_kBitsPerWord_lt f
  constructor
  · intro h
    have hbit := congrArg (fun w : BitVec 64 => w.getLsbD (f % kBitsPerWord)) h
    simpa [bitMask, hlt] using hbit
  · intro h
    apply BitVec.eq_of_getLsbD_eq
    intro i hi
    by_cases hif : i = f % kBitsPerWord
    · subst hif
      simp [h]
    · have : ¬ (i - f % kBitsPerWord = 0 ∧ ¬ i < f % kBitsPerWord) := by omega
      simp only [bitMask, BitVec.getLsbD_and, BitVec.getLsbD_shiftLeft, BitVec.getLsbD_one,
        BitVec.getLsbD_zero]
      grind

theorem testBit_eq_getLsbD (fa : FrameAllocator) (f : Nat) :
    fa.testBit f = (fa.word (wordIndex f)).getLsbD (f % kBitsPerWord) := by
  have h := and_bitMask_eq_zero_iff (fa.word (wordIndex f)) f
  unfold testBit
  cases hb : (fa.word (wordIndex f)).getLsbD (f % kBitsPerWord) with
  | false => simp [h.mpr hb]
  | true =>
    have : ¬ fa.word (wordIndex f) &&& bitMask f = 0#64 := fun h' => by
      rw [h.mp h'] at hb
      cases hb
    simpa using this

/-! ## Single words -/

theorem getLsbD_kFullWord (i : Nat) : kFullWord.getLsbD i = decide (i < 64) :=
  BitVec.getLsbD_allOnes

theorem getLsbD_or_bit (word : BitVec 64) {b i : Nat} (hb : b < 64) :
    (word ||| (1#64 <<< b)).getLsbD i = (word.getLsbD i || decide (i = b)) := by
  simp only [BitVec.getLsbD_or, BitVec.getLsbD_shiftLeft, BitVec.getLsbD_one]
  grind

theorem getLsbD_and_not_bit (word : BitVec 64) (b i : Nat) :
    (word &&& ~~~(1#64 <<< b)).getLsbD i = (word.getLsbD i && !decide (i = b)) := by
  simp only [BitVec.getLsbD_and, BitVec.getLsbD_not, BitVec.getLsbD_shiftLeft,
    BitVec.getLsbD_one]
  by_cases hi : i < 64
  · grind
  · simp [BitVec.getLsbD_of_ge word i (by omega)]

/-- A word that is not full has a lowest clear bit, and `countr_zero` of its
complement finds it. -/
theorem countrZero_not_spec {word : BitVec 64} (h : word ≠ kFullWord) :
    countrZero (~~~word) < 64 ∧ word.getLsbD (countrZero (~~~word)) = false := by
  have hex : ∃ i, i < 64 ∧ word.getLsbD i = false := by
    by_contra hno
    push Not at hno
    apply h
    apply BitVec.eq_of_getLsbD_eq
    intro i hi
    rw [getLsbD_kFullWord]
    simpa [BitVec.getLsbD_eq_getElem hi, hi] using hno i hi
  obtain ⟨i, hi, hclear⟩ := hex
  unfold countrZero
  cases hfind : (List.range 64).find? (fun i => (~~~word).getLsbD i) with
  | none =>
    rw [List.find?_eq_none] at hfind
    have hset := hfind i (List.mem_range.mpr hi)
    rw [BitVec.getLsbD_not, hclear] at hset
    simp [hi] at hset
  | some b =>
    have hb : b < 64 := by simpa using List.mem_of_find?_eq_some hfind
    have htest := List.find?_some hfind
    simp only [BitVec.getLsbD_not, hb, decide_true, Bool.true_and, Bool.not_eq_eq_eq_not,
      Bool.not_true] at htest
    simpa using ⟨hb, htest⟩

/-! ## Updating one word -/

theorem word_set {a b : FrameAllocator} {index : Nat} {w : BitVec 64}
    (hbitmap : b.allocationBitmap = a.allocationBitmap.set index w)
    (hindex : index < a.allocationBitmap.length) (i : Nat) :
    b.word i = if i = index then w else a.word i := by
  unfold word
  rw [hbitmap, List.getD_eq_getElem?_getD, List.getD_eq_getElem?_getD, List.getElem?_set]
  by_cases h : index = i
  · subst h
    simp [hindex]
  · simp [h, Ne.symm h]

theorem wordIndex_lt {fa : FrameAllocator} (hinv : fa.Inv) {f : Nat}
    (hf : f < fa.frameCount) : wordIndex f < fa.allocationBitmap.length := by
  rw [hinv.length_eq]
  simp only [wordIndex, kBitsPerWord]
  omega

theorem frame_eq_of_index {f i b : Nat} (hb : b < 64) :
    (wordIndex f = i ∧ f % kBitsPerWord = b) ↔ f = i * kBitsPerWord + b := by
  simp only [wordIndex, kBitsPerWord]
  constructor
  · rintro ⟨h₁, h₂⟩
    omega
  · intro h
    omega

theorem mod_eq_iff_of_wordIndex_eq {f g : Nat} (h : wordIndex g = wordIndex f) :
    g % kBitsPerWord = f % kBitsPerWord ↔ g = f := by
  simp only [wordIndex, kBitsPerWord] at *
  constructor
  · intro hmod
    omega
  · rintro rfl
    rfl

/-- Bitmaps of one size that stand for the same frames are the same. -/
theorem allocationBitmap_ext {a b : FrameAllocator} (ha : a.Inv) (hb : b.Inv)
    (hcount : a.frameCount = b.frameCount) (h : a.allocated = b.allocated) :
    a.allocationBitmap = b.allocationBitmap := by
  have hlen : a.allocationBitmap.length = b.allocationBitmap.length := by
    rw [ha.length_eq, hb.length_eq, hcount]
  have htest : ∀ f, f < kBitsPerWord * a.allocationBitmap.length → a.testBit f = b.testBit f := by
    intro f hf
    rcases Nat.lt_or_ge f a.frameCount with hlt | hge
    · have hmem : f ∈ a.allocated ↔ f ∈ b.allocated := by rw [h]
      rw [mem_allocated, mem_allocated, ← hcount] at hmem
      exact Bool.eq_iff_iff.mpr ⟨fun ht => (hmem.mp ⟨hlt, ht⟩).2, fun ht => (hmem.mpr ⟨hlt, ht⟩).2⟩
    · rw [ha.padding f hge hf, hb.padding f (hcount ▸ hge) (hlen ▸ hf)]
  apply List.ext_getElem hlen
  intro i hi hi'
  apply BitVec.eq_of_getLsbD_eq
  intro j hj
  have hsplit := (frame_eq_of_index (f := i * kBitsPerWord + j) (i := i) hj).mpr rfl
  have hbit := htest (i * kBitsPerWord + j) (by simp only [kBitsPerWord]; omega)
  rw [testBit_eq_getLsbD, testBit_eq_getLsbD, hsplit.1, hsplit.2] at hbit
  simpa [word, hi, hi'] using hbit

/-! ## AllocateFrame -/

theorem findWord_some {fa : FrameAllocator} (hlen : 0 < fa.allocationBitmap.length) :
    ∀ {remaining probe index : Nat}, fa.findWord remaining probe = some index →
      index < fa.allocationBitmap.length ∧ fa.word index ≠ kFullWord := by
  intro remaining
  induction remaining with
  | zero => intro probe index h; simp [findWord] at h
  | succ n ih =>
    intro probe index h
    simp only [findWord] at h
    split at h
    · exact ih h
    · rename_i hword
      cases h
      exact ⟨Nat.mod_lt _ hlen, hword⟩

/-- The probes cover every word, whatever the hint: when the loop finds nothing
every word is full. -/
theorem findWord_none {fa : FrameAllocator} :
    ∀ {remaining probe : Nat}, fa.findWord remaining probe = none →
      ∀ k, k < remaining →
        fa.word ((fa.nextSearchWord + (probe + k)) % fa.allocationBitmap.length) = kFullWord := by
  intro remaining
  induction remaining with
  | zero => intro probe _ k hk; omega
  | succ n ih =>
    intro probe h k hk
    simp only [findWord] at h
    split at h
    · rename_i hword
      cases k with
      | zero => simpa using hword
      | succ k =>
        have := ih h k (by omega)
        rwa [show probe + (k + 1) = probe + 1 + k by omega]
    · cases h

theorem word_full_of_findWord_none {fa : FrameAllocator} (hinv : fa.Inv)
    (h : fa.findWord fa.allocationBitmap.length 0 = none) {i : Nat}
    (hi : i < fa.allocationBitmap.length) : fa.word i = kFullWord := by
  have hhint := hinv.hint_lt
  -- The probe that reaches word `i` from the hint.
  let k := (i + fa.allocationBitmap.length - fa.nextSearchWord) % fa.allocationBitmap.length
  have hk : k < fa.allocationBitmap.length := Nat.mod_lt _ (by omega)
  have hword := findWord_none h k hk
  have hreach : (fa.nextSearchWord + (0 + k)) % fa.allocationBitmap.length = i := by
    rw [Nat.zero_add, Nat.add_mod_mod,
      show fa.nextSearchWord + (i + fa.allocationBitmap.length - fa.nextSearchWord) =
        i + fa.allocationBitmap.length by omega]
    rw [Nat.add_mod_right, Nat.mod_eq_of_lt hi]
  rwa [hreach] at hword

theorem testBit_of_word_full {fa : FrameAllocator} {f : Nat}
    (h : fa.word (wordIndex f) = kFullWord) : fa.testBit f = true := by
  rw [testBit_eq_getLsbD, h, getLsbD_kFullWord]
  exact decide_eq_true (mod_kBitsPerWord_lt f)

theorem allocated_eq_range_of_card {fa : FrameAllocator}
    (h : fa.allocated.card = fa.frameCount) : fa.allocated = Finset.range fa.frameCount := by
  apply Finset.eq_of_subset_of_card_le (Finset.filter_subset _ _)
  change (Finset.range fa.frameCount).card ≤ fa.allocated.card
  rw [h, Finset.card_range]

/-- The frame that `takeBit` hands out, before the narrowing to `FrameId`. -/
theorem takeBit_fst {fa : FrameAllocator} (hinv : fa.Inv) {index : Nat}
    (hindex : index < fa.allocationBitmap.length) (hword : fa.word index ≠ kFullWord) :
    (fa.takeBit index).1 = index * kBitsPerWord + countrZero (~~~(fa.word index)) ∧
      (fa.takeBit index).1 < fa.frameCount ∧ fa.testBit (fa.takeBit index).1 = false := by
  obtain ⟨hb, hclear⟩ := countrZero_not_spec hword
  have hsplit := (frame_eq_of_index (f := index * kBitsPerWord + countrZero (~~~(fa.word index)))
    (i := index) hb).mpr rfl
  have htest : fa.testBit (index * kBitsPerWord + countrZero (~~~(fa.word index))) = false := by
    rw [testBit_eq_getLsbD, hsplit.1, hsplit.2]
    exact hclear
  -- A clear bit is no padding bit, so the frame exists and the narrowing is exact.
  have hlt : index * kBitsPerWord + countrZero (~~~(fa.word index)) < fa.frameCount := by
    by_contra hge
    have := hinv.padding _ (by omega)
      (show index * kBitsPerWord + countrZero (~~~(fa.word index)) <
        kBitsPerWord * fa.allocationBitmap.length by
          simp only [kBitsPerWord] at *
          omega)
    rw [htest] at this
    cases this
  have hle := hinv.frameCount_le
  have hmod : (fa.takeBit index).1 = index * kBitsPerWord + countrZero (~~~(fa.word index)) := by
    simp only [takeBit]
    exact Nat.mod_eq_of_lt (by omega)
  rw [hmod]
  exact ⟨rfl, hlt, htest⟩

theorem takeBit_testBit {fa : FrameAllocator} (hinv : fa.Inv) {index : Nat}
    (hindex : index < fa.allocationBitmap.length) (hword : fa.word index ≠ kFullWord)
    (f : Nat) :
    (fa.takeBit index).2.testBit f = (fa.testBit f || decide (f = (fa.takeBit index).1)) := by
  obtain ⟨hb, _⟩ := countrZero_not_spec hword
  rw [testBit_eq_getLsbD, testBit_eq_getLsbD, (takeBit_fst hinv hindex hword).1]
  have hsplit := frame_eq_of_index (f := f) (i := index) hb
  have hset := word_set (a := fa) (b := (fa.takeBit index).2) rfl hindex (wordIndex f)
  rw [hset]
  by_cases hw : wordIndex f = index
  · rw [if_pos hw, getLsbD_or_bit _ hb, hw]
    congr 1
    rw [decide_eq_decide, ← hsplit]
    exact ⟨fun h => ⟨hw, h⟩, fun h => h.2⟩
  · rw [if_neg hw, decide_eq_false fun h => hw (hsplit.mpr h).1, Bool.or_false]

theorem takeBit_allocated {fa : FrameAllocator} (hinv : fa.Inv) {index : Nat}
    (hindex : index < fa.allocationBitmap.length) (hword : fa.word index ≠ kFullWord) :
    (fa.takeBit index).2.allocated = insert (fa.takeBit index).1 fa.allocated := by
  have hfst := takeBit_fst hinv hindex hword
  ext f
  have hcount : (fa.takeBit index).2.frameCount = fa.frameCount := rfl
  rw [mem_allocated, Finset.mem_insert, mem_allocated, takeBit_testBit hinv hindex hword, hcount]
  simp only [Bool.or_eq_true, decide_eq_true_eq]
  constructor
  · rintro ⟨hf, hbit | rfl⟩
    · exact Or.inr ⟨hf, hbit⟩
    · exact Or.inl rfl
  · rintro (rfl | ⟨hf, hbit⟩)
    · exact ⟨hfst.2.1, Or.inr rfl⟩
    · exact ⟨hf, Or.inl hbit⟩

theorem takeBit_inv {fa : FrameAllocator} (hinv : fa.Inv) {index : Nat}
    (hindex : index < fa.allocationBitmap.length) (hword : fa.word index ≠ kFullWord) :
    (fa.takeBit index).2.Inv := by
  have hfst := takeBit_fst hinv hindex hword
  have hlen : (fa.takeBit index).2.allocationBitmap.length = fa.allocationBitmap.length := by
    simp [takeBit]
  refine ⟨hinv.frameCount_pos, hinv.frameCount_le, ?_, ?_, ?_, ?_⟩
  · rw [hlen]
    exact hinv.length_eq
  · intro f hge hlt
    rw [hlen] at hlt
    rw [takeBit_testBit hinv hindex hword, hinv.padding f hge hlt, Bool.true_or]
  · rw [takeBit_allocated hinv hindex hword, Finset.card_insert_of_notMem]
    · exact congrArg (· + 1) hinv.count_eq
    · rw [mem_allocated]
      rintro ⟨_, hbit⟩
      rw [hfst.2.2] at hbit
      cases hbit
  · rw [hlen]
    simp only [takeBit]
    split
    · exact Nat.mod_lt _ (by omega)
    · exact hindex

/-- `AllocateFrame` hands out a frame that exists and was not allocated, and adds
exactly it to the allocated set. -/
theorem allocateFrame_some {fa fa' : FrameAllocator} (hinv : fa.Inv) {f : Nat}
    (h : fa.allocateFrame = (some f, fa')) :
    fa'.Inv ∧ f < fa.frameCount ∧ f ∉ fa.allocated ∧ fa'.allocated = insert f fa.allocated ∧
      fa'.frames = fa.frames ∧ fa'.frameCount = fa.frameCount := by
  have hpos : 0 < fa.allocationBitmap.length := lt_of_le_of_lt (Nat.zero_le _) hinv.hint_lt
  unfold allocateFrame at h
  split at h
  · simp at h
  · split at h
    · simp at h
    · rename_i index hfind
      obtain ⟨hindex, hword⟩ := findWord_some hpos hfind
      have hfst := takeBit_fst hinv hindex hword
      simp only [Prod.mk.injEq, Option.some.injEq] at h
      obtain ⟨rfl, rfl⟩ := h
      refine ⟨takeBit_inv hinv hindex hword, hfst.2.1, ?_, takeBit_allocated hinv hindex hword,
        rfl, rfl⟩
      rw [mem_allocated]
      rintro ⟨_, hbit⟩
      rw [hfst.2.2] at hbit
      cases hbit

/-- `AllocateFrame` returns nothing only when every frame is allocated, and then
changes nothing. -/
theorem allocateFrame_none {fa fa' : FrameAllocator} (hinv : fa.Inv)
    (h : fa.allocateFrame = (none, fa')) :
    fa' = fa ∧ fa.allocated = Finset.range fa.frameCount := by
  unfold allocateFrame at h
  split at h
  · rename_i hfull
    simp only [Prod.mk.injEq, true_and] at h
    exact ⟨h.symm, allocated_eq_range_of_card (hinv.count_eq ▸ hfull)⟩
  · split at h
    · rename_i hfind
      simp only [Prod.mk.injEq, true_and] at h
      refine ⟨h.symm, ?_⟩
      ext f
      rw [mem_allocated, Finset.mem_range, and_iff_left_iff_imp]
      intro hf
      exact testBit_of_word_full
        (word_full_of_findWord_none hinv hfind (wordIndex_lt hinv hf))
    · simp at h

/-! ## Checks and FreeFrame -/

theorem isAllocated_of_lt {fa : FrameAllocator} {f : Nat} (hf : f < fa.frameCount) :
    fa.isAllocated f = .ok (fa.testBit f) := by
  simp only [isAllocated, validateFrameId, ge_iff_le, Nat.not_le.mpr hf, if_false]
  rfl

theorem validateAllocatedFrameId_ok {fa : FrameAllocator} {f : Nat}
    (h : f ∈ fa.allocated) : fa.validateAllocatedFrameId f = .ok () := by
  obtain ⟨hf, hbit⟩ := mem_allocated.mp h
  unfold validateAllocatedFrameId
  rw [isAllocated_of_lt hf, hbit]
  simp [validateFrameId, Nat.not_le.mpr hf]
  rfl

theorem page_ok {fa : FrameAllocator} {f : Nat} (h : f ∈ fa.allocated) :
    fa.page f = .ok (fa.frames f) := by
  unfold page
  rw [validateAllocatedFrameId_ok h]
  rfl

/-- `FreeFrame` of an allocated frame removes exactly it. -/
theorem freeFrame_ok {fa : FrameAllocator} (hinv : fa.Inv) {f : Nat}
    (h : f ∈ fa.allocated) :
    ∃ fa', fa.freeFrame f = .ok fa' ∧ fa'.Inv ∧ fa'.allocated = fa.allocated.erase f ∧
      fa'.frames = fa.frames ∧ fa'.frameCount = fa.frameCount := by
  obtain ⟨hf, hbit⟩ := mem_allocated.mp h
  have hindex := wordIndex_lt hinv hf
  let fa' : FrameAllocator := { fa with
    allocationBitmap :=
      fa.allocationBitmap.set (wordIndex f) (fa.word (wordIndex f) &&& ~~~(bitMask f))
    allocatedCount := fa.allocatedCount - 1
    nextSearchWord := wordIndex f }
  have htest : ∀ g, fa'.testBit g = (fa.testBit g && !decide (g = f)) := by
    intro g
    rw [testBit_eq_getLsbD, testBit_eq_getLsbD]
    have hset := word_set (a := fa) (b := fa') rfl hindex (wordIndex g)
    rw [hset]
    by_cases hw : wordIndex g = wordIndex f
    · rw [if_pos hw, bitMask, getLsbD_and_not_bit, hw]
      simp only [mod_eq_iff_of_wordIndex_eq hw]
    · have hne : g ≠ f := fun h' => hw (h' ▸ rfl)
      rw [if_neg hw, decide_eq_false hne, Bool.not_false, Bool.and_true]
  have halloc : fa'.allocated = fa.allocated.erase f := by
    ext g
    rw [mem_allocated, Finset.mem_erase, mem_allocated, htest]
    simp only [Bool.and_eq_true, Bool.not_eq_true', decide_eq_false_iff_not]
    exact ⟨fun ⟨a, b, c⟩ => ⟨c, a, b⟩, fun ⟨c, a, b⟩ => ⟨a, b, c⟩⟩
  refine ⟨fa', ?_, ⟨hinv.frameCount_pos, hinv.frameCount_le, ?_, ?_, ?_, ?_⟩, halloc, rfl, rfl⟩
  · unfold freeFrame
    rw [validateAllocatedFrameId_ok h]
    rfl
  · simpa [fa'] using hinv.length_eq
  · intro g hge hlt
    have hne : ¬ g = f := fun h' => absurd hf (Nat.not_lt.mpr (h' ▸ hge))
    rw [htest, hinv.padding g hge (by simpa [fa'] using hlt)]
    simp [hne]
  · rw [halloc, Finset.card_erase_of_mem h]
    exact congrArg (· - 1) hinv.count_eq
  · simpa [fa'] using hindex

/-! ## Construction -/

/-- The mask of the valid bits of the last word. -/
theorem getLsbD_validMask {t : Nat} (ht : t < 64) (i : Nat) :
    ((1#64 <<< t) - 1#64).getLsbD i = decide (i < t) := by
  have hmask : (1#64 <<< t) - 1#64 = BitVec.ofNat 64 (2 ^ t - 1) := by
    have hpow : 2 ^ t < 2 ^ 64 := Nat.pow_lt_pow_right (by decide) ht
    have hpos : 0 < 2 ^ t := Nat.two_pow_pos t
    apply BitVec.eq_of_toNat_eq
    rw [BitVec.toNat_sub, BitVec.toNat_shiftLeft, BitVec.toNat_ofNat, BitVec.toNat_ofNat,
      Nat.shiftLeft_eq]
    omega
  rw [hmask, BitVec.getLsbD_ofNat, Nat.testBit_two_pow_sub_one]
  by_cases hit : i < t
  · simp [hit, show i < 64 by omega]
  · simp [hit]

/-- After construction exactly the padding bits are set. -/
theorem testBit_of_make {frameCount : Nat} {a : FrameAllocator}
    (hbitmap : a.allocationBitmap = maskUnusedTailBits frameCount
      (List.replicate ((frameCount + kBitsPerWord - 1) / kBitsPerWord) 0))
    (hpos : 0 < frameCount) {f : Nat}
    (hf : wordIndex f < (frameCount + kBitsPerWord - 1) / kBitsPerWord) :
    a.testBit f = decide (frameCount ≤ f) := by
  have hzero : ∀ i, (List.replicate ((frameCount + kBitsPerWord - 1) / kBitsPerWord)
      (0 : BitVec 64)).getD i 0 = 0 := by
    intro i
    rw [List.getD_eq_getElem?_getD, List.getElem?_replicate]
    split <;> rfl
  rw [testBit_eq_getLsbD]
  unfold word
  rw [hbitmap]
  unfold maskUnusedTailBits
  simp only [List.length_replicate]
  split
  · -- a whole number of words: no padding, and every frame of the bitmap exists
    rename_i htail
    rw [hzero]
    have : ¬ frameCount ≤ f := by
      simp only [wordIndex, kBitsPerWord] at *
      omega
    simp [this]
  · rename_i htail
    rw [hzero, List.getD_eq_getElem?_getD, List.getElem?_set]
    by_cases hlast : (frameCount + kBitsPerWord - 1) / kBitsPerWord - 1 = wordIndex f
    · rw [if_pos hlast, List.length_replicate, if_pos (by omega), Option.getD_some,
        BitVec.getLsbD_or, BitVec.getLsbD_not, getLsbD_validMask (mod_kBitsPerWord_lt _)]
      have hiff : f % kBitsPerWord < frameCount % kBitsPerWord ↔ f < frameCount := by
        simp only [wordIndex, kBitsPerWord] at *
        constructor
        · intro h
          omega
        · intro h
          omega
      by_cases hlt : f < frameCount
      · simp [hiff, hlt, Nat.not_le.mpr hlt]
      · simp [hiff, hlt, mod_kBitsPerWord_lt, Nat.not_lt.mp hlt]
    · rw [if_neg hlast, ← List.getD_eq_getElem?_getD, hzero]
      have : ¬ frameCount ≤ f := by
        simp only [wordIndex, kBitsPerWord] at *
        omega
      simp [this]

/-- The constructor accepts exactly the frame counts that fit `FrameId`, and
establishes the invariant with no frame allocated. -/
theorem make_ok {frameCount : Nat} (hpos : 0 < frameCount) (hle : frameCount ≤ 2 ^ 32 - 1) :
    ∃ fa, make frameCount = .ok fa ∧ fa.Inv ∧ fa.allocated = ∅ ∧
      fa.frameCount = frameCount ∧ fa.frames = fun _ => Page.zero := by
  let words := (frameCount + kBitsPerWord - 1) / kBitsPerWord
  let fa : FrameAllocator := {
    frameCount := frameCount
    allocatedCount := 0
    nextSearchWord := 0
    frames := fun _ => Page.zero
    allocationBitmap := maskUnusedTailBits frameCount (List.replicate words 0) }
  have hwords : 0 < words := by
    simp only [words, kBitsPerWord]
    omega
  have hlen : fa.allocationBitmap.length = words := by
    simp only [fa, maskUnusedTailBits]
    split <;> simp
  have hempty : fa.allocated = ∅ := by
    rw [Finset.eq_empty_iff_forall_notMem]
    intro f hf
    obtain ⟨hlt, hbit⟩ := mem_allocated.mp hf
    rw [testBit_of_make (a := fa) rfl hpos] at hbit
    · simp only [decide_eq_true_eq] at hbit
      exact absurd hlt (Nat.not_lt.mpr hbit)
    · simp only [fa, wordIndex, kBitsPerWord] at *
      omega
  refine ⟨fa, ?_, ⟨hpos, hle, hlen, ?_, ?_, ?_⟩, hempty, rfl, rfl⟩
  · have hsize : frameCount ≤ framesMaxSize := by
      simp only [framesMaxSize, kPageSize]
      omega
    simp only [make, Nat.ne_of_gt hpos, if_false, gt_iff_lt, Nat.not_lt.mpr hle,
      Nat.not_lt.mpr hsize]
    rfl
  · intro f hge hlt
    rw [testBit_of_make (a := fa) rfl hpos]
    · simpa using hge
    · rw [hlen] at hlt
      simp only [words, wordIndex, kBitsPerWord] at *
      omega
  · rw [hempty]
    rfl
  · rw [hlen]
    exact hwords

/-- What the constructor returns, when it returns. -/
theorem make_spec {frameCount : Nat} {fa : FrameAllocator} (h : make frameCount = .ok fa) :
    0 < frameCount ∧ fa.Inv ∧ fa.allocated = ∅ ∧ fa.frameCount = frameCount ∧
      fa.frames = fun _ => Page.zero := by
  have hbounds : 0 < frameCount ∧ frameCount ≤ 2 ^ 32 - 1 := by
    unfold make at h
    split at h
    · cases h
    · split at h
      · cases h
      · split at h
        · cases h
        · omega
  obtain ⟨fa', hfa', hspec⟩ := make_ok hbounds.1 hbounds.2
  obtain rfl := Except.ok.inj (hfa'.symm.trans h)
  exact ⟨hbounds.1, hspec⟩

/-- What it throws. -/
theorem make_kind {n : Nat} {e : Error} (h : make n = .error e) :
    e.kind = if framesMaxSize < n then .lengthError else .invalidArgument := by
  unfold make at h
  split at h
  · next hsize =>
    cases h
    rw [if_pos hsize]
  · next hsize =>
    rw [if_neg hsize]
    split at h
    · cases h
      rfl
    · split at h
      · cases h
        rfl
      · cases h

end FrameAllocator

end BufferManager
