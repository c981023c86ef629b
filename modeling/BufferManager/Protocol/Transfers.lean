/-
  Protocol/Transfers.lean --- what a step does to the account of the changes.

  What is on disk stays there, for a transfer only copies bytes that include what is
  marked; a page that a `FlushPage` writes stays in its frame, and the frame's epoch
  counts the marks since.  So every field of `Durable` is kept.
-/
import BufferManager.Protocol.Durability

set_option autoImplicit false

namespace BufferManager.Protocol

open BufferManager.Lib

variable {τ : Type} {n N : Nat} {complete : Prop} {c c' : Cfg τ} {g : Ledger τ} {e : Event τ}
  {sweeps : Bool}

attribute [local simp] Place.frame Use.place Use.meta Phase.claim

/-! ## What the events say -/

/-- A mark is made on a live guard. -/
theorem Step.marked [DecidableEq τ] {slot p : Nat} {clash : Prop} (h : Step n N complete c e c')
    (he : e = .marked slot p clash) : ∃ gd, c.guards[slot]? = some gd ∧ gd.valid = true ∧
      gd.pageId = p := by
  cases h with
  | mark slot gd r hg hv =>
    obtain ⟨rfl, rfl, -⟩ := Event.marked.inj he
    exact ⟨gd, hg, hv, rfl⟩
  | flushReturn t caller =>
    rcases caller with - | rest
    · cases he
    · cases rest <;> cases he
  | noFrame t a | evictFail t a => cases a <;> cases he
  | evictDone t a ev => cases hd : ev.dirty <;> simp [hd] at he
  | unpinned t p f caller failure => cases failure <;> cases he
  | _ => cases he

/-- A page is created by the `NewPage` that has reserved it. -/
theorem Step.passes_of_not_created [Fintype τ] [DecidableEq τ] (h : Step n N complete c e c')
    (hR : Reservations c) (hI : Owned n c) (hP : Pinned c) {p : Nat}
    (hplace : c.place p ≠ .nonResident) (hres : ∀ f, c.place p ≠ .resident f) : e.Passes p := by
  cases e with
  | created t q f =>
    rintro rfl
    exact hplace (hR.nonResident t q (h.created rfl).1)
  | marked slot q clash =>
    rintro rfl
    obtain ⟨gd, hg, hv, rfl⟩ := h.marked rfl
    obtain ⟨r, -, -, -, -, hresident⟩ := hP.of_guard hI (List.mem_of_getElem? hg) hv
    exact hres _ hresident
  | _ => trivial

/-- A mark does not bring the epoch of its frame back to a captured one. -/
def Event.Renews : Event τ → Prop
  | .marked _ _ clash => ¬ clash
  | _ => True

/-! ## Bytes in transit -/

section

variable [Fintype τ] [DecidableEq τ]

omit [Fintype τ] [DecidableEq τ] in
/-- The bytes of a page that is being evicted include what is marked of it. -/
theorem Durable.evicting_has (hD : Durable c g) (hI : Owned n c) {t : τ} {a : Acquirer}
    {ev : Eviction} {io : Io} (hph : c.phase t = .suspended (.evicting a ev io)) :
    g.Has ev.oldPageId (c.bytes ev.frameId) ∧
      (ev.dirty = false →
        g.Saves ev.oldPageId (g.marked ev.oldPageId) (c.disk ev.oldPageId)) := by
  have hclaim : (c.phase t).claim =
      some (ev.frameId, .evicting ev.oldPageId ev.dirty ev.dirtyEpoch) := by
    rw [hph]
    rfl
  have hplace : c.place ev.oldPageId = .evicting ev.frameId := hI.place_of_claim hclaim rfl
  obtain ⟨hbytes, hdisk⟩ := (hD.kept ev.oldPageId).frame (Or.inr hplace)
  rw [hI.claim_use t ev.frameId _ hclaim] at hdisk
  exact ⟨hbytes, hdisk⟩

omit [DecidableEq τ] in
/-- The bytes of a page that is being flushed include what is marked of it. -/
theorem Durable.writing_has (hD : Durable c g) (hP : Pinned c) {t : τ} {p f : Nat}
    (hwrites : (c.phase t).writes = some (p, f)) : g.Has p (c.bytes f) := by
  have hplace : c.place p = .resident f :=
    hP.resident_of_refs p f (refs_pos_of_writer (t := t) hwrites)
  exact ((hD.kept p).frame (Or.inl hplace)).1

/-- What the disk includes of a page's marked changes it goes on to include. -/
theorem Durable.includes_disk (hD : Durable c g) (h : Step n N complete c e c') (hI : Owned n c)
    (hP : Pinned c) {p m : Nat} (hle : m ≤ g.marked p) (hm : Includes (g.history p) m (c.disk p)) :
    Includes ((e.enter (Ledger.after sweeps) g).history p) m (c'.disk p) := by
  have hcopy : ∀ {q : Nat} {page : Page}, (p = q → Includes (g.history p) m page) →
      Includes (g.history p) m (Function.update c.disk q page p) := by
    intro q page hpage
    by_cases hpq : p = q
    · subst hpq
      rw [Function.update_self]
      exact hpage rfl
    · rwa [Function.update_of_ne hpq]
  apply Includes.enter
  cases h with
  | evictCopy t a ev hph =>
    refine hcopy ?_
    rintro rfl
    exact (hD.evicting_has hI hph).1.mono hle
  | evictCopyFailed t a ev k e hph =>
    refine hcopy ?_
    rintro rfl
    exact ((hD.evicting_has hI hph).1.mono hle).overwrite hm k
  | writeCopy t q f epoch caller hph =>
    refine hcopy ?_
    rintro rfl
    exact (hD.writing_has hP (t := t) (by rw [hph]; rfl)).mono hle
  | writeCopyFailed t q f epoch caller k e hph =>
    refine hcopy ?_
    rintro rfl
    exact ((hD.writing_has hP (t := t) (by rw [hph]; rfl)).mono hle).overwrite hm k
  | @unpinned c₁ t q f caller failure hph hunpin => simpa [hunpin.frame_only] using hm
  | @unpinThrew c₁ t q f caller failure e hph hunpin => simpa [hunpin.frame_only] using hm
  | @drop c₁ slot gd failure hg hv hpage hunpin =>
    have hframe := hunpin.frame_only
    cases failure <;> simpa [hframe] using hm
  | _ => exact hm

/-- What has been written of a page's marked changes stays so. -/
theorem Durable.saves_disk (hD : Durable c g) (h : Step n N complete c e c') (hI : Owned n c)
    (hP : Pinned c) {p m : Nat} (hle : m ≤ g.marked p) (hm : g.Saves p m (c.disk p)) :
    (e.enter (Ledger.after sweeps) g).Saves p m (c'.disk p) :=
  ⟨hD.includes_disk h hI hP hle hm.includes,
    hm.completed.trans (completed_enter_le sweeps e g p)⟩

/-- The bytes of a frame that another thread has to itself stay as they are. -/
theorem Step.bytes_claimed (h : Step n N complete c e c') (hI : Owned n c) (hP : Pinned c)
    {u : τ} {f : Nat} {w : Use} (hclaim : (c.phase u).claim = some (f, w))
    (hsame : c'.phase u = c.phase u) : c'.bytes f = c.bytes f := by
  have hother : ∀ {t : τ} {f' : Nat} {w' : Use} {ph : Phase} {page : Page},
      (c.phase t).claim = some (f', w') → c'.phase = Function.update c.phase t ph →
      ph ≠ c.phase t → Function.update c.bytes f' page f = c.bytes f := by
    intro t f' w' ph page hclaim' hphase hmoved
    refine Function.update_of_ne ?_ _ _
    rintro rfl
    obtain rfl := hI.claim_unique u t f w w' hclaim hclaim'
    rw [hphase, Function.update_self] at hsame
    exact hmoved hsame
  cases h with
  | create t p f' hph | readCopy t p f' hph | readCopyFailed t p f' left e hph
  | block t p f' e hph =>
    exact hother (t := t) (by rw [hph]; rfl) rfl (by rw [hph]; simp)
  | change slot gd page hg hv =>
    obtain ⟨r, hr, -⟩ := hP.of_guard hI (List.mem_of_getElem? hg) hv
    refine Function.update_of_ne ?_ _ _
    rintro rfl
    exact hI.unclaimed_of_resident hr u w hclaim
  | @unpinned c₁ t q f caller failure hph hunpin => simp [hunpin.frame_only]
  | @unpinThrew c₁ t q f caller failure e hph hunpin => simp [hunpin.frame_only]
  | @drop c₁ slot gd failure hg hv hpage hunpin =>
    have hframe := hunpin.frame_only
    cases failure <;> simp [hframe]
  | _ => rfl

/-! ## The frame of a page with references -/

omit [Fintype τ] in
/-- Unpinning keeps a frame's epoch. -/
theorem Unpin.epoch {f f' : Nat} {r : Tenant} {failure : Option Error} (h : Unpin c f c' failure)
    (hr : c.frame f' = .resident r) : ∃ r', c'.frame f' = .resident r' ∧ r'.epoch = r.epoch := by
  have hupdate : ∀ {r₀ w : Tenant}, c.frame f = .resident r₀ → w.epoch = r₀.epoch →
      ∃ r', Function.update c.frame f (.resident w) f' = .resident r' ∧ r'.epoch = r.epoch := by
    intro r₀ w hr₀ hw
    by_cases hf : f' = f
    · subst hf
      obtain rfl := Use.resident.inj (hr₀.symm.trans hr)
      exact ⟨w, Function.update_self _ _ _, hw⟩
    · exact ⟨r, by rw [Function.update_of_ne hf, hr], rfl⟩
  cases h with
  | kept r₀ k hr₀ | last r₀ hr₀ | unknown r₀ e hr₀ => exact hupdate hr₀ rfl
  | refused => exact ⟨r, hr, rfl⟩

/-- How a step that keeps page `p` in frame `f` treats the frame's epoch: only a mark of
the page moves it on. -/
def EpochStep (c : Cfg τ) (p f : Nat) (e : Event τ) (r r' : Tenant) : Prop :=
  (r'.epoch = r.epoch ∧ e.Passes p) ∨ (r'.epoch = (r.epoch + 1) % 2 ^ 64 ∧
    ∃ slot, e = .marked slot p (c.Captured p f ((r.epoch + 1) % 2 ^ 64)))

/-- A page with references stays in its frame, whose epoch counts the marks. -/
theorem Step.tenant (h : Step n N complete c e c') (hI : Owned n c) (hP : Pinned c) {p f : Nat}
    {r : Tenant} (hrefs : 0 < c.refs p f) (hr : c.frame f = .resident r) :
    ∃ r', c'.frame f = .resident r' ∧ EpochStep c p f e r r' := by
  have hplace := hP.resident_of_refs p f hrefs
  obtain ⟨k, r₀, hr₀, hpage, hlisted, hpins, -⟩ := hP.of_refs hI hrefs
  obtain rfl := Use.resident.inj (hr₀.symm.trans hr)
  have hstays : c'.frame f = c.frame f → e.Passes p →
      ∃ r', c'.frame f = .resident r' ∧ EpochStep c p f e r₀ r' :=
    fun hframe he => ⟨r₀, by rw [hframe, hr], Or.inl ⟨rfl, he⟩⟩
  -- only another frame, or only the counters of this one
  have hother : ∀ {f' : Nat} {w : Use}, c'.frame = Function.update c.frame f' w → f ≠ f' →
      e.Passes p → ∃ r', c'.frame f = .resident r' ∧ EpochStep c p f e r₀ r' :=
    fun hframe hne => hstays (by rw [hframe, Function.update_of_ne hne])
  have hcount : ∀ {f' : Nat} {r₁ w : Tenant}, c.frame f' = .resident r₁ →
      c'.frame = Function.update c.frame f' (.resident w) → w.epoch = r₁.epoch → e.Passes p →
      ∃ r', c'.frame f = .resident r' ∧ EpochStep c p f e r₀ r' := by
    intro f' r₁ w hr₁ hframe hw he
    by_cases hff : f = f'
    · subst hff
      obtain rfl := Use.resident.inj (hr₁.symm.trans hr)
      exact ⟨w, by rw [hframe, Function.update_self], Or.inl ⟨hw, he⟩⟩
    · exact hother hframe hff he
  have hclaimed : ∀ {t : τ} {f' : Nat} {w : Use}, (c.phase t).claim = some (f', w) → f ≠ f' := by
    rintro t f' w hclaim rfl
    exact hI.unclaimed_of_resident hr t w hclaim
  have hunpinned : ∀ {f' : Nat} {r₁ : Tenant}, c.frame f' = .resident r₁ → r₁.pins = 0 →
      f ≠ f' := by
    rintro f' r₁ hr₁ hzero rfl
    obtain rfl := Use.resident.inj (hr₁.symm.trans hr)
    omega
  have hunpin : ∀ {c₀ c₁ : Cfg τ} {f' : Nat} {failure : Option Error}, Unpin c₀ f' c₁ failure →
      c₀.frame = c.frame → c'.frame = c₁.frame → e.Passes p →
      ∃ r', c'.frame f = .resident r' ∧ EpochStep c p f e r₀ r' := by
    intro c₀ c₁ f' failure hu hbefore hafter he
    obtain ⟨r', hr', hepoch⟩ := hu.epoch (show c₀.frame f = .resident r₀ by rw [hbefore, hr])
    exact ⟨r', by rw [hafter, hr'], Or.inl ⟨hepoch, he⟩⟩
  cases h with
  | visit | noIds | reserve | snapshot | wakePage | wakeFrame | nextFlush | leave | sleepPage | seek
  | skipFlush | deleteUnused | deleteNonResident | recheck | tookFrame | sleepFrame | rollback
  | abandon | writeFailed | evictCopy | evictCopyFailed | writeCopy | writeCopyFailed | readCopy
  | readCopyFailed | change | dropStale | move | assign => exact hstays rfl trivial
  | flushReturn t caller =>
    refine hstays rfl ?_
    rcases caller with - | rest
    · trivial
    · cases rest <;> trivial
  | noFrame t a =>
    refine hstays rfl ?_
    cases a <;> trivial
  | pin t q f' r₁ hph hplace' hr₁ | capture t q f' r₁ caller hph hplace' hr₁ =>
    exact hcount hr₁ rfl rfl trivial
  | deleteResident t q f' r₁ hph hplace' hr₁ hzero => exact hother rfl (hunpinned hr₁ hzero) trivial
  | evictBegin t a f' r₁ hph hev hplace' hr₁ hzero =>
    exact hother rfl (hunpinned hr₁ hzero) trivial
  | evictDone t a ev hph =>
    refine hother rfl (hclaimed (t := t) (by rw [hph]; rfl)) ?_
    split <;> trivial
  | evictFail t a ev e hph =>
    refine hother rfl (hclaimed (t := t) (by rw [hph]; rfl)) ?_
    cases a <;> trivial
  | create t q f' hph hnon =>
    refine hother rfl (hclaimed (t := t) (by rw [hph]; rfl)) ?_
    rintro rfl
    rw [hnon] at hplace
    cases hplace
  | block t q f' e hph | loadBegin t q f' hph | surplus t q f' hph | loaded t q f' hph
  | loadFailed t q f' e hph => exact hother rfl (hclaimed (t := t) (by rw [hph]; rfl)) trivial
  | written t q f' epoch caller hph =>
    rcases Use.cleaned_cases q epoch (c.frame f') with ⟨r₁, hr₁, -, -, hclean⟩ | hsame
    · refine hcount (w := { r₁ with dirty := false }) hr₁ ?_ rfl trivial
      rw [← hclean]
      rfl
    · refine hstays ?_ trivial
      simp [hsame]
  | @unpinned c₁ t q f' caller failure hph hu =>
    refine hunpin hu rfl rfl ?_
    cases failure <;> trivial
  | @unpinThrew c₁ t q f' caller failure e hph hu => exact hunpin hu rfl rfl trivial
  | @drop c₁ slot gd failure hg hv hpage' hu =>
    cases failure
    · exact hunpin hu rfl rfl trivial
    · exact hunpin hu rfl rfl trivial
  | mark slot gd r₁ hg hv hr₁ hpage' =>
    by_cases hff : f = gd.frameId
    · subst hff
      obtain rfl := Use.resident.inj (hr₁.symm.trans hr)
      have hpq : gd.pageId = p := hpage'.symm.trans hpage
      exact ⟨_, Function.update_self _ _ _, Or.inr ⟨rfl, slot, by rw [hpq]⟩⟩
    · refine hother rfl hff ?_
      rintro rfl
      obtain ⟨r₂, -, -, -, -, hplace₂⟩ := hP.of_guard hI (List.mem_of_getElem? hg) hv
      rw [hplace] at hplace₂
      exact hff (Place.resident.inj hplace₂)

/-! ## What transfers have done -/

/-- No transfer of the thread has done anything. -/
def Phase.Quiet : Phase → Prop
  | .suspended (.reading _ _ .done) | .suspended (.evicting _ _ .done)
  | .suspended (.writing _ _ _ _ _) => False
  | _ => True

omit [Fintype τ] [DecidableEq τ] in
theorem Told.of_quiet {t : τ} (h : (c.phase t).Quiet) : Told c g t := by
  unfold Told
  split <;> first
    | trivial
    | (rename_i heq; rw [heq] at h; exact h.elim)

omit [Fintype τ] in
/-- A thread whose `WritePage` moves its bytes goes on. -/
theorem Step.copied (h : Step n N complete c e c') {t : τ} {p : Nat} (he : e = .copied t p) :
    c'.phase t ≠ c.phase t := by
  have hplain : ¬ e.Plain := by
    rw [he]
    exact id
  cases h with
  | evictCopy t' a ev hph | writeCopy t' q f epoch caller hph =>
    obtain ⟨rfl, -⟩ := Event.copied.inj he
    simp [hph]
  | flushReturn t' caller => exact absurd (plain_eventOf t' _) hplain
  | noFrame t' a | evictFail t' a => exact absurd (plain_failEvent t' a _) hplain
  | evictDone t' a ev => exact absurd (plain_evictDone t' ev) hplain
  | unpinned t' q f caller failure => exact absurd (plain_unpinEvent t' failure) hplain
  | _ => cases he

omit [Fintype τ] in
/-- A `WritePage` finds marked what is marked when it moves its bytes. -/
theorem copied_enter (sweeps : Bool) (g : Ledger τ) (t : τ) (p : Nat) :
    (Event.enter (Ledger.after sweeps) g (.copied t p)).copied t = g.marked p :=
  Function.update_self _ _ _

omit [Fintype τ] in
theorem Step.copied_stay (h : Step n N complete c e c') {u : τ} (hsame : c'.phase u = c.phase u) :
    (e.enter (Ledger.after sweeps) g).copied u = g.copied u := by
  cases e with
  | copied t p =>
    refine Function.update_of_ne ?_ _ _
    rintro rfl
    exact h.copied rfl hsame
  | ended t r => cases r <;> rfl
  | _ => rfl

/-- What is told of a thread that a step leaves where it is. -/
theorem Durable.told_stay (hD : Durable c g) (h : Step n N complete c e c') (hnew : e.Renews)
    (hI : Owned n c) (hP : Pinned c) (hR : Reservations c) {u : τ}
    (hsame : c'.phase u = c.phase u) :
    Told c' (e.enter (Ledger.after sweeps) g) u := by
  have htold := hD.told u
  unfold Told at htold ⊢
  rw [hsame]
  split
  · rename_i p f hph
    simp only [hph] at htold
    have hclaim : (c.phase u).claim = some (f, .loading p) := by rw [hph]; rfl
    have hplace : c.place p = .loading f := hI.place_of_claim hclaim rfl
    have hpasses := h.passes_of_not_created hR hI hP (p := p)
      (by rw [hplace]; simp) (by rw [hplace]; simp)
    rw [h.bytes_claimed hI hP hclaim hsame]
    exact Has.enter htold hpasses
  · rename_i a ev hph
    simp only [hph] at htold
    have hplace : c.place ev.oldPageId = .evicting ev.frameId :=
      hI.place_of_claim (t := u) (u := .evicting ev.oldPageId ev.dirty ev.dirtyEpoch)
        (by rw [hph]; rfl) rfl
    have hpasses := h.passes_of_not_created hR hI hP (p := ev.oldPageId)
      (by rw [hplace]; simp) (by rw [hplace]; simp)
    have hle := marked_enter_le sweeps hpasses g
    refine ⟨(hD.includes_disk h hI hP le_rfl htold.1).mono hle, fun hdirty => ?_⟩
    rw [h.copied_stay hsame]
    exact hle.trans (htold.2 hdirty)
  · rename_i p f epoch caller io hph
    simp only [hph] at htold
    obtain ⟨r, hr, hsince⟩ := htold
    obtain ⟨r', hr', ⟨hepoch, hpasses⟩ | ⟨hepoch, slot, rfl⟩⟩ := h.tenant hI hP
      (refs_pos_of_writer (t := u) (by rw [hph]; rfl)) hr
    · have hle := marked_enter_le sweeps hpasses g
      refine ⟨r', hr', fun hsame' hio => ?_⟩
      obtain ⟨hincludes, hcopied⟩ := hsince (hepoch.symm.trans hsame') hio
      rw [h.copied_stay hsame]
      exact ⟨(hD.includes_disk h hI hP le_rfl hincludes).mono hle, hle.trans hcopied⟩
    · -- the mark has moved the epoch on, and not back to the captured one
      refine ⟨r', hr', fun hsame' => absurd ⟨u, caller, io, ?_⟩ hnew⟩
      rw [hph, ← hepoch, hsame']
  · trivial

theorem Durable.told_step (hD : Durable c g) (h : Step n N complete c e c') (hnew : e.Renews)
    (hI : Owned n c) (hP : Pinned c) (hR : Reservations c) (u : τ) :
    Told c' (e.enter (Ledger.after sweeps) g) u := by
  by_cases hsame : c'.phase u = c.phase u
  · exact hD.told_stay h hnew hI hP hR hsame
  by_cases hquiet : (c'.phase u).Quiet
  · exact .of_quiet hquiet
  have hmoved : ∀ {t : τ} {w : Phase}, c'.phase = Function.update c.phase t w →
      u = t ∧ ¬ w.Quiet := by
    intro t w hphase
    by_cases hut : u = t
    · subst hut
      rw [hphase, Function.update_self] at hquiet
      exact ⟨rfl, hquiet⟩
    · rw [hphase, Function.update_of_ne hut] at hsame
      exact absurd rfl hsame
  cases h with
  | noIds | change | mark | dropStale | move | assign => exact absurd rfl hsame
  | @drop c₁ slot gd failure hg hv hpage hunpin =>
    have hframe := hunpin.frame_only
    cases failure <;> exact absurd (by simp [hframe]) hsame
  | @unpinned c₁ t q f caller failure hph hunpin =>
    have hphase : (c₁.notify.goto t (unpinPhase caller failure)).phase =
        Function.update c.phase t (unpinPhase caller failure) := by simp [hunpin.frame_only]
    cases failure <;> exact absurd trivial (hmoved hphase).2
  | @unpinThrew c₁ t q f caller failure e hph hunpin =>
    have hphase : (c₁.goto t (.suspended .idle)).phase =
        Function.update c.phase t (.suspended .idle) := by simp [hunpin.frame_only]
    exact absurd trivial (hmoved hphase).2
  | flushReturn t caller =>
    rcases caller with - | rest
    · exact absurd trivial (hmoved rfl).2
    · cases rest <;> exact absurd trivial (hmoved rfl).2
  | noFrame t a | evictFail t a => cases a <;> exact absurd trivial (hmoved rfl).2
  | evictBegin t a f r hph hev hplace hr hpins =>
    obtain ⟨rfl, -⟩ := hmoved rfl
    obtain ⟨-, hdisk⟩ := (hD.kept r.page).frame (Or.inl hplace)
    rw [hr] at hdisk
    unfold Told
    cases hdirty : r.dirty with
    | true => simp
    | false => simpa using Has.enter (e := .silent) (hdisk hdirty).includes trivial
  | capture t q f r caller hph hplace hr hdirty =>
    obtain ⟨rfl, -⟩ := hmoved rfl
    unfold Told
    simp
  | evictCopy t a ev hph =>
    obtain ⟨rfl, -⟩ := hmoved rfl
    have hhas : (Event.enter (Ledger.after sweeps) g (.copied u ev.oldPageId)).Has ev.oldPageId
        (c.bytes ev.frameId) := Has.enter (hD.evicting_has hI hph).1 trivial
    unfold Told
    simp only [Cfg.goto, Cfg.setDisk, Function.update_self]
    exact ⟨hhas, fun _ => le_of_eq (copied_enter sweeps g u ev.oldPageId).symm⟩
  | writeCopy t q f epoch caller hph =>
    obtain ⟨rfl, -⟩ := hmoved rfl
    have htold := hD.told u
    have hbytes := hD.writing_has hP (t := u) (by rw [hph]; rfl)
    unfold Told at htold ⊢
    rw [hph] at htold
    obtain ⟨r, hr, hsince⟩ := htold
    simp only [Cfg.goto, Cfg.setDisk, Function.update_self]
    exact ⟨r, hr, fun _ _ => ⟨hbytes, le_of_eq (copied_enter sweeps g u q).symm⟩⟩
  | writeCopyFailed t q f epoch caller k e hph =>
    obtain ⟨rfl, -⟩ := hmoved rfl
    have htold := hD.told u
    unfold Told at htold ⊢
    rw [hph] at htold
    obtain ⟨r, hr, hsince⟩ := htold
    simp only [Cfg.goto, Cfg.setDisk, Function.update_self]
    exact ⟨r, hr, fun _ hio => by cases hio⟩
  | readCopy t q f hph =>
    obtain ⟨rfl, -⟩ := hmoved rfl
    have hplace : c.place q = .loading f :=
      hI.place_of_claim (t := u) (u := .loading q) (by rw [hph]; rfl) rfl
    unfold Told
    simpa using Has.enter (e := .silent) ((hD.kept q).disk (Or.inr ⟨f, hplace⟩)).includes trivial
  | _ => exact absurd trivial (hmoved rfl).2

/-! ## Reserved ids and changes that are not marked -/

omit [Fintype τ] in
@[simp] theorem clients_enter (sweeps : Bool) (e : Event τ) (g : Ledger τ) :
    (e.enter (Ledger.after sweeps) g).clients = e.enter Clients.after g.clients := by
  cases e with
  | ended t r => cases r <;> rfl
  | _ => rfl

theorem Durable.reserved_step (hD : Durable c g) (h : Step n N complete c e c') (hI : Owned n c)
    (hP : Pinned c) (hR : Reservations c) (hR' : Reservations c') {t : τ} {p : Nat}
    (hres : (c'.phase t).reserves = some p) :
    (e.enter (Ledger.after sweeps) g).marked p = 0 := by
  have hbefore : g.marked p = 0 ∧ ∀ f, c.place p ≠ .resident f := by
    rcases h.reserved hI ⟨t, hres⟩ with ⟨u, hu⟩ | hunused
    · have hplace := hR.nonResident u p hu
      exact ⟨hD.reserved u p hu, by rw [hplace]; simp⟩
    · exact ⟨(hD.kept p).unused hunused, by rw [hunused]; simp⟩
  have hpasses : e.Passes p := by
    cases e with
    | created u q f =>
      rintro rfl
      have hnon := hR'.nonResident t q hres
      rw [(h.created rfl).2.1] at hnon
      cases hnon
    | marked slot q clash =>
      rintro rfl
      obtain ⟨gd, hg, hv, rfl⟩ := h.marked rfl
      obtain ⟨r, -, -, -, -, hplace⟩ := hP.of_guard hI (List.mem_of_getElem? hg) hv
      exact hbefore.2 _ hplace
    | _ => trivial
  exact Nat.le_zero.mp ((marked_enter_le sweeps hpasses g).trans (le_of_eq hbefore.1))

omit [Fintype τ] in
/-- Where no guard is used, no change is made. -/
theorem pending_enter (sweeps : Bool) (he : e.spares) (g : Ledger τ) (slot : Nat) :
    (e.enter (Ledger.after sweeps) g).pending slot = g.pending slot ∨
      (e.enter (Ledger.after sweeps) g).pending slot = 0 := by
  cases e with
  | changed | dropped | moved => exact he.elim
  | ended t r => cases r <;> exact Or.inl rfl
  | marked slot' p clash =>
    by_cases hs : slot = slot'
    · subst hs
      exact Or.inr (Function.update_self _ _ _)
    · exact Or.inl (Function.update_of_ne hs _ _)
  | _ => exact Or.inl rfl

/-- A change that is not marked stays in the frame of its guard. -/
def Unmarked (c : Cfg τ) (g : Ledger τ) (slot : Nat) : Prop :=
  g.pending slot ≠ 0 → ∃ gd, c.guards[slot]? = some gd ∧ gd.valid = true ∧
    Includes (g.history gd.pageId) (g.pending slot) (c.bytes gd.frameId)

omit [Fintype τ] [DecidableEq τ] in
/-- The guard of a change that is not marked is in the same slot, or in another one. -/
theorem Unmarked.moved {slot slot' : Nat} {g' : Ledger τ} (h : Unmarked c g slot)
    (hpending : g'.pending slot' = g.pending slot) (hhistory : g'.history = g.history)
    (hguards : ∀ gd, c.guards[slot]? = some gd → c'.guards[slot']? = some gd)
    (hbytes : c'.bytes = c.bytes) : Unmarked c' g' slot' := by
  intro hne
  obtain ⟨gd, hg, hv, hincludes⟩ := h (hpending ▸ hne)
  exact ⟨gd, hguards gd hg, hv, by rwa [hpending, hhistory, hbytes]⟩

omit [Fintype τ] [DecidableEq τ] in
theorem Unmarked.zero {slot : Nat} {g' : Ledger τ} (h : g'.pending slot = 0) :
    Unmarked c' g' slot := fun hne => absurd h hne

theorem Durable.change_step (hD : Durable c g) (hI : Owned n c) (hP : Pinned c) {slot slot' : Nat}
    {gd : PageGuard} {page : Page} (hg : c.guards[slot]? = some gd) (hv : gd.valid = true) :
    Unmarked (c.setBytes gd.frameId page)
      (Event.enter (Ledger.after sweeps) g (.changed slot gd.pageId page)) slot' := by
  by_cases hs : slot' = slot
  · subst hs
    refine fun _ => ⟨gd, hg, hv, ?_⟩
    simp only [Event.enter, Event.note, Option.elim, Ledger.after, Ledger.change,
      Function.update_self, Cfg.setBytes]
    exact .last le_rfl
  · have hpending :
        (Event.enter (Ledger.after sweeps) g (.changed slot gd.pageId page)).pending slot' =
        g.pending slot' := Function.update_of_ne hs _ _
    intro hne
    rw [hpending] at hne ⊢
    obtain ⟨gd', hg', hv', hincludes⟩ := hD.pending slot' hne
    refine ⟨gd', hg', hv', ?_⟩
    by_cases hf : gd'.frameId = gd.frameId
    · -- the two guards are on one page
      obtain ⟨r, hr, hpage, -⟩ := hP.of_guard hI (List.mem_of_getElem? hg) hv
      obtain ⟨r', hr', hpage', -⟩ := hP.of_guard hI (List.mem_of_getElem? hg') hv'
      rw [hf, hr] at hr'
      obtain rfl := Use.resident.inj hr'
      have hlen := hincludes.le_length
      rw [hpage'.symm.trans hpage] at hlen ⊢
      simp only [Event.enter, Event.note, Option.elim, Ledger.after, Ledger.change,
        Function.update_self, Cfg.setBytes, hf]
      exact .last (Nat.le_succ_of_le hlen)
    · have hbytes : (c.setBytes gd.frameId page).bytes gd'.frameId = c.bytes gd'.frameId :=
        Function.update_of_ne hf _ _
      rw [hbytes]
      exact Includes.enter hincludes

theorem Durable.pending_step (hD : Durable c g) (h : Step n N complete c e c') (hI : Owned n c)
    (hP : Pinned c) (slot : Nat) : Unmarked c' (e.enter (Ledger.after sweeps) g) slot := by
  have hold : Unmarked c g slot := hD.pending slot
  by_cases hspares : e.spares
  · rcases pending_enter sweeps hspares g slot with hsame | hzero
    · intro hne
      rw [hsame] at hne ⊢
      obtain ⟨gd, hg, hv, hincludes⟩ := hold hne
      obtain ⟨⟨gs, hguards⟩, hbytes⟩ := h.spares hspares hI
      obtain ⟨r, hr, -⟩ := hP.of_guard hI (List.mem_of_getElem? hg) hv
      have hlt := (List.getElem?_eq_some_iff.mp hg).1
      refine ⟨gd, by rw [hguards, List.getElem?_append_left hlt, hg], hv, ?_⟩
      rw [hbytes gd.frameId r hr]
      exact Includes.enter hincludes
    · exact .zero hzero
  · cases h with
    | change slot' gd page hg hv => exact hD.change_step hI hP hg hv
    | @drop c₁ slot' gd failure hg hv hpage hunpin =>
      by_cases hs : slot = slot'
      · subst hs
        exact .zero (Function.update_self _ _ _)
      · have hframe := hunpin.frame_only
        refine hold.moved (Function.update_of_ne hs _ _) rfl (fun gd' hg' => ?_) ?_
        · cases failure <;> simpa [hframe, List.getElem?_set_ne (Ne.symm hs)] using hg'
        · cases failure <;> simp [hframe]
    | dropStale slot' gd e hg hv hpage =>
      by_cases hs : slot = slot'
      · subst hs
        exact .zero (Function.update_self _ _ _)
      · exact hold.moved (Function.update_of_ne hs _ _) rfl
          (fun gd' hg' => by simpa [List.getElem?_set_ne (Ne.symm hs)] using hg') rfl
    | move slot' gd hg =>
      have hlt := (List.getElem?_eq_some_iff.mp hg).1
      by_cases hs : slot = slot'
      · subst hs
        exact .zero (Function.update_self _ _ _)
      · by_cases hlast : slot = c.guards.length
        · subst hlast
          refine (show Unmarked c g slot' from hD.pending slot').moved ?_ rfl
            (fun gd' hg' => ?_) rfl
          · exact (Function.update_of_ne hs _ _).trans (Function.update_self _ _ _)
          · rw [← hg', hg, List.getElem?_append_right (by simp)]
            simp
        · refine hold.moved ((Function.update_of_ne hs _ _).trans (Function.update_of_ne hlast _ _))
            rfl (fun gd' hg' => ?_) rfl
          have hlt' := (List.getElem?_eq_some_iff.mp hg').1
          rw [List.getElem?_append_left (by simpa using hlt'), List.getElem?_set_ne (Ne.symm hs),
            hg']
    | assign slot' source gd gd' hne hg hv hg' =>
      have hlt := (List.getElem?_eq_some_iff.mp hg).1
      by_cases hs : slot = source
      · subst hs
        exact .zero (Function.update_self _ _ _)
      · by_cases hto : slot = slot'
        · subst hto
          refine (show Unmarked c g source from hD.pending source).moved ?_ rfl
            (fun gd₁ hg₁ => ?_) rfl
          · exact (Function.update_of_ne hs _ _).trans (Function.update_self _ _ _)
          · rw [List.getElem?_set_ne (Ne.symm hne), List.getElem?_set_self hlt, ← hg', hg₁]
        · refine hold.moved ((Function.update_of_ne hs _ _).trans (Function.update_of_ne hto _ _))
            rfl (fun gd₁ hg₁ => ?_) rfl
          rw [List.getElem?_set_ne (Ne.symm hs), List.getElem?_set_ne (Ne.symm hto), hg₁]
    | flushReturn t caller =>
      rcases caller with - | rest
      · exact absurd trivial hspares
      · cases rest <;> exact absurd trivial hspares
    | noFrame t a | evictFail t a => cases a <;> exact absurd trivial hspares
    | evictDone t a ev => cases hd : ev.dirty <;> simp [hd, Event.spares] at hspares
    | unpinned t q f caller failure => cases failure <;> exact absurd trivial hspares
    | _ => exact absurd trivial hspares

/-! ## Runs -/

/-- The account goes on to fit the configuration. -/
theorem Durable.step (h : Step n N complete c e c') (hnew : e.Renews)
    (hI : Owned n c) (hP : Pinned c) (hR : Reservations c) (hR' : Reservations c')
    (hD : Durable c g) :
    Durable c' (e.enter (Ledger.after sweeps) g) where
  kept := hD.kept_step h hI hP hR
  told := hD.told_step h hnew hI hP hR
  reserved _ _ hres := hD.reserved_step h hI hP hR hR' hres
  pending slot := hD.pending_step h hI hP slot

/-! ## Epochs -/

/-- A captured epoch is the frame's, or has been left behind by at most as many marks as
there have been. -/
structure Counted (c : Cfg τ) (g : Ledger τ) : Prop where
  marks_lt : g.marks < 2 ^ 64
  captured : ∀ t p f epoch caller io, c.phase t = .suspended (.writing p f epoch caller io) →
    ∃ r, c.frame f = .resident r ∧
      (r.epoch = epoch ∨ ∃ k, 0 < k ∧ k ≤ g.marks ∧ r.epoch = (epoch + k) % 2 ^ 64)

omit [Fintype τ] in
/-- A `FlushPage` that is writing was writing before, or has just captured the epoch. -/
theorem Step.writing (h : Step n N complete c e c') {u : τ} {p f epoch : Nat}
    {caller : FlushCaller} {io : Io}
    (hph' : c'.phase u = .suspended (.writing p f epoch caller io)) :
    (∃ io', c.phase u = .suspended (.writing p f epoch caller io')) ∨
      ∃ r, c'.frame f = .resident r ∧ r.epoch = epoch := by
  have hmoved : ∀ {t : τ} {w : Phase}, c'.phase = Function.update c.phase t w →
      (w = .suspended (.writing p f epoch caller io) →
        ∃ io', c.phase t = .suspended (.writing p f epoch caller io')) →
      ∃ io', c.phase u = .suspended (.writing p f epoch caller io') := by
    intro t w hphase hw
    by_cases hut : u = t
    · subst hut
      rw [hphase, Function.update_self] at hph'
      exact hw hph'
    · rw [hphase, Function.update_of_ne hut] at hph'
      exact ⟨io, hph'⟩
  cases h with
  | capture t q f' r caller' hph hplace hr hdirty =>
    by_cases hut : u = t
    · subst hut
      simp only [Cfg.goto, Function.update_self] at hph'
      obtain ⟨rfl, rfl, rfl, rfl, -⟩ := Pc.writing.inj (Phase.suspended.inj hph')
      exact Or.inr ⟨_, Function.update_self _ _ _, rfl⟩
    · simp only [Cfg.goto, Function.update_of_ne hut] at hph'
      exact Or.inl ⟨io, hph'⟩
  | writeCopy t q f' epoch' caller' hph | writeCopyFailed t q f' epoch' caller' k err hph =>
    refine Or.inl (hmoved rfl fun hw => ?_)
    obtain ⟨rfl, rfl, rfl, rfl, -⟩ := Pc.writing.inj (Phase.suspended.inj hw)
    exact ⟨_, hph⟩
  | noIds | change | mark | dropStale | move | assign => exact Or.inl ⟨io, hph'⟩
  | @drop c₁ slot gd failure hg hv hpage hunpin =>
    have hframe := hunpin.frame_only
    refine Or.inl ⟨io, ?_⟩
    cases failure <;> simpa [hframe] using hph'
  | @unpinned c₁ t q f' caller' failure hph hunpin =>
    have hphase : (c₁.notify.goto t (unpinPhase caller' failure)).phase =
        Function.update c.phase t (unpinPhase caller' failure) := by simp [hunpin.frame_only]
    refine Or.inl (hmoved hphase fun hw => ?_)
    cases failure <;> cases hw
  | @unpinThrew c₁ t q f' caller' failure err hph hunpin =>
    have hphase : (c₁.goto t (.suspended .idle)).phase =
        Function.update c.phase t (.suspended .idle) := by simp [hunpin.frame_only]
    exact Or.inl (hmoved hphase fun hw => by cases hw)
  | flushReturn t caller' hph =>
    refine Or.inl (hmoved rfl fun hw => ?_)
    rcases phaseOf_flushReturn caller' with hidle | ⟨p', rest, -, hnext⟩
    · rw [hidle] at hw
      cases hw
    · rw [hnext] at hw
      cases hw
  | noFrame t a | evictFail t a => exact Or.inl (hmoved rfl fun hw => by cases a <;> cases hw)
  | _ => exact Or.inl (hmoved rfl fun hw => by cases hw)

omit [Fintype τ] in
theorem marks_le_enter (sweeps : Bool) (e : Event τ) (g : Ledger τ) :
    g.marks ≤ (e.enter (Ledger.after sweeps) g).marks := by
  cases e with
  | marked slot p clash => exact Nat.le_succ _
  | ended t r => cases r <;> exact le_rfl
  | _ => exact le_rfl

namespace Counted

omit [Fintype τ] in
/-- Fewer than `2 ^ 64` marks do not bring an epoch back. -/
theorem renews (hC : Counted c g) (h : Step n N complete c e c')
    (hallowed : ∀ x, e.note = some x → g.Allows x) : e.Renews := by
  have hlt : ∀ slot p clash, e = .marked slot p clash → g.marks + 1 < 2 ^ 64 := by
    rintro slot p clash rfl
    exact (hallowed _ rfl).2 slot p rfl
  cases h with
  | mark slot gd r hg hv hr hpage =>
    rintro ⟨t, caller, io, hph⟩
    have hmarks := hlt _ _ _ rfl
    obtain ⟨r', hr', hepoch⟩ := hC.captured _ _ _ _ _ _ hph
    obtain rfl := Use.resident.inj (hr.symm.trans hr')
    rcases hepoch with hsame | ⟨k, hpos, hle, hk⟩ <;> omega
  | flushReturn t caller =>
    rcases caller with - | rest
    · trivial
    · cases rest <;> trivial
  | noFrame t a | evictFail t a => cases a <;> trivial
  | evictDone t a ev => cases hd : ev.dirty <;> simp [Event.Renews]
  | unpinned t q f caller failure => cases failure <;> trivial
  | _ => trivial

theorem step (hC : Counted c g) (h : Step n N complete c e c')
    (hallowed : ∀ x, e.note = some x → g.Allows x) (hI : Owned n c) (hP : Pinned c) :
    Counted c' (e.enter (Ledger.after sweeps) g) := by
  refine ⟨?_, fun u p f epoch caller io hph' => ?_⟩
  · cases e with
    | marked slot p clash => exact (hallowed _ rfl).2 slot p rfl
    | ended t r => cases r <;> exact hC.marks_lt
    | _ => exact hC.marks_lt
  rcases h.writing hph' with ⟨io', hph⟩ | ⟨r, hr, hepoch⟩
  · have hmarks := marks_le_enter sweeps e g
    obtain ⟨r, hr, hsince⟩ := hC.captured u p f epoch caller io' hph
    obtain ⟨r', hr', ⟨hepoch, -⟩ | ⟨hepoch, slot, rfl⟩⟩ := h.tenant hI hP
      (refs_pos_of_writer (t := u) (by rw [hph]; rfl)) hr
    · refine ⟨r', hr', ?_⟩
      rw [hepoch]
      exact hsince.imp_right fun ⟨k, hpos, hle, hk⟩ => ⟨k, hpos, hle.trans hmarks, hk⟩
    · -- one mark more since the capture
      refine ⟨r', hr', Or.inr ?_⟩
      rw [hepoch]
      change ∃ k, 0 < k ∧ k ≤ g.marks + 1 ∧ _
      rcases hsince with hsame | ⟨k, hpos, hle, hk⟩
      · exact ⟨1, by omega, by omega, by rw [hsame]⟩
      · exact ⟨k + 1, by omega, by omega, by omega⟩
  · exact ⟨r, hr, Or.inl hepoch⟩

end Counted

end

end BufferManager.Protocol
