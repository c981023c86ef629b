/-
  Guarantees/Linearization.lean --- every transfer takes effect at one instant.

  A run over the file, in which `ReadPage` and `WritePage` take a system call at a time and
  the threads come between, is matched by a run of `System`, in which each transfer moves
  all its bytes when its loop is left.  The two differ, until then, in what the transfers
  in progress have moved: a `WritePage` has put the first bytes of its page into the file
  already, a `ReadPage` has changed the bytes of its frame already.
-/
import BufferManager.Guarantees.Transfers
import BufferManager.Manager.Machine

set_option autoImplicit false

namespace BufferManager

open BufferManager.Lib BufferManager.Protocol BufferManager.Refinement

variable {R τ : Type}

/-! ## Transfers in progress -/

namespace FileBacked

/-- Thread `t` is in the loop of its transfer. -/
def InLoop (x : FileBacked R τ) (t : τ) (tr : Transfer) (progress : Progress) : Prop :=
  (x.pc t).running = some tr ∧ x.progress t = some progress

/-- The frames that a `ReadPage` is filling. -/
def filling (x : FileBacked R τ) : Set Nat :=
  {f | ∃ t p progress, x.InLoop t (.read p f) progress}

/-- The state `s` in which the transfers in progress have moved nothing yet. -/
structure Matches (options : DiskManagerOptions) (x : FileBacked R τ) (s : System R τ) :
    Prop where
  agree : System.AgreeOff x.filling (x.view options) s
  /-- A thread that has entered a loop is in it, at the place of its page. -/
  inLoop : ∀ t progress, x.progress t = some progress → ∃ tr, x.InLoop t tr progress ∧
    progress.offset = options.pageStart tr.pageId ∧ progress.total ≤ kPageSize
  /-- What a `WritePage` has written is in the file. -/
  written : ∀ t p f progress, x.InLoop t (.write p f) progress → ∀ j : Fin kPageSize,
    j.val < progress.total → (pageAt options x.file p).data j = (x.bytes f).data j
  /-- What a `ReadPage` has read is in the frame, and zeros after it. -/
  read : ∀ t p f progress, x.InLoop t (.read p f) progress →
    x.bytes f = Page.overwrite progress.total (pageAt options x.file p) Page.zero
  /-- The file differs from the pages of `s` where a `WritePage` has written. -/
  disk : ∀ p (j : Fin kPageSize), (pageAt options x.file p).data j = (s.disk p).data j ∨
    ∃ t f progress, x.InLoop t (.write p f) progress ∧ j.val < progress.total

variable {options : DiskManagerOptions} {x x' : FileBacked R τ} {s : System R τ}

/-- Nobody is in a loop at first. -/
theorem Matches.initial (h : ∀ t, x.progress t = none) : x.Matches options (x.view options) where
  agree := ⟨.refl _, rfl, rfl⟩
  inLoop t progress hprogress := absurd ((h t).symm.trans hprogress) (by simp)
  written t p f progress hloop := absurd ((h t).symm.trans hloop.2) (by simp)
  read t p f progress hloop := absurd ((h t).symm.trans hloop.2) (by simp)
  disk p j := Or.inl rfl

theorem Matches.pc (h : x.Matches options s) : x.pc = s.pc := h.agree.pc

theorem Matches.bytes (h : x.Matches options s) {f : Nat} (hf : f ∉ x.filling) :
    x.bytes f = s.bytes f := h.agree.manager.frameAllocator.frames f hf

/-- A frame that is written to disk is not being filled. -/
theorem not_filling_of_write (hE : Exclusive x.pc) {t : τ} {p f : Nat}
    (h : (x.pc t).running = some (.write p f)) : f ∉ x.filling := by
  rintro ⟨u, q, progress, hrunning, -⟩
  have hne : u ≠ t := by
    rintro rfl
    rw [h] at hrunning
    cases hrunning
  exact (hE.reads hne hrunning h).2 rfl

/-- Where nobody is in a loop, the states are the same. -/
theorem Matches.eq (h : x.Matches options s) (hnone : ∀ t, x.progress t = none) :
    s = x.view options := by
  have hdisk : ∀ p, s.disk p = pageAt options x.file p := by
    intro p
    refine Page.ext (funext fun j => ?_)
    rcases h.disk p j with hsame | ⟨t, f, progress, ⟨-, hprogress⟩, -⟩
    · exact hsame.symm
    · exact absurd ((hnone t).symm.trans hprogress) (by simp)
  have hframes : x.manager.frameAllocator.frames = s.manager.frameAllocator.frames := by
    funext f
    refine h.bytes ?_
    rintro ⟨t, p, progress, -, hprogress⟩
    exact absurd ((hnone t).symm.trans hprogress) (by simp)
  have hallocator : s.manager.frameAllocator = x.manager.frameAllocator := by
    refine h.agree.manager.frameAllocator.eq.trans ?_
    rw [← hframes]
    rfl
  obtain ⟨manager, disk, pc, guards⟩ := s
  obtain ⟨⟨hcount, -, htable, hreplacer, hmeta, hasleep⟩, hpc, hguards⟩ := h.agree
  obtain ⟨frameCount, frameAllocator, pageTable, replacer, frameMeta, asleep⟩ := manager
  obtain rfl := funext hdisk
  subst hallocator hcount htable hreplacer hmeta hasleep hpc hguards
  rfl

/-- How far a thread has got is at most a page. -/
theorem Matches.total_le (h : x.Matches options s) {t : τ} {tr : Transfer} {progress : Progress}
    (hloop : x.InLoop t tr progress) : progress.total ≤ kPageSize := by
  obtain ⟨-, -, -, htotal⟩ := h.inLoop t progress hloop.2
  exact htotal

/-- A page that is being written has the first bytes of one frame over what it held. -/
theorem Matches.torn (h : x.Matches options s) (hE : Exclusive x.pc) (p : Nat) :
    ∃ f k, pageAt options x.file p = Page.overwrite k (x.bytes f) (s.disk p) ∧
      (k = 0 ∨ ∃ t progress, x.InLoop t (.write p f) progress ∧ progress.total = k) := by
  classical
  by_cases hwriter : ∃ t f progress, x.InLoop t (.write p f) progress
  · obtain ⟨t₀, f, progress₀, hloop₀⟩ := hwriter
    -- All threads that write the page do so from frame `f`; take the one that has got furthest.
    let reached k := ∃ t progress, x.InLoop t (.write p f) progress ∧ progress.total = k
    obtain ⟨t, progress, hloop, htotal⟩ : reached (Nat.findGreatest reached kPageSize) :=
      Nat.findGreatest_spec (h.total_le hloop₀) ⟨t₀, progress₀, hloop₀, rfl⟩
    have hmax : ∀ {u : τ} {progress' : Progress}, x.InLoop u (.write p f) progress' →
        progress'.total ≤ progress.total := fun hloop' =>
      htotal ▸ Nat.le_findGreatest (h.total_le hloop') ⟨_, _, hloop', rfl⟩
    refine ⟨f, progress.total, Page.ext (funext fun j => ?_), Or.inr ⟨t, progress, hloop, rfl⟩⟩
    rw [Page.overwrite_data]
    split
    · next hj => exact h.written t p f progress hloop j hj
    · next hj =>
      rcases h.disk p j with hsame | ⟨u, g, progress', hloop', hj'⟩
      · exact hsame
      · have hframe : g = f := by
          by_cases hu : u = t
          · subst hu
            exact (Transfer.write.inj (Option.some.inj (hloop'.1.symm.trans hloop.1))).2
          · exact (Transfer.write.inj (hE u t _ _ hu hloop'.1 hloop.1 (Or.inl rfl)).1).2
        subst hframe
        exact absurd (lt_of_lt_of_le hj' (hmax hloop')) hj
  · refine ⟨0, 0, Page.ext (funext fun j => ?_), Or.inl rfl⟩
    rw [Page.overwrite_zero]
    rcases h.disk p j with hsame | ⟨t, f, progress, hloop, -⟩
    · exact hsame
    · exact absurd ⟨t, f, progress, hloop⟩ hwriter

/-! ## Steps of a transfer

A thread `t` that is in a transfer goes on in its loop, or leaves it. -/

/-- The other threads are where they were. -/
structure Others (t : τ) (x x' : FileBacked R τ) : Prop where
  pc : ∀ u, u ≠ t → x'.pc u = x.pc u
  progress : ∀ u, u ≠ t → x'.progress u = x.progress u

variable {t : τ} {p f : Nat}

theorem Others.inLoop (ho : Others t x x') {u : τ} (hu : u ≠ t) {tr : Transfer}
    {progress : Progress} : x'.InLoop u tr progress ↔ x.InLoop u tr progress := by
  rw [InLoop, InLoop, ho.pc u hu, ho.progress u hu]

/-- A frame that another thread fills is filled after the step. -/
theorem Others.filling (ho : Others t x x') {g : Nat} (hg : g ∈ x.filling)
    (hself : ∀ q, (x.pc t).running ≠ some (.read q g)) : g ∈ x'.filling := by
  obtain ⟨u, q, progress, hloop⟩ := hg
  have hne : u ≠ t := by
    rintro rfl
    exact hself q hloop.1
  exact ⟨u, q, progress, (ho.inLoop hne).mpr hloop⟩

/-- The thread is in the loop of this transfer, if it is in one. -/
def Stays (options : DiskManagerOptions) (x : FileBacked R τ) (t : τ) (tr : Transfer) : Prop :=
  ∀ progress, x.progress t = some progress → (x.pc t).running = some tr ∧
    progress.offset = options.pageStart tr.pageId ∧ progress.total ≤ kPageSize

theorem Others.inLoop_exists (ho : Others t x x') (h : x.Matches options s) {tr : Transfer}
    (hself : x'.Stays options t tr) {u : τ} {progress : Progress}
    (hprogress : x'.progress u = some progress) : ∃ tr, x'.InLoop u tr progress ∧
      progress.offset = options.pageStart tr.pageId ∧ progress.total ≤ kPageSize := by
  by_cases hu : u = t
  · subst hu
    obtain ⟨hrunning, hplace⟩ := hself progress hprogress
    exact ⟨tr, ⟨hrunning, hprogress⟩, hplace⟩
  · obtain ⟨tr', hloop, hplace⟩ := h.inLoop u progress ((ho.progress u hu).symm.trans hprogress)
    exact ⟨tr', (ho.inLoop hu).mpr hloop, hplace⟩

/-- A step of a `ReadPage`: the file stays as it is, and the frames of others. -/
theorem Matches.of_read (h : x.Matches options s) (hE : Exclusive x.pc)
    (hrunning : (x.pc t).running = some (.read p f)) (ho : Others t x x') {s' : System R τ}
    (hagree : System.AgreeOff x'.filling (x'.view options) s') (hdisk : s'.disk = s.disk)
    (hfile : x'.file = x.file) (hbytes : ∀ g, g ≠ f → x'.bytes g = x.bytes g)
    (hself : x'.Stays options t (.read p f))
    (hread : ∀ progress, x'.progress t = some progress →
      x'.bytes f = Page.overwrite progress.total (pageAt options x.file p) Page.zero) :
    x'.Matches options s' := by
  have hframe : ∀ {u : τ} {tr : Transfer} {progress : Progress}, u ≠ t →
      x.InLoop u tr progress → x'.bytes tr.frameId = x.bytes tr.frameId := fun hu hloop =>
    hbytes _ (hE.reads hu.symm hrunning hloop.1).2
  have hstays : ∀ {tr : Transfer} {progress : Progress}, x'.InLoop t tr progress →
      tr = .read p f := fun hloop =>
    Option.some.inj (hloop.1.symm.trans (hself _ hloop.2).1)
  refine ⟨hagree, fun u progress => ho.inLoop_exists h hself,
    fun u q g progress hloop j hj => ?_, fun u q g progress hloop => ?_, fun q j => ?_⟩
  · have hu : u ≠ t := by
      rintro rfl
      cases hstays hloop
    rw [ho.inLoop hu] at hloop
    rw [hfile, show x'.bytes g = x.bytes g from hframe hu hloop]
    exact h.written u q g progress hloop j hj
  · by_cases hu : u = t
    · subst hu
      obtain ⟨rfl, rfl⟩ := Transfer.read.inj (hstays hloop)
      rw [hfile]
      exact hread progress hloop.2
    · rw [ho.inLoop hu] at hloop
      rw [hfile, show x'.bytes g = x.bytes g from hframe hu hloop]
      exact h.read u q g progress hloop
  · rw [hfile, hdisk]
    rcases h.disk q j with hsame | ⟨u, g, progress, hloop, hj⟩
    · exact Or.inl hsame
    · have hu : u ≠ t := by
        rintro rfl
        have hrunning' := hloop.1
        rw [hrunning] at hrunning'
        cases hrunning'
      exact Or.inr ⟨u, g, progress, (ho.inLoop hu).mpr hloop, hj⟩

/-- A step of a `WritePage`: the frames stay as they are, and the other pages. -/
theorem Matches.of_write (h : x.Matches options s) (hE : Exclusive x.pc)
    (hrunning : (x.pc t).running = some (.write p f)) (ho : Others t x x') {s' : System R τ}
    (hagree : System.AgreeOff x'.filling (x'.view options) s')
    (hbytes : ∀ g, x'.bytes g = x.bytes g)
    (hfile : ∀ q, q ≠ p → pageAt options x'.file q = pageAt options x.file q)
    (hpage : ∀ j, (pageAt options x'.file p).data j = (pageAt options x.file p).data j ∨
      (pageAt options x'.file p).data j = (x.bytes f).data j)
    (hself : x'.Stays options t (.write p f))
    (hwritten : ∀ progress, x'.progress t = some progress → ∀ j : Fin kPageSize,
      j.val < progress.total → (pageAt options x'.file p).data j = (x.bytes f).data j)
    (hdisk : ∀ q, q ≠ p → s'.disk q = s.disk q)
    (hdiskPage : ∀ j, (pageAt options x'.file p).data j = (s'.disk p).data j ∨
      ∃ u f progress, x'.InLoop u (.write p f) progress ∧ j.val < progress.total) :
    x'.Matches options s' := by
  have hstays : ∀ {tr : Transfer} {progress : Progress}, x'.InLoop t tr progress →
      tr = .write p f := fun hloop =>
    Option.some.inj (hloop.1.symm.trans (hself _ hloop.2).1)
  refine ⟨hagree, fun u progress => ho.inLoop_exists h hself,
    fun u q g progress hloop j hj => ?_, fun u q g progress hloop => ?_, fun q j => ?_⟩
  · by_cases hu : u = t
    · subst hu
      obtain ⟨rfl, rfl⟩ := Transfer.write.inj (hstays hloop)
      rw [hbytes]
      exact hwritten progress hloop.2 j hj
    · rw [ho.inLoop hu] at hloop
      have hbefore := h.written u q g progress hloop j hj
      rw [hbytes]
      by_cases hq : q = p
      · -- The other thread flushes the same page, from the same frame.
        subst hq
        obtain ⟨hsame, -⟩ := hE t u _ _ (Ne.symm hu) hrunning hloop.1 (Or.inl rfl)
        obtain ⟨-, rfl⟩ := Transfer.write.inj hsame
        rcases hpage j with hp | hp
        · exact hp.trans hbefore
        · exact hp
      · rw [hfile q hq]
        exact hbefore
  · have hu : u ≠ t := by
      rintro rfl
      cases hstays hloop
    rw [ho.inLoop hu] at hloop
    have hq : p ≠ q := (hE.reads hu hloop.1 hrunning).1
    rw [hbytes, hfile q hq.symm]
    exact h.read u q g progress hloop
  · by_cases hq : q = p
    · subst hq
      exact hdiskPage j
    · rw [hfile q hq, hdisk q hq]
      rcases h.disk q j with hsame | ⟨u, g, progress, hloop, hj⟩
      · exact Or.inl hsame
      · have hu : u ≠ t := by
          rintro rfl
          have hrunning' := hloop.1
          rw [hrunning] at hrunning'
          exact hq (Transfer.write.inj (Option.some.inj hrunning')).1.symm
        exact Or.inr ⟨u, g, progress, (ho.inLoop hu).mpr hloop, hj⟩

variable [DecidableEq τ]

theorem Others.setProgress (ho : Others t x x') (progress : Progress) :
    Others t x (x'.setProgress t progress) :=
  ⟨ho.pc, fun u hu => (Function.update_of_ne hu _ _).trans (ho.progress u hu)⟩

theorem Others.ended (ho : Others t x x') (io : Io) : Others t x (x'.ended t io) :=
  ⟨fun u hu => (Function.update_of_ne hu _ _).trans (ho.pc u hu), fun u hu =>
    (Function.update_of_ne hu _ _).trans (ho.progress u hu)⟩

theorem eq_of_setProgress {progress progress' : Progress}
    (h : (x.setProgress t progress).progress t = some progress') : progress' = progress := by
  simp only [setProgress, Function.update_self] at h
  exact (Option.some.inj h).symm

theorem stays_setProgress {tr : Transfer} {progress : Progress}
    (hrunning : (x.pc t).running = some tr)
    (hoffset : progress.offset = options.pageStart tr.pageId)
    (htotal : progress.total ≤ kPageSize) :
    (x.setProgress t progress).Stays options t tr := by
  intro progress' hprogress
  obtain rfl := eq_of_setProgress hprogress
  exact ⟨hrunning, hoffset, htotal⟩

theorem not_progress_ended {io : Io} {progress : Progress} :
    (x.ended t io).progress t ≠ some progress := by
  simp [ended]

/-- A `ReadPage` goes on in its loop: its frame holds what it has read, and zeros. -/
theorem Matches.readOn (h : x.Matches options s) (hE : Exclusive x.pc)
    (hrunning : (x.pc t).running = some (.read p f)) {progress : Progress}
    (hoffset : progress.offset = options.pageStart p) (htotal : progress.total ≤ kPageSize)
    {page : Page}
    (hpage : page = Page.overwrite progress.total (pageAt options x.file p) Page.zero) :
    ((x.setBytes f page).setProgress t progress).Matches options s := by
  have hsame : Others t x (x.setBytes f page) := ⟨fun _ _ => rfl, fun _ _ => rfl⟩
  have ho := hsame.setProgress progress
  refine h.of_read hE hrunning ho ⟨{ h.agree.manager with frameAllocator :=
    { h.agree.manager.frameAllocator with frames := fun g hg => ?_ } }, h.pc, h.agree.guards⟩
    rfl rfl (fun g hg => Function.update_of_ne hg _ _)
    (stays_setProgress (x := x.setBytes f page) hrunning hoffset htotal)
    fun progress' hprogress => ?_
  · have hgf : g ≠ f := by
      rintro rfl
      exact hg ⟨t, p, progress, hrunning, Function.update_self _ _ _⟩
    refine (Function.update_of_ne hgf _ _).trans
      (h.bytes fun hx => hg (ho.filling hx fun q hq => ?_))
    obtain ⟨-, rfl⟩ := Transfer.read.inj (Option.some.inj (hrunning.symm.trans hq))
    exact hgf rfl
  · obtain rfl := eq_of_setProgress hprogress
    exact (Function.update_self _ _ _).trans hpage

/-- A `ReadPage` leaves its loop: what is in its frame is there in both states. -/
theorem Matches.readOff (h : x.Matches options s) (hE : Exclusive x.pc)
    (hrunning : (x.pc t).running = some (.read p f)) (page : Page) (io : Io) :
    ((x.setBytes f page).ended t io).Matches options
      ((s.setBytes f page).setPc t ((s.pc t).withIo io)) := by
  have hsame : Others t x (x.setBytes f page) := ⟨fun _ _ => rfl, fun _ _ => rfl⟩
  have ho := hsame.ended io
  refine h.of_read hE hrunning ho ⟨{ h.agree.manager with frameAllocator :=
    { h.agree.manager.frameAllocator with frames := fun g hg => ?_ } }, ?_, h.agree.guards⟩
    rfl rfl (fun g hg => Function.update_of_ne hg _ _)
    (fun progress hprogress => absurd hprogress not_progress_ended)
    fun progress hprogress => absurd hprogress not_progress_ended
  · by_cases hgf : g = f
    · subst hgf
      exact (Function.update_self _ _ _).trans
        (Function.update_self g page s.manager.frameAllocator.frames).symm
    · refine (Function.update_of_ne hgf _ _).trans (Eq.trans (h.bytes fun hx => hg ?_)
        (Function.update_of_ne hgf _ _).symm)
      refine ho.filling hx fun q hq => ?_
      obtain ⟨-, rfl⟩ := Transfer.read.inj (Option.some.inj (hrunning.symm.trans hq))
      exact hgf rfl
  · change Function.update x.pc t ((x.pc t).withIo io) =
      Function.update s.pc t ((s.pc t).withIo io)
    rw [h.pc]

/-- A `WritePage` goes on in its loop: more of its frame is in the file. -/
theorem Matches.writeOn (h : x.Matches options s) (hE : Exclusive x.pc)
    (hrunning : (x.pc t).running = some (.write p f)) {progress : Progress}
    (hoffset : progress.offset = options.pageStart p) (htotal : progress.total ≤ kPageSize)
    (hmore : ∀ progress', x.progress t = some progress' → progress'.total ≤ progress.total)
    {file : File} (hfile : ∀ q, q ≠ p → pageAt options file q = pageAt options x.file q)
    (hpage : pageAt options file p =
      Page.overwrite progress.total (x.bytes f) (pageAt options x.file p)) :
    ({ x with file }.setProgress t progress).Matches options s := by
  have hsame : Others t x { x with file } := ⟨fun _ _ => rfl, fun _ _ => rfl⟩
  have ho := hsame.setProgress progress
  have hdata : ∀ j : Fin kPageSize, (pageAt options file p).data j =
      if j.val < progress.total then (x.bytes f).data j else (pageAt options x.file p).data j := by
    intro j
    rw [hpage, Page.overwrite_data]
  have hnot : ∀ {g : Nat} (q : Nat), (x.pc t).running ≠ some (.read q g) := by
    intro g q hq
    cases hrunning.symm.trans hq
  have hmanager := h.agree.manager.mono fun g hg => ho.filling hg hnot
  refine h.of_write hE hrunning ho ⟨hmanager, h.pc, h.agree.guards⟩ (fun _ => rfl) hfile
    (fun j => ?_)
    (stays_setProgress (x := { x with file }) hrunning hoffset htotal)
    (fun progress' hprogress j hj => ?_) (fun _ _ => rfl) fun j => ?_
  · change (pageAt options file p).data j = _ ∨ (pageAt options file p).data j = _
    rw [hdata j]
    split
    · exact Or.inr rfl
    · exact Or.inl rfl
  · obtain rfl := eq_of_setProgress hprogress
    exact (hdata j).trans (if_pos hj)
  · by_cases hj : j.val < progress.total
    · exact Or.inr ⟨t, f, progress, ⟨hrunning, Function.update_self _ _ _⟩, hj⟩
    · rcases h.disk p j with hsame | ⟨u, g, progress', hloop, hj'⟩
      · exact Or.inl (((hdata j).trans (if_neg hj)).trans hsame)
      · have hu : u ≠ t := by
          rintro rfl
          exact hj (lt_of_lt_of_le hj' (hmore progress' hloop.2))
        exact Or.inr ⟨u, g, progress', (ho.inLoop hu).mpr hloop, hj'⟩

/-- A `WritePage` leaves its loop with `k` bytes written. -/
theorem Matches.writeOff (h : x.Matches options s) (hE : Exclusive x.pc)
    (hrunning : (x.pc t).running = some (.write p f)) {k : Nat}
    (hk : ∀ j : Fin kPageSize, j.val < k ↔
      ∃ progress, x.progress t = some progress ∧ j.val < progress.total) (io : Io) :
    (x.ended t io).Matches options ((s.setDisk p (Page.overwrite k (s.bytes f) (s.disk p))).setPc t
      ((s.pc t).withIo io)) := by
  have hsame : Others t x x := ⟨fun _ _ => rfl, fun _ _ => rfl⟩
  have ho := hsame.ended io
  have hnot : ∀ {g : Nat} (q : Nat), (x.pc t).running ≠ some (.read q g) := by
    intro g q hq
    cases hrunning.symm.trans hq
  have hmanager := h.agree.manager.mono fun g hg => ho.filling hg hnot
  refine h.of_write hE hrunning ho ⟨hmanager, ?_, h.agree.guards⟩ (fun _ => rfl) (fun _ _ => rfl)
    (fun _ => Or.inl rfl)
    (fun progress hprogress => absurd hprogress not_progress_ended)
    (fun progress hprogress => absurd hprogress not_progress_ended)
    (fun q hq => Function.update_of_ne hq _ _) fun j => ?_
  · change Function.update x.pc t ((x.pc t).withIo io) =
      Function.update s.pc t ((s.pc t).withIo io)
    rw [h.pc]
  · change (pageAt options x.file p).data j = (Function.update s.disk p _ p).data j ∨ _
    rw [Function.update_self, Page.overwrite_data]
    split
    · next hj =>
      obtain ⟨progress, hprogress, hj'⟩ := (hk j).mp hj
      rw [← h.bytes (not_filling_of_write hE hrunning)]
      exact Or.inl (h.written t p f progress ⟨hrunning, hprogress⟩ j hj')
    · next hj =>
      rcases h.disk p j with hsame | ⟨u, g, progress, hloop, hj'⟩
      · exact Or.inl hsame
      · have hu : u ≠ t := by
          rintro rfl
          exact hj ((hk j).mpr ⟨progress, hloop.2, hj'⟩)
        exact Or.inr ⟨u, g, progress, (ho.inLoop hu).mpr hloop, hj'⟩

end FileBacked

/-! ## Runs -/

/-- The step as a client sees it; the disk's it does not see. -/
def Action.seen {τ : Type} (l : Action τ × Outcome) : Option (Action τ × Outcome) :=
  if l.1.ofDisk = true then none else some l

namespace FileBacked

variable [Fintype τ] [DecidableEq τ] [Replacer R] [LawfulReplacer R] {n N : Nat}
  {options : DiskManagerOptions} {x x' : FileBacked R τ} {s s₁ : System R τ} {c : Cfg τ}

/-- A step that is not the disk's is one of `System`. -/
theorem Matches.act (h : x.Matches options s) (hS : Sim n N s c) (hsound : Sound n N c)
    (hP : Pinned c) {action : BufferManager.Action τ} (hdisk : action.ofDisk = false)
    {out : Outcome} (hok : (x.view options).NoOverflow (action, out))
    (hwrite : ∀ slot page g t p f progress, action = .write slot page →
      x.guards[slot]? = some g → g.valid = true → x.InLoop t (.write p f) progress →
      g.frameId ≠ f) (hstep : (x.view options).step action = some (s₁, out)) :
    ∃ s', s.step action = some (s', out) ∧ (x.withSystem s₁).Matches options s' := by
  have hguard : ∀ (slot : Nat) (g : PageGuard), x.guards[slot]? = some g → g.valid = true →
      ∀ t p, (x.pc t).running ≠ some (.read p g.frameId) := by
    intro slot g hg hvalid t p
    have hmem : g ∈ s.guards := h.agree.guards ▸ List.mem_of_getElem? hg
    rw [h.pc]
    exact hS.guard_frame hsound.owned hP hmem hvalid
  obtain ⟨s', hstep', hagree⟩ := h.agree.client_step hdisk (fun slot g hg hvalid => by
    rintro ⟨t, p, progress, hrunning, -⟩
    exact hguard slot g hg hvalid t p hrunning) hstep
  -- What is in transfer stays as it is.
  have hkeeps : ∀ {u : τ} {tr : Transfer} {progress : Progress}, x.InLoop u tr progress →
      s₁.pc u = x.pc u ∧ s₁.bytes tr.frameId = x.bytes tr.frameId := by
    intro u tr progress hloop
    refine (hS.withBytes h.agree.symm).step_keeps_transfer (hsound.withBytes _ _)
      (hP.withBytes _ _) hdisk hok hstep hloop.1 fun slot page g haction hg hvalid => ?_
    cases tr with
    | read p f =>
      rintro rfl
      exact hguard slot g hg hvalid u p hloop.1
    | write p f => exact hwrite slot page g u p f progress haction hg hvalid hloop
  have hloops : ∀ {u : τ} {tr : Transfer} {progress : Progress},
      (x.withSystem s₁).InLoop u tr progress ↔ x.InLoop u tr progress := by
    intro u tr progress
    constructor
    · rintro ⟨hrunning, hprogress⟩
      obtain ⟨tr', hloop, -⟩ := h.inLoop u progress hprogress
      have hsame : (x.pc u).running = some tr :=
        (congrArg Pc.running (hkeeps hloop).1).symm.trans hrunning
      exact ⟨hsame, hprogress⟩
    · intro hloop
      exact ⟨(congrArg Pc.running (hkeeps hloop).1).trans hloop.1, hloop.2⟩
  have hfilling : (x.withSystem s₁).filling = x.filling :=
    Set.ext fun f => exists_congr fun u => exists_congr fun p => exists_congr fun _ => hloops
  refine ⟨s', hstep', ⟨?_, fun u progress hprogress => ?_, fun u p f progress hloop j hj => ?_,
    fun u p f progress hloop => ?_, fun p j => ?_⟩⟩
  · rw [hfilling]
    exact ⟨hagree.manager, hagree.pc, hagree.guards⟩
  · obtain ⟨tr, hloop, hplace⟩ := h.inLoop u progress hprogress
    exact ⟨tr, hloops.mpr hloop, hplace⟩
  · have hbytes := (hkeeps (hloops.mp hloop)).2
    exact (h.written u p f progress (hloops.mp hloop) j hj).trans (congrArg (·.data j) hbytes.symm)
  · have hbytes := (hkeeps (hloops.mp hloop)).2
    exact hbytes.trans (h.read u p f progress (hloops.mp hloop))
  · rw [System.step_disk hdisk hstep']
    rcases h.disk p j with hsame | ⟨u, f, progress, hloop, hj⟩
    · exact Or.inl hsame
    · exact Or.inr ⟨u, f, progress, hloops.mpr hloop, hj⟩

/-- The step as a client sees it; those of transfers it does not see. -/
def Action.seen (l : FileBacked.Action τ × Outcome) : Option (BufferManager.Action τ × Outcome) :=
  match l.1 with
  | .act action => some (action, l.2)
  | _ => none

/-- No `FlushPage` pins a frame whose count is full, and nobody stores into a page through a
guard while a `WritePage` of it is in its loop. -/
structure Disciplined (options : DiskManagerOptions) (x : FileBacked R τ)
    (l : FileBacked.Action τ × Outcome) : Prop where
  noOverflow : ∀ action, l.1 = .act action → (x.view options).NoOverflow (action, l.2)
  noStore : ∀ slot page g t p f progress, l.1 = .act (.write slot page) →
    x.guards[slot]? = some g → g.valid = true → x.InLoop t (.write p f) progress → g.frameId ≠ f

omit [Fintype τ] [LawfulReplacer R] in
/-- A step of the disk, as a path. -/
theorem path_of_disk {action : BufferManager.Action τ} (hdisk : action.ofDisk = true)
    {s' : System R τ} (hstep : s.step action = some (s', .suspended)) :
    ∃ ls, Path (Under System.NoOverflow System.Trans) s ls s' ∧
      ls.filterMap BufferManager.Action.seen = [] := by
  refine ⟨[(action, .suspended)], .single ⟨?_, hstep, by simp⟩, ?_⟩
  · rintro ⟨p, caller, f, hvisits, -⟩
    cases action with
    | transfer | failRead | failWrite => cases hvisits
    | _ => cases hdisk
  · simp [BufferManager.Action.seen, hdisk]

/-- A step over the file is matched by one of `System`, or by none. -/
theorem Matches.step (h : x.Matches options s)
    (hreach : Reachable (System.Initial n N) (Under System.NoOverflow System.Trans) s)
    {l : FileBacked.Action τ × Outcome} (hok : x.Disciplined options l)
    (hst : FileBacked.Trans options x l x') :
    ∃ ls s', Path (Under System.NoOverflow System.Trans) s ls s' ∧
      ls.filterMap BufferManager.Action.seen = (Action.seen l).toList ∧ x'.Matches options s' := by
  obtain ⟨c, hS, hsound, hP⟩ := pinned_of_reachable hreach
  have hE : Exclusive x.pc := h.pc ▸ hS.exclusive hsound.owned hP
  obtain ⟨action, out⟩ := l
  obtain ⟨hstep, hsurvives⟩ := hst
  have hrun : ∀ {t : τ} {tr : Transfer}, (x.pc t).running = some tr →
      (s.pc t).running = some tr := fun hrunning => h.pc ▸ hrunning
  cases step_cases hstep with
  | act action s₁ _ hdisk hact =>
    obtain ⟨s', hstep', hmatches⟩ := h.act hS hsound hP hdisk (hok.noOverflow action rfl)
      (fun slot page g t p f progress haction =>
        hok.noStore slot page g t p f progress (by rw [haction])) hact
    have hfits : s.NoOverflow (action, out) := fun hover =>
      hok.noOverflow action rfl ((h.agree.flushOverflows action).mpr hover)
    refine ⟨[(action, out)], s', .single ⟨hfits, hstep', hsurvives⟩, ?_, hmatches⟩
    simp [BufferManager.Action.seen, Action.seen, hdisk]
  | beganRead t p f hrunning hprogress =>
    exact ⟨[], s, .nil s, rfl,
      h.readOn hE hrunning rfl (Nat.zero_le _) (Page.overwrite_zero _ _).symm⟩
  | beganWrite t p f hrunning hprogress =>
    refine ⟨[], s, .nil s, rfl, h.writeOn hE hrunning rfl (Nat.zero_le _)
      (fun progress' hprogress' => ?_) (fun _ _ => rfl) (Page.overwrite_zero _ _).symm⟩
    rw [hprogress] at hprogress'
    cases hprogress'
  | readMoved t p f result progress total b hrunning hprogress hturn =>
    obtain ⟨tr, ⟨hrunning', -⟩, hoffset, -⟩ := h.inLoop t progress hprogress
    obtain rfl := Option.some.inj (hrunning'.symm.trans hrunning)
    obtain ⟨hmoved, -⟩ := (readTurn_wp _ _ _ _ _).ok hturn
    obtain ⟨hle, htotal, hb⟩ := hmoved total rfl
    rw [hoffset] at hb
    refine ⟨[], s, .nil s, rfl, ?_⟩
    refine h.readOn hE hrunning ?_ ?_ ?_
    · exact hoffset
    · exact htotal
    · exact ofBytes_moved (h.read t p f progress ⟨hrunning, hprogress⟩) hle hb
  | readEnded t p f result progress b hrunning hprogress hturn =>
    obtain ⟨tr, ⟨hrunning', -⟩, hoffset, -⟩ := h.inLoop t progress hprogress
    obtain rfl := Option.some.inj (hrunning'.symm.trans hrunning)
    obtain ⟨-, hended⟩ := (readTurn_wp _ _ _ _ _).ok hturn
    obtain ⟨rfl, hend⟩ := hended rfl
    rw [hoffset] at hend
    have hread := eq_pageAt_of_ended (h.read t p f progress ⟨hrunning, hprogress⟩) hend
    have hpage : pageAt options x.file p = s.disk p := by
      refine Page.ext (funext fun j => ?_)
      rcases h.disk p j with hsame | ⟨u, g, progress', hloop, -⟩
      · exact hsame
      · -- Nobody writes the page while it is read.
        have hne : t ≠ u := by
          rintro rfl
          cases hrunning.symm.trans hloop.1
        exact absurd rfl (hE.reads hne hrunning hloop.1).1
    have hstep' : s.step (.transfer t) =
        some ((s.setBytes f (s.disk p)).setPc t ((s.pc t).withIo .done), .suspended) := by
      rw [System.step, System.transfer_read (hrun hrunning)]
      rfl
    obtain ⟨ls, hpath, hseen⟩ := path_of_disk rfl hstep'
    refine ⟨ls, _, hpath, hseen, ?_⟩
    rw [Page.ofBytes_bytes, hread, hpage]
    exact h.readOff hE hrunning _ _
  | readThrew _ t p f page e haction hrunning =>
    have hstep' : s.step (.failRead t page e) =
        some ((s.setBytes f page).setPc t ((s.pc t).withIo (.failed e)), .suspended) := by
      rw [System.step, System.failRead_read (hrun hrunning)]
      rfl
    obtain ⟨ls, hpath, hseen⟩ := path_of_disk rfl hstep'
    refine ⟨ls, _, hpath, hseen.trans ?_, h.readOff hE hrunning _ _⟩
    rcases haction with rfl | ⟨result, rfl⟩ <;> rfl
  | writeMoved t p f result progress total file hrunning hprogress hturn =>
    obtain ⟨tr, ⟨hrunning', -⟩, hoffset, -⟩ := h.inLoop t progress hprogress
    obtain rfl := Option.some.inj (hrunning'.symm.trans hrunning)
    obtain ⟨hmoved, hbelow, habove, -⟩ := (writeTurn_wp _ _ _ _ _).ok hturn
    obtain ⟨hle, htotal, hbyte⟩ := hmoved total rfl
    rw [hoffset] at hbelow habove hbyte
    refine ⟨[], s, .nil s, rfl, ?_⟩
    refine h.writeOn hE hrunning ?_ ?_ (fun progress' hprogress' => ?_)
      (fun q hq => pageAt_outside hbelow habove hq) ?_
    · exact hoffset
    · exact htotal
    · obtain rfl := Option.some.inj (hprogress.symm.trans hprogress')
      exact hle
    · exact pageAt_moved hle (h.written t p f progress ⟨hrunning, hprogress⟩) hbyte
  | writeEnded t p f result progress file hrunning hprogress hturn =>
    obtain ⟨-, -, -, hended⟩ := (writeTurn_wp _ _ _ _ _).ok hturn
    obtain ⟨rfl, htotal⟩ := hended rfl
    have hstep' : s.step (.transfer t) =
        some ((s.setDisk p (s.bytes f)).setPc t ((s.pc t).withIo .done), .suspended) := by
      rw [System.step, System.transfer_write (hrun hrunning)]
      rfl
    obtain ⟨ls, hpath, hseen⟩ := path_of_disk rfl hstep'
    refine ⟨ls, _, hpath, hseen, ?_⟩
    rw [← Page.overwrite_all (s.bytes f) (s.disk p)]
    refine h.writeOff hE hrunning (fun j => iff_of_true j.isLt ⟨progress, hprogress, ?_⟩) _
    exact lt_of_lt_of_le j.isLt htotal
  | writeThrew _ t p f e haction hrunning =>
    have hstep' : ∀ k, s.step (.failWrite t k e) =
        some ((s.setDisk p (Page.overwrite k (s.bytes f) (s.disk p))).setPc t
          ((s.pc t).withIo (.failed e)), .suspended) := by
      intro k
      rw [System.step, System.failWrite_write (hrun hrunning)]
      rfl
    obtain ⟨ls, hpath, hseen⟩ :=
      path_of_disk rfl (hstep' ((x.progress t).elim 0 Progress.total))
    refine ⟨ls, _, hpath, hseen.trans ?_, h.writeOff hE hrunning (fun j => ?_) _⟩
    · rcases haction with rfl | ⟨result, rfl⟩ <;> rfl
    · cases x.progress t with
      | none => simp
      | some progress => simp

omit [Fintype τ] [LawfulReplacer R] in
/-- The pages' area is all that is written. -/
theorem Matches.step_header (h : x.Matches options s) {l : FileBacked.Action τ × Outcome}
    (hst : FileBacked.Trans options x l x') {i : Nat} (hi : i < options.headerSize.toNat) :
    x'.file.byte i = x.file.byte i := by
  obtain ⟨action, out⟩ := l
  have hcases := step_cases hst.1
  cases hcases with
  | writeMoved t p f result progress total file hrunning hprogress hturn =>
    obtain ⟨tr, -, hoffset, -⟩ := h.inLoop t progress hprogress
    obtain ⟨-, hbelow, -⟩ := (writeTurn_wp _ _ _ _ _).ok hturn
    refine hbelow i (lt_of_lt_of_le hi ?_)
    rw [hoffset]
    exact Nat.le_add_right _ _
  | writeEnded t p f result progress file hrunning hprogress hturn =>
    obtain ⟨-, -, -, hended⟩ := (writeTurn_wp _ _ _ _ _).ok hturn
    obtain ⟨rfl, -⟩ := hended rfl
    rfl
  | _ => rfl

/-- What carries the simulation: `s` is reachable, and what is before the pages in the file is
as it was at first. -/
structure Simulates (n : Nat) (options : DiskManagerOptions) (header : Buffer)
    (x : FileBacked R τ) (s : System R τ) : Prop where
  reachable : Reachable (System.Initial n options.maxPageCount.toNat)
    (Under System.NoOverflow System.Trans) s
  matched : x.Matches options s
  header : ∀ i, i < options.headerSize.toNat → x.file.byte i = header i

theorem simulates_step (header : Buffer) (x : FileBacked R τ) (s : System R τ)
    (l : FileBacked.Action τ × Outcome) (x' : FileBacked R τ)
    (h : Simulates n options header x s)
    (hst : Under (FileBacked.Disciplined options) (FileBacked.Trans options) x l x') :
    ∃ ls s', Path (Under System.NoOverflow System.Trans) s ls s' ∧
      ls.filterMap BufferManager.Action.seen = (Action.seen l).toList ∧
      Simulates n options header x' s' := by
  obtain ⟨ls, s', hpath, hseen, hmatches⟩ := h.matched.step h.reachable hst.1 hst.2
  refine ⟨ls, s', hpath, hseen, h.reachable.of_path hpath, hmatches, fun i hi => ?_⟩
  exact (h.matched.step_header hst.2 hi).trans (h.header i hi)

/-! ## Computed runs -/

omit [Fintype τ] [DecidableEq τ] in
/-- The manager that makes its own replacer is a freshly constructed one. -/
theorem initial_makeWithClock {file : File} {x : FileBacked ClockReplacer τ}
    (h : makeWithClock n options file = .ok x) : Initial n options x := by
  unfold makeWithClock at h
  cases hs : (System.makeWithClock n options.maxPageCount.toNat (pageAt options file) :
      Except Error (System ClockReplacer τ)) with
  | error e =>
    rw [hs] at h
    cases h
  | ok s =>
    rw [hs] at h
    obtain rfl := Except.ok.inj h
    have hview : view options
        ⟨s.manager, file, s.pc, s.guards, fun _ => none⟩ = s := by
      rw [view, ← System.makeWithClock_disk hs]
    refine ⟨?_, fun _ => rfl⟩
    rw [hview]
    exact Refinement.initial_makeWithClock hs

/-- The step stores through a guard. -/
def Action.stores : FileBacked.Action τ → Bool
  | .act (.write _ _) => true
  | _ => false

/-- The step is a `FlushPage` that is about to overflow a count. -/
def overflows (options : DiskManagerOptions) (x : FileBacked R τ) : FileBacked.Action τ → Bool
  | .act action => (x.view options).flushOverflows action
  | _ => false

/-- A step that does neither, and that the process survives. -/
abbrev Calm (options : DiskManagerOptions) (x : FileBacked R τ)
    (l : FileBacked.Action τ × Outcome) : Prop :=
  l.2.survived = true ∧ Action.stores l.1 = false ∧ x.overflows options l.1 = false

omit [Fintype τ] [DecidableEq τ] [Replacer R] [LawfulReplacer R] in
theorem Calm.disciplined {l : FileBacked.Action τ × Outcome} (h : x.Calm options l) :
    x.Disciplined options l := by
  obtain ⟨action, out⟩ := l
  obtain ⟨-, hstores, hfits⟩ := h
  refine ⟨?_, ?_⟩
  · rintro action rfl hover
    rw [← (x.view options).flushOverflows_iff] at hover
    exact absurd (hfits.symm.trans hover) (by simp)
  · rintro slot page g t p f progress rfl
    cases hstores

end FileBacked

/-- Transfers are as good as atomic.  In a run over the file, with `ReadPage` and `WritePage` a
system call at a time, clients see what they see in a run of `System`, where a transfer moves
its bytes at one instant.  The states at the end differ in that the first bytes of a page that
is being written are those of its frame already, and a frame that is being filled holds the
first bytes of its page, and zeros; where no transfer is in its loop, they are the same. -/
theorem transfers_linearize [Fintype τ] [DecidableEq τ] [Replacer R] [LawfulReplacer R] {n : Nat}
    {options : DiskManagerOptions} {x x' : FileBacked R τ}
    {ls : List (FileBacked.Action τ × Outcome)} (hinit : FileBacked.Initial n options x)
    (hpath : Path (Under (FileBacked.Disciplined options) (FileBacked.Trans options)) x ls x') :
    ∃ ls' s', Path (Under System.NoOverflow System.Trans) (x.view options) ls' s' ∧
      ls'.filterMap Action.seen = ls.filterMap FileBacked.Action.seen ∧
      System.AgreeOff x'.filling (x'.view options) s' ∧
      (∀ p, ∃ f k, pageAt options x'.file p = Page.overwrite k (x'.bytes f) (s'.disk p) ∧
        (k = 0 ∨ ∃ t progress, x'.InLoop t (.write p f) progress ∧ progress.total = k)) ∧
      (∀ t p f progress, x'.InLoop t (.read p f) progress →
        x'.bytes f = Page.overwrite progress.total (pageAt options x'.file p) Page.zero) ∧
      ((∀ t, x'.progress t = none) → s' = x'.view options) ∧
      ∀ i, i < options.headerSize.toNat → x'.file.byte i = x.file.byte i := by
  obtain ⟨hsystem, hnone⟩ := hinit
  have hfirst : FileBacked.Simulates n options x.file.byte x (x.view options) :=
    ⟨.init hsystem, .initial hnone, fun _ _ => rfl⟩
  obtain ⟨ls', s', hpath', hseen, hend⟩ :=
    hpath.simulated (FileBacked.simulates_step x.file.byte) hfirst
  obtain ⟨c, hS, hsound, hP⟩ := pinned_of_reachable hend.reachable
  have hE : Exclusive x'.pc := hend.matched.pc ▸ hS.exclusive hsound.owned hP
  exact ⟨ls', s', hpath', hseen, hend.matched.agree, hend.matched.torn hE, hend.matched.read,
    hend.matched.eq, hend.header⟩

/-- A client creates a page and flushes it with two `pwrite`s and an interruption; the second
thread fetches the page while it is half written. -/
def flushRun : List (FileBacked.Action (Fin 2)) :=
  [.act (.call 0 .newPage), .act (.call 0 (.flushPage 0)), .enter 0, .turn 0 (.moved 1000),
    .turn 0 .interrupted, .act (.call 1 (.fetchPage 0)), .turn 0 (.moved kPageSize),
    .turn 0 (.moved 1), .act (.resume 0)]

/-- The client's run is one of `System`, and leads to the same state. -/
theorem transfers_linearize_flushed :
    let options : DiskManagerOptions := { path := "pages", maxPageCount := 1 }
    ∃ (x x' : FileBacked ClockReplacer (Fin 2)) (ls : List (FileBacked.Action (Fin 2) × Outcome)),
      FileBacked.makeWithClock 1 options File.empty = .ok x ∧ ls.map Prod.fst = flushRun ∧
      Path (FileBacked.Trans options) x ls x' ∧
      ∃ ls', Path (Under System.NoOverflow System.Trans) (x.view options) ls' (x'.view options) ∧
        ls'.filterMap Action.seen = ls.filterMap FileBacked.Action.seen := by
  intro options
  have hrun : ((FileBacked.makeWithClock 1 options File.empty).toOption.any fun x =>
      (execute (FileBacked.step options) (fun _ _ _ => ()) (fun y => FileBacked.Calm options y.1)
        (x, ()) flushRun).any fun y => decide (∀ t, y.1.progress t = none)) = true := by
    decide +kernel
  obtain ⟨x, hmade, hexecuted⟩ := (Option.any_eq_true _ _).mp hrun
  obtain ⟨y, hy, hnone⟩ := (Option.any_eq_true _ _).mp hexecuted
  have hx : FileBacked.makeWithClock 1 options File.empty = .ok x := by
    cases hmake : (FileBacked.makeWithClock 1 options File.empty :
        Except Error (FileBacked ClockReplacer (Fin 2))) with
    | error e =>
      rw [hmake] at hmade
      cases hmade
    | ok x' =>
      rw [hmake] at hmade
      rw [Option.some.inj hmade]
  obtain ⟨ls, hpath, hactions⟩ := path_of_execute hy
  have hdisciplined : Path (Under (FileBacked.Disciplined options) (FileBacked.Trans options))
      x ls y.1 :=
    hpath.of_recorded fun _ _ _ hok hst => ⟨hok.disciplined, hst, Outcome.ne_terminated hok.1⟩
  obtain ⟨ls', s', hpath', hseen, -, -, -, hend, -⟩ :=
    transfers_linearize (FileBacked.initial_makeWithClock hx) hdisciplined
  obtain rfl := hend (of_decide_eq_true hnone)
  exact ⟨x, y.1, ls, hx, hactions, hdisciplined.mono fun _ _ _ hst => hst.2, ls', hpath', hseen⟩

end BufferManager
