/-
  Protocol/Barrier.lean --- what a thread was asked to flush is written, but for the
  pages it still has to see to.

  `Phase.Owes` names those pages.  A page comes off the list when `FlushPage` finds it
  out of memory or clean, and all that is marked of it is written then, or when the
  `WritePage` of its frame has completed.  A snapshot of the dirty pages leaves out the
  frames that are being evicted, whose `WritePage` may be running.
-/
import BufferManager.Protocol.Transfers

set_option autoImplicit false

namespace BufferManager

/-- The pages that are to be flushed when a `FlushPage` has returned. -/
def FlushCaller.rest : FlushCaller → List Nat
  | .flushPage => []
  | .flushAllPages rest => rest

namespace Protocol

open BufferManager.Lib

variable {τ : Type} {n N : Nat} {complete : Prop} {c c' : Cfg τ} {g : Ledger τ} {e : Event τ}
  {sweeps : Bool}

/-- The thread has yet to see to page `q`. -/
def Phase.Owes (q : Nat) : Phase → Prop
  | .visiting (.flushPage p caller) | .suspended (.waitPage (.flushPage p caller)) =>
      q = p ∨ q ∈ caller.rest
  | .unpinning _ _ caller none | .flushed caller => q ∈ caller.rest
  | .suspended (.writing p _ _ caller _) | .unpinning p _ caller (some _) =>
      q = p ∨ q ∈ caller.rest
  | .suspended (.nextFlush p rest) => q = p ∨ q ∈ rest
  | _ => False

/-- What a thread was asked to flush is marked, and written if the thread has seen to it. -/
structure Barrier (c : Cfg τ) (g : Ledger τ) : Prop where
  asked_le : ∀ t q, g.asked t q ≤ g.marked q
  copied : ∀ t p f epoch caller, c.phase t = .suspended (.writing p f epoch caller .done) →
    Includes (g.history p) (g.asked t p) (c.disk p) ∧ g.asked t p ≤ g.copied t
  flushed : ∀ t q, ¬ (c.phase t).Owes q → g.Saves q (g.asked t q) (c.disk q)

/-- Some thread is asked to flush pages. -/
def Event.Asks (u : τ) : Event τ → Prop
  | .called t _ | .snapshot t _ _ => u = t
  | _ => False

/-- No snapshot is taken while a dirty frame is being evicted. -/
def Event.Catches : Event τ → Prop
  | .snapshot _ _ evicting => ¬ evicting
  | _ => True

section

variable [DecidableEq τ]

omit [DecidableEq τ] in
theorem Event.Plain.not_asks (h : e.Plain) (u : τ) : ¬ e.Asks u := by
  cases e <;> first | exact id | exact h.elim

/-- Nobody else is asked more. -/
theorem asked_enter_le (sweeps : Bool) {u : τ} (he : ¬ e.Asks u) (g : Ledger τ) (q : Nat) :
    (e.enter (Ledger.after sweeps) g).asked u q ≤ g.asked u q := by
  have hother : ∀ {t : τ} {x : Nat → Nat}, u ≠ t → Function.update g.asked t x u q ≤ g.asked u q :=
    fun hut => le_of_eq (by rw [Function.update_of_ne hut])
  cases e with
  | called t v | snapshot t pages evicting => exact hother he
  | deleted t p r =>
    by_cases hqp : q = p
    · subst hqp
      exact le_of_eq_of_le (Function.update_self _ _ _) (Nat.zero_le _)
    · exact le_of_eq (Function.update_of_ne hqp _ _)
  | ended t r =>
    cases r with
    | ok result => exact le_rfl
    | error e =>
      by_cases hut : u = t
      · subst hut
        exact le_of_eq_of_le (congrFun (Function.update_self _ _ _) q) (Nat.zero_le _)
      · exact hother hut
  | _ => exact le_rfl

theorem Visit.asks_le (v : Visit) (marked : Nat → Nat) (q : Nat) : v.asks marked q ≤ marked q := by
  cases v with
  | flushPage p caller =>
    change Function.update (fun _ => 0) p (marked p) q ≤ marked q
    by_cases hqp : q = p
    · rw [hqp, Function.update_self]
    · rw [Function.update_of_ne hqp]
      exact Nat.zero_le _
  | fetchPage p | deletePage p => exact Nat.zero_le _

/-- What is asked is marked. -/
theorem Barrier.asked_step (h : Step n N complete c e c') (hD : Durable c g) (hB : Barrier c g)
    (u : τ) (q : Nat) : (e.enter (Ledger.after sweeps) g).asked u q ≤
      (e.enter (Ledger.after sweeps) g).marked q := by
  have hle := hB.asked_le u q
  by_cases hasks : e.Asks u
  · cases e with
    | called t v =>
      obtain rfl : u = t := hasks
      refine le_of_eq_of_le (congrFun (Function.update_self _ _ _) q) ?_
      exact Visit.asks_le v g.marked q
    | snapshot t pages evicting =>
      obtain rfl : u = t := hasks
      refine le_of_eq_of_le (congrFun (Function.update_self _ _ _) q) ?_
      cases sweeps with
      | true => exact le_rfl
      | false => exact Nat.zero_le _
    | _ => exact hasks.elim
  · have hasked := asked_enter_le sweeps hasks g q
    cases e with
    | created t p f =>
      by_cases hqp : q = p
      · subst hqp
        have hzero := hD.reserved t q (h.created rfl).1
        exact hasked.trans (hle.trans (by rw [hzero]; exact Nat.zero_le _))
      · refine hasked.trans (hle.trans (le_of_eq ?_))
        exact (Function.update_of_ne hqp _ _).symm
    | marked slot p clash =>
      refine hasked.trans (hle.trans ?_)
      by_cases hqp : q = p
      · subst hqp
        change g.marked q ≤ Function.update g.marked q (max (g.marked q) (g.pending slot)) q
        rw [Function.update_self]
        exact Nat.le_max_left _ _
      · exact le_of_eq (Function.update_of_ne hqp _ _).symm
    | deleted t p r =>
      by_cases hqp : q = p
      · subst hqp
        exact le_of_eq_of_le (Function.update_self _ _ _) (Nat.zero_le _)
      · refine hasked.trans (hle.trans (le_of_eq ?_))
        exact (Function.update_of_ne hqp _ _).symm
    | ended t r =>
      refine hasked.trans (hle.trans ?_)
      cases r <;> exact le_rfl
    | _ => exact hasked.trans hle

/-- A thread whose call fails was asked for nothing. -/
theorem asked_failed (t : τ) (err : Error) (g : Ledger τ) (q : Nat) :
    (Event.enter (Ledger.after sweeps) g (.ended t (.error err))).asked t q = 0 := by
  change Function.update g.asked t (fun _ => 0) t q = 0
  rw [Function.update_self]

variable [Fintype τ]

omit [DecidableEq τ] [Fintype τ] in
/-- What is marked of a page that is not collected is written, unless a dirty page is being
evicted. -/
theorem Durable.saves_of_not_dirty (hD : Durable c g) (hI : Owned n c) (hevicts : ¬ c.EvictsDirty)
    {q : Nat} (hq : q ∉ c.dirtyPages n) : g.Saves q (g.marked q) (c.disk q) := by
  have hkept := hD.kept q
  cases hplace : c.place q with
  | unused =>
    rw [hkept.unused hplace]
    exact ⟨.zero, Nat.zero_le _⟩
  | nonResident => exact hkept.disk (Or.inl hplace)
  | loading f => exact hkept.disk (Or.inr ⟨f, hplace⟩)
  | resident f =>
    obtain ⟨r, hr, hpage, -⟩ := hI.resident hplace
    refine (hkept.frame (Or.inl hplace)).2 ?_
    rw [hr]
    by_contra hdirty
    have hlt : f < n := hI.allocated_lt f (hI.allocated_of_use (by rw [hr]; simp))
    refine hq (List.mem_filterMap.mpr ⟨f, List.mem_range.mpr hlt, ?_⟩)
    simp only [Cfg.dirtyPage, hr, hpage]
    exact if_pos (by simpa [Use.meta] using hdirty)
  | evicting f =>
    have huse := hI.use_of_place q f (by rw [hplace]; rfl)
    refine (hkept.frame (Or.inr hplace)).2 ?_
    cases hu : c.frame f with
    | evicting p dirty epoch =>
      cases dirty with
      | false => rfl
      | true => exact absurd ⟨f, p, epoch, hu⟩ hevicts
    | free | loading => rfl
    | resident r =>
      rw [hplace, hu] at huse
      cases hlisted : r.listed <;> simp [Use.place, hlisted] at huse

omit [Fintype τ] in
/-- Only a thread that is in no call is asked to flush pages. -/
theorem Step.idle_of_asks (h : Step n N complete c e c') {u : τ} (he : e.Asks u) :
    c.phase u = .suspended .idle := by
  cases h with
  | visit t v hph hcall | snapshot t hph =>
    obtain rfl : u = t := he
    exact hph
  | flushReturn t caller => exact absurd he ((plain_eventOf t _).not_asks u)
  | noFrame t a | evictFail t a => exact absurd he ((plain_failEvent t a _).not_asks u)
  | evictDone t a ev => exact absurd he ((plain_evictDone t ev).not_asks u)
  | unpinned t q f caller failure => exact absurd he ((plain_unpinEvent t failure).not_asks u)
  | _ => exact he.elim

omit [Fintype τ] in
/-- A `FlushPage` whose `WritePage` has just moved its bytes. -/
theorem Step.writeCopied (h : Step n N complete c e c') {u : τ} {p f epoch : Nat}
    {caller : FlushCaller} (hph' : c'.phase u = .suspended (.writing p f epoch caller .done))
    (hmoved : ¬ c'.phase u = c.phase u) :
    (c.phase u).writes = some (p, f) ∧ e = .copied u p ∧ c'.disk p = c.bytes f := by
  have hother : ∀ {t : τ} {w : Phase}, c'.phase = Function.update c.phase t w →
      w ≠ .suspended (.writing p f epoch caller .done) → False := by
    intro t w hphase hne
    by_cases hut : u = t
    · subst hut
      rw [hphase, Function.update_self] at hph'
      exact hne hph'
    · exact hmoved (by rw [hphase, Function.update_of_ne hut])
  cases h with
  | writeCopy t q f' epoch' caller' hph =>
    by_cases hut : u = t
    · subst hut
      simp only [Cfg.goto, Function.update_self] at hph'
      obtain ⟨rfl, rfl, rfl, rfl, -⟩ := Pc.writing.inj (Phase.suspended.inj hph')
      exact ⟨by rw [hph]; rfl, rfl, Function.update_self _ _ _⟩
    · exact absurd (Function.update_of_ne hut _ _) hmoved
  | noIds | change | mark | dropStale | move | assign => exact absurd rfl hmoved
  | @drop c₁ slot gd failure hg hv hpage hunpin =>
    have hframe := hunpin.frame_only
    cases failure <;> exact absurd (by simp [hframe]) hmoved
  | @unpinned c₁ t q f' caller' failure hph hunpin =>
    have hphase : (c₁.notify.goto t (unpinPhase caller' failure)).phase =
        Function.update c.phase t (unpinPhase caller' failure) := by simp [hunpin.frame_only]
    exact (hother hphase (by cases failure <;> simp [unpinPhase])).elim
  | @unpinThrew c₁ t q f' caller' failure e hph hunpin =>
    have hphase : (c₁.goto t (.suspended .idle)).phase =
        Function.update c.phase t (.suspended .idle) := by simp [hunpin.frame_only]
    exact (hother hphase (by simp)).elim
  | flushReturn t caller' hph =>
    refine (hother rfl ?_).elim
    rcases phaseOf_flushReturn caller' with hidle | ⟨p', rest, -, hnext⟩
    · simp [hidle]
    · simp [hnext]
  | noFrame t a | evictFail t a => exact (hother rfl (by cases a <;> simp [failPhase])).elim
  | _ => exact (hother rfl (by simp)).elim

/-- A `WritePage` that has moved its bytes has moved what its thread was asked for. -/
theorem Barrier.copied_step (h : Step n N complete c e c') (hI : Owned n c)
    (hP : Pinned c) (hD : Durable c g) (hB : Barrier c g) {u : τ} {p f epoch : Nat}
    {caller : FlushCaller} (hph' : c'.phase u = .suspended (.writing p f epoch caller .done)) :
    Includes ((e.enter (Ledger.after sweeps) g).history p)
      ((e.enter (Ledger.after sweeps) g).asked u p) (c'.disk p) ∧
    (e.enter (Ledger.after sweeps) g).asked u p ≤ (e.enter (Ledger.after sweeps) g).copied u := by
  by_cases hsame : c'.phase u = c.phase u
  · have hph := hsame.symm.trans hph'
    obtain ⟨hincludes, hcopied⟩ := hB.copied u p f epoch caller hph
    have hasks : ¬ e.Asks u := fun he => by
      rw [h.idle_of_asks he] at hph
      cases hph
    have hle := asked_enter_le sweeps hasks g p
    rw [h.copied_stay hsame]
    exact ⟨(hD.includes_disk h hI hP (hB.asked_le u p) hincludes).mono hle,
      hle.trans hcopied⟩
  · obtain ⟨hwrites, rfl, hdisk⟩ := h.writeCopied hph' hsame
    rw [hdisk, copied_enter]
    exact ⟨(hD.writing_has hP hwrites).mono (hB.asked_le u p), hB.asked_le u p⟩

/-- A step keeps written what a thread was asked to flush, or the thread owes it. -/
theorem Barrier.flushed_step (h : Step n N complete c e c') (hI : Owned n c)
    (hP : Pinned c) (hD : Durable c g) (hB : Barrier c g)
    (hcatches : sweeps = true → e.Catches) {u : τ} {q : Nat} (hq : ¬ (c'.phase u).Owes q) :
    (e.enter (Ledger.after sweeps) g).Saves q ((e.enter (Ledger.after sweeps) g).asked u q)
      (c'.disk q) := by
  have hpart : ∀ m, (e.enter (Ledger.after sweeps) g).asked u q ≤ m → m ≤ g.marked q →
      g.Saves q m (c.disk q) →
      (e.enter (Ledger.after sweeps) g).Saves q ((e.enter (Ledger.after sweeps) g).asked u q)
        (c'.disk q) :=
    fun m hask hle hm => Saves.mono (hD.saves_disk h hI hP hle hm) hask
  have hstay : ¬ e.Asks u → ¬ (c.phase u).Owes q →
      (e.enter (Ledger.after sweeps) g).Saves q ((e.enter (Ledger.after sweeps) g).asked u q)
        (c'.disk q) :=
    fun he howes => hpart _ (asked_enter_le sweeps he g q) (hB.asked_le u q) (hB.flushed u q howes)
  have hsaved : ¬ e.Asks u → g.Saves q (g.marked q) (c.disk q) →
      (e.enter (Ledger.after sweeps) g).Saves q ((e.enter (Ledger.after sweeps) g).asked u q)
        (c'.disk q) :=
    fun he hdisk => hpart _ ((asked_enter_le sweeps he g q).trans (hB.asked_le u q)) le_rfl hdisk
  have hnone : (e.enter (Ledger.after sweeps) g).asked u q = 0 →
      (e.enter (Ledger.after sweeps) g).Saves q ((e.enter (Ledger.after sweeps) g).asked u q)
        (c'.disk q) := fun hzero => by
    rw [hzero]
    exact ⟨.zero, Nat.zero_le _⟩
  -- the thread that moves owes what it owed, or something has been done about it
  have hmove : ∀ {t : τ} {w : Phase}, c'.phase = Function.update c.phase t w → ¬ e.Asks u →
      ((c.phase t).Owes q → ¬ w.Owes q → g.Saves q (g.marked q) (c.disk q) ∨
        (e.enter (Ledger.after sweeps) g).asked t q = 0) →
      (e.enter (Ledger.after sweeps) g).Saves q ((e.enter (Ledger.after sweeps) g).asked u q)
        (c'.disk q) := by
    intro t w hphase he hdone
    by_cases hut : u = t
    · subst hut
      rw [hphase, Function.update_self] at hq
      by_cases howes : (c.phase u).Owes q
      · exact (hdone howes hq).elim (hsaved he) hnone
      · exact hstay he howes
    · rw [hphase, Function.update_of_ne hut] at hq
      exact hstay he hq
  cases h with
  | visit t v hph hcall =>
    by_cases hut : u = t
    · subst hut
      have hasked : (Event.enter (Ledger.after sweeps) g (.called u v)).asked u q =
          v.asks g.marked q := congrFun (Function.update_self _ _ _) q
      refine hnone (hasked.trans ?_)
      cases v with
      | flushPage p caller =>
        have hqp : q ≠ p := by
          rintro rfl
          simp [Phase.Owes] at hq
        change Function.update (fun _ => 0) p (g.marked p) q = 0
        rw [Function.update_of_ne hqp]
      | fetchPage p | deletePage p => rfl
    · simp only [Cfg.goto, Function.update_of_ne hut] at hq
      exact hstay hut hq
  | snapshot t hph =>
    by_cases hut : u = t
    · subst hut
      have hcollected : q ∉ c.dirtyPages n := by simpa [Phase.Owes, FlushCaller.rest] using hq
      have hasked : (Event.enter (Ledger.after sweeps) g
          (.snapshot u (c.dirtyPages n) c.EvictsDirty)).asked u q =
          (if sweeps = true then g.marked else fun _ => 0) q :=
        congrFun (Function.update_self _ _ _) q
      cases hs : sweeps with
      | false =>
        subst hs
        exact hnone hasked
      | true =>
        subst hs
        exact hpart _ (le_of_eq hasked) le_rfl (hD.saves_of_not_dirty hI (hcatches rfl) hcollected)
    · simp only [Cfg.goto, Function.update_of_ne hut] at hq
      exact hstay hut hq
  | noIds => exact hstay id hq
  | change | mark | dropStale | move | assign => exact hstay id hq
  | @drop c₁ slot gd failure hg hv hpage hunpin =>
    have hframe := hunpin.frame_only
    cases failure
    · exact hstay id (by simpa [hframe] using hq)
    · exact hstay id (by simpa [hframe] using hq)
  | leave t v err hph =>
    exact hmove rfl id fun _ _ => Or.inr (asked_failed t err g q)
  | skipFlush t p caller hph hplace =>
    refine hmove rfl id fun howes hw => Or.inl ?_
    obtain rfl : q = p := by
      rw [hph] at howes
      exact howes.resolve_right hw
    rcases hplace with hnon | ⟨f, r, hres, hr, hclean⟩
    · exact (hD.kept q).disk (Or.inl hnon)
    · exact ((hD.kept q).frame (Or.inl hres)).2 (by rw [hr]; exact hclean)
  | flushReturn t caller hph =>
    refine hmove rfl ((plain_eventOf t _).not_asks u) fun howes hw => absurd ?_ hw
    rw [hph] at howes
    rcases phaseOf_flushReturn caller with hidle | ⟨p, rest, rfl, hnext⟩
    · rcases caller with - | rest
      · exact absurd howes List.not_mem_nil
      · cases rest with
        | nil => exact absurd howes List.not_mem_nil
        | cons p rest => exact List.mem_cons.mp howes
    · rw [hnext]
      exact List.mem_cons.mp howes
  | noFrame t a hph =>
    refine hmove rfl ((plain_failEvent t a _).not_asks u) fun howes _ => ?_
    rw [hph] at howes
    exact howes.elim
  | evictFail t a ev err hph =>
    refine hmove rfl ((plain_failEvent t a _).not_asks u) fun howes _ => ?_
    rw [hph] at howes
    exact howes.elim
  | evictDone t a ev hph =>
    refine hmove rfl ((plain_evictDone t ev).not_asks u) fun howes _ => ?_
    rw [hph] at howes
    exact howes.elim
  | written t p f epoch caller hph =>
    by_cases hut : u = t
    · subst hut
      by_cases hqp : q = p
      · subst hqp
        obtain ⟨hincludes, hcopied⟩ := hB.copied u q f epoch caller hph
        refine ⟨hincludes, ?_⟩
        change _ ≤ Function.update g.completed q (max _ (g.copied u)) q
        rw [Function.update_self]
        exact hcopied.trans (Nat.le_max_right _ _)
      · refine hstay id fun howes => hq ?_
        rw [hph] at howes
        simp only [Cfg.goto, Function.update_self]
        exact howes.resolve_left hqp
    · refine hstay id ?_
      simpa [Function.update_of_ne hut] using hq
  | writeFailed t p f epoch caller err hph | writeCopy t p f epoch caller hph
  | writeCopyFailed t p f epoch caller k err hph | capture t p f r caller hph
  | nextFlush t p rest hph =>
    refine hmove rfl id fun howes hw => absurd ?_ hw
    rw [hph] at howes
    exact howes
  | wakePage t v hph | sleepPage t v hph =>
    refine hmove rfl id fun howes hw => absurd ?_ hw
    rw [hph] at howes
    cases v <;> exact howes
  | @unpinned c₁ t p f caller failure hph hunpin =>
    have hphase : (c₁.notify.goto t (unpinPhase caller failure)).phase =
        Function.update c.phase t (unpinPhase caller failure) := by simp [hunpin.frame_only]
    refine hmove hphase ((plain_unpinEvent t failure).not_asks u) fun howes hw => ?_
    rw [hph] at howes
    cases failure with
    | none => exact absurd howes hw
    | some err => exact Or.inr (asked_failed t err g q)
  | @unpinThrew c₁ t p f caller failure err hph hunpin =>
    have hphase : (c₁.goto t (.suspended .idle)).phase =
        Function.update c.phase t (.suspended .idle) := by simp [hunpin.frame_only]
    exact hmove hphase id fun _ _ => Or.inr (asked_failed t err g q)
  | reserve t p rest hph | wakeFrame t a hph | pin t p f r hph | seek t p hph
  | deleteUnused t p hph | deleteResident t p f r hph | deleteNonResident t p hph
  | recheck t p hph | tookFrame t a f hph | evictBegin t a f r hph | sleepFrame t a hph
  | create t p f hph | block t p f err hph | loadBegin t p f hph | surplus t p f hph
  | rollback t p err hph | abandon t p err hph | loaded t p f hph | loadFailed t p f err hph
  | evictCopy t a ev hph | evictCopyFailed t a ev k err hph | readCopy t p f hph
  | readCopyFailed t p f left err hph =>
    refine hmove rfl id fun howes _ => ?_
    rw [hph] at howes
    exact howes.elim

theorem Barrier.step (h : Step n N complete c e c') (hI : Owned n c)
    (hP : Pinned c) (hD : Durable c g) (hcatches : sweeps = true → e.Catches)
    (hB : Barrier c g) : Barrier c' (e.enter (Ledger.after sweeps) g) :=
  ⟨hB.asked_step h hD, fun _ _ _ _ _ hph => hB.copied_step h hI hP hD hph,
    fun _ _ hq => hB.flushed_step h hI hP hD hcatches hq⟩

end

end Protocol

end BufferManager
