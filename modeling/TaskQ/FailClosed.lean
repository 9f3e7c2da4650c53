import TaskQ.PrematureFire

namespace TaskQ
open RowLocks Countdown Runs Sys JobStatus

def closedDebt : Debt where
  extra _ st e := st.failedClass = true ∧ e.failurePolicy = .failClosed
  anti := id

def Sys.noCrashedParent (s : Sys) (j : JobId) : Prop :=
  ∀ e ∈ s.edgesOf j, e.failurePolicy = .failClosed → ∀ p, (s.jobs e.parent).base = some p →
    p.status.crashClass = false

/-- No tx2 or sweep takes a crashed or abandoned fail-closed parent of `j` for one that passed. -/
def CrashesHeld (j : JobId) (s : Sys) : Event → Prop
  | .exec t env =>
    match s.sessions t with
    | some (.finalize c _ .decrement) => c.outcome.1.crashClass = true →
        ∀ e ∈ s.edgesOf j, e.parent = c.job → e.failurePolicy ≠ .failClosed
    | some (.sweep batch .rederive) => ∀ r, (s.snapshot t).jobs j = some r →
        reconciles (s.snapshot t) (rederiveLocked (s.snapshot t) env.now batch) j r = true →
        s.noCrashedParent j
    | some (.sweep batch (.sweepFire _)) =>
        j ∈ sweepFireLocked (s.snapshot t) env.now batch → firable (s.snapshot t) j = true →
        s.noCrashedParent j
    | _ => True
  | _ => True

def Sys.parentPassed (s : Sys) (e : Edge) : Prop :=
  ∃ p, (s.jobs e.parent).base = some p ∧ p.status.terminal = true ∧
    (e.failurePolicy = .failClosed → p.status.failedClass = false)

structure FailsClosed (j : JobId) (es : List Edge) (s : Sys) : Prop where
  sound : Sound s
  keyed : ∀ e ∈ es, ∀ e' ∈ es, e.parent = e'.parent → e = e'
  bounded : Bounded closedDebt 0 j es s
  fired : s.hasFire j → ∀ e ∈ es, s.parentPassed e
  hits : s.sessions t = some (.finalize c fork pc) → h ∈ pc.hits → h.joinJob = j →
    c.outcome.1.crashClass = true → ∀ e ∈ es, e.parent = c.job → e.failurePolicy ≠ .failClosed

section
variable (hF : FailsClosed j es s)
include hF

namespace FailsClosed

lemma passed_of_hit
    (hx : s.sessions t = some (.finalize c fork pc)) (hh : h ∈ pc.hits) (hj : h.joinJob = j)
    (he : e ∈ es) (hp : e.parent = c.job) (hc : e.failurePolicy = .failClosed) :
    c.outcome.1.failedClass = false := by
  rw [← Bool.not_eq_true, failedClass_iff, not_or]
  refine ⟨fun hf => ?_, fun hcr => hF.hits hx hh hj hcr e he hp hc⟩
  obtain ⟨e', he', hp', hpol⟩ := hF.bounded.hit hx hh hj
  obtain rfl := hF.keyed e he e' he' (hp.trans hp'.symm)
  rw [FinalizeCall.countedPolicy, if_pos hf, hc] at hpol
  cases hpol

lemma passed_of_zero (hu : s.unfired j)
    (hr : (s.jobs j).view t = some r) (h0 : r.depsPending = 0) (he : e ∈ es) :
    s.parentPassed e := by
  by_cases ho : closedDebt.owes s e
  · have hd := (hF.bounded.clear hu hr h0).2 e he ho
    obtain ⟨c, fork, pc, hx, hp, hit, hh, hj⟩ := mem_discharged.mp hd
    obtain ⟨b, hb, hs⟩ := hF.sound.flight hx (FinalizePc.inTx2_of_hits hh)
    refine ⟨b, hp ▸ hb, hs ▸ c.outcome.2, fun hc => ?_⟩
    rw [hs]
    exact hF.passed_of_hit hx hh hj he hp hc
  · obtain ⟨p, hp, ht, hn⟩ := Debt.done_of_not_owes ho
    refine ⟨p, hp, ht, fun hc => ?_⟩
    rw [← Bool.not_eq_true]
    exact fun hf => hn ⟨hf, hc⟩

lemma respects (he : EdgesWritten j s a)
    (hr : RecountSettled j s a) (hc : CrashesHeld j s a) : Respects closedDebt 0 j es s a where
  edges ha hx h := by
    subst ha
    exact he _ _ hx h
  recount := by
    intro t env batch r ha hx hj hrec
    subst ha
    refine hF.bounded.recount_covers hF.sound hx hrec ?_ ?_
    · exact hF.bounded.wired ▸ hr batch r hx hj hrec
    · intro e hm p hp hnf ⟨hfail, hpol⟩
      simp only [CrashesHeld, hx] at hc
      have hcr := hc r hj hrec e (hF.bounded.wired ▸ hm) hpol p hp
      rcases failedClass_iff.mp hfail with hf | hf
      · exact hnf hpol hf
      · rw [hcr] at hf
        cases hf
  commit := by
    intro t c fork hs hit e _ hx hh hj hm hp ⟨hfail, hpol⟩
    rw [hF.passed_of_hit hx hh hj hm hp hpol] at hfail
    cases hfail

lemma passed_of_fire (hc : CrashesHeld j s (.exec t env))
    (hx : s.sessions t = some x) (h : execStmt env (s.snapshot t) s.fresh x = some e)
    (hf : f ∈ e.fires) (hj : f.joinJob = j) (hd : d ∈ es) : s.parentPassed d := by
  obtain ⟨hcause, hg⟩ := (execStmt_spec h).fires hf
  subst hj
  cases hcause with
  | zero hr h0 => exact hF.passed_of_zero (hF.bounded.unfired_of_visible hg) hr h0 hd
  | firable hs hl hfir =>
    subst hs
    obtain ⟨p, hp, ht, hnf⟩ := hF.bounded.done_of_firable hF.sound hx hfir hd
    refine ⟨p, hp, ht, fun hpol => ?_⟩
    simp only [CrashesHeld, hx] at hc
    have hcr := hc hl hfir d (hF.bounded.wired ▸ hd) hpol p hp
    rw [← Bool.not_eq_true, failedClass_iff, not_or, hcr]
    exact ⟨hnf hpol, Bool.false_ne_true⟩

lemma step (he : EdgesWritten j s a)
    (hr : RecountSettled j s a) (hc : CrashesHeld j s a) (hs : s.step a = some s') :
    FailsClosed j es s' := by
  refine ⟨hF.sound.step hs, hF.keyed, hF.bounded.step hF.sound (hF.respects he hr hc) hs, ?fired,
    ?hits⟩
  case fired =>
    intro hf e hm
    have hpass : s.parentPassed e := by
      rcases hasFire_step hs hf with hf0 | ⟨t, env, x, ef, f, rfl, hx, hex, hfm, hj⟩
      · exact hF.fired hf0 e hm
      · exact hF.passed_of_fire hc hx hex hfm hj hm
    obtain ⟨p, hp, ht, hn⟩ := hpass
    obtain ⟨p', hp', hst⟩ := hF.sound.terminal_step hs hp ht
    rw [← hst] at ht hn
    exact ⟨p', hp', ht, hn⟩
  case hits =>
    intro t c fork pc hit hx hh hj hcr
    rcases hits_step hs hx hh with ⟨pc0, hx0, hh0⟩ | ⟨env, e, rfl, hx0, -⟩
    · exact hF.hits hx0 (hh0 ▸ hh) hj hcr
    · simp only [CrashesHeld, hx0] at hc
      exact hF.bounded.wired ▸ hc hcr

end FailsClosed

end

structure WiredOpen (j : JobId) (s : Sys) : Prop extends Wired j s where
  keyed : ∀ e ∈ s.edgesOf j, ∀ e' ∈ s.edgesOf j, e.parent = e'.parent → e = e'
  clean : e ∈ s.edgesOf j → e.failurePolicy = .failClosed → (s.jobs e.parent).base = some p →
    p.status.failedClass = false

lemma WiredOpen.failsClosed (h : WiredOpen j s) : FailsClosed j (s.edgesOf j) s := by
  have hB := h.bounded
  have hsub : closedDebt.owed s (s.edgesOf j) ⊆ plainDebt.owed s (s.edgesOf j) := by
    intro p hp
    obtain ⟨e, he, ho, rfl⟩ := Debt.mem_owed.mp hp
    refine Debt.mem_owed.mpr ⟨e, he, ho.imp id fun ho p hp => .inl ?_, rfl⟩
    rcases ho p hp with ht | ⟨hf, hc⟩
    · exact ht
    · rw [h.clean he hc hp] at hf
      cases hf
  refine ⟨.of_quiet h.quiet h.listed, h.keyed, ?_, ?_, ?_⟩
  · exact Bounded.of_quiet h.quiet hB.present fun r hr =>
      (hB.base h.unfired hr).mono hsub le_rfl
  · exact fun hf => absurd hf (h.quiet.not_hasFire h.unfired)
  · intro t c fork pc hit hx
    rw [h.quiet.sessions] at hx
    cases hx

/-- With recounts settled and crashes held, no join over a failed fail-closed parent is open. -/
theorem closed_over_failed (hw : WiredOpen j s0) (h : Reach Sys.step
      (fun s a => EdgesWritten j s a ∧ RecountSettled j s a ∧ CrashesHeld j s a) s0 s)
    (he : e ∈ s.edgesOf j) (hc : e.failurePolicy = .failClosed)
    (hp : (s.jobs e.parent).base = some p) (hf : p.status.failedClass = true) : ¬ s.hasFire j ∧
      ∀ t now r, (s.jobs j).view t = some r → claimable (s.snapshot t) now r = false := by
  have hF : FailsClosed j (s0.edgesOf j) s :=
    h.invariant hw.failsClosed fun _ _ _ hI hok hs => hI.step hok.1 hok.2.1 hok.2.2 hs
  have hm : e ∈ s0.edgesOf j := hF.bounded.wired ▸ he
  have hn : ¬ s.parentPassed e := by
    rintro ⟨p', hp', -, hfc⟩
    cases hp.symm.trans hp'
    rw [hfc hc] at hf
    cases hf
  have hnf : ¬ s.hasFire j := fun hfj => hn (hF.fired hfj e hm)
  refine ⟨hnf, fun t now r hr => ?_⟩
  have hu : s.unfired j := by
    by_contra hu
    exact hnf (hasFire_of_fired hu)
  have hd : r.depsPending ≠ 0 := fun h0 => hn (hF.passed_of_zero hu hr h0 hm)
  simp [claimable, hd]

def lastAttempt : Sys :=
  .ofRows [rootRow, { claimedRow "p" 1 with maxAttempts := 1, lockExpiresAt := some 0 }, joinRow 1]
    [{ child := 2, parent := 1, flow := 0 }]

lemma wiredOpen_lastAttempt : WiredOpen 2 lastAttempt where
  quiet := quiet_ofRows _ _
  listed := listed_ofRows _ _
  row := ⟨joinRow 1, rfl, by decide⟩
  unfired _ h := by cases h
  keyed := by decide
  clean he _ hp := by
    obtain rfl := List.mem_singleton.mp he
    cases hp
    rfl

def reclaimThenSweep : List Event :=
  [.reclaim 1 1 100 60 0, .call 2 (.sweepJoinRederive 10), .exec 2 {}, .exec 2 {}, .exec 2 {},
    .exec 2 {}, .exec 2 {}, .exec 2 {}, .exec 2 {}, .commit 2]

/-- The join fires over a crashed fail-closed parent; the same pass fails the run for it. -/
theorem fires_over_crashed : WiredOpen 2 lastAttempt ∧
    ∃ s, Reach Sys.step (EdgesWritten 2) lastAttempt s ∧ s.hasFire 2 ∧
      (∃ e ∈ s.edgesOf 2, e.failurePolicy = .failClosed ∧
        ∃ p, (s.jobs e.parent).base = some p ∧ p.status.failedClass = true) ∧
      ∃ r, (s.jobs 0).base = some r ∧ r.status = .failed := by
  have hstatus : ∀ {k st}, ((final step lastAttempt reclaimThenSweep).jobs k).base.map
      JobRow.status = some st →
      ∃ p, ((final step lastAttempt reclaimThenSweep).jobs k).base = some p ∧
        p.status = st := fun h => Option.map_eq_some_iff.mp h
  refine ⟨wiredOpen_lastAttempt, final step lastAttempt reclaimThenSweep, ?_, ?_, ?_, ?_⟩
  · exact .of_exec (exec_final (by decide))
      (.of_checks (edgesWritten 2) (by decide) fun _ _ => EdgesWritten.of_check)
  · exact hasFire_of_any (by decide)
  · obtain ⟨p, hp, hs⟩ := hstatus (k := 1) (show _ = some crashed by decide)
    exact ⟨{ child := 2, parent := 1, flow := 0 }, by decide, rfl, p, hp, by rw [hs]; rfl⟩
  · exact hstatus (by decide)

def failThenSweep : List Event :=
  [.call 1 (.finalizeNode { succeed 1 "p" 1 with outcome := failedOutcome } none),
    .exec 1 {}, .exec 1 {}, .commit 1, .exec 1 {}, .exec 1 {}, .exec 1 {}, .exec 1 {}, .commit 1,
    .call 2 (.sweepJoinRederive 10), .exec 2 {}, .exec 2 {}, .commit 2]

def crashesHeld (j : JobId) (s : Sys) : Event → Bool
  | .exec t env =>
    match s.sessions t with
    | some (.finalize c _ .decrement) => !c.outcome.1.crashClass
    | some (.sweep batch .rederive) => !((s.snapshot t).jobs j).any
        (reconciles (s.snapshot t) (rederiveLocked (s.snapshot t) env.now batch) j)
    | some (.sweep _ (.sweepFire _)) => !firable (s.snapshot t) j
    | _ => true
  | _ => true

lemma CrashesHeld.of_check (h : crashesHeld j s a = true) : CrashesHeld j s a := by
  cases a with
  | exec t env =>
    unfold crashesHeld at h
    unfold CrashesHeld
    dsimp only at h ⊢
    split at h
    · exact fun hc => absurd hc (by simpa using h)
    · intro r hr hrec
      simp [hr, hrec] at h
    · intro _ hf
      simp [hf] at h
    · trivial
  | call | commit | deadlock | crash | claim | reclaim => trivial

theorem closed_over_failed_sweep : ¬ (final Sys.step lastAttempt failThenSweep).hasFire 2 ∧
    ∀ t now r, ((final Sys.step lastAttempt failThenSweep).jobs 2).view t = some r →
      claimable ((final Sys.step lastAttempt failThenSweep).snapshot t) now r = false := by
  obtain ⟨p, hp, hs⟩ := Option.map_eq_some_iff.mp (show ((final step lastAttempt
    failThenSweep).jobs 1).base.map JobRow.status = some .failed by decide)
  refine closed_over_failed (e := { child := 2, parent := 1, flow := 0 }) wiredOpen_lastAttempt ?_
    (by decide) rfl hp (by rw [hs]; rfl)
  refine .of_exec (exec_final (by decide)) (.of_checks
    (fun s a => edgesWritten 2 s a && (notRecounted 2 s a && crashesHeld 2 s a)) (by decide)
    fun s a h => ?_)
  rw [Bool.and_eq_true, Bool.and_eq_true] at h
  exact ⟨.of_check h.1, .of_check h.2.1, .of_check h.2.2⟩

end TaskQ
