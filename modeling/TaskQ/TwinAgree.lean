import TaskQ.Twin

namespace TaskQ.Jobs
open Row Twin Binary64 Int

lemma toInt_neg (x : ℚ) : toInt (-x) = -toInt x := by
  unfold toInt
  rcases lt_trichotomy x 0 with h | rfl | h
  · rw [if_pos (by linarith), if_neg (not_le.mpr h), floor_neg]
  · rfl
  · rw [if_neg (by linarith), if_pos h.le, ceil_neg]

lemma toInt_eq_tdiv_of_pos {x : ℚ} {d : ℤ} (hd : 0 < d) (h : |x - d / 1000| < 1 / 1000) :
    toInt x = d.tdiv 1000 ↔ (1000 ∣ d → |(d / 1000 : ℚ)| ≤ |x|) := by
  obtain ⟨hlo, hhi⟩ := abs_lt.mp h
  have hone : (1 : ℚ) ≤ d := by exact_mod_cast hd
  have hx : 0 ≤ x := by linarith
  have hupper : (d + 1 : ℚ) ≤ 1000 * (d / 1000 : ℤ) + 1000 := by
    exact_mod_cast (by omega : d + 1 ≤ 1000 * (d / 1000) + 1000)
  rw [tdiv_eq_ediv_of_nonneg hd.le, toInt, if_pos hx, floor_eq_iff, abs_of_nonneg hx,
    abs_of_nonneg (by linarith)]
  by_cases hdvd : 1000 ∣ d
  · have hcast : (d : ℚ) = 1000 * (d / 1000 : ℤ) := by exact_mod_cast (by omega)
    refine ⟨fun hfloor _ => by linarith [hfloor.1], fun hkeeps => ⟨?_, by linarith⟩⟩
    linarith [hkeeps hdvd]
  · have hlower : (1000 * (d / 1000 : ℤ) + 1 : ℚ) ≤ d := by
      exact_mod_cast (by omega : 1000 * (d / 1000) + 1 ≤ d)
    exact iff_of_true ⟨by linarith, by linarith⟩ fun h => absurd h hdvd

lemma toInt_eq_tdiv_iff {x : ℚ} {d : ℤ} (h : |x - d / 1000| < 1 / 1000) :
    toInt x = d.tdiv 1000 ↔ (1000 ∣ d → |(d / 1000 : ℚ)| ≤ |x|) := by
  rcases lt_trichotomy d 0 with hd | rfl | hd
  · have hneg := toInt_eq_tdiv_of_pos (x := -x) (neg_pos_of_neg hd)
      (by rwa [cast_neg, neg_div, ← neg_sub', abs_neg])
    rwa [toInt_neg, Int.neg_tdiv, neg_inj, Int.dvd_neg, Int.cast_neg, neg_div, abs_neg,
      abs_neg] at hneg
  · refine iff_of_true ?_ fun _ => by simp
    obtain ⟨hlo, hhi⟩ := abs_lt.mp h
    norm_num at hlo hhi
    rw [Int.zero_tdiv, toInt]
    split
    next hx => exact floor_eq_zero_iff.mpr ⟨hx, by linarith⟩
    next hx => exact ceil_eq_zero_iff.mpr ⟨by linarith, (not_le.mp hx).le⟩
  · exact toInt_eq_tdiv_of_pos hd h

/-- A whole number of milliseconds that the double products do not round below itself. -/
def KeepsMs (d : Stamp) : Prop :=
  1000 ∣ d → |(d / 1000 : ℚ)| ≤ |nearest (nearest (d / 10 ^ 6) * 1000)|

lemma pyDurationMs_eq_iff {d : ℤ} (hfit : fitsInt4 (durationMs d)) :
    pyDurationMs d = durationMs d ↔ KeepsMs d := by
  have hrange : -5000000000000 ≤ d ∧ d ≤ 5000000000000 := by
    have hsum := mul_tdiv_add_tmod d 1000
    have hlt := tmod_lt_of_pos d (by decide : (0 : ℤ) < 1000)
    have hgt := lt_tmod_of_pos d (by decide : (0 : ℤ) < 1000)
    unfold fitsInt4 durationMs int4Max at hfit
    omega
  have hlo : (-5000000000000 : ℚ) ≤ d := by exact_mod_cast hrange.1
  have hhi : (d : ℚ) ≤ 5000000000000 := by exact_mod_cast hrange.2
  have hsec := nearest_bounds (q := d / 10 ^ 6) (2 ^ 23) (by linarith) (by linarith)
  have hms := nearest_bounds (q := nearest (d / 10 ^ 6) * 1000) (2 ^ 33) (by linarith) (by linarith)
  exact toInt_eq_tdiv_iff (abs_lt.mpr ⟨by linarith, by linarith⟩)

def LedgerAgrees (registered : WorkerId → Bool) (worker : WorkerId) (now : Stamp) (s : Store) :
    Prop :=
  ∃ started ∈ s.row.startedAt, fitsInt4 (durationMs (now - started)) ∧
    (s.attempts.any (·.attempt == s.row.attempt) = true ∨
      registered worker = true ∧ KeepsMs (now - started))

lemma Twin.fenced_eq_false {j : Row} : Twin.fenced j f = false ↔ j.jobFence f := by
  simp only [fenced, jobFence, Bool.or_eq_false_iff, bne_eq_false_iff_eq, and_assoc,
    eq_comm (a := f.attempt), eq_comm (a := f.claimEpoch)]

lemma Twin.fenced_eq_true {j : Row} : Twin.fenced j f = true ↔ ¬ j.jobFence f := by
  rw [← fenced_eq_false, Bool.not_eq_false]

lemma holder_eq_some : holder registered w = some w ↔ registered w = true := by
  simp [holder]

lemma insertAttempt_eq_appendAttempt_iff {s : Store} {v : AttemptValues} :
    (attemptRow (holder registered f.worker) now s.row v).map (insertAttempt s.attempts) =
        some (Twin.appendAttempt f now s v) ↔
      LedgerAgrees registered f.worker now s := by
  cases hst : s.row.startedAt with
  | none => simp [attemptRow, LedgerAgrees, hst]
  | some started =>
    by_cases hfit : fitsInt4 (durationMs (now - started))
    · by_cases hany : s.attempts.any (·.attempt == s.row.attempt) = true
      · simp [attemptRow, LedgerAgrees, appendAttempt, insertAttempt, hst, hfit, hany]
      · simp [attemptRow, LedgerAgrees, appendAttempt, insertAttempt, hst, hfit, hany,
          holder_eq_some, and_comm, ← pyDurationMs_eq_iff hfit, eq_comm (a := durationMs _)]
    · simp [attemptRow, LedgerAgrees, hst, hfit]

section
variable {registered : WorkerId → Bool} {f : Fence} {now : Stamp} {s : Store} {w : Written}
  (reply : Written → Reply)

lemma fetchrow_recorded_eq_iff (hv : w.attempt = some v) (hr : reply w ≠ .raised) :
    s.fetchrow registered f now (some w) unmatched reply =
        (reply w, ⟨row, Twin.appendAttempt f now s v⟩) ↔
      s.row.countersFit w.row ∧ w.row = row ∧ LedgerAgrees registered f.worker now s := by
  rw [← insertAttempt_eq_appendAttempt_iff (v := v)]
  by_cases hfit : s.row.countersFit w.row
  · cases ha : attemptRow (holder registered f.worker) now s.row v with
    | none => simp [Store.fetchrow, Store.write, hfit, hv, ha, hr.symm]
    | some a => simp [Store.fetchrow, Store.write, hfit, hv, ha]
  · simp [Store.fetchrow, Store.write, hfit, hr.symm]

lemma fetchrow_ledger_eq_iff (hv : w.attempt = some v) (hr : reply w ≠ .raised)
    (hcount : w.row.snoozeCount = s.row.snoozeCount ∧
      w.row.rateLimitBlockedCount = s.row.rateLimitBlockedCount ∧
      w.row.interruptCount = s.row.interruptCount := by exact ⟨rfl, rfl, rfl⟩)
    (hrow : w.row = row := by rfl) :
    s.fetchrow registered f now (some w) unmatched reply =
        (reply w, ⟨row, Twin.appendAttempt f now s v⟩) ↔
      LedgerAgrees registered f.worker now s := by
  have hfit : s.row.countersFit w.row := ⟨.inl hcount.1, .inl hcount.2.1, .inl hcount.2.2⟩
  rw [fetchrow_recorded_eq_iff reply hv hr]
  exact ⟨fun h => h.2.2, fun h => ⟨hfit, hrow, h⟩⟩

lemma fetchrow_unrecorded_eq_iff (hv : w.attempt = none) (hr : reply w ≠ .raised) :
    s.fetchrow registered f now (some w) unmatched reply = (reply w, { s with row := row }) ↔
      s.row.countersFit w.row ∧ w.row = row := by
  by_cases hfit : s.row.countersFit w.row
  · simp [Store.fetchrow, Store.write, hfit, hv]
  · simp [Store.fetchrow, Store.write, hfit, hr.symm]

end

lemma Row.handBack_eq (j : Row) (now delay : Stamp) (p : Progress) :
    j.handBack now delay p = { j with
      status := if 0 < delay then .scheduled else .pending
      scheduledAt := now + delay
      finishedAt := none
      lockedByWorker := none
      lockExpiresAt := none
      lastHeartbeatAt := none
      cancelPhase := .none
      cancelRequestedAt := none
      assignmentRouted := true
      progressSeq := max j.progressSeq p.seq
      progressState := Twin.mergeProgress j.progressState p.state } := by
  unfold handBack progressMerge leaseClear mergeProgress
  rfl

section
variable (registered : WorkerId → Bool) (f : Fence) (now : Stamp) (s : Store)

lemma Twin.markFailedOrRetry_unfenced (hf : ¬ s.row.jobFence f) :
    Twin.markFailedOrRetry f now s e retryDelay p = (.mismatch s.row.lockedByWorker, s) := by
  by_cases hs : s.row.status = .running
  · have hrest : s.row.lockedByWorker ≠ some f.worker ∨ some s.row.attempt ≠ f.attempt ∨
        some s.row.claimEpoch ≠ f.claimEpoch := by
      by_contra h
      simp only [not_or, not_not] at h
      exact hf ⟨hs, h.1, h.2.1.symm, h.2.2.symm⟩
    simp [Twin.markFailedOrRetry, hs, if_pos hrest]
  · simp [Twin.markFailedOrRetry, hs]

/-- `_mark_failed_or_retry` agrees with `mark_failed` and `mark_retry` on just these inputs. -/
theorem markRetry_twin_iff (e : ErrorInfo) (retryDelay : Option Stamp) (p : Progress) :
    markFailedOrRetry registered f now s e retryDelay p =
        Twin.markFailedOrRetry f now s e retryDelay p ↔
      (s.row.jobFence f → (retryDelay.isSome → s.row.cancelPhase = .none) →
        LedgerAgrees registered f.worker now s ∧
          ∀ delay ∈ retryDelay, s.row.late (now + max delay minDeferralInterval) →
            s.row.errorTraceback = none) := by
  by_cases hf : s.row.jobFence f
  · obtain ⟨hs, hw, ha, he⟩ := id hf
    have hrest : ¬ (s.row.lockedByWorker ≠ some f.worker ∨ some s.row.attempt ≠ f.attempt ∨
        some s.row.claimEpoch ≠ f.claimEpoch) := by
      simp [hw, ha, he]
    cases retryDelay with
    | none =>
      unfold markFailedOrRetry markFailed Twin.markFailedOrRetry
      dsimp only
      rw [if_pos hf, if_neg (not_not.mpr hs), if_neg hrest]
      refine (fetchrow_ledger_eq_iff (fun _ => .row) rfl nofun).trans ?_
      exact ⟨fun hledger _ _ => ⟨hledger, nofun⟩, fun h => (h hf nofun).1⟩
    | some delay =>
      unfold markFailedOrRetry markRetry Twin.markFailedOrRetry
      dsimp only
      rw [if_neg (not_not.mpr hs), if_neg hrest]
      by_cases hp : s.row.cancelPhase = .none
      · by_cases hl : s.row.late (now + max delay minDeferralInterval)
        · have hin := late_iff.mp hl
          rw [if_neg (fun h => hin h.2.2), if_pos ⟨hf, hp, hl⟩, if_neg (not_not.mpr hp), if_pos hl]
          refine (fetchrow_recorded_eq_iff (fun _ => .row) rfl nofun).trans ⟨?_, ?_⟩
          · rintro ⟨-, hrow, hledger⟩ - -
            exact ⟨hledger, fun _ _ _ => (congrArg errorTraceback hrow).symm⟩
          · intro h
            obtain ⟨hledger, htrace⟩ := h hf fun _ => hp
            refine ⟨⟨.inl rfl, .inl rfl, .inl rfl⟩, ?_, hledger⟩
            -- the statement clears the traceback, the twin's row keeps the old one
            rw [htrace delay rfl hl]
            rfl
        · have hin := not_not.mp (mt late_iff.mpr hl)
          rw [if_pos ⟨hf, hp, hin⟩, if_neg (not_not.mpr hp), if_neg hl]
          refine (fetchrow_ledger_eq_iff (fun _ => .row) rfl nofun).trans ?_
          refine ⟨fun hledger _ _ => ⟨hledger, fun d hd hlate => absurd hlate ?_⟩,
            fun h => (h hf fun _ => hp).1⟩
          cases hd
          exact hl
      · simp [Store.fetchrow, hp]
  · rw [markFailedOrRetry_unfenced f now s hf]
    cases retryDelay with
    | none => simp [markFailedOrRetry, markFailed, Store.fetchrow, hf]
    | some delay => simp [markFailedOrRetry, markRetry, Store.fetchrow, hf]

def claimedRow : Row where
  id := 1
  actor := "report"
  status := .running
  attempt := 1
  startedAt := some 0
  lastHeartbeatAt := some 0
  lockedByWorker := some 1
  lockExpiresAt := some 60000000
  claimEpoch := 1

def retriedOnce : Store :=
  ⟨{ claimedRow with errorTraceback := some "trace", scheduleToClose := some 1500000 }, []⟩

/-- A retry past the deadline: the statement clears the traceback that an earlier attempt has left,
the twin keeps it. -/
theorem late_retry_keeps_traceback :
    (markFailedOrRetry (fun _ => true) ⟨1, some 1, some 1⟩ 1000000 retriedOnce
        ⟨"ValueError", "bad input", none⟩ (some 1000000) {}).2.row.errorTraceback = none ∧
      (Twin.markFailedOrRetry ⟨1, some 1, some 1⟩ 1000000 retriedOnce
        ⟨"ValueError", "bad input", none⟩ (some 1000000) {}).2.row.errorTraceback = some "trace" := by
  decide +kernel

def retryAfterDue (now : Stamp) (consumeBudget : Bool) (delay : Stamp) : Stamp :=
  now + if consumeBudget then delay else max delay minDeferralInterval

lemma lt_retryAfterDue_iff : now < retryAfterDue now consumeBudget delay ↔
    0 < if consumeBudget then delay else max delay minDeferralInterval :=
  lt_add_iff_pos_right now

variable {j : Row}

lemma retryAfterArm_unfenced (hf : ¬ j.jobFence f) :
    retryAfterArm f now j consumeBudget delay p = none := by
  cases consumeBudget <;>
    simp [retryAfterArm, markRetryAfterConsumeTrue, markRetryAfterConsumeFalse, hf]

lemma retryAfterArm_late (hf : j.jobFence f)
    (hl : j.late (retryAfterDue now consumeBudget delay)) :
    retryAfterArm f now j consumeBudget delay p =
      some (if j.cancelPhase = .none then deadlineFailed now j deadlineExceededMessage p
        else deadlineCancelled now j p) := by
  have hin := late_iff.mp hl
  cases consumeBudget with
  | true =>
    simp only [retryAfterDue, if_true] at hl hin
    by_cases hp : j.cancelPhase = .none <;>
      simp [retryAfterArm, markRetryAfterConsumeTrue, hf, hl, hp, hin]
  | false =>
    simp only [retryAfterDue, Bool.false_eq_true, if_false] at hl hin
    by_cases hp : j.cancelPhase = .none <;>
      simp [retryAfterArm, markRetryAfterConsumeFalse, hf, hl, hp, hin]

lemma retryAfterArm_carried (hl : ¬ j.late (retryAfterDue now consumeBudget delay))
    (hp : j.cancelPhase ≠ .none) : retryAfterArm f now j consumeBudget delay p = none := by
  cases consumeBudget with
  | true =>
    simp only [retryAfterDue, if_true] at hl
    simp [retryAfterArm, markRetryAfterConsumeTrue, hl, hp]
  | false =>
    simp only [retryAfterDue, Bool.false_eq_true, if_false] at hl
    simp [retryAfterArm, markRetryAfterConsumeFalse, hl, hp]

lemma Row.not_hasBudget :
    ¬ j.hasBudget ↔ j.retryKind ≠ .indefinite ∧ j.maxAttempts ≤ j.attempt := by
  simp [hasBudget]

lemma markRetryAfterConsumeTrue_exhausted (hf : j.jobFence f)
    (hin : j.inTime (now + delay)) (hp : j.cancelPhase = .none) (hb : ¬ j.hasBudget) :
    markRetryAfterConsumeTrue f now j delay p = some
      { branch := .maxAttemptsFailed
        row := j.failWith now errorClassMaxAttemptsExceeded budgetExhaustedMessage p
        attempt := some
          { outcome := .failed
            errorClass := some errorClassMaxAttemptsExceeded
            errorMessage := some budgetExhaustedMessage } } := by
  obtain ⟨hkind, hmax⟩ := not_hasBudget.mp hb
  simp [markRetryAfterConsumeTrue, hf, hin, hp, hb, hkind, hmax]

structure RetryAfterAgrees (consumeBudget : Bool) (delay : Stamp) : Prop where
  deadline : s.row.late (retryAfterDue now consumeBudget delay) →
    LedgerAgrees registered f.worker now s
  budget : ¬ s.row.late (retryAfterDue now consumeBudget delay) → consumeBudget = true →
    ¬ s.row.hasBudget → s.row.cancelPhase = .none
  recorded : ¬ s.row.late (retryAfterDue now consumeBudget delay) → consumeBudget = true →
    s.row.cancelPhase = .none → LedgerAgrees registered f.worker now s
  counted : ¬ s.row.late (retryAfterDue now consumeBudget delay) → consumeBudget = false →
    s.row.cancelPhase = .none → s.row.snoozeCount < int4Max

section
variable {registered f now s}

lemma RetryAfterAgrees.of_late (hl : s.row.late (retryAfterDue now consumeBudget delay))
    (h : LedgerAgrees registered f.worker now s) :
    RetryAfterAgrees registered f now s consumeBudget delay :=
  ⟨fun _ => h, fun hn => absurd hl hn, fun hn => absurd hl hn, fun hn => absurd hl hn⟩

lemma RetryAfterAgrees.of_consumed (hl : ¬ s.row.late (retryAfterDue now true delay))
    (hp : s.row.cancelPhase = .none) (h : LedgerAgrees registered f.worker now s) :
    RetryAfterAgrees registered f now s true delay :=
  ⟨fun hn => absurd hn hl, fun _ _ _ => hp, fun _ _ _ => h, fun _ hc => by cases hc⟩

end

lemma retryAfterReply_ne_raised : retryAfterReply w ≠ .raised := by
  unfold retryAfterReply
  split <;> simp

/-- On which inputs `_mark_retry_after` replies and writes what the two statements do. -/
theorem markRetryAfter_twin_iff (consumeBudget : Bool) (delay : Stamp) (p : Progress) :
    markRetryAfter registered f now s consumeBudget delay p =
        Twin.markRetryAfter f now s consumeBudget delay p ↔
      (s.row.jobFence f → RetryAfterAgrees registered f now s consumeBudget delay) := by
  by_cases hf : s.row.jobFence f
  · unfold markRetryAfter Twin.markRetryAfter
    dsimp only
    rw [fenced_eq_false.mpr hf, if_neg Bool.false_ne_true, ← retryAfterDue]
    by_cases hl : s.row.late (retryAfterDue now consumeBudget delay)
    · have hagrees : LedgerAgrees registered f.worker now s ↔
          (s.row.jobFence f → RetryAfterAgrees registered f now s consumeBudget delay) :=
        ⟨fun hledger _ => .of_late hl hledger, fun h => (h hf).deadline hl⟩
      rw [if_pos hl, retryAfterArm_late _ _ hf hl, ← hagrees]
      by_cases hp : s.row.cancelPhase = .none
      · rw [if_pos hp, if_neg (not_not.mpr hp)]
        exact fetchrow_ledger_eq_iff retryAfterReply rfl retryAfterReply_ne_raised
      · rw [if_neg hp, if_pos hp]
        exact fetchrow_ledger_eq_iff retryAfterReply rfl retryAfterReply_ne_raised
    · rw [if_neg hl]
      have hin := not_not.mp (mt late_iff.mpr hl)
      by_cases hp : s.row.cancelPhase = .none
      · cases consumeBudget with
        | true =>
          have hin : s.row.inTime (now + delay) := hin
          have hagrees : LedgerAgrees registered f.worker now s ↔
              (s.row.jobFence f → RetryAfterAgrees registered f now s true delay) :=
            ⟨fun hledger _ => .of_consumed hl hp hledger, fun h => (h hf).recorded hl rfl hp⟩
          rw [← hagrees, retryAfterArm, if_pos rfl]
          by_cases hb : s.row.hasBudget
          · rw [if_neg (fun h => not_hasBudget.mpr ⟨h.2.2, h.2.1⟩ hb), if_neg (not_not.mpr hp),
              markRetryAfterConsumeTrue, if_pos ⟨hf, hp, hin, hb⟩]
            simp only [if_true, lt_retryAfterDue_iff]
            exact fetchrow_ledger_eq_iff retryAfterReply rfl retryAfterReply_ne_raised
          · obtain ⟨hkind, hmax⟩ := not_hasBudget.mp hb
            rw [if_pos ⟨rfl, hmax, hkind⟩, markRetryAfterConsumeTrue_exhausted _ _ hf hin hp hb]
            exact fetchrow_ledger_eq_iff retryAfterReply rfl retryAfterReply_ne_raised
        | false =>
          have hin : s.row.inTime (now + max delay minDeferralInterval) := hin
          rw [if_neg (fun h => Bool.false_ne_true h.1), if_neg (not_not.mpr hp), retryAfterArm,
            if_neg Bool.false_ne_true, markRetryAfterConsumeFalse, if_pos ⟨hf, hp, hin⟩]
          simp only [Bool.false_eq_true, if_false, lt_retryAfterDue_iff]
          refine (fetchrow_unrecorded_eq_iff retryAfterReply rfl retryAfterReply_ne_raised).trans
            ⟨?_, ?_⟩
          · rintro ⟨hcount, -⟩ -
            refine ⟨fun h => absurd h hl, nofun, nofun, fun _ _ _ => ?_⟩
            have hstep : s.row.snoozeCount + 1 = s.row.snoozeCount ∨
              s.row.snoozeCount + 1 ≤ int4Max := hcount.1
            omega
          · intro h
            have hroom := (h hf).counted hl rfl hp
            exact ⟨⟨.inr hroom, .inl rfl, .inl rfl⟩, by rw [handBack_eq]; rfl⟩
      · rw [retryAfterArm_carried _ _ hl hp]
        by_cases hb : consumeBudget = true ∧ ¬ s.row.hasBudget
        · obtain ⟨hkind, hmax⟩ := not_hasBudget.mp hb.2
          -- the statement leaves a row with a cancel alone, the twin fails it
          rw [if_pos ⟨hb.1, hmax, hkind⟩]
          refine iff_of_false nofun fun h => hp ((h hf).budget hl hb.1 hb.2)
        · rw [if_neg (fun h => hb ⟨h.1, not_hasBudget.mpr ⟨h.2.2, h.2.1⟩⟩), if_pos hp]
          refine iff_of_true rfl fun _ => ⟨fun h => absurd h hl, fun _ hc hbud => ?_,
            fun _ _ h => absurd h hp, fun _ _ h => absurd h hp⟩
          exact absurd ⟨hc, hbud⟩ hb
  · rw [markRetryAfter, retryAfterArm_unfenced _ _ hf, Twin.markRetryAfter,
      Twin.fenced_eq_true.mpr hf, if_pos rfl]
    simp [Store.fetchrow, hf]

/-- A cancel during the last attempt: the statement leaves the row to it, the twin fails it. -/
theorem exhausted_with_cancel : markRetryAfter (fun _ => true) ⟨1, some 1, some 1⟩ 1000000
        ⟨{ claimedRow with
            maxAttempts := 1, cancelPhase := .cooperative, cancelRequestedAt := some 500000 }, []⟩
        true 5000000 {} ≠
      Twin.markRetryAfter ⟨1, some 1, some 1⟩ 1000000
        ⟨{ claimedRow with
            maxAttempts := 1, cancelPhase := .cooperative, cancelRequestedAt := some 500000 }, []⟩
        true 5000000 {} := by
  decide +kernel

structure SnoozeAgrees (p : SnoozeParams) : Prop where
  deadline : s.row.late (now + max p.delay minDeferralInterval) →
    LedgerAgrees registered f.worker now s
  blocked : s.row.cancelPhase = .none → p.outcome.denied = true →
    s.row.rateLimitBlockedCount < int4Max
  counted : ¬ s.row.late (now + max p.delay minDeferralInterval) → s.row.cancelPhase = .none →
    p.outcome = .snoozed → s.row.snoozeCount < int4Max

structure InterruptAgrees (hold : Stamp) : Prop where
  deadline : s.row.late (now + effectiveHold hold) → LedgerAgrees registered f.worker now s
  counted : ¬ s.row.late (now + effectiveHold hold) → s.row.interruptCount < int4Max

lemma snoozedReply_ne_raised : snoozedReply w ≠ .raised := by
  unfold snoozedReply
  split <;> simp

lemma interruptedReply_ne_raised : interruptedReply w ≠ .raised := by
  unfold interruptedReply
  repeat' split
  all_goals simp

lemma counter_fits_iff {c : Prop} [Decidable c] {n : Int} :
    ((if c then n + 1 else n) = n ∨ (if c then n + 1 else n) ≤ int4Max) ↔ (c → n < int4Max) := by
  by_cases h : c
  · rw [if_pos h]
    exact ⟨fun hn _ => by omega, fun hn => .inr (hn h)⟩
  · simp [h]

lemma add_ite_one {c : Prop} [Decidable c] (n : Int) :
    n + (if c then 1 else 0) = if c then n + 1 else n := by
  split <;> simp

lemma markSnoozed_twin_iff (p : SnoozeParams) :
    markSnoozedReply registered f now s p = Twin.markSnoozed f now s p ↔
      (s.row.jobFence f → SnoozeAgrees registered f now s p) := by
  unfold markSnoozedReply markSnoozed Twin.markSnoozed
  dsimp only
  by_cases hf : s.row.jobFence f
  · rw [fenced_eq_false.mpr hf, if_neg Bool.false_ne_true]
    by_cases hl : s.row.late (now + max p.delay minDeferralInterval)
    · have hin := late_iff.mp hl
      rw [if_neg (fun h => hin h.2.2), if_pos hl]
      by_cases hp : s.row.cancelPhase = .none
      · rw [if_neg (fun h => h.2.1 hp), if_pos ⟨hf, hp, hl⟩, if_neg (not_not.mpr hp), add_ite_one]
        refine (fetchrow_recorded_eq_iff snoozedReply rfl snoozedReply_ne_raised).trans ⟨?_, ?_⟩
        · rintro ⟨hcount, -, hled⟩ -
          exact ⟨fun _ => hled, fun _ => counter_fits_iff.mp hcount.2.1, fun h => absurd hl h⟩
        · intro h
          exact ⟨⟨.inl rfl, counter_fits_iff.mpr ((h hf).blocked hp), .inl rfl⟩, rfl,
            (h hf).deadline hl⟩
      · rw [if_pos ⟨hf, hp, hl⟩, if_pos hp]
        refine (fetchrow_ledger_eq_iff snoozedReply rfl snoozedReply_ne_raised).trans ?_
        refine ⟨fun hled _ => ?_, fun h => (h hf).deadline hl⟩
        exact ⟨fun _ => hled, fun h => absurd h hp, fun h => absurd hl h⟩
    · have hin := not_not.mp (mt late_iff.mpr hl)
      rw [if_neg hl]
      by_cases hp : s.row.cancelPhase = .none
      · rw [if_pos ⟨hf, hp, hin⟩, if_neg (not_not.mpr hp)]
        simp only [add_ite_one, lt_add_iff_pos_right]
        refine (fetchrow_unrecorded_eq_iff snoozedReply rfl snoozedReply_ne_raised).trans ⟨?_, ?_⟩
        · rintro ⟨hcount, -⟩ -
          exact ⟨fun h => absurd h hl, fun _ => counter_fits_iff.mp hcount.2.1,
            fun _ _ => counter_fits_iff.mp hcount.1⟩
        · intro h
          refine ⟨⟨counter_fits_iff.mpr ((h hf).counted hl hp),
            counter_fits_iff.mpr ((h hf).blocked hp), .inl rfl⟩, ?_⟩
          rw [handBack_eq]
          cases hm : p.metadataUpdate with
          | none =>
            rw [Option.getD_none, Doc.merge_nil]
            rfl
          | some u => rfl
      · rw [if_neg (fun h => hp h.2.1), if_neg (fun h => hl h.2.2), if_neg (fun h => hp h.2.1),
          if_pos hp]
        exact iff_of_true rfl fun _ => ⟨fun h => absurd h hl, fun h => absurd h hp,
          fun _ h => absurd h hp⟩
  · rw [Twin.fenced_eq_true.mpr hf, if_pos rfl]
    simp [Store.fetchrow, hf]

lemma released_reply (j : Row) (hold : Stamp) (p : Progress) :
    (if 0 < hold then Reply.scheduled else .pending) = interruptedReply
      { branch := .released
        row := { j.handBack now hold p with interruptCount := j.interruptCount + 1 }
        attempt := none } := by
  by_cases h : 0 < hold <;> simp [interruptedReply, handBack, h]

lemma markInterrupted_twin_iff (hold : Stamp) (p : Progress) :
    markInterruptedReply registered f now s hold p = Twin.markInterrupted f now s hold p ↔
      (s.row.jobFence f → s.row.cancelPhase = .none →
        InterruptAgrees registered f now s hold) := by
  unfold markInterruptedReply markInterrupted Twin.markInterrupted
  dsimp only
  rw [← effectiveHold]
  by_cases hf : s.row.jobFence f
  · rw [fenced_eq_false.mpr hf]
    by_cases hp : s.row.cancelPhase = .none
    · rw [if_neg (not_or.mpr ⟨Bool.false_ne_true, not_not.mpr hp⟩)]
      by_cases hl : s.row.late (now + effectiveHold hold)
      · have hin := late_iff.mp hl
        rw [if_neg (fun h => hin h.2.2), if_pos ⟨hf, hp, hl⟩, if_pos hl]
        refine (fetchrow_ledger_eq_iff interruptedReply rfl interruptedReply_ne_raised).trans ?_
        refine ⟨fun hled _ _ => ?_, fun h => (h hf hp).deadline hl⟩
        exact ⟨fun _ => hled, fun h => absurd hl h⟩
      · have hin := not_not.mp (mt late_iff.mpr hl)
        rw [if_pos ⟨hf, hp, hin⟩, if_neg hl, released_reply now s.row _ p]
        refine (fetchrow_unrecorded_eq_iff interruptedReply rfl interruptedReply_ne_raised).trans
          ⟨?_, ?_⟩
        · rintro ⟨hcount, -⟩ - -
          refine ⟨fun h => absurd h hl, fun _ => ?_⟩
          have hstep : s.row.interruptCount + 1 = s.row.interruptCount ∨
            s.row.interruptCount + 1 ≤ int4Max := hcount.2.2
          omega
        · intro h
          exact ⟨⟨.inl rfl, .inl rfl, .inr ((h hf hp).counted hl)⟩, by rw [handBack_eq]⟩
    · rw [if_neg (fun h => hp h.2.1), if_neg (fun h => hp h.2.1), if_pos (Or.inr hp)]
      simp [Store.fetchrow, hp]
  · rw [if_neg (fun h => hf h.1), if_neg (fun h => hf h.1),
      if_pos (Or.inl (Twin.fenced_eq_true.mpr hf))]
    simp [Store.fetchrow, hf]

/-- `_mark_snoozed` and `_mark_interrupted` agree with the statements on just these inputs. -/
theorem snooze_and_interrupt_twin_iff (p : SnoozeParams) (hold : Stamp) (progress : Progress) :
    (markSnoozedReply registered f now s p = Twin.markSnoozed f now s p ↔
      (s.row.jobFence f → SnoozeAgrees registered f now s p)) ∧
    (markInterruptedReply registered f now s hold progress =
        Twin.markInterrupted f now s hold progress ↔
      (s.row.jobFence f → s.row.cancelPhase = .none →
        InterruptAgrees registered f now s hold)) :=
  ⟨markSnoozed_twin_iff registered f now s p,
    markInterrupted_twin_iff registered f now s hold progress⟩

theorem snoozed_late_after_1001_ms : markSnoozedReply (fun _ => true) ⟨1, some 1, some 1⟩ 1001000
        ⟨{ claimedRow with scheduleToClose := some 1500000 }, []⟩
        ⟨5000000, none, .snoozed, {}⟩ ≠
      Twin.markSnoozed ⟨1, some 1, some 1⟩ 1001000
        ⟨{ claimedRow with scheduleToClose := some 1500000 }, []⟩
        ⟨5000000, none, .snoozed, {}⟩ := by
  decide +kernel

end

end TaskQ.Jobs
