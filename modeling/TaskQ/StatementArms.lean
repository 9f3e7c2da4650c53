import TaskQ.Terminal

namespace TaskQ.Jobs

inductive ArmName where
  | retried | snoozed | released | deadlineCancelled | maxAttemptsFailed | deadlineFailed
  deriving DecidableEq

/-- One arm: its `NOT EXISTS` terms, the rest of its `WHERE`, and what it writes. -/
structure GuardedArm where
  name : ArmName
  notExists : List ArmName
  guard : Stamp → Bool
  write : Stamp → Written

def GuardedArm.updates (a : GuardedArm) (done : List ArmName) (read : Stamp) : Bool :=
  a.guard read && !a.notExists.any (done.contains ·)

/-- The arms in the order of the `UNION ALL`, with successive readings of the clock. -/
def runArms (clock : Nat → Stamp) : List ArmName → List GuardedArm → List Written
  | _, [] => []
  | done, a :: arms =>
    if a.updates done (clock 0) then
      a.write (clock 1) :: runArms (fun n => clock (n + 2)) (a.name :: done) arms
    else runArms (fun n => clock (n + 2)) done arms

def Chained : List ArmName → List GuardedArm → Prop
  | _, [] => True
  | before, a :: arms => before ⊆ a.notExists ∧ Chained (a.name :: before) arms

def firstArm (clock : Nat → Stamp) : List GuardedArm → Option Written
  | [] => none
  | a :: arms =>
    if a.guard (clock 0) then some (a.write (clock 1)) else firstArm (fun n => clock (n + 2)) arms

section
variable {clock : Nat → Stamp} {arms : List GuardedArm}

lemma runArms_eq_nil (h : Chained before arms) (hd : done ∈ before) (hin : done ∈ l) :
    runArms clock l arms = [] := by
  induction arms generalizing clock before with
  | nil => rfl
  | cons a arms ih =>
    obtain ⟨hbef, hrest⟩ := h
    have hex := List.any_eq_true.mpr ⟨done, hbef hd, List.contains_iff_mem.mpr hin⟩
    rw [runArms, GuardedArm.updates, hex, Bool.not_true, Bool.and_false, if_neg Bool.false_ne_true]
    exact ih hrest (List.mem_cons_of_mem _ hd)

lemma runArms_eq_firstArm (h : Chained before arms) :
    runArms clock [] arms = (firstArm clock arms).toList := by
  induction arms generalizing clock before with
  | nil => rfl
  | cons a arms ih =>
    obtain ⟨_, hrest⟩ := h
    have hup : a.updates [] (clock 0) = a.guard (clock 0) := by simp [GuardedArm.updates]
    rw [runArms, firstArm, hup]
    split
    · have hnil : runArms (fun n => clock (n + 2)) [a.name] arms = [] :=
        runArms_eq_nil hrest List.mem_cons_self (List.mem_singleton_self a.name)
      rw [hnil]
      rfl
    · exact ih hrest

end

section
variable (f : Fence) (j : Row)

/-- An arm that returns the row to the pool after `delay`. -/
def returnArm (name : ArmName) (delay : Stamp) (write : Stamp → Written) : GuardedArm where
  name := name
  notExists := []
  guard read := j.jobFence f ∧ j.cancelPhase = .none ∧ j.inTime (read + delay)
  write := write

def deadlineCancelledArm (delay : Stamp) (p : Progress) : GuardedArm where
  name := .deadlineCancelled
  notExists := [.snoozed]
  guard read := j.jobFence f ∧ j.cancelPhase ≠ .none ∧ j.late (read + delay)
  write read := deadlineCancelled read j p

def deadlineFailedArm (notExists : List ArmName) (delay : Stamp) (write : Stamp → Written) :
    GuardedArm where
  name := .deadlineFailed
  notExists := notExists
  guard read := j.jobFence f ∧ j.cancelPhase = .none ∧ j.late (read + delay)
  write := write

def markRetryArms (delay : Stamp) (e : ErrorInfo) (p : Progress) : List GuardedArm :=
  let delay := max delay minDeferralInterval
  [returnArm f j .retried delay fun read =>
      { branch := .retried
        row := { j.handBack read delay p with
          errorClass := some e.errorClass, errorMessage := some e.errorMessage
          errorTraceback := e.errorTraceback }
        attempt := some
          { outcome := .failed
            errorClass := some e.errorClass, errorMessage := some e.errorMessage
            errorTraceback := e.errorTraceback } },
    deadlineFailedArm f j [.retried] delay fun read =>
      deadlineFailed read j deadlineRetryExceededMessage p]

def markSnoozedArms (p : SnoozeParams) : List GuardedArm :=
  let delay := max p.delay minDeferralInterval
  let blocked := if p.outcome.denied then j.rateLimitBlockedCount + 1 else j.rateLimitBlockedCount
  [returnArm f j .snoozed delay fun read =>
      { branch := .snoozed
        row := { j.handBack read delay p.progress with
          attempt := j.attemptRefund
          snoozeCount := if p.outcome = .snoozed then j.snoozeCount + 1 else j.snoozeCount
          rateLimitBlockedCount := blocked
          metadata := j.metadata.merge (p.metadataUpdate.getD []) }
        attempt := none },
    deadlineCancelledArm f j delay p.progress,
    deadlineFailedArm f j [.deadlineCancelled, .snoozed] delay fun read =>
      let w := deadlineFailed read j deadlineExceededMessage p.progress
      { w with branch := .failed, row := { w.row with rateLimitBlockedCount := blocked } }]

def markRetryAfterConsumeTrueArms (delay : Stamp) (p : Progress) : List GuardedArm :=
  [{ name := .snoozed
     notExists := []
     guard read := j.jobFence f ∧ j.cancelPhase = .none ∧ j.inTime (read + delay) ∧ j.hasBudget
     write read :=
      { branch := .snoozed
        row := j.handBack read delay p
        attempt := some { outcome := .snoozed, errorClass := some "RetryAfter" } } },
    deadlineCancelledArm f j delay p,
    { name := .maxAttemptsFailed
      notExists := [.deadlineCancelled, .snoozed]
      guard read := j.jobFence f ∧ j.retryKind ≠ .indefinite ∧ j.maxAttempts ≤ j.attempt ∧
        j.cancelPhase = .none ∧ j.inTime (read + delay)
      write read :=
        { branch := .maxAttemptsFailed
          row := j.failWith read errorClassMaxAttemptsExceeded budgetExhaustedMessage p
          attempt := some
            { outcome := .failed
              errorClass := some errorClassMaxAttemptsExceeded
              errorMessage := some budgetExhaustedMessage } } },
    deadlineFailedArm f j [.deadlineCancelled, .snoozed, .maxAttemptsFailed] delay fun read =>
      deadlineFailed read j deadlineExceededMessage p]

def markRetryAfterConsumeFalseArms (delay : Stamp) (p : Progress) : List GuardedArm :=
  let delay := max delay minDeferralInterval
  [returnArm f j .snoozed delay fun read =>
      { branch := .snoozed
        row := { j.handBack read delay p with
          attempt := j.attemptRefund, snoozeCount := j.snoozeCount + 1 }
        attempt := none },
    deadlineCancelledArm f j delay p,
    deadlineFailedArm f j [.deadlineCancelled, .snoozed] delay fun read =>
      deadlineFailed read j deadlineExceededMessage p]

def markInterruptedArms (hold : Stamp) (p : Progress) : List GuardedArm :=
  let hold := effectiveHold hold
  [returnArm f j .released hold fun read =>
      { branch := .released
        row := { j.handBack read hold p with interruptCount := j.interruptCount + 1 }
        attempt := none },
    deadlineFailedArm f j [.released] hold fun read =>
      deadlineFailed read j deadlineExceededMessage p]

end

inductive ArmStatement where
  | markRetry (delay : Stamp) (e : ErrorInfo) (p : Progress)
  | markSnoozed (p : SnoozeParams)
  | markRetryAfterConsumeTrue (delay : Stamp) (p : Progress)
  | markRetryAfterConsumeFalse (delay : Stamp) (p : Progress)
  | markInterrupted (hold : Stamp) (p : Progress)

def ArmStatement.arms (f : Fence) (j : Row) : ArmStatement → List GuardedArm
  | .markRetry delay e p => markRetryArms f j delay e p
  | .markSnoozed p => markSnoozedArms f j p
  | .markRetryAfterConsumeTrue delay p => markRetryAfterConsumeTrueArms f j delay p
  | .markRetryAfterConsumeFalse delay p => markRetryAfterConsumeFalseArms f j delay p
  | .markInterrupted hold p => markInterruptedArms f j hold p

def ArmStatement.written (f : Fence) (now : Stamp) (j : Row) : ArmStatement → Option Written
  | .markRetry delay e p => Jobs.markRetry f now j delay e p
  | .markSnoozed p => Jobs.markSnoozed f now j p
  | .markRetryAfterConsumeTrue delay p => Jobs.markRetryAfterConsumeTrue f now j delay p
  | .markRetryAfterConsumeFalse delay p => Jobs.markRetryAfterConsumeFalse f now j delay p
  | .markInterrupted hold p => Jobs.markInterrupted f now j hold p

def ArmStatement.run (f : Fence) (j : Row) (clock : Nat → Stamp) (stmt : ArmStatement) :
    List Written :=
  runArms clock [] (stmt.arms f j)

section
variable {f : Fence} {j : Row} {clock : Nat → Stamp}

lemma ArmStatement.chained (stmt : ArmStatement) : Chained [] (stmt.arms f j) := by
  cases stmt <;> simp [ArmStatement.arms, Chained, markRetryArms, markSnoozedArms,
    markRetryAfterConsumeTrueArms, markRetryAfterConsumeFalseArms, markInterruptedArms, returnArm,
    deadlineCancelledArm, deadlineFailedArm]

theorem ArmStatement.run_const (stmt : ArmStatement) (now : Stamp) :
    stmt.run f j (fun _ => now) = (stmt.written f now j).toList := by
  rw [ArmStatement.run, runArms_eq_firstArm stmt.chained]
  congr 1
  cases stmt with
  | markRetry =>
    simp [ArmStatement.arms, markRetryArms, firstArm, returnArm, deadlineFailedArm,
      ArmStatement.written, Jobs.markRetry]
  | markSnoozed =>
    simp [ArmStatement.arms, markSnoozedArms, firstArm, returnArm, deadlineFailedArm,
      deadlineCancelledArm, ArmStatement.written, Jobs.markSnoozed]
  | markRetryAfterConsumeTrue =>
    simp [ArmStatement.arms, markRetryAfterConsumeTrueArms, firstArm, deadlineFailedArm,
      deadlineCancelledArm, ArmStatement.written, Jobs.markRetryAfterConsumeTrue, and_comm]
  | markRetryAfterConsumeFalse =>
    simp [ArmStatement.arms, markRetryAfterConsumeFalseArms, firstArm, returnArm,
      deadlineFailedArm, deadlineCancelledArm, ArmStatement.written,
      Jobs.markRetryAfterConsumeFalse, and_comm]
  | markInterrupted =>
    simp [ArmStatement.arms, markInterruptedArms, firstArm, returnArm, deadlineFailedArm,
      ArmStatement.written, Jobs.markInterrupted]

lemma Row.late_of_not_inTime (h : ¬ j.inTime (t + delay)) (hle : t ≤ t') :
    j.late (t' + delay) := by
  obtain ⟨d, hd, hlt⟩ := Row.late_iff.mpr h
  exact ⟨d, hd, hlt.trans_le (Int.add_le_add_right hle delay)⟩

lemma firstArm_isSome {arms : List GuardedArm} {i : Nat} (hi : arms[i]? = some a)
    (hg : a.guard (clock (2 * i)) = true) : (firstArm clock arms).isSome := by
  induction i generalizing clock arms with
  | zero =>
    cases arms with
    | nil => cases hi
    | cons b arms =>
      cases hi
      rw [firstArm, if_pos hg]
      rfl
  | succ i ih =>
    cases arms with
    | nil => cases hi
    | cons b arms =>
      rw [firstArm]
      split
      · rfl
      · exact ih hi hg

lemma deadlineFailedArm_guard (hclock : ∀ m n, m ≤ n → clock m ≤ clock n) (hf : j.jobFence f)
    (hp : j.cancelPhase = .none) (hlate : ¬ j.inTime (clock m + delay)) (hle : m ≤ n) :
    (deadlineFailedArm f j l delay write).guard (clock n) = true :=
  decide_eq_true ⟨hf, hp, Row.late_of_not_inTime hlate (hclock m n hle)⟩

lemma returnArm_guard (hf : j.jobFence f) (hp : j.cancelPhase = .none)
    (ht : j.inTime (t + delay)) : (returnArm f j name delay write).guard t = true :=
  decide_eq_true ⟨hf, hp, ht⟩

lemma ArmStatement.firstArm_isSome (stmt : ArmStatement)
    (hclock : ∀ m n, m ≤ n → clock m ≤ clock n) (hf : j.jobFence f) (hp : j.cancelPhase = .none) :
    (firstArm clock (stmt.arms f j)).isSome := by
  cases stmt with
  | markRetry delay e p =>
    by_cases ht : j.inTime (clock 0 + max delay minDeferralInterval)
    · exact Jobs.firstArm_isSome (i := 0) rfl (returnArm_guard hf hp ht)
    · exact Jobs.firstArm_isSome (i := 1) rfl (deadlineFailedArm_guard hclock hf hp ht (by simp))
  | markSnoozed p =>
    by_cases ht : j.inTime (clock 0 + max p.delay minDeferralInterval)
    · exact Jobs.firstArm_isSome (i := 0) rfl (returnArm_guard hf hp ht)
    · exact Jobs.firstArm_isSome (i := 2) rfl (deadlineFailedArm_guard hclock hf hp ht (by simp))
  | markRetryAfterConsumeTrue delay p =>
    by_cases hb : j.hasBudget
    · by_cases ht : j.inTime (clock 0 + delay)
      · exact Jobs.firstArm_isSome (i := 0) rfl (decide_eq_true ⟨hf, hp, ht, hb⟩)
      · exact Jobs.firstArm_isSome (i := 3) rfl (deadlineFailedArm_guard hclock hf hp ht (by simp))
    · -- the third arm is the one that reads the clock first for a row without budget
      obtain ⟨hkind, hspent⟩ := not_or.mp hb
      by_cases ht : j.inTime (clock 4 + delay)
      · exact Jobs.firstArm_isSome (i := 2) rfl
          (decide_eq_true ⟨hf, hkind, Int.not_lt.mp hspent, hp, ht⟩)
      · exact Jobs.firstArm_isSome (i := 3) rfl (deadlineFailedArm_guard hclock hf hp ht (by simp))
  | markRetryAfterConsumeFalse delay p =>
    by_cases ht : j.inTime (clock 0 + max delay minDeferralInterval)
    · exact Jobs.firstArm_isSome (i := 0) rfl (returnArm_guard hf hp ht)
    · exact Jobs.firstArm_isSome (i := 2) rfl (deadlineFailedArm_guard hclock hf hp ht (by simp))
  | markInterrupted hold p =>
    by_cases ht : j.inTime (clock 0 + effectiveHold hold)
    · exact Jobs.firstArm_isSome (i := 0) rfl (returnArm_guard hf hp ht)
    · exact Jobs.firstArm_isSome (i := 1) rfl (deadlineFailedArm_guard hclock hf hp ht (by simp))

end

def closingRow : Row :=
  { id := 1, actor := "a", status := .running, attempt := 1, claimEpoch := 2,
    lockedByWorker := some 7, scheduleToClose := some 1000003 }

end TaskQ.Jobs
