import TaskQ.Jobs

namespace TaskQ.Jobs

/-- `outcome_branch`; the statements with a single arm have none and are named here by theirs. -/
inductive Branch where
  | succeeded | failed | cancelled | retried | snoozed | released | maxAttemptsFailed
  | deadlineFailed
  deriving DecidableEq

structure AttemptValues where
  outcome : AttemptOutcome
  errorClass : Option String := none
  errorMessage : Option String := none
  errorTraceback : Option String := none

structure Written where
  branch : Branch
  row : Row
  attempt : Option AttemptValues

/-- `result_ttl` is the actor's, from `actor_config`; `fallbackTtl` the statement's own. -/
structure SuccessParams where
  result : Option String
  resultSizeBytes : Option Int
  (resultTtl fallbackTtl : Option Stamp)
  progress : Progress

inductive SnoozeOutcome where
  | snoozed | reservationDenied | rateLimitDenied
  deriving DecidableEq

def SnoozeOutcome.denied : SnoozeOutcome → Bool
  | .snoozed => false
  | .reservationDenied | .rateLimitDenied => true

structure SnoozeParams where
  delay : Stamp
  metadataUpdate : Option Doc
  outcome : SnoozeOutcome
  progress : Progress

section
variable (f : Fence) (now : Stamp) (j : Row)

def Row.handBack (delay : Stamp) (p : Progress) : Row :=
  { (j.leaseClear.progressMerge p) with
    status := if 0 < delay then .scheduled else .pending, scheduledAt := now + delay
    finishedAt := none, cancelPhase := .none, cancelRequestedAt := none, assignmentRouted := true }

/-- A `deadline_failed` or `max_attempts_failed` arm. -/
def Row.failWith (errorClass message : String) (p : Progress) : Row :=
  { (j.leaseClear.progressMerge p) with
    status := .failed, finishedAt := some now, errorClass := some errorClass
    errorMessage := some message, errorTraceback := none }

def cancelOrigin (j : Row) : String :=
  if j.cancelPhase = .forced then cancelOriginForced else cancelOriginCooperative

/-- A `deadline_cancelled` arm. -/
def Row.cancelCarried (p : Progress) : Row :=
  { (j.leaseClear.progressMerge p) with
    status := .cancelled, finishedAt := some now, errorClass := some (cancelOrigin j) }

def deadlineFailed (message : String) (p : Progress) : Written where
  branch := .deadlineFailed
  row := j.failWith now errorClassDeadlineExceeded message p
  attempt := some
    { outcome := .failed
      errorClass := some errorClassDeadlineExceeded, errorMessage := some message }

def deadlineCancelled (p : Progress) : Written where
  branch := .cancelled
  row := j.cancelCarried now p
  attempt := some { outcome := .cancelled, errorClass := some (cancelOrigin j) }

def markSucceeded (p : SuccessParams) : Option Written :=
  if j.jobFence f then
    some
      { branch := .succeeded
        row := { j.progressMerge p.progress with
          status := .succeeded, finishedAt := some now, lockedByWorker := none
          lockExpiresAt := none, result := p.result, resultSizeBytes := p.resultSizeBytes
          resultExpiresAt :=
            ((p.resultTtl.map (now + ·)).or (p.fallbackTtl.map (now + ·))).or j.resultExpiresAt }
        attempt := some { outcome := .succeeded } }
  else none

def markFailed (e : ErrorInfo) (p : Progress) : Option Written :=
  if j.jobFence f then
    some
      { branch := .failed
        row := { j.progressMerge p with
          status := .failed, finishedAt := some now, lockedByWorker := none, lockExpiresAt := none
          errorClass := some e.errorClass, errorMessage := some e.errorMessage
          errorTraceback := e.errorTraceback }
        attempt := some
          { outcome := .failed
            errorClass := some e.errorClass, errorMessage := some e.errorMessage
            errorTraceback := e.errorTraceback } }
  else none

def markCancelled (p : Progress) : Option Written :=
  if j.jobFence f then
    let origin := if j.cancelPhase = .forced then cancelOriginForced
      else if j.cancelRequestedAt.isSome then cancelOriginCooperative
      else cancelOriginUnrequested
    some
      { branch := .cancelled
        row := { j.progressMerge p with
          status := .cancelled, finishedAt := some now, lockedByWorker := none
          lockExpiresAt := none, errorClass := some origin }
        attempt := some { outcome := .cancelled, errorClass := some origin } }
  else none

def markRetry (delay : Stamp) (e : ErrorInfo) (p : Progress) : Option Written :=
  let delay := max delay minDeferralInterval
  if j.jobFence f ∧ j.cancelPhase = .none ∧ j.inTime (now + delay) then
    some
      { branch := .retried
        row := { j.handBack now delay p with
          errorClass := some e.errorClass, errorMessage := some e.errorMessage
          errorTraceback := e.errorTraceback }
        attempt := some
          { outcome := .failed
            errorClass := some e.errorClass, errorMessage := some e.errorMessage
            errorTraceback := e.errorTraceback } }
  else if j.jobFence f ∧ j.cancelPhase = .none ∧ j.late (now + delay) then
    some (deadlineFailed now j deadlineRetryExceededMessage p)
  else none

def markSnoozed (p : SnoozeParams) : Option Written :=
  let delay := max p.delay minDeferralInterval
  let blocked := if p.outcome.denied then j.rateLimitBlockedCount + 1 else j.rateLimitBlockedCount
  if j.jobFence f ∧ j.cancelPhase = .none ∧ j.inTime (now + delay) then
    some
      { branch := .snoozed
        row := { j.handBack now delay p.progress with
          attempt := j.attemptRefund
          snoozeCount := if p.outcome = .snoozed then j.snoozeCount + 1 else j.snoozeCount
          rateLimitBlockedCount := blocked
          metadata := j.metadata.merge (p.metadataUpdate.getD []) }
        attempt := none }
  else if j.jobFence f ∧ j.cancelPhase ≠ .none ∧ j.late (now + delay) then
    some (deadlineCancelled now j p.progress)
  else if j.jobFence f ∧ j.cancelPhase = .none ∧ j.late (now + delay) then
    let w := deadlineFailed now j deadlineExceededMessage p.progress
    some { w with branch := .failed, row := { w.row with rateLimitBlockedCount := blocked } }
  else none

/-- `retry_kind = 'indefinite' OR attempt < max_attempts`. -/
def Row.hasBudget : Prop := j.retryKind = .indefinite ∨ j.attempt < j.maxAttempts

instance : Decidable j.hasBudget := inferInstanceAs (Decidable (_ ∨ _))

def markRetryAfterConsumeTrue (delay : Stamp) (p : Progress) : Option Written :=
  if j.jobFence f ∧ j.cancelPhase = .none ∧ j.inTime (now + delay) ∧ j.hasBudget then
    some
      { branch := .snoozed
        row := j.handBack now delay p
        attempt := some { outcome := .snoozed, errorClass := some "RetryAfter" } }
  else if j.jobFence f ∧ j.cancelPhase ≠ .none ∧ j.late (now + delay) then
    some (deadlineCancelled now j p)
  else if j.jobFence f ∧ j.retryKind ≠ .indefinite ∧ j.maxAttempts ≤ j.attempt ∧
      j.cancelPhase = .none ∧ j.inTime (now + delay) then
    some
      { branch := .maxAttemptsFailed
        row := j.failWith now errorClassMaxAttemptsExceeded budgetExhaustedMessage p
        attempt := some
          { outcome := .failed
            errorClass := some errorClassMaxAttemptsExceeded
            errorMessage := some budgetExhaustedMessage } }
  else if j.jobFence f ∧ j.late (now + delay) ∧ j.cancelPhase = .none then
    some (deadlineFailed now j deadlineExceededMessage p)
  else none

def markRetryAfterConsumeFalse (delay : Stamp) (p : Progress) : Option Written :=
  let delay := max delay minDeferralInterval
  if j.jobFence f ∧ j.cancelPhase = .none ∧ j.inTime (now + delay) then
    some
      { branch := .snoozed
        row := { j.handBack now delay p with
          attempt := j.attemptRefund, snoozeCount := j.snoozeCount + 1 }
        attempt := none }
  else if j.jobFence f ∧ j.cancelPhase ≠ .none ∧ j.late (now + delay) then
    some (deadlineCancelled now j p)
  else if j.jobFence f ∧ j.late (now + delay) ∧ j.cancelPhase = .none then
    some (deadlineFailed now j deadlineExceededMessage p)
  else none

def effectiveHold (hold : Stamp) : Stamp := if 0 < hold then max hold minDeferralInterval else 0

def markInterrupted (hold : Stamp) (p : Progress) : Option Written :=
  let hold := effectiveHold hold
  if j.jobFence f ∧ j.cancelPhase = .none ∧ j.inTime (now + hold) then
    some
      { branch := .released
        row := { j.handBack now hold p with interruptCount := j.interruptCount + 1 }
        attempt := none }
  else if j.jobFence f ∧ j.cancelPhase = .none ∧ j.late (now + hold) then
    some (deadlineFailed now j deadlineExceededMessage p)
  else none

end

def retryAfterArm (f : Fence) (now : Stamp) (j : Row) (consumeBudget : Bool) (delay : Stamp)
    (p : Progress) : Option Written :=
  if consumeBudget then markRetryAfterConsumeTrue f now j delay p
  else markRetryAfterConsumeFalse f now j delay p

inductive OutcomeWrite where
  | succeeded (p : SuccessParams)
  | failed (e : ErrorInfo) (p : Progress)
  | cancelled (p : Progress)
  | retry (delay : Stamp) (e : ErrorInfo) (p : Progress)
  | snoozed (p : SnoozeParams)
  | retryAfter (consumeBudget : Bool) (delay : Stamp) (p : Progress)
  | interrupted (hold : Stamp) (p : Progress)

def OutcomeWrite.written (f : Fence) (now : Stamp) (j : Row) : OutcomeWrite → Option Written
  | .succeeded p => markSucceeded f now j p
  | .failed e p => markFailed f now j e p
  | .cancelled p => markCancelled f now j p
  | .retry delay e p => markRetry f now j delay e p
  | .snoozed p => markSnoozed f now j p
  | .retryAfter consumeBudget delay p => retryAfterArm f now j consumeBudget delay p
  | .interrupted hold p => markInterrupted f now j hold p

structure Store where
  row : Row
  attempts : List Attempt
  deriving DecidableEq

/-- `ON CONFLICT (job_id, attempt) DO NOTHING`. -/
def insertAttempt (l : List Attempt) (a : Attempt) : List Attempt :=
  if l.any (·.attempt == a.attempt) then l else l ++ [a]

/-- `trunc(EXTRACT(EPOCH FROM d) * 1000)`; the epoch is an exact `numeric`. -/
def durationMs (d : Stamp) : Int := d.tdiv 1000

def fitsInt4 (n : Int) : Prop := -int4Max - 1 ≤ n ∧ n ≤ int4Max

instance : Decidable (fitsInt4 n) := inferInstanceAs (Decidable (_ ∧ _))

/-- The attempt record of a write on `j`, where the server takes it; `holder` is its worker. -/
def attemptRow (holder : Option WorkerId) (now : Stamp) (j : Row) (v : AttemptValues) :
    Option Attempt := do
  let started ← j.startedAt
  if fitsInt4 (durationMs (now - started)) then
    some
      { attempt := j.attempt
        startedAt := started, finishedAt := now, outcome := v.outcome, errorClass := v.errorClass
        errorMessage := v.errorMessage, errorTraceback := v.errorTraceback
        durationMs := some (durationMs (now - started)), workerId := holder, metadata := []
        dueAt := some j.scheduledAt }
  else none

/-- No counter the statement raises leaves `int`. -/
def Row.countersFit (j j' : Row) : Prop :=
  (j'.snoozeCount = j.snoozeCount ∨ j'.snoozeCount ≤ int4Max) ∧
    (j'.rateLimitBlockedCount = j.rateLimitBlockedCount ∨ j'.rateLimitBlockedCount ≤ int4Max) ∧
    (j'.interruptCount = j.interruptCount ∨ j'.interruptCount ≤ int4Max)

instance : Decidable (Row.countersFit j j') := inferInstanceAs (Decidable (_ ∧ _ ∧ _))

/-- The writes of an arm; `none` when the server refuses one, and the statement with it. -/
def Store.write (holder : Option WorkerId) (now : Stamp) (s : Store) (w : Written) : Option Store :=
  if s.row.countersFit w.row then
    match w.attempt with
    | none => some { s with row := w.row }
    | some v => (attemptRow holder now s.row v).map fun a =>
        { row := w.row, attempts := insertAttempt s.attempts a }
  else none

/-- What a backend method's caller gets: the row, the ownership mismatch, or the server's error. -/
inductive Reply where
  | row | scheduled | pending | failed | failedDeadlineExceeded | failedMaxAttemptsExceeded | noop
  | mismatch (owner : Option WorkerId)
  | raised
  deriving DecidableEq

def holder (registered : WorkerId → Bool) (w : WorkerId) : Option WorkerId :=
  if registered w then some w else none

def Store.fetchrow (registered : WorkerId → Bool) (f : Fence) (now : Stamp) (s : Store)
    (arm : Option Written) (unmatched : Reply) (reply : Written → Reply) : Reply × Store :=
  match arm with
  | none => (unmatched, s)
  | some w =>
    match s.write (holder registered f.worker) now w with
    | none => (.raised, s)
    | some s' => (reply w, s')

section
variable (registered : WorkerId → Bool) (f : Fence) (now : Stamp) (s : Store)

/-- `_mark_failed_or_retry` of the server's backend; on no match it reads the row's owner. -/
def markFailedOrRetry (e : ErrorInfo) (retryDelay : Option Stamp) (p : Progress) : Reply × Store :=
  match retryDelay with
  | none => s.fetchrow registered f now (markFailed f now s.row e p)
      (.mismatch s.row.lockedByWorker) fun _ => .row
  | some delay => s.fetchrow registered f now (markRetry f now s.row delay e p)
      (.mismatch s.row.lockedByWorker) fun _ => .row

def snoozedReply (w : Written) : Reply :=
  match w.branch with
  | .snoozed => .scheduled
  | .failed => .failed
  | _ => .noop

def markSnoozedReply (p : SnoozeParams) : Reply × Store :=
  s.fetchrow registered f now (markSnoozed f now s.row p) .noop snoozedReply

def retryAfterReply (w : Written) : Reply :=
  match w.branch with
  | .snoozed => .scheduled
  | .maxAttemptsFailed => .failedMaxAttemptsExceeded
  | .deadlineFailed => .failedDeadlineExceeded
  | _ => .noop

def markRetryAfter (consumeBudget : Bool) (delay : Stamp) (p : Progress) : Reply × Store :=
  s.fetchrow registered f now (retryAfterArm f now s.row consumeBudget delay p) .noop
    retryAfterReply

def interruptedReply (w : Written) : Reply :=
  match w.branch with
  | .released => if w.row.status = .pending then .pending else .scheduled
  | .deadlineFailed => .failedDeadlineExceeded
  | _ => .noop

def markInterruptedReply (hold : Stamp) (p : Progress) : Reply × Store :=
  s.fetchrow registered f now (markInterrupted f now s.row hold p) .noop interruptedReply

end

end TaskQ.Jobs
