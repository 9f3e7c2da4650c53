import TaskQ.Terminal
import TaskQ.Binary64

namespace TaskQ.Jobs.Twin

/-- `int(d.total_seconds() * 1000)` of the in-memory backend, in doubles. -/
def pyDurationMs (d : Stamp) : Int :=
  Binary64.toInt (Binary64.nearest (Binary64.nearest (d / 10 ^ 6) * 1000))

def fenced (row : Row) (f : Fence) : Bool :=
  row.status != .running || row.lockedByWorker != some f.worker || some row.attempt != f.attempt ||
    some row.claimEpoch != f.claimEpoch

def mergeProgress (current : Doc) : Option Doc → Doc
  | none => current
  | some update => current.merge update

section
variable (f : Fence) (now : Stamp) (s : Store)

/-- `_append_attempt`, on the row the method has read. -/
def appendAttempt (v : AttemptValues) : List Attempt :=
  if s.attempts.any (·.attempt == s.row.attempt) then s.attempts
  else s.attempts ++
    [{ attempt := s.row.attempt
       startedAt := s.row.startedAt.getD now, finishedAt := now, outcome := v.outcome
       errorClass := v.errorClass, errorMessage := v.errorMessage
       errorTraceback := v.errorTraceback
       durationMs := s.row.startedAt.map fun started => pyDurationMs (now - started)
       workerId := some f.worker, metadata := [], dueAt := some s.row.scheduledAt }]

def markFailedOrRetry (e : ErrorInfo) (retryDelay : Option Stamp) (p : Progress) : Reply × Store :=
  let row := s.row
  if row.status ≠ .running then (.mismatch row.lockedByWorker, s)
  else if row.lockedByWorker ≠ some f.worker ∨ some row.attempt ≠ f.attempt ∨
      some row.claimEpoch ≠ f.claimEpoch then
    (.mismatch row.lockedByWorker, s)
  else
    match retryDelay with
    | some delay =>
      if row.cancelPhase ≠ .none then (.mismatch row.lockedByWorker, s)
      else
        let effectiveDelay := max delay minDeferralInterval
        let newScheduled := now + effectiveDelay
        if row.late newScheduled then
          (.row,
            { row := { row with
                status := .failed, finishedAt := some now, lockedByWorker := none
                lockExpiresAt := none, lastHeartbeatAt := none
                errorClass := some "DeadlineExceeded"
                errorMessage := some deadlineRetryExceededMessage
                progressSeq := max row.progressSeq p.seq
                progressState := mergeProgress row.progressState p.state }
              attempts := appendAttempt f now s
                { outcome := .failed
                  errorClass := some "DeadlineExceeded"
                  errorMessage := some deadlineRetryExceededMessage } })
        else
          (.row,
            { row := { row with
                status := if 0 < effectiveDelay then .scheduled else .pending
                scheduledAt := newScheduled, finishedAt := none, lockedByWorker := none
                lockExpiresAt := none, lastHeartbeatAt := none, errorClass := some e.errorClass
                errorMessage := some e.errorMessage, errorTraceback := e.errorTraceback
                cancelPhase := .none, cancelRequestedAt := none, assignmentRouted := true
                progressSeq := max row.progressSeq p.seq
                progressState := mergeProgress row.progressState p.state }
              attempts := appendAttempt f now s
                { outcome := .failed
                  errorClass := some e.errorClass, errorMessage := some e.errorMessage
                  errorTraceback := e.errorTraceback } })
    | none =>
      (.row,
        { row := { row with
            status := .failed, finishedAt := some now, lockedByWorker := none, lockExpiresAt := none
            errorClass := some e.errorClass, errorMessage := some e.errorMessage
            errorTraceback := e.errorTraceback, progressSeq := max row.progressSeq p.seq
            progressState := mergeProgress row.progressState p.state }
          attempts := appendAttempt f now s
            { outcome := .failed
              errorClass := some e.errorClass, errorMessage := some e.errorMessage
              errorTraceback := e.errorTraceback } })

/-- The cancelled arm that `_mark_snoozed` and `_mark_retry_after` take past the deadline. -/
def cancelAtDeadline (p : Progress) : Store :=
  let row := s.row
  let origin := if row.cancelPhase = .forced then cancelOriginForced else cancelOriginCooperative
  { row := { row with
      status := .cancelled, finishedAt := some now, errorClass := some origin
      lockedByWorker := none, lockExpiresAt := none, lastHeartbeatAt := none
      progressSeq := max row.progressSeq p.seq
      progressState := mergeProgress row.progressState p.state }
    attempts := appendAttempt f now s { outcome := .cancelled, errorClass := some origin } }

/-- A failed arm of `_mark_snoozed`, `_mark_retry_after` and `_mark_interrupted`. -/
def fail (errorClass message : String) (p : Progress) : Store :=
  let row := s.row
  { row := { row with
      status := .failed, finishedAt := some now, errorClass := some errorClass
      errorMessage := some message, errorTraceback := none, lockedByWorker := none
      lockExpiresAt := none, lastHeartbeatAt := none, progressSeq := max row.progressSeq p.seq
      progressState := mergeProgress row.progressState p.state }
    attempts := appendAttempt f now s
      { outcome := .failed, errorClass := some errorClass, errorMessage := some message } }

def markSnoozed (p : SnoozeParams) : Reply × Store :=
  let row := s.row
  if fenced row f then (.noop, s)
  else
    let newScheduledAt := now + max p.delay minDeferralInterval
    let blocked := row.rateLimitBlockedCount + if p.outcome.denied then 1 else 0
    if row.late newScheduledAt then
      if row.cancelPhase ≠ .none then (.noop, cancelAtDeadline f now s p.progress)
      else
        let failed := fail f now s "DeadlineExceeded" deadlineExceededMessage p.progress
        (.failed, { failed with row := { failed.row with rateLimitBlockedCount := blocked } })
    else if row.cancelPhase ≠ .none then (.noop, s)
    else
      (.scheduled,
        { s with row := { row with
            status := if now < newScheduledAt then .scheduled else .pending
            scheduledAt := newScheduledAt, finishedAt := none, lockedByWorker := none
            lockExpiresAt := none, lastHeartbeatAt := none, attempt := max (row.attempt - 1) 0
            snoozeCount := row.snoozeCount + if p.outcome = .snoozed then 1 else 0
            rateLimitBlockedCount := blocked
            metadata := match p.metadataUpdate with
              | none => row.metadata
              | some update => row.metadata.merge update
            cancelPhase := .none, cancelRequestedAt := none, assignmentRouted := true
            progressSeq := max row.progressSeq p.progress.seq
            progressState := mergeProgress row.progressState p.progress.state } })

def markRetryAfter (consumeBudget : Bool) (delay : Stamp) (p : Progress) : Reply × Store :=
  let row := s.row
  if fenced row f then (.noop, s)
  else
    let effectiveDelay := if consumeBudget then delay else max delay minDeferralInterval
    let newScheduledAt := now + effectiveDelay
    if row.late newScheduledAt then
      if row.cancelPhase ≠ .none then (.noop, cancelAtDeadline f now s p)
      else (.failedDeadlineExceeded, fail f now s "DeadlineExceeded" deadlineExceededMessage p)
    else if consumeBudget ∧ row.maxAttempts ≤ row.attempt ∧ row.retryKind ≠ .indefinite then
      (.failedMaxAttemptsExceeded, fail f now s "MaxAttemptsExceeded" budgetExhaustedMessage p)
    else if row.cancelPhase ≠ .none then (.noop, s)
    else
      (.scheduled,
        { row := { row with
            status := if now < newScheduledAt then .scheduled else .pending
            scheduledAt := newScheduledAt, finishedAt := none
            attempt := if consumeBudget then row.attempt else max (row.attempt - 1) 0
            snoozeCount := if consumeBudget then row.snoozeCount else row.snoozeCount + 1
            lockedByWorker := none, lockExpiresAt := none, lastHeartbeatAt := none
            cancelPhase := .none, cancelRequestedAt := none, assignmentRouted := true
            progressSeq := max row.progressSeq p.seq
            progressState := mergeProgress row.progressState p.state }
          attempts :=
            if consumeBudget then
              appendAttempt f now s { outcome := .snoozed, errorClass := some "RetryAfter" }
            else s.attempts })

def markInterrupted (hold : Stamp) (p : Progress) : Reply × Store :=
  let row := s.row
  if fenced row f ∨ row.cancelPhase ≠ .none then (.noop, s)
  else
    let effectiveHold := if 0 < hold then max hold minDeferralInterval else 0
    let newScheduledAt := now + effectiveHold
    if row.late newScheduledAt then
      (.failedDeadlineExceeded, fail f now s "DeadlineExceeded" deadlineExceededMessage p)
    else
      (if 0 < effectiveHold then .scheduled else .pending,
        { s with row := { row with
            status := if 0 < effectiveHold then .scheduled else .pending
            scheduledAt := newScheduledAt, finishedAt := none, lockedByWorker := none
            lockExpiresAt := none, lastHeartbeatAt := none, cancelPhase := .none
            cancelRequestedAt := none, interruptCount := row.interruptCount + 1
            assignmentRouted := true, progressSeq := max row.progressSeq p.seq
            progressState := mergeProgress row.progressState p.state } })

end

end TaskQ.Jobs.Twin
