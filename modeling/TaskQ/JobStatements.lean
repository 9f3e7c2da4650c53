import TaskQ.Terminal

namespace TaskQ.Jobs

def errorClassWorkerCrashed : String := "WorkerCrashed"
def errorClassHeartbeatLost : String := "HeartbeatLost"
def errorClassActorDeregistered : String := "ActorDeregistered"
def errorClassBatchAborted : String := "BatchAbortedError"
def lockExpiredMessage : String := "lock expired before worker reported terminal state"
def heartbeatTimeoutMessage : String :=
  "heartbeat timeout passed before worker reported terminal state"
def isolateCrashedMessage : String :=
  "worker heartbeat connection lost before terminal state was reported"

/-- What the caller of `enqueue` or `enqueue_batch` gives; the deadline is relative or absolute. -/
structure NewJob where
  id : JobId
  actor : String
  queue : String := "default"
  identityKey : Option String := none
  fairnessKey : Option String := none
  priority : Int := 0
  maxAttempts : Int := 3
  retryKind : RetryKind := .transient
  scheduleToCloseIn : Option Stamp := none
  scheduleToClose : Option Stamp := none
  heartbeatTimeout : Option Stamp := none
  scheduledAt : Option Stamp := none
  metadata : Doc := []
  resultTtl : Option Stamp := none

/-- The row an enqueue `INSERT` makes; columns it does not name have their defaults. -/
def NewJob.row (n : NewJob) (now : Stamp) : Row where
  id := n.id
  actor := n.actor
  queue := n.queue
  identityKey := n.identityKey
  fairnessKey := n.fairnessKey
  status := if now < n.scheduledAt.getD now then .scheduled else .pending
  priority := n.priority
  maxAttempts := n.maxAttempts
  retryKind := n.retryKind
  scheduleToClose := (n.scheduleToCloseIn.map (now + ·)).or n.scheduleToClose
  heartbeatTimeout := n.heartbeatTimeout
  scheduledAt := n.scheduledAt.getD now
  metadata := n.metadata
  resultExpiresAt := n.resultTtl.map (now + ·)

section
variable (j : Row)

def Row.claim (worker : WorkerId) (now lease : Stamp) : Option Row :=
  if j.status = .pending ∧ j.depsPending = 0 then
    some { j with
      status := .running, startedAt := some now, finishedAt := none, lastHeartbeatAt := some now
      lockedByWorker := some worker, lockExpiresAt := some (now + lease), errorClass := none
      errorMessage := none, errorTraceback := none, result := none, resultSizeBytes := none
      attempt := min (j.attempt + 1) smallintMax, claimEpoch := j.claimEpoch + 1 }
  else none

def Row.waiting : Prop := j.status = .pending ∨ j.status = .scheduled

instance : Decidable j.waiting := inferInstanceAs (Decidable (_ ∨ _))

def Row.markAbandoned (now : Stamp) (p : Progress) : Option Row :=
  if j.status = .running ∧ (j.cancelPhase = .forced ∨ j.lockExpiresAt = none) then
    some { j.progressMerge p with
      status := .abandoned, finishedAt := some now, errorClass := some cancelOriginAbandoned }
  else none

/-- `cancel_pending_scheduled`, and the same arm of `cancel_request` and of the bulk cancel. -/
def Row.cancelPendingScheduled (now : Stamp) : Option Row :=
  if j.waiting then
    some { j with
      status := .cancelled, finishedAt := some now, errorClass := some cancelOriginPending }
  else none

/-- `cancel_running`, and the same arm of `cancel_request` and of the bulk cancel. -/
def Row.cancelRunning (now : Stamp) : Option Row :=
  if j.status = .running ∧ j.cancelPhase = .none then
    some { j with cancelRequestedAt := some now, cancelPhase := .cooperative }
  else none

def Row.cancelRequest (now : Stamp) : Option Row :=
  (j.cancelPendingScheduled now).or (j.cancelRunning now)

def Row.cancelEscalation (worker : WorkerId) : Option Row :=
  if j.status = .running ∧ j.lockedByWorker = some worker ∧ j.cancelPhase = .cooperative then
    some { j with cancelPhase := .forced }
  else none

def Row.abortBatch (now : Stamp) : Option Row :=
  if j.waiting then
    some { j with
      status := .cancelled, finishedAt := some now, errorClass := some errorClassBatchAborted
      errorMessage := some "Batch aborted due to consecutive failures"
      cancelRequestedAt := some now, cancelPhase := .forced }
  else none

def Row.deregister (now : Stamp) : Option Row :=
  if j.waiting then
    some { j with
      status := .cancelled, finishedAt := some now, errorClass := some errorClassActorDeregistered
      errorMessage := some "Job cancelled by actor deregistration (force=True)" }
  else none

def Row.heartbeat (worker : WorkerId) (now lease : Stamp) : Option Row :=
  if j.status = .running ∧ j.lockedByWorker = some worker then
    some { j with lastHeartbeatAt := some now, lockExpiresAt := some (now + lease) }
  else none

def Row.reclaimHasBudget : Prop :=
  j.retryKind = .indefinite ∨ j.attempt < j.maxAttempts ∧ j.retryKind ≠ .nonRetryable

instance : Decidable j.reclaimHasBudget := inferInstanceAs (Decidable (_ ∨ _ ∧ _))

/-- What a reclaim or an isolation writes; `delay` is the row's retry curve with its jitter. -/
def Row.reclaimed (now delay : Stamp) (crashClass crashMessage : String) : Row :=
  { j with
    status := if j.cancelPhase ≠ .none then .cancelled
      else if j.reclaimHasBudget then .pending else .crashed
    lockedByWorker := none, lockExpiresAt := none
    cancelRequestedAt := if j.cancelPhase ≠ .none then j.cancelRequestedAt else none
    assignmentRouted := true
    scheduledAt := if j.cancelPhase = .none ∧ j.reclaimHasBudget then now + delay
      else j.scheduledAt
    finishedAt := if j.cancelPhase ≠ .none ∨ ¬ j.reclaimHasBudget then some now else j.finishedAt
    errorClass := if ¬ j.reclaimHasBudget ∧ j.cancelPhase = .none then some crashClass
      else j.errorClass
    errorMessage := if ¬ j.reclaimHasBudget ∧ j.cancelPhase = .none then some crashMessage
      else j.errorMessage }

/-- The lease arm of `_SWEEP_1_SQL`; `grace` is the two cancel graces and a minute. -/
def Row.lockExpired (ts grace : Stamp) : Prop :=
  j.status = .running ∧ ∃ expires ∈ j.lockExpiresAt, expires < ts ∧
    (j.cancelPhase = .none ∨ expires < ts - grace)

/-- The heartbeat arm of `_SWEEP_1_SQL`. -/
def Row.heartbeatLapsed (ts grace : Stamp) : Prop :=
  j.status = .running ∧ ∃ timeout ∈ j.heartbeatTimeout, 0 < timeout ∧
    (∃ expires ∈ j.lockExpiresAt, ts ≤ expires) ∧
    ∃ beat ∈ j.lastHeartbeatAt, beat < ts ∧ beat + timeout < ts ∧
      (j.cancelPhase = .none ∨ beat + timeout < ts - grace)

instance : Decidable (j.lockExpired ts grace) := inferInstanceAs (Decidable (_ ∧ ∃ e ∈ _, _))
instance : Decidable (j.heartbeatLapsed ts grace) :=
  inferInstanceAs (Decidable (_ ∧ ∃ t ∈ _, _ ∧ (∃ e ∈ _, _) ∧ ∃ b ∈ _, _))

namespace Row

/-- `_SWEEP_1_SQL`; `ts` is the statement's start, `now` the clock where the row is written. -/
def sweepReclaim (ts now grace delay : Stamp) : Option Row :=
  if j.lockExpired ts grace then
    some (j.reclaimed now delay errorClassWorkerCrashed lockExpiredMessage)
  else if j.heartbeatLapsed ts grace then
    some (j.reclaimed now delay errorClassWorkerCrashed heartbeatTimeoutMessage)
  else none

/-- `_SWEEP_2_SQL`. -/
def sweepDeadline (ts now : Stamp) : Option Row :=
  if j.waiting ∧ j.late ts then
    some { j with
      status := .failed, finishedAt := some now, errorClass := some errorClassDeadlineExceeded
      errorMessage := some deadlineExceededMessage }
  else none

/-- `_SWEEP_3_SQL`. -/
def sweepPromote (ts : Stamp) : Option Row :=
  if j.status = .scheduled ∧ j.scheduledAt ≤ ts then some { j with status := .pending } else none

def sweepResultTtl (ts : Stamp) : Option Row :=
  if (∃ t ∈ j.resultExpiresAt, t < ts) ∧ j.result.isSome then
    some { j with result := none, resultSizeBytes := none }
  else none

def isolate (worker : WorkerId) (now delay : Stamp) : Option Row :=
  if j.status = .running ∧ j.lockedByWorker = some worker then
    some (j.reclaimed now delay errorClassHeartbeatLost isolateCrashedMessage)
  else none

/-- The shutdown hand-back; `recorded` says that the attempt has a ledger row. -/
def shutdownRepend (worker : WorkerId) (recorded : Bool) : Option Row :=
  if j.lockedByWorker = some worker ∧ j.status = .running ∧ j.cancelPhase = .none ∧
      recorded = false ∧ j.startedAt.isSome then
    some { j with
      status := .pending, lockedByWorker := none, lockExpiresAt := none, assignmentRouted := true
      attempt := j.attemptRefund }
  else none

def reconcileLostClaim (worker : WorkerId) (now grace : Stamp) (recorded : Bool) : Option Row :=
  if j.lockedByWorker = some worker ∧ j.status = .running ∧ j.cancelPhase = .none ∧
      (∃ t ∈ j.startedAt, t < now - grace) ∧ recorded = false then
    some { j with attempt := j.attemptRefund, startedAt := none }
  else none

def flushProgress (worker : WorkerId) (attempt seqDelta : Int) (delta : Doc) : Option Row :=
  if j.status = .running ∧ j.lockedByWorker = some worker ∧ j.attempt = attempt then
    some { j with
      progressState := j.progressState.merge delta, progressSeq := j.progressSeq + seqDelta }
  else none

def moveBacklog (queue target : String) : Option Row :=
  if j.queue = queue ∧ j.waiting then some { j with queue := target } else none

/-- `LEAST(GREATEST(max_attempts, attempt + 1), 32767)`. -/
def raisedCeiling : Int := min (max j.maxAttempts (j.attempt + 1)) smallintMax

def retryJob (now : Stamp) : Option Row :=
  if j.status ≠ .running ∧ ¬ j.waiting ∧ j.attempt < j.raisedCeiling then
    some { j with
      status := .pending, maxAttempts := j.raisedCeiling, assignmentRouted := true
      cancelPhase := .none, cancelRequestedAt := none, errorClass := none, errorMessage := none
      errorTraceback := none, scheduledAt := now
      scheduleToClose := j.scheduleToClose.filter (now < ·), finishedAt := none, result := none
      resultSizeBytes := none, resultExpiresAt := none }
  else none

end Row

end

/-- The statements on existing rows other than dispatch's claim and the handlers' outcome writes. -/
inductive Stmt where
  | markAbandoned (now : Stamp) (p : Progress)
  | cancelPendingScheduled (now : Stamp)
  | cancelRunning (now : Stamp)
  | cancelRequest (now : Stamp)
  | cancelEscalation (worker : WorkerId)
  | abortBatch (now : Stamp)
  | deregister (now : Stamp)
  | heartbeat (worker : WorkerId) (now lease : Stamp)
  | sweepReclaim (ts now grace delay : Stamp)
  | sweepDeadline (ts now : Stamp)
  | sweepPromote (ts : Stamp)
  | sweepResultTtl (ts : Stamp)
  | isolate (worker : WorkerId) (now delay : Stamp)
  | shutdownRepend (worker : WorkerId) (recorded : Bool)
  | reconcileLostClaim (worker : WorkerId) (now grace : Stamp) (recorded : Bool)
  | flushProgress (worker : WorkerId) (attempt seqDelta : Int) (delta : Doc)
  | moveBacklog (queue target : String)
  | retryJob (now : Stamp)

/-- What a statement makes of a row; `none` where its `WHERE` does not match. -/
def Stmt.apply (j : Row) : Stmt → Option Row
  | .markAbandoned now p => j.markAbandoned now p
  | .cancelPendingScheduled now => j.cancelPendingScheduled now
  | .cancelRunning now => j.cancelRunning now
  | .cancelRequest now => j.cancelRequest now
  | .cancelEscalation worker => j.cancelEscalation worker
  | .abortBatch now => j.abortBatch now
  | .deregister now => j.deregister now
  | .heartbeat worker now lease => j.heartbeat worker now lease
  | .sweepReclaim ts now grace delay => j.sweepReclaim ts now grace delay
  | .sweepDeadline ts now => j.sweepDeadline ts now
  | .sweepPromote ts => j.sweepPromote ts
  | .sweepResultTtl ts => j.sweepResultTtl ts
  | .isolate worker now delay => j.isolate worker now delay
  | .shutdownRepend worker recorded => j.shutdownRepend worker recorded
  | .reconcileLostClaim worker now grace recorded => j.reconcileLostClaim worker now grace recorded
  | .flushProgress worker attempt seqDelta delta => j.flushProgress worker attempt seqDelta delta
  | .moveBacklog queue target => j.moveBacklog queue target
  | .retryJob now => j.retryJob now

end TaskQ.Jobs
