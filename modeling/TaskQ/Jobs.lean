import TaskQ.Rows

namespace TaskQ.Jobs

/-- Microseconds, the resolution of `timestamptz`, `interval` and `timedelta`. -/
abbrev Stamp := Int

/-- The column's check admits no other value. -/
inductive CancelPhase where
  | none | cooperative | forced
  deriving DecidableEq

abbrev Doc := List (String × String)

/-- `||` of two objects: the keys of the right one win. -/
def Doc.merge (d u : Doc) : Doc := d.filter (fun kv => !u.any (·.1 == kv.1)) ++ u

@[simp] lemma Doc.merge_nil (d : Doc) : d.merge [] = d := by
  simp [Doc.merge]

structure Row where
  id : JobId
  actor : String
  queue : String := "default"
  identityKey : Option String := none
  fairnessKey : Option String := none
  /-- Of a workflow node; `flowId` is the `flow_id` key of its `metadata`. -/
  stepKey : Option String := none
  flowId : Option JobId := none
  status : JobStatus := .pending
  priority : Int := 0
  attempt : Int := 0
  maxAttempts : Int := 3
  retryKind : RetryKind := .transient
  scheduleToClose : Option Stamp := none
  scheduledAt : Stamp := 0
  startedAt : Option Stamp := none
  finishedAt : Option Stamp := none
  lastHeartbeatAt : Option Stamp := none
  heartbeatTimeout : Option Stamp := none
  lockedByWorker : Option WorkerId := none
  lockExpiresAt : Option Stamp := none
  claimEpoch : Int := 0
  cancelRequestedAt : Option Stamp := none
  cancelPhase : CancelPhase := .none
  errorClass : Option String := none
  errorMessage : Option String := none
  errorTraceback : Option String := none
  progressSeq : Int := 0
  progressState : Doc := []
  snoozeCount : Int := 0
  rateLimitBlockedCount : Int := 0
  interruptCount : Int := 0
  assignmentRouted : Bool := false
  metadata : Doc := []
  result : Option String := none
  resultSizeBytes : Option Int := none
  resultExpiresAt : Option Stamp := none
  depsPending : Int := 0
  deriving DecidableEq

inductive AttemptOutcome where
  | succeeded | failed | cancelled | snoozed | crashed
  deriving DecidableEq

structure Attempt where
  attempt : Int
  (startedAt finishedAt : Stamp)
  outcome : AttemptOutcome
  (errorClass errorMessage errorTraceback : Option String)
  durationMs : Option Int
  workerId : Option WorkerId
  metadata : Doc
  dueAt : Option Stamp
  deriving DecidableEq

/-- What a handler was claimed with and sends along with its outcome; a `NULL` matches nothing. -/
structure Fence where
  worker : WorkerId
  (attempt claimEpoch : Option Int)

structure Progress where
  seq : Int := 0
  state : Option Doc := none

def minDeferralInterval : Stamp := 1000000
def smallintMax : Int := 32767
def int4Max : Int := 2147483647

def cancelOriginCooperative : String := "CancelledCooperatively"
def cancelOriginForced : String := "CancelledForced"
def cancelOriginAbandoned : String := "CancelAbandoned"
def cancelOriginPending : String := "CancelledBeforeStart"
def cancelOriginUnrequested : String := "CancelledWithoutRequest"
def errorClassDeadlineExceeded : String := "DeadlineExceeded"
def errorClassMaxAttemptsExceeded : String := "MaxAttemptsExceeded"
def budgetExhaustedMessage : String := "retry budget exhausted"
def deadlineExceededMessage : String := "schedule_to_close reached before next dispatch"
def deadlineRetryExceededMessage : String :=
  "schedule_to_close reached before next retry dispatch"

section
variable (j : Row)

def Row.jobFence (f : Fence) : Prop :=
  j.status = .running ∧ j.lockedByWorker = some f.worker ∧ f.attempt = some j.attempt ∧
    f.claimEpoch = some j.claimEpoch

instance : Decidable (Row.jobFence j f) := inferInstanceAs (Decidable (_ ∧ _ ∧ _ ∧ _))

/-- `schedule_to_close IS NULL OR t <= schedule_to_close`. -/
def Row.inTime (t : Stamp) : Prop := ∀ d ∈ j.scheduleToClose, t ≤ d

/-- `schedule_to_close IS NOT NULL AND t > schedule_to_close`. -/
def Row.late (t : Stamp) : Prop := ∃ d ∈ j.scheduleToClose, d < t

instance : Decidable (Row.inTime j t) := inferInstanceAs (Decidable (∀ d ∈ j.scheduleToClose, _))
instance : Decidable (Row.late j t) := inferInstanceAs (Decidable (∃ d ∈ j.scheduleToClose, _))

def Row.leaseClear : Row :=
  { j with lockedByWorker := none, lockExpiresAt := none, lastHeartbeatAt := none }

def Row.progressMerge (p : Progress) : Row :=
  { j with
    progressSeq := max j.progressSeq p.seq
    progressState := match p.state with
      | none => j.progressState
      | some u => j.progressState.merge u }

def Row.attemptRefund : Int := max (j.attempt - 1) 0

end

lemma Row.late_iff {j : Row} : j.late t ↔ ¬ j.inTime t := by
  simp [Row.late, Row.inTime]

end TaskQ.Jobs
