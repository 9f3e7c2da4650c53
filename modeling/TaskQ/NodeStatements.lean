import TaskQ.JobTable

namespace TaskQ.Jobs

structure NewNode where
  id : JobId
  actor : String
  queue : String := "default"
  stepKey : String
  flow : JobId
  fairnessKey : Option String := none
  priority : Int := 0
  maxAttempts : Int := 3
  retryKind : RetryKind := .transient
  depsPending : Int := 0
  metadata : Doc := []

def NewNode.row (n : NewNode) (now : Stamp) : Row where
  id := n.id
  actor := n.actor
  queue := n.queue
  fairnessKey := n.fairnessKey
  stepKey := some n.stepKey
  flowId := some n.flow
  priority := n.priority
  maxAttempts := n.maxAttempts
  retryKind := n.retryKind
  scheduledAt := now
  metadata := n.metadata
  depsPending := n.depsPending

structure Mark where
  outcome : Outcome
  result : Option String := none
  resultSizeBytes : Option Int := none
  errorClass : Option String := none
  errorMessage : Option String := none
  errorTraceback : Option String := none
  resultTtl : Option Stamp := none

def nodeLease : Stamp := 90000000

def workflowCancelledClass : String := "WorkflowCancelled"
def errorClassUnabsorbedNodeFailure : String := "UnabsorbedNodeFailure"
def errorClassNodelessRunReaped : String := "NodelessRunReaped"
def nodelessRunMessage : String :=
  "the run root has no node rows past the reap grace — the create did not commit atomically " ++
    "(the orphan root: undevelopable by the derivation, the run key squatted); re-run with a " ++
    "NEW run key"

section
variable (j : Row)

def Row.marked (key : String) : Prop := ∃ kv ∈ j.metadata, kv.1 = key

instance : Decidable (j.marked key) := inferInstanceAs (Decidable (∃ kv ∈ j.metadata, _))

def Row.isRoot : Prop := j.stepKey = some rootStepKey

instance : Decidable j.isRoot := inferInstanceAs (Decidable (_ = _))

/-- `status NOT IN` the terminal ones. -/
def Row.open : Prop := j.status.terminal = false

instance : Decidable j.open := inferInstanceAs (Decidable (_ = _))

namespace Row

def terminalMark (f : Fence) (now : Stamp) (m : Mark) : Option Row :=
  if j.jobFence f then
    some { j with
      status := m.outcome.1, finishedAt := some now, result := m.result
      resultSizeBytes := m.resultSizeBytes, errorClass := m.errorClass
      errorMessage := m.errorMessage, errorTraceback := m.errorTraceback
      resultExpiresAt := if m.outcome.1 = .succeeded
        then (m.resultTtl.map (now + ·)).or j.resultExpiresAt else j.resultExpiresAt }
  else none

def nodeClaim (worker : WorkerId) (now : Stamp) : Option Row :=
  if (j.status = .pending ∨ j.status = .scheduled ∧ j.scheduledAt ≤ now) ∧ j.depsPending = 0 ∧
      ¬ j.marked "hold" then
    some { j with
      status := .running, lockedByWorker := some worker, lockExpiresAt := some (now + nodeLease)
      attempt := j.attempt + 1, claimEpoch := 0 }
  else none

/-- `NODE_REPEND_SQL_TEMPLATE`, with its record of the re-pends. -/
def nodeRepend (now backoff : Stamp) (repends : String) : Option Row :=
  if j.status = .running then
    some { j with
      status := .scheduled, lockedByWorker := none, scheduledAt := now + backoff
      metadata := j.metadata.merge [("wf_repend", repends)] }
  else none

/-- The write of `NODE_DEADLINE_REPEND_SQL`. -/
def nodeDeadlineRepend (f : Fence) (now backoff : Stamp) (exhausted : Bool) : Option Row :=
  if j.jobFence f ∧ exhausted = false ∧ j.cancelPhase = .none ∧ ¬ j.marked "cancel_phase" then
    some { j with status := .scheduled, lockedByWorker := none, scheduledAt := now + backoff }
  else none

/-- The write of `NODE_DEFER_SQL`; `consuming` is the disposition `retry_after_consuming`. -/
def nodeDefer (f : Fence) (now delay : Stamp) (consuming : Bool) (deferral : String) :
    Option Row :=
  let delay := if consuming then delay else max delay minDeferralInterval
  if j.jobFence f ∧ j.cancelPhase = .none ∧ ¬ j.marked "cancel_phase" ∧
      (consuming = false ∨ j.hasBudget) then
    some { j.leaseClear with
      status := if 0 < delay then .scheduled else .pending, scheduledAt := now + delay
      finishedAt := none, cancelPhase := .none, cancelRequestedAt := none
      attempt := if consuming then j.attempt else j.attemptRefund
      snoozeCount := if consuming then j.snoozeCount else j.snoozeCount + 1
      metadata := j.metadata.merge [("wf_deferral", deferral)], assignmentRouted := true }
  else none

def holdNode (marks : Doc) (resumeAt : Option Stamp) : Option Row :=
  if j.status = .running then
    some { j with
      status := .pending, lockedByWorker := none, lockExpiresAt := none
      metadata := j.metadata.merge marks, scheduledAt := resumeAt.getD j.scheduledAt }
  else none

def deliverResume (now : Stamp) : Option Row :=
  if j.status = .pending then
    some { j with
      metadata := j.metadata.filter fun kv => kv.1 ≠ "hold" && kv.1 ≠ "held_signal"
      scheduledAt := now }
  else none

def rootStart : Option Row :=
  if j.status = .pending then some { j with status := .running } else none

def cancelRoot (now : Stamp) (message : Option String) : Option Row :=
  if j.open then
    some { j with
      status := .cancelled, errorClass := some workflowCancelledClass, errorMessage := message
      finishedAt := some now }
  else none

/-- `CANCEL_NODES_SQL_TEMPLATE`: a running row is only marked. -/
def cancelNodes (now : Stamp) : Option Row :=
  if j.open then
    some { j with
      status := if j.status = .running then j.status else .cancelled
      finishedAt := if j.status = .running then j.finishedAt else some now
      errorClass := if j.status = .running then j.errorClass else some workflowCancelledClass
      metadata := j.metadata.merge [("cancel_phase", "cooperative")] }
  else none

def exitSkip (now : Stamp) (result : String) : Option Row :=
  if j.open then
    some { j with status := .succeeded, result := some result, finishedAt := some now }
  else none

/-- The peers leg of `FAIL_CLOSED_CASCADE_SQL`. -/
def peerCancel (now : Stamp) (origin : String) (record : Doc) : Option Row :=
  if (j.waiting ∨ j.status = .running) ∧ ¬ (0 < j.depsPending ∧ ("blocking_reason", "join") ∈
      j.metadata) then
    some { j with
      status := .cancelled, finishedAt := some now, errorClass := some origin
      metadata := j.metadata.merge record }
  else none

/-- The root's leg of `FAIL_CLOSED_CASCADE_SQL` and of `LOOP_EXHAUST_SQL`. -/
def flowFailed (now : Stamp) (errorClass : String) : Option Row :=
  if j.open then
    some { j with status := .failed, finishedAt := some now, errorClass := some errorClass }
  else none

/-- The loop's leg of `LOOP_EXHAUST_SQL`; a `NULL` worker matches a row no one holds. -/
def loopExhaust (worker : Option WorkerId) (attempt epoch : Int) (now : Stamp)
    (errorClass message : String) (record : Doc) : Option Row :=
  if j.status = .running ∧ j.lockedByWorker = worker ∧ j.attempt = attempt ∧
      j.claimEpoch = epoch then
    some { j with
      status := .failed, errorClass := some errorClass, errorMessage := some message
      finishedAt := some now, metadata := j.metadata.merge record }
  else none

/-- `WORKFLOW_ROOT_MAINTAIN_SQL` with the verdict it derives from the node rows. -/
def rootMaintain (now : Stamp) (failed cancelled : Bool) : Option Row :=
  if j.isRoot ∧ j.status = .running then
    some { j with
      status := if failed then .failed else if cancelled then .cancelled else .succeeded
      finishedAt := some now
      errorClass := j.errorClass.or (if failed then some errorClassUnabsorbedNodeFailure else none) }
  else none

def nodelessRootReap (now : Stamp) : Option Row :=
  if j.isRoot ∧ (j.status = .pending ∨ j.status = .running) then
    some { j with
      status := .failed, errorClass := some errorClassNodelessRunReaped
      errorMessage := some nodelessRunMessage, finishedAt := some now }
  else none

def retryNodeCas (now : Stamp) : Option Row :=
  if j.status = .failed ∧ ¬ j.isRoot then
    some { j with
      status := .pending, errorClass := none, errorMessage := none, scheduledAt := now
      lockedByWorker := none, lockExpiresAt := none }
  else none

def retryFlowReopen : Option Row :=
  if j.status = .failed then some { j with status := .running, finishedAt := none } else none

/-- `RETRY_SKIP_REARM_SQL_TEMPLATE`, of the rows with the skip record. -/
def retrySkipRearm (now : Stamp) : Option Row :=
  if j.status = .succeeded ∧ ¬ j.isRoot then
    some { j with
      status := .pending, result := none, finishedAt := none, scheduledAt := now
      lockedByWorker := none, lockExpiresAt := none }
  else none

/-- The statements that count dependencies or write `metadata`. -/
def annotate (depsPending : Int) (metadata : Doc) (scheduledAt : Stamp) : Row :=
  { j with depsPending, metadata, scheduledAt }

end Row

end

inductive NodeStmt where
  | terminalMark (f : Fence) (now : Stamp) (m : Mark)
  | nodeClaim (worker : WorkerId) (now : Stamp)
  | nodeRepend (now backoff : Stamp) (repends : String)
  | nodeDeadlineRepend (f : Fence) (now backoff : Stamp) (exhausted : Bool)
  | nodeDefer (f : Fence) (now delay : Stamp) (consuming : Bool) (deferral : String)
  | holdNode (marks : Doc) (resumeAt : Option Stamp)
  | deliverResume (now : Stamp)
  | rootStart
  | cancelRoot (now : Stamp) (message : Option String)
  | cancelNodes (now : Stamp)
  | exitSkip (now : Stamp) (result : String)
  | peerCancel (now : Stamp) (origin : String) (record : Doc)
  | flowFailed (now : Stamp) (errorClass : String)
  | loopExhaust (worker : Option WorkerId) (attempt epoch : Int) (now : Stamp)
      (errorClass message : String) (record : Doc)
  | rootMaintain (now : Stamp) (failed cancelled : Bool)
  | nodelessRootReap (now : Stamp)
  | retryNodeCas (now : Stamp)
  | retryFlowReopen
  | retrySkipRearm (now : Stamp)
  | annotate (depsPending : Int) (metadata : Doc) (scheduledAt : Stamp)

def NodeStmt.apply (j : Row) : NodeStmt → Option Row
  | .terminalMark f now m => j.terminalMark f now m
  | .nodeClaim worker now => j.nodeClaim worker now
  | .nodeRepend now backoff repends => j.nodeRepend now backoff repends
  | .nodeDeadlineRepend f now backoff exhausted => j.nodeDeadlineRepend f now backoff exhausted
  | .nodeDefer f now delay consuming deferral => j.nodeDefer f now delay consuming deferral
  | .holdNode marks resumeAt => j.holdNode marks resumeAt
  | .deliverResume now => j.deliverResume now
  | .rootStart => j.rootStart
  | .cancelRoot now message => j.cancelRoot now message
  | .cancelNodes now => j.cancelNodes now
  | .exitSkip now result => j.exitSkip now result
  | .peerCancel now origin record => j.peerCancel now origin record
  | .flowFailed now errorClass => j.flowFailed now errorClass
  | .loopExhaust worker attempt epoch now errorClass message record =>
    j.loopExhaust worker attempt epoch now errorClass message record
  | .rootMaintain now failed cancelled => j.rootMaintain now failed cancelled
  | .nodelessRootReap now => j.nodelessRootReap now
  | .retryNodeCas now => j.retryNodeCas now
  | .retryFlowReopen => j.retryFlowReopen
  | .retrySkipRearm now => j.retrySkipRearm now
  | .annotate depsPending metadata scheduledAt =>
    some (j.annotate depsPending metadata scheduledAt)

end TaskQ.Jobs
