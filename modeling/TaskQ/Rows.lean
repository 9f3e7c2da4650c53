import Mathlib.Data.List.Sort

namespace TaskQ

abbrev JobId := Nat
abbrev WorkerId := Nat
abbrev Time := Nat

inductive JobStatus where
  | pending | scheduled | running | succeeded | failed | cancelled | crashed | abandoned
  deriving DecidableEq

/-- `TERMINAL_STATUSES`. -/
def JobStatus.terminal : JobStatus → Bool
  | .pending | .scheduled | .running => false
  | .succeeded | .failed | .cancelled | .crashed | .abandoned => true

def JobStatus.failedClass : JobStatus → Bool
  | .failed | .crashed | .abandoned => true
  | _ => false

/-- `_TERMINAL_CRASH_CLASS`. -/
def JobStatus.crashClass : JobStatus → Bool
  | .crashed | .abandoned => true
  | _ => false

lemma JobStatus.failedClass_iff {st : JobStatus} :
    st.failedClass = true ↔ st = .failed ∨ st.crashClass = true := by
  cases st <;> simp [JobStatus.failedClass, JobStatus.crashClass]

def Outcome := { st : JobStatus // st.terminal = true }
  deriving DecidableEq

def failedOutcome : Outcome := ⟨.failed, rfl⟩

def crashedOutcome : Outcome := ⟨.crashed, rfl⟩

lemma succeeded_terminal : JobStatus.succeeded.terminal = true := rfl

def succeededOutcome : Outcome := ⟨.succeeded, succeeded_terminal⟩

inductive EdgeFailurePolicy where
  | failClosed | collect | maybe
  deriving DecidableEq

/-- The absorbing policies, `collect` and `maybe`. -/
def EdgeFailurePolicy.absorbing : EdgeFailurePolicy → Bool
  | .failClosed => false
  | .collect | .maybe => true

inductive BlockingReason where
  | join | orphanParent | failedParent | bodyUnavailable | flowDead
  deriving DecidableEq

inductive RetryKind where
  | transient | indefinite | nonRetryable
  deriving DecidableEq

structure ConsumerBinding where
  (stepKey actor queue : String)
  payload : Option String := none
  mapIndex : Option Nat := none
  failurePolicy : EdgeFailurePolicy := .failClosed
  startToClose : Option Nat := none
  deriving DecidableEq

structure ErrorInfo where
  (errorClass errorMessage : String)
  errorTraceback : Option String
  deriving DecidableEq

structure FailureInfo where
  nodeKey : String
  mapIndex : Option Nat
  error : ErrorInfo
  attempts : List (Nat × Option String × Option String)
  policy : EdgeFailurePolicy
  deriving DecidableEq

/-- The join row's `failures`: the array of items, or the bounded summary that counts them. -/
inductive Failures where
  | items (l : List FailureInfo)
  | truncated (n : Nat)
  deriving DecidableEq

/-- The keys of a job row's `metadata` document that the workflow statements read. -/
structure Metadata where
  flowId : Option JobId := none
  blockingReason : Option BlockingReason := none
  consumers : List ConsumerBinding := []
  failures : Failures := .items []
  failedParent : Option JobId := none
  failedStep : Option String := none
  peerCancel : Option JobId := none
  hold : Option Nat := none
  cancelPhase : Bool := false
  wfPriority : Option Int := none
  /-- `kind` is `loop`. -/
  loopKind : Bool := false
  iteration : Option Nat := none
  waitMarks : List (String × Nat) := []
  deriving DecidableEq

/-- A node's `result`: the skip record `{"skipped": true}`, or any other document. -/
inductive NodeResult where
  | skipped
  | doc (text : String)
  deriving DecidableEq

structure JobRow where
  actor : String := "workflow"
  queue : String := "default"
  payload : Option String := none
  stepKey : String
  mapIndex : Option Nat := none
  parentId : Option JobId := none
  status : JobStatus := .pending
  depsPending : Nat := 0
  scheduledAt : Time := 0
  attempt : Nat := 0
  maxAttempts : Nat := 3
  retryKind : RetryKind := .transient
  lockedByWorker : Option WorkerId := none
  lockExpiresAt : Option Time := none
  claimEpoch : Option Nat := none
  cancelPhase : Nat := 0
  traceId : Option String := none
  result : Option NodeResult := none
  errorClass : Option String := none
  errorMessage : Option String := none
  idempotency : Option (String × String) := none
  priority : Int := 0
  startToClose : Option Nat := none
  fairnessKey : Option JobId := none
  metadata : Metadata := {}
  deriving DecidableEq

def rootStepKey : String := "__flow__"

/-- `wf_edge`: `child` waits for `parent`. -/
structure Edge where
  (child parent flow : JobId)
  failurePolicy : EdgeFailurePolicy := .failClosed
  deriving DecidableEq

inductive FiredBy where
  | finalize | sweep | bornZero
  deriving DecidableEq

/-- `wf_join_fire`. -/
structure JoinFire where
  id : Nat
  (joinJob flow : JobId)
  stepKey : String
  firedBy : FiredBy
  deriving DecidableEq

structure Bindings where
  (actor queue : String)
  payload : Option String
  traceId : String
  startToClose : Option Nat

/-- `wf_outbox`. -/
structure OutboxRow where
  id : Nat
  (joinJob flow : JobId)
  consumerStepKey : String
  mapIndex : Option Nat
  bindings : Bindings
  delivered : Bool := false

inductive LedgerStatus where
  | running | fenced | done (st : JobStatus)
  deriving DecidableEq

/-- `wf_step_ledger`; one row for each `(flow, step_key, map_index, attempt)`. -/
structure LedgerRow where
  flow : JobId
  stepKey : String
  mapIndex : Option Nat
  attempt : Nat
  status : LedgerStatus := .running
  errorClass : Option String := none
  errorMessage : Option String := none

/-- What a statement sees: the committed rows under its own writes, and what others hold locked. -/
structure Snapshot where
  ids : List JobId
  jobs : JobId → Option JobRow
  jobLocked : JobId → Bool
  edges : List Edge
  fires : List JoinFire
  outbox : List OutboxRow
  outboxLocked : Nat → Bool
  ledger : List LedgerRow

/-- SQL equality of nullable columns: `NULL` equals nothing. -/
def sqlEq [DecidableEq α] : Option α → Option α → Bool
  | some a, some b => a = b
  | _, _ => false

def JobRow.inFlow (r : JobRow) (flow : JobId) : Bool := sqlEq r.metadata.flowId (some flow)

def flowAlive (db : Snapshot) (flow : JobId) : Bool :=
  (db.jobs flow).any fun f => !f.status.terminal

/-- `ORDER BY id LIMIT n FOR UPDATE SKIP LOCKED` over the rows that satisfy `p`. -/
def lockBatch (db : Snapshot) (n : Nat) (p : JobRow → Bool) : List JobId :=
  ((db.ids.filter fun k => !db.jobLocked k && (db.jobs k).any p).insertionSort (· ≤ ·)).take n

lemma mem_lockBatch {db : Snapshot} (h : k ∈ lockBatch db n p) :
    db.jobLocked k = false ∧ ∃ r, db.jobs k = some r ∧ p r = true := by
  have hm := List.mem_of_mem_take h
  rw [List.mem_insertionSort, List.mem_filter, Bool.and_eq_true, Bool.not_eq_true',
    Option.any_eq_true] at hm
  exact ⟨hm.2.1, hm.2.2⟩

end TaskQ
