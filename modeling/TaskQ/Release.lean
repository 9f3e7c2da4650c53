import Mathlib.Algebra.Group.Nat.Defs
import TaskQ.Retry
import TaskQ.Signals

namespace TaskQ
open RowLocks

def nodeRepend (db : Snapshot) (now : Time) (job : JobId) (backoff : Time) : Writes :=
  update db (fun k r => k = job && r.status = .running) fun _ r =>
    { r with status := .scheduled, lockedByWorker := none, scheduledAt := now + backoff }

variable {db : Snapshot}

lemma nodeRepend_row (h : nodeRepend db now job backoff k = some r) :
    ∃ r0, db.jobs k = some r0 ∧ k = job ∧ r0.status = .running ∧ r.attempt = r0.attempt ∧
      r.depsPending = r0.depsPending := by
  obtain ⟨r0, hr0, hp, rfl⟩ := update_some.mp h
  simp only [Bool.and_eq_true, decide_eq_true_eq] at hp
  exact ⟨r0, hr0, hp.1, hp.2, rfl, rfl⟩

def workflowCancelledClass : String := "WorkflowCancelled"

def cancelRoot (db : Snapshot) (flow : JobId) (reason : String) : Writes :=
  update db (fun k r => k = flow && !r.status.terminal) fun _ r =>
    { r with
      status := .cancelled, errorClass := some workflowCancelledClass, errorMessage := some reason }

lemma cancelRoot_row (h : cancelRoot db flow reason k = some r) :
    ∃ r0, db.jobs k = some r0 ∧ r0.status.terminal = false ∧ r.attempt = r0.attempt ∧
      r.depsPending = r0.depsPending ∧ r.metadata = r0.metadata ∧ r.status = .cancelled := by
  obtain ⟨r0, hr0, hp, rfl⟩ := update_some.mp h
  simp only [Bool.and_eq_true, Bool.not_eq_true'] at hp
  exact ⟨r0, hr0, hp.2, rfl, rfl, rfl, rfl⟩

def cancelNodes (db : Snapshot) (flow : JobId) : Writes :=
  update db (fun _ r => r.inFlow flow && !r.status.terminal) fun _ r =>
    let marked := { r with metadata := { r.metadata with cancelPhase := true } }
    if r.status = .running then marked
    else { marked with status := .cancelled, errorClass := some workflowCancelledClass }

lemma cancelNodes_row (h : cancelNodes db flow k = some r) :
    ∃ r0, db.jobs k = some r0 ∧ r0.status.terminal = false ∧ r.attempt = r0.attempt ∧
      r.depsPending = r0.depsPending ∧ r.metadata.hold = r0.metadata.hold := by
  obtain ⟨r0, hr0, hp, rfl⟩ := update_some.mp h
  simp only [Bool.and_eq_true, Bool.not_eq_true'] at hp
  refine ⟨r0, hr0, hp.2, ?_⟩
  split <;> exact ⟨rfl, rfl, rfl⟩

/-- The job statements of `_cancel_one_run`; they stop when the run is already terminal. -/
def cancelOneRun (db : Snapshot) (flow : JobId) (reason : String) : Writes :=
  let w := cancelRoot db flow reason
  if (w flow).isNone then fun _ => none
  else w.andThen (cancelNodes (db.write w) flow)

lemma cancelOneRun_row (h : cancelOneRun db flow reason k = some r) :
    ∃ r0, db.jobs k = some r0 ∧ r0.status.terminal = false ∧ r.attempt = r0.attempt ∧
      r.depsPending = r0.depsPending ∧ r.metadata.hold = r0.metadata.hold := by
  unfold cancelOneRun at h
  split at h
  · cases h
  rcases Option.or_eq_some_iff.mp h with hn | ⟨-, hr⟩
  · obtain ⟨r1, hr1, ht, hrest⟩ := cancelNodes_row hn
    rcases Option.or_eq_some_iff.mp hr1 with hw | ⟨-, hr0⟩
    · -- the root is terminal by now, so the second statement passes it over
      obtain ⟨-, -, -, -, -, -, hc⟩ := cancelRoot_row hw
      rw [hc] at ht
      cases ht
    · exact ⟨r1, hr0, ht, hrest⟩
  · obtain ⟨r0, hr0, ht, ha, hd, hm, -⟩ := cancelRoot_row hr
    exact ⟨r0, hr0, ht, ha, hd, by rw [hm]⟩

/-- `cancel_running`, the operator's cancel of one job. -/
def cancelRunning (db : Snapshot) (job : JobId) : Writes :=
  update db (fun k r => k = job && r.status = .running && r.cancelPhase = 0) fun _ r =>
    { r with cancelPhase := 1 }

lemma cancelRunning_row (h : cancelRunning db job k = some r) :
    ∃ r0, db.jobs k = some r0 ∧ r0.status = .running ∧ r.attempt = r0.attempt ∧
      r.depsPending = r0.depsPending := by
  obtain ⟨r0, hr0, hp, rfl⟩ := update_some.mp h
  simp only [Bool.and_eq_true, decide_eq_true_eq] at hp
  exact ⟨r0, hr0, hp.1.2, rfl, rfl⟩

def JobRow.cancelMarked (r : JobRow) : Bool := r.metadata.cancelPhase || r.cancelPhase ≠ 0

/-- What `NODE_CLAIM_SQL` grants; the claim epoch of a workflow node is zero. -/
structure Claim where
  job : JobId
  worker : WorkerId
  attempt : Nat
  deriving DecidableEq

/-- The row predicate of `NODE_DEADLINE_REPEND_SQL`: its claim fence and its cancel fence. -/
def deadlineFence (c : Claim) (r : JobRow) : Bool :=
  r.status = .running && sqlEq r.lockedByWorker (some c.worker) && r.attempt = c.attempt &&
    sqlEq r.claimEpoch (some 0) && r.cancelPhase = 0 && !r.metadata.cancelPhase

/-- The declared ladder of a node: `max_attempts`, and whether its retry kind is `permanent`. -/
structure LadderTerms where
  maxAttempts : Nat := 3
  permanent : Bool := false

inductive LatePc where
  | ladderCount (terms : LadderTerms) (deterministic : Bool)
  | ladderRecord (terms : LadderTerms) (deterministic : Bool) (failed : Nat)
  | ladderRepend (failed : Nat)
  | ladderFinalize
  | reclaimRecord
  | reclaimRepend
  | registerHold (hold : HoldId) (row : SignalRow)

/-- The calls a claimed node's body can end with, at their first statement. -/
inductive LateEntry where
  | ladderOrFail (terms : LadderTerms) (deterministic : Bool)
  | reclaimStep
  | registerHold (hold : HoldId) (row : SignalRow)

def LateEntry.start : LateEntry → LatePc
  | .ladderOrFail terms deterministic => .ladderCount terms deterministic
  | .reclaimStep => .reclaimRecord
  | .registerHold hold row => .registerHold hold row

structure LateCall where
  claim : Claim
  flow : JobId
  stepKey : String
  mapIndex : Option Nat := none
  errorClass : String := ""
  errorMessage : String := ""

/-- The call as `finalize_node` and the ledger statements take it; messages are cut to 500. -/
def LateCall.finalizeCall (l : LateCall) (outcome : Outcome) : FinalizeCall :=
  { job := l.claim.job
    flow := l.flow, stepKey := l.stepKey, mapIndex := l.mapIndex, worker := l.claim.worker
    attempt := l.claim.attempt, claimEpoch := some 0
    outcome
    errorClass := some l.errorClass
    errorMessage := some (String.ofList (l.errorMessage.toList.take 500)) }

def failedCount (ledger : List LedgerRow) (l : LateCall) : Nat :=
  ledger.countP fun r => r.flow = l.flow && r.stepKey = l.stepKey && r.mapIndex = l.mapIndex &&
    r.status = .done .failed

def ladderRetries (terms : LadderTerms) (deterministic : Bool) (failed : Nat) : Bool :=
  !deterministic && !terms.permanent && failed + 1 < terms.maxAttempts

def Sys.record (s : Sys) (t : Tx) (f : LedgerRow → Option LedgerRow) : Option Sys :=
  if (s.sessions t).isNone && rewriteFree t f s.ledger then
    some { s with ledger := (rewrite t f s.ledger).map (Slot.commit t) }
  else none

/-- The engine with the hold rows and the bodies' calls; `granted` is the ghost of the claims. -/
structure Floor where
  sys : Sys
  signals : List (HoldId × SignalRow) := []
  late : Tx → Option (LateCall × LatePc) := fun _ => none
  granted : List Claim := []

inductive Act where
  | engine (a : Event)
  | cancelRun (t : Tx) (now : Time) (flow : JobId) (reason : String)
  | cancelRunning (t : Tx) (job : JobId)
  | enter (t : Tx) (l : LateCall) (entry : LateEntry)
  | late (t : Tx) (now : Time)

def Sys.grants (s : Sys) : Event → Option Claim
  | .claim t job worker now =>
    (nodeClaim (s.snapshot t) now job worker job).map fun r => ⟨job, worker, r.attempt⟩
  | _ => none

def Floor.runLate (s : Floor) (t : Tx) (now : Time) (l : LateCall) :
    LatePc → Option (Floor × Option LatePc)
  | .ladderCount terms deterministic =>
    let failed := if deterministic then 0 else failedCount (s.sys.snapshot t).ledger l
    some (s, some (.ladderRecord terms deterministic failed))
  | .ladderRecord terms deterministic failed =>
    let next := if ladderRetries terms deterministic failed then .ladderRepend failed
      else .ladderFinalize
    (s.sys.record t (ledgerTerminal (l.finalizeCall failedOutcome))).map fun sys =>
      ({ s with sys }, some next)
  | .ladderRepend failed =>
    (s.sys.autocommit t (nodeRepend (s.sys.snapshot t) now l.claim.job (50 * 2 ^ failed))).map
      fun sys => ({ s with sys }, none)
  | .ladderFinalize =>
    (s.sys.step (.call t (.finalizeNode (l.finalizeCall failedOutcome) none))).map
      fun sys => ({ s with sys }, none)
  | .reclaimRecord =>
    (s.sys.record t (ledgerTerminal (l.finalizeCall crashedOutcome))).map
      fun sys => ({ s with sys }, some .reclaimRepend)
  | .reclaimRepend =>
    (s.sys.autocommit t (nodeRepend (s.sys.snapshot t) now l.claim.job 50)).map
      fun sys => ({ s with sys }, none)
  | .registerHold hold row => (holdInsert s.signals hold row).bind fun signals =>
    (s.sys.autocommit t (holdNode (s.sys.snapshot t) l.claim.job hold row.expiresAt)).map
      fun sys => ({ s with sys, signals }, none)

def Floor.step (s : Floor) : Act → Option Floor
  | .engine a => (s.sys.step a).map fun sys =>
    { s with sys, granted := (s.sys.grants a).toList ++ s.granted }
  | .cancelRun t now flow reason =>
    let w := cancelOneRun (s.sys.snapshot t) flow reason
    (s.sys.autocommit t w).map fun sys =>
      { s with
        sys
        signals := if (w flow).isNone then s.signals
          else s.signals.map fun p => (p.1, (cancelRunSignals now flow p.1 p.2).getD p.2) }
  | .cancelRunning t job =>
    (s.sys.autocommit t (TaskQ.cancelRunning (s.sys.snapshot t) job)).map
      fun sys => { s with sys }
  | .enter t l entry =>
    if (s.late t).isNone && (s.sys.sessions t).isNone && l.claim ∈ s.granted then
      some { s with late := Function.update s.late t (some (l, entry.start)) }
    else none
  | .late t now => (s.late t).bind fun p => (s.runLate t now p.1 p.2).map fun q =>
    { q.1 with late := Function.update s.late t (q.2.map fun pc => (p.1, pc)) }

end TaskQ
