import TaskQ.Finalize

namespace TaskQ

def loopEscalationStepKey : String := "loop.escalation"

/-- `NODE_CLAIM_SQL`: due, no dependency, not held, and on a live flow or its escalation step. -/
def claimable (db : Snapshot) (now : Time) (r : JobRow) : Bool :=
  (r.status = .pending || (r.status = .scheduled && r.scheduledAt ≤ now)) &&
    r.depsPending = 0 && r.metadata.hold.isNone &&
    (r.stepKey = loopEscalationStepKey ||
      !(r.metadata.flowId.bind db.jobs).any fun f => f.status.terminal)

def nodeClaim (db : Snapshot) (now : Time) (job : JobId) (worker : WorkerId) : Writes :=
  update db (fun k r => k = job && claimable db now r) fun _ r =>
    { r with
      status := .running, lockedByWorker := some worker, lockExpiresAt := some (now + 90000)
      attempt := r.attempt + 1, claimEpoch := some 0 }

lemma nodeClaim_row {db : Snapshot} (h : nodeClaim db now job worker k = some r) :
    ∃ r0, db.jobs k = some r0 ∧ r0.status.terminal = false ∧ r.depsPending = r0.depsPending ∧
      k = job ∧ claimable db now r0 = true ∧ r.status = .running := by
  obtain ⟨r0, hr0, hp, rfl⟩ := update_some.mp h
  simp only [Bool.and_eq_true, decide_eq_true_eq] at hp
  refine ⟨r0, hr0, ?_, rfl, hp.1, hp.2, rfl⟩
  have hc := hp.2
  simp only [claimable, Bool.and_eq_true, Bool.or_eq_true, decide_eq_true_eq] at hc
  rcases hc.1.1.1 with hs | ⟨hs, -⟩ <;> rw [hs] <;> rfl

def reclaimHasBudget (r : JobRow) : Bool :=
  r.retryKind = .indefinite || (r.attempt < r.maxAttempts && r.retryKind ≠ .nonRetryable)

def workerCrashedClass : String := "WorkerCrashed"

def lockExpiredMessage : String := "lock expired before worker reported terminal state"

/-- The reclaim sweep's lease arm; `grace` is its two cancel graces and the fixed minute. -/
def leaseExpired (now grace : Time) (r : JobRow) : Bool :=
  r.status = .running && r.lockExpiresAt.any fun exp =>
    exp < now && (r.cancelPhase = 0 || exp + grace < now)

def reclaimed (due : Time) (r : JobRow) : JobRow :=
  let clean := r.cancelPhase = 0
  { r with
    status := if !clean then .cancelled else if reclaimHasBudget r then .pending else .crashed
    lockedByWorker := none, lockExpiresAt := none
    scheduledAt := if clean && reclaimHasBudget r then due else r.scheduledAt
    errorClass := if clean && !reclaimHasBudget r then some workerCrashedClass else r.errorClass
    errorMessage := if clean && !reclaimHasBudget r then some lockExpiredMessage
      else r.errorMessage }

/-- One row of the reclaim sweep's batch (`_SWEEP_1_SQL`, lease arm). -/
def sweepReclaim (db : Snapshot) (now grace due : Time) (job : JobId) : Writes :=
  update db (fun k r => k = job && leaseExpired now grace r) fun _ r => reclaimed due r

lemma sweepReclaim_row {db : Snapshot} (h : sweepReclaim db now grace due job k = some r) :
    ∃ r0, db.jobs k = some r0 ∧ r0.status = .running ∧ r = reclaimed due r0 ∧ k = job := by
  obtain ⟨r0, hr0, hp, rfl⟩ := update_some.mp h
  simp only [leaseExpired, Bool.and_eq_true, decide_eq_true_eq] at hp
  exact ⟨r0, hr0, hp.2.1, rfl, hp.1⟩

end TaskQ
