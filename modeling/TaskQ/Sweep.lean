import TaskQ.Cascade

namespace TaskQ

structure EdgeCounts where
  (edgeCount missingParents unterminal failedRequired : Nat)

/-- The edges of `child`, each with its parent's row (the `LEFT JOIN`). -/
def parentRows (db : Snapshot) (child : JobId) : List (Edge × Option JobRow) :=
  (db.edges.filter fun e => e.child = child).map fun e => (e, db.jobs e.parent)

def counts (db : Snapshot) (child : JobId) : EdgeCounts :=
  let ps := parentRows db child
  { edgeCount := ps.length
    missingParents := ps.countP fun p => p.2.isNone
    unterminal := ps.countP fun p => p.2.any fun r => !r.status.terminal
    failedRequired := ps.countP fun p =>
      p.1.failurePolicy = .failClosed && p.2.any fun r => r.status = .failed }

lemma counts_unterminal (db : Snapshot) : (counts db child).unterminal =
    (db.edges.filter fun e => e.child = child).countP fun e =>
      (db.jobs e.parent).any fun p => !p.status.terminal := by
  simp only [counts, parentRows, List.countP_map]
  rfl

variable {db : Snapshot}

lemma parent_of_missingParents (h : (counts db child).missingParents = 0)
    (he : e ∈ db.edges.filter fun e => e.child = child) : ∃ p, db.jobs e.parent = some p := by
  simp only [counts, parentRows, List.countP_map, List.countP_eq_zero] at h
  have hn := h e he
  cases hp : db.jobs e.parent with
  | none => simp [hp] at hn
  | some p => exact ⟨p, rfl⟩

lemma terminal_of_unterminal (h : (counts db child).unterminal = 0)
    (he : e ∈ db.edges.filter fun e => e.child = child) (hp : db.jobs e.parent = some p) :
    p.status.terminal = true := by
  rw [counts_unterminal, List.countP_eq_zero] at h
  have hn := h e he
  simpa [hp] using hn

lemma not_failed_of_failedRequired (h : (counts db child).failedRequired = 0)
    (he : e ∈ db.edges.filter fun e => e.child = child) (hp : db.jobs e.parent = some p)
    (hc : e.failurePolicy = .failClosed) : p.status ≠ .failed := by
  simp only [counts, parentRows, List.countP_map, List.countP_eq_zero] at h
  have hn := h e he
  simpa [hp, hc] using hn

/-- The `locked` arm of `REDERIVE_SWEEP_SQL`. -/
def rederiveLocked (db : Snapshot) (now : Time) (batch : Nat) : List JobId :=
  lockBatch db batch fun r => joinWait r && r.scheduledAt ≤ now

/-- The `blocked` arm: an edge without a parent row, or no edge at all. -/
def orphaned (db : Snapshot) (k : JobId) : Bool :=
  0 < (counts db k).missingParents || (counts db k).edgeCount = 0

def requiredFailed (db : Snapshot) (k : JobId) : Bool :=
  0 < (counts db k).failedRequired && (counts db k).missingParents = 0 &&
    0 < (counts db k).edgeCount

/-- The failed parent of least id that `flow_fenced` names. -/
def failedParentOf (db : Snapshot) (k : JobId) : Option JobId :=
  (((db.edges.filter fun e => e.child = k &&
      (db.jobs e.parent).any fun p => p.status = .failed).map Edge.parent).insertionSort
        (· ≤ ·)).head?

/-- The `flow_fenced` arm: unfired waiting rows of terminal runs, over the whole table. -/
def flowFenced (db : Snapshot) (locked : List JobId) (k : JobId) (r : JobRow) : Bool :=
  r.status = .pending && r.metadata.blockingReason = some .join &&
    (r.metadata.flowId.bind db.jobs).any (fun f => f.stepKey = rootStepKey && f.status.terminal) &&
    !db.fires.any (fun f => f.joinJob = k) &&
    !(k ∈ locked && (orphaned db k || requiredFailed db k))

/-- The `reconciled` arm: the counter is rewritten to the number of non-terminal parents. -/
def reconciles (db : Snapshot) (locked : List JobId) (k : JobId) (r : JobRow) : Bool :=
  k ∈ locked && (counts db k).missingParents = 0 && (counts db k).failedRequired = 0 &&
    0 < (counts db k).edgeCount && !flowFenced db locked k r &&
    r.depsPending ≠ (counts db k).unterminal

lemma counts_of_reconciles (h : reconciles db locked k r = true) :
    k ∈ locked ∧ (counts db k).missingParents = 0 ∧ (counts db k).failedRequired = 0 := by
  simp only [reconciles, Bool.and_eq_true, decide_eq_true_eq] at h
  exact ⟨h.1.1.1.1.1, h.1.1.1.1.2, h.1.1.1.2⟩

def stampReason (reason : BlockingReason) (r : JobRow) : JobRow :=
  { r with metadata := { r.metadata with blockingReason := some reason } }

/-- `REDERIVE_SWEEP_SQL`'s updates for a locked batch; a row no arm updates is still locked. -/
def rederiveArms (db : Snapshot) (locked : List JobId) : Writes :=
  update db (fun k r => k ∈ locked || flowFenced db locked k r) fun k r =>
    if k ∈ locked && orphaned db k then stampReason .orphanParent r
    else if k ∈ locked && requiredFailed db k then stampReason .failedParent r
    else if flowFenced db locked k r then
      { r with metadata := { r.metadata with
          blockingReason :=
            some (if (failedParentOf db k).isSome then .failedParent else .flowDead)
          failedParent := failedParentOf db k
          failedStep := (failedParentOf db k).bind fun p => (db.jobs p).map JobRow.stepKey } }
    else if reconciles db locked k r then { r with depsPending := (counts db k).unterminal }
    else r

def rederiveSweep (db : Snapshot) (now : Time) (batch : Nat) : Writes :=
  rederiveArms db (rederiveLocked db now batch)

lemma rederiveSweep_row (h : rederiveSweep db now batch k = some r) :
    ∃ r0, db.jobs k = some r0 ∧ r.status = r0.status ∧ (r.depsPending = r0.depsPending ∨
        reconciles db (rederiveLocked db now batch) k r0 = true ∧
          r.depsPending = (counts db k).unterminal) := by
  rw [rederiveSweep, rederiveArms] at h
  obtain ⟨r0, hr0, -, rfl⟩ := update_some.mp h
  refine ⟨r0, hr0, ?_⟩
  split
  · exact ⟨rfl, .inl rfl⟩
  split
  · exact ⟨rfl, .inl rfl⟩
  split
  · exact ⟨rfl, .inl rfl⟩
  split
  · rename_i hc
    exact ⟨rfl, .inr ⟨hc, rfl⟩⟩
  · exact ⟨rfl, .inl rfl⟩

def firable (db : Snapshot) (k : JobId) : Bool :=
  0 < (counts db k).edgeCount && (counts db k).missingParents = 0 &&
    (counts db k).unterminal = 0 && (counts db k).failedRequired = 0

def firableCount (db : Snapshot) (now : Time) (batch : Nat) : Nat :=
  let locked := rederiveLocked db now batch
  locked.countP fun k => firable db k && !(db.jobs k).any (flowFenced db locked k)

/-- The `locked` arm of `SWEEP_FIRE_SQL`: it does not look at the counter. -/
def sweepFireLocked (db : Snapshot) (now : Time) (batch : Nat) : List JobId :=
  lockBatch db batch fun r =>
    r.status = .pending && r.metadata.blockingReason = some .join && r.scheduledAt ≤ now

def sweepFire (db : Snapshot) (now : Time) (batch fresh minted : Nat) : List Winner :=
  let firables := (sweepFireLocked db now batch).filter (firable db)
  ((firables.take minted).zipIdx.filter fun p =>
      (db.jobs p.1).any (fun r => r.metadata.flowId.any (flowAlive db)) &&
        !db.fires.any (fun f => f.joinJob = p.1)).filterMap
    fun p => (db.jobs p.1).bind fun r => r.metadata.flowId.map fun flow =>
      ⟨⟨fresh + p.2, p.1, flow, r.stepKey, .sweep⟩, r.traceId, r.metadata.consumers⟩

def sweepFireLocks (db : Snapshot) (now : Time) (batch : Nat) : Writes :=
  update db (fun k _ => k ∈ sweepFireLocked db now batch) fun _ r => r

lemma sweepFireLocks_row (h : sweepFireLocks db now batch k = some r) : db.jobs k = some r := by
  obtain ⟨r0, hr0, -, rfl⟩ := update_some.mp h
  exact hr0

def joinBodyUnavailable (db : Snapshot) (join : JobId) : Writes :=
  update db (fun k _ => k = join) fun _ r => stampReason .bodyUnavailable r

lemma joinBodyUnavailable_row (h : joinBodyUnavailable db join k = some r) :
    ∃ r0, db.jobs k = some r0 ∧ r.status = r0.status ∧ r.depsPending = r0.depsPending := by
  obtain ⟨r0, hr0, -, rfl⟩ := update_some.mp h
  exact ⟨r0, hr0, rfl, rfl⟩

def absorbed (db : Snapshot) (k : JobId) : Bool :=
  db.edges.any fun e => e.parent = k && e.failurePolicy.absorbing &&
    (db.jobs e.child).any fun j => !(j.status = .pending &&
      (j.metadata.blockingReason = some .failedParent ||
        j.metadata.blockingReason = some .orphanParent ||
        j.metadata.blockingReason = some .flowDead))

def nodesOf (db : Snapshot) (flow : JobId) : List (JobId × JobRow) :=
  db.ids.filterMap fun k => (db.jobs k).bind fun r =>
    if r.metadata.flowId = some flow ∧ r.stepKey ≠ rootStepKey then some (k, r) else none

def hasFailed (db : Snapshot) (flow : JobId) : Bool :=
  (nodesOf db flow).any fun n => n.2.status.failedClass && !absorbed db n.1

def hasUnresolved (db : Snapshot) (flow : JobId) : Bool :=
  (nodesOf db flow).any fun n => n.2.status = .running ||
    ((n.2.status = .pending || n.2.status = .scheduled) && n.2.metadata.blockingReason.isNone)

def hasCancelled (db : Snapshot) (flow : JobId) : Bool :=
  (nodesOf db flow).any fun n => n.2.status = .cancelled

def hasLive (db : Snapshot) (flow : JobId) : Bool :=
  (nodesOf db flow).any fun n => !n.2.status.terminal

def maintainedRoots (db : Snapshot) (batch : Nat) : List JobId :=
  lockBatch db batch fun r => r.stepKey = rootStepKey && r.status = .running

/-- `WORKFLOW_ROOT_MAINTAIN_SQL`. A root without node rows is not in `per_flow`. -/
def workflowRootMaintain (db : Snapshot) (batch : Nat) : Writes :=
  update db (fun k _ => k ∈ maintainedRoots db batch) fun k r =>
    if (nodesOf db k).length ≠ 0 ∧
        ((hasFailed db k && !hasUnresolved db k) || !hasLive db k) = true then
      { r with
        status := if hasFailed db k then .failed
          else if hasCancelled db k then .cancelled else .succeeded
        errorClass := if r.errorClass.isSome then r.errorClass
          else if hasFailed db k then some "UnabsorbedNodeFailure" else none }
    else r

lemma workflowRootMaintain_row (h : workflowRootMaintain db batch k = some r) :
    ∃ r0, db.jobs k = some r0 ∧ r.depsPending = r0.depsPending ∧ r0.status = .running := by
  obtain ⟨r0, hr0, hp, rfl⟩ := update_some.mp h
  obtain ⟨-, r1, hr1, hs⟩ := mem_lockBatch (of_decide_eq_true hp)
  cases hr0.symm.trans hr1
  simp only [Bool.and_eq_true, decide_eq_true_eq] at hs
  refine ⟨r0, hr0, ?_, hs.2⟩
  split <;> rfl

end TaskQ
