import TaskQ.Finalize

namespace TaskQ

def joinWait (r : JobRow) : Bool :=
  r.status = .pending && 0 < r.depsPending && r.metadata.blockingReason = some .join

/-- The `blocked` arm of `FAIL_CLOSED_CASCADE_SQL`. -/
def cascadeBlocks (db : Snapshot) (parent : JobId) (k : JobId) (r : JobRow) : Bool :=
  hasEdge db parent k (· = .failClosed) && joinWait r

/-- The `peers` arm: other parents of the fail-closed children, not terminal and no waiting joins.
-/
def cascadePeer (db : Snapshot) (parent : JobId) (k : JobId) (r : JobRow) : Bool :=
  (db.edges.any fun e => e.parent = parent && e.failurePolicy = .failClosed &&
      db.edges.any fun sib => sib.child = e.child && sib.parent = k) &&
    k ≠ parent && !r.status.terminal &&
    !(0 < r.depsPending && r.metadata.blockingReason = some .join)

/-- The `flow_failed` arm: the root fails only if some join was blocked. -/
def cascadeRoot (db : Snapshot) (parent flow : JobId) (k : JobId) (r : JobRow) : Bool :=
  k = flow && !r.status.terminal &&
    db.ids.any fun b => (db.jobs b).any (cascadeBlocks db parent b)

def cancelOriginPeerFailure : String := "CancelledByPeerFailure"

/-- `FAIL_CLOSED_CASCADE_SQL`, with the stamps `_resolve_failed_parent` binds. -/
def failClosedCascade (db : Snapshot) (c : FinalizeCall) : Writes :=
  update db
    (fun k r => cascadeBlocks db c.job k r || cascadePeer db c.job k r ||
      cascadeRoot db c.job c.flow k r)
    fun k r =>
      if cascadeBlocks db c.job k r then
        { r with metadata := { r.metadata with
            blockingReason := some .failedParent, failedParent := some c.job
            failedStep := some c.stepKey } }
      else if cascadePeer db c.job k r then
        { r with
          status := .cancelled, errorClass := some cancelOriginPeerFailure
          metadata := { r.metadata with peerCancel := some c.job } }
      else { r with status := .failed, errorClass := some cancelOriginPeerFailure }

lemma failClosedCascade_row {db : Snapshot} (h : failClosedCascade db c k = some r) :
    ∃ r0, db.jobs k = some r0 ∧ r.depsPending = r0.depsPending ∧
      (r.status = r0.status ∨ r0.status.terminal = false) := by
  obtain ⟨r0, hr0, hp, rfl⟩ := update_some.mp h
  refine ⟨r0, hr0, ?_⟩
  split
  · exact ⟨rfl, .inl rfl⟩
  rename_i hb
  split
  · rename_i hq
    simp only [cascadePeer, Bool.and_eq_true, Bool.not_eq_true'] at hq
    exact ⟨rfl, .inr hq.1.2⟩
  · rename_i hq
    simp only [Bool.or_eq_true, cascadeRoot, Bool.and_eq_true, Bool.not_eq_true'] at hp
    rcases hp with (hp | hp) | hp
    · exact absurd hp hb
    · exact absurd hp hq
    · exact ⟨rfl, .inr hp.1.2⟩

/-- The attempt history `COLLECT_FAN_IN_SQL` aggregates from the ledger. -/
def attemptHistory (db : Snapshot) (c : FinalizeCall) :
    List (Nat × Option String × Option String) :=
  ((db.ledger.filter fun l => l.flow = c.flow && l.stepKey = c.stepKey &&
      l.mapIndex = c.mapIndex &&
      (l.status = .done .succeeded || l.status = .done .failed)).insertionSort
        (fun a b => a.attempt ≤ b.attempt)).map
    fun l => (l.attempt, l.errorClass, l.errorMessage)

def collectFanIn (db : Snapshot) (c : FinalizeCall) : List (JobId × FailureInfo) :=
  (db.edges.filter fun e => e.parent = c.job && e.failurePolicy.absorbing &&
      (db.jobs e.child).any fun r => r.status = .pending && 0 < r.depsPending).map
    fun e => (e.child,
      { nodeKey := c.stepKey
        mapIndex := c.mapIndex
        error := ⟨c.errorClass.getD "", c.errorMessage.getD "", c.errorTraceback⟩
        attempts := attemptHistory db c, policy := e.failurePolicy })

def faninFailuresByteCap : Nat := 64 * 1024

/-- The three arms of the bounded append; `bytes` is the size of the array's text. -/
def Failures.append (bytes : List FailureInfo → Nat) (item : FailureInfo) : Failures → Failures
  | .truncated n => .truncated (n + 1)
  | .items l =>
    if bytes (l ++ [item]) ≤ faninFailuresByteCap then .items (l ++ [item])
    else .truncated (l.length + 1)

def collectFanInAppend (db : Snapshot) (bytes : List FailureInfo → Nat) (join : JobId)
    (item : FailureInfo) : Writes :=
  update db (fun k _ => k = join) fun _ r =>
    { r with metadata := { r.metadata with
        failures := r.metadata.failures.append bytes item } }

lemma collectFanInAppend_row {db : Snapshot}
    (h : collectFanInAppend db bytes join item k = some r) :
    ∃ r0, db.jobs k = some r0 ∧ r.depsPending = r0.depsPending ∧ r.status = r0.status := by
  obtain ⟨r0, hr0, -, rfl⟩ := update_some.mp h
  exact ⟨r0, hr0, rfl, rfl⟩

end TaskQ
