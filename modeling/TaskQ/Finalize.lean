import TaskQ.Rows

namespace TaskQ

abbrev Writes := JobId → Option JobRow

/-- `UPDATE jobs SET f WHERE p`. -/
def update (db : Snapshot) (p : JobId → JobRow → Bool) (f : JobId → JobRow → JobRow) : Writes :=
  fun k =>
    match db.jobs k with
    | some r => if p k r then some (f k r) else none
    | none => none

variable {db : Snapshot}

lemma update_some :
    update db p f k = some r ↔ ∃ r0, db.jobs k = some r0 ∧ p k r0 = true ∧ f k r0 = r := by
  unfold update
  split
  · rename_i r0 hr0
    split <;> simp_all
  · rename_i hn
    simp [hn]

structure FinalizeCall where
  (job flow : JobId)
  stepKey : String
  mapIndex : Option Nat := none
  worker : WorkerId
  attempt : Nat
  claimEpoch : Option Nat
  outcome : Outcome
  result : Option NodeResult := none
  errorClass : Option String := none
  errorMessage : Option String := none
  errorTraceback : Option String := none

/-- The fence of `TERMINAL_MARK_SQL`. -/
def holdsClaim (c : FinalizeCall) (r : JobRow) : Bool :=
  r.status = .running && sqlEq r.lockedByWorker (some c.worker) && r.attempt = c.attempt &&
    sqlEq r.claimEpoch c.claimEpoch

def terminalMark (db : Snapshot) (c : FinalizeCall) : Writes :=
  update db (fun k r => k = c.job && holdsClaim c r) fun _ r =>
    { r with
      status := c.outcome.1, result := c.result, errorClass := c.errorClass
      errorMessage := c.errorMessage }

lemma terminalMark_row (h : terminalMark db c k = some r) : k = c.job ∧ r.status = c.outcome.1 ∧
      ∃ r0, db.jobs k = some r0 ∧ r0.status = .running ∧ r.depsPending = r0.depsPending := by
  obtain ⟨r0, hr0, hp, rfl⟩ := update_some.mp h
  simp only [holdsClaim, Bool.and_eq_true, decide_eq_true_eq] at hp
  obtain ⟨hk, ⟨⟨hs, -⟩, -⟩, -⟩ := hp
  exact ⟨hk, rfl, r0, hr0, hs, rfl⟩

def ownLedgerRow (c : FinalizeCall) (l : LedgerRow) : Bool :=
  l.flow = c.flow && l.stepKey = c.stepKey && l.attempt = c.attempt && l.mapIndex = c.mapIndex

def ledgerTerminal (c : FinalizeCall) (l : LedgerRow) : Option LedgerRow :=
  if ownLedgerRow c l then
    some { l with
      status := .done c.outcome.1, errorClass := c.errorClass, errorMessage := c.errorMessage }
  else none

def ledgerFenceAttempt (c : FinalizeCall) (l : LedgerRow) : Option LedgerRow :=
  if ownLedgerRow c l && l.status = .running then
    some { l with status := .fenced, errorClass := c.errorClass }
  else none

def hasEdge (db : Snapshot) (parent child : JobId) (p : EdgeFailurePolicy → Bool) : Bool :=
  db.edges.any fun e => e.parent = parent && e.child = child && p e.failurePolicy

lemma hasEdge_iff : hasEdge db parent child p = true ↔
    ∃ e ∈ db.edges, e.parent = parent ∧ e.child = child ∧ p e.failurePolicy = true := by
  simp [hasEdge, and_assoc]

/-- The row predicate both decrement statements share; `p` selects the edge policies. -/
def countsDown (db : Snapshot) (parent flow : JobId) (p : EdgeFailurePolicy → Bool)
    (k : JobId) (r : JobRow) : Bool :=
  hasEdge db parent k p && 0 < r.depsPending && r.status = .pending && flowAlive db flow

def decrementWhere (db : Snapshot) (parent flow : JobId) (p : EdgeFailurePolicy → Bool) : Writes :=
  update db (countsDown db parent flow p) fun _ r => { r with depsPending := r.depsPending - 1 }

lemma decrementWhere_row (h : decrementWhere db parent flow p k = some r) :
    ∃ r0, db.jobs k = some r0 ∧ r.status = r0.status ∧ 0 < r0.depsPending ∧
      r.depsPending = r0.depsPending - 1 ∧ hasEdge db parent k p = true := by
  obtain ⟨r0, hr0, hp, rfl⟩ := update_some.mp h
  simp only [countsDown, Bool.and_eq_true, decide_eq_true_eq] at hp
  obtain ⟨⟨⟨he, hd⟩, -⟩, -⟩ := hp
  exact ⟨r0, hr0, rfl, hd, rfl, he⟩

def decrement (db : Snapshot) (parent flow : JobId) : Writes :=
  decrementWhere db parent flow fun _ => true

def decrementAbsorbed (db : Snapshot) (parent flow : JobId) : Writes :=
  decrementWhere db parent flow EdgeFailurePolicy.absorbing

structure DecrementHit where
  joinJob : JobId
  depsPending : Nat

def hits (db : Snapshot) (w : Writes) : List DecrementHit :=
  db.ids.filterMap fun k => (w k).map fun r => ⟨k, r.depsPending⟩

lemma nodup_hits (h : db.ids.Nodup) : ((hits db w).map DecrementHit.joinJob).Nodup := by
  have hmap : (hits db w).map DecrementHit.joinJob = db.ids.filter fun k => (w k).isSome := by
    rw [hits, List.map_filterMap, ← List.filterMap_eq_filter]
    refine List.filterMap_congr fun k _ => ?_
    cases hw : w k <;> simp [Option.guard, hw]
  rw [hmap]
  exact h.filter _

lemma mem_hits : h ∈ hits db w ↔
    h.joinJob ∈ db.ids ∧ ∃ r, w h.joinJob = some r ∧ r.depsPending = h.depsPending := by
  simp only [hits, List.mem_filterMap, Option.map_eq_some_iff]
  constructor
  · rintro ⟨k, hk, r, hr, rfl⟩
    exact ⟨hk, r, hr, rfl⟩
  · rintro ⟨hk, r, hr, hd⟩
    exact ⟨_, hk, r, hr, by rw [hd]⟩

structure Winner where
  fire : JoinFire
  traceId : Option String
  consumers : List ConsumerBinding
  deriving DecidableEq

def fire (db : Snapshot) (join flow : JobId) (fireId : Nat) (by' : FiredBy) : Option Winner :=
  match db.jobs join with
  | some j =>
    if j.depsPending = 0 && j.status = .pending && flowAlive db flow &&
        !db.fires.any (fun f => f.joinJob = join) then
      some ⟨⟨fireId, join, flow, j.stepKey, by'⟩, j.traceId, j.metadata.consumers⟩
    else none
  | none => none

lemma fire_some (h : fire db join flow fireId by' = some w) :
    w.fire.joinJob = join ∧ w.fire.firedBy = by' ∧ (∀ f ∈ db.fires, f.joinJob ≠ join) ∧
      ∃ j, db.jobs join = some j ∧ j.depsPending = 0 ∧ j.status = .pending ∧
        w.consumers = j.metadata.consumers := by
  unfold fire at h
  split at h
  · rename_i j hj
    split at h
    · rename_i hc
      simp only [Bool.and_eq_true, decide_eq_true_eq, Bool.not_eq_true', List.any_eq_false] at hc
      obtain ⟨⟨⟨hd, hs⟩, -⟩, hf⟩ := hc
      cases h
      exact ⟨rfl, rfl, hf, j, hj, hd, hs, rfl⟩
    · cases h
  · cases h

/-- One outbox row of a fire. The trace is the join's own when it has one, else the fire's
id. -/
def outboxRow (id : Nat) (w : Winner) (c : ConsumerBinding) (startToClose : Option Nat) :
    OutboxRow :=
  { id
    joinJob := w.fire.joinJob, flow := w.fire.flow, consumerStepKey := c.stepKey
    mapIndex := c.mapIndex
    bindings :=
      { actor := c.actor
        queue := c.queue, payload := c.payload
        traceId := (w.traceId.filter (· ≠ "")).getD (toString w.fire.id)
        startToClose } }

/-- The rows `_fire_and_deliver` writes: one per declared consumer, ids minted from `fresh`. -/
def finalizeOutbox (fresh : Nat) (w : Winner) : List OutboxRow :=
  w.consumers.mapIdx fun i c => outboxRow (fresh + i) w c c.startToClose

/-- The rows `sweep_join_rederive` writes for all its winners; its bindings carry no deadline. -/
def sweepOutbox (fresh : Nat) (ws : List Winner) : List OutboxRow :=
  (ws.flatMap fun w => w.consumers.map fun c => (w, c)).mapIdx fun i p =>
    outboxRow (fresh + i) p.1 p.2 none

end TaskQ
