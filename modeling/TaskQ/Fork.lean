import TaskQ.Finalize

namespace TaskQ
open List

structure ChildSpec where
  (stepKey actor queue : String)
  payload : Option String := none
  mapIndex : Option Nat := none
  priority : Option Int := none
  startToClose : Option Nat := none

structure JoinSpec where
  (stepKey actor queue : String)
  payload : Option String := none
  consumers : List ConsumerBinding := []
  failurePolicy : EdgeFailurePolicy := .failClosed
  childDriven : Bool := false

structure ForkSpec where
  children : List ChildSpec
  join : Option JoinSpec := none
  traceId : Option String := none
  maxAttempts : Nat := 3
  retryKind : RetryKind := .transient
  priority : Option Int := none
  startToClose : Option Nat := none

def maxFanInPerJoin : Nat := 1000

def validateFork (f : ForkSpec) : Bool :=
  match f.join with
  | none => !f.children.isEmpty
  | some j => f.children.length ≤ maxFanInPerJoin || j.childDriven

def idempotencyScope (flow : JobId) : String := "workflow:" ++ toString flow

def mapIndexLeg : Option Nat → String
  | none => ""
  | some i => ":" ++ toString i

/-- `step_idempotency_key`, which `drain_outbox` spells for its consumer rows too. -/
def stepIdempotencyKey (stepKey : String) (mapIndex : Option Nat) : String :=
  "wf:" ++ stepKey ++ mapIndexLeg mapIndex

def forkIdempotencyKey (flow : JobId) (parentStepKey stepKey : String) (mapIndex : Option Nat) :
    String :=
  "wf:" ++ toString flow ++ ":" ++ parentStepKey ++ ":" ++ stepKey ++ mapIndexLeg mapIndex

def insertJobs (rows : List (JobId × JobRow)) : Writes := fun k =>
  (rows.find? fun p => p.1 = k).map Prod.snd

lemma insertJobs_some (h : insertJobs rows k = some r) : (k, r) ∈ rows := by
  obtain ⟨p, hp, rfl⟩ := Option.map_eq_some_iff.mp h
  have hk := find?_some hp
  obtain rfl : p.1 = k := by simpa using hk
  exact mem_of_find?_eq_some hp

lemma exists_insertJobs (h : (k, r) ∈ rows) : ∃ r', insertJobs rows k = some r' := by
  have hs : (rows.find? fun p => decide (p.1 = k)).isSome = true := by
    rw [find?_isSome]
    exact ⟨(k, r), h, decide_eq_true rfl⟩
  obtain ⟨p, hp⟩ := Option.isSome_iff_exists.mp hs
  exact ⟨p.2, Option.map_eq_some_iff.mpr ⟨p, hp, rfl⟩⟩

def idempotencyTaken (db : Snapshot) (key : String × String) : Bool :=
  db.ids.any fun k => (db.jobs k).any fun r => r.idempotency = some key

/-- The row of one fan-out child (`FORK_CHILDREN_SQL`). -/
def forkChildRow (now : Time) (c : FinalizeCall) (f : ForkSpec) (s : ChildSpec) : JobRow :=
  { actor := s.actor
    queue := s.queue, payload := s.payload, stepKey := s.stepKey, mapIndex := s.mapIndex
    parentId := some c.job, scheduledAt := now, maxAttempts := f.maxAttempts
    retryKind := f.retryKind, traceId := f.traceId
    idempotency := some (idempotencyScope c.flow,
      forkIdempotencyKey c.flow c.stepKey s.stepKey s.mapIndex)
    priority := s.priority.getD 0, startToClose := s.startToClose, fairnessKey := some c.flow
    metadata := { flowId := some c.flow } }

def forkChildRows (now : Time) (fresh : Nat) (c : FinalizeCall) (f : ForkSpec) :
    List (JobId × JobRow) :=
  f.children.mapIdx fun i s => (fresh + i, forkChildRow now c f s)

lemma mem_forkChildRows {k : Nat} (h : (k, r) ∈ forkChildRows now fresh c f) :
    fresh ≤ k ∧ k < fresh + f.children.length ∧ ∃ s ∈ f.children, r = forkChildRow now c f s := by
  obtain ⟨i, hi, he⟩ := mem_mapIdx.mp h
  cases he
  exact ⟨Nat.le_add_right _ _, Nat.add_lt_add_left hi _, _, getElem_mem hi, rfl⟩

lemma nodup_forkChildRows : ((forkChildRows now fresh c f).map Prod.fst).Nodup := by
  rw [List.Nodup, pairwise_iff_getElem]
  intro i j hi hj hij he
  simp only [forkChildRows, getElem_map, getElem_mapIdx] at he
  exact Nat.ne_of_lt hij (Nat.add_left_cancel he)

/-- A binding as the metadata document stores it: the failure policy is not serialised. -/
def storedBinding (c : ConsumerBinding) : ConsumerBinding :=
  { c with failurePolicy := .failClosed }

/-- `FORK_JOIN_NODE_SQL`: the join is born with one dependency per child. -/
def forkJoinRow (now : Time) (c : FinalizeCall) (f : ForkSpec) (j : JoinSpec) : JobRow :=
  { actor := j.actor
    queue := j.queue, payload := j.payload, stepKey := j.stepKey, parentId := some c.job
    depsPending := f.children.length, scheduledAt := now, maxAttempts := f.maxAttempts
    retryKind := f.retryKind, traceId := f.traceId
    idempotency := some (idempotencyScope c.flow,
      forkIdempotencyKey c.flow c.stepKey j.stepKey none)
    priority := f.priority.getD 0, startToClose := f.startToClose, fairnessKey := some c.flow
    metadata :=
      { flowId := some c.flow
        blockingReason := some .join, consumers := j.consumers.map storedBinding } }

def adoptionCandidates (db : Snapshot) (flow : JobId) (stepKey : String) : List JobId :=
  db.ids.filter fun k => (db.jobs k).any fun r =>
    r.stepKey = stepKey && r.metadata.flowId = some flow

/-- The adoption `UPDATE`: the children's weight is added and the consumers are stamped. -/
def adoptJoin (db : Snapshot) (f : ForkSpec) (j : JoinSpec) (join : JobId) : Writes :=
  update db (fun k _ => k = join) fun _ r =>
    { r with
      depsPending := r.depsPending + f.children.length
      metadata := { r.metadata with
        blockingReason := some .join, consumers := j.consumers.map storedBinding } }

variable {db : Snapshot}

lemma adoptJoin_row (h : adoptJoin db f j join k = some r) :
    k = join ∧ ∃ r0, db.jobs k = some r0 ∧ r.status = r0.status ∧
      r0.depsPending ≤ r.depsPending := by
  obtain ⟨r0, hr0, hk, rfl⟩ := update_some.mp h
  exact ⟨of_decide_eq_true hk, r0, hr0, rfl, Nat.le_add_right _ _⟩

def forkEdges (c : FinalizeCall) (children : List JobId) : List Edge :=
  children.map fun k => { child := k, parent := c.job, flow := c.flow }

def joinEdges (c : FinalizeCall) (j : JoinSpec) (join : JobId) (children : List JobId) :
    List Edge :=
  children.map fun k =>
    { child := join, parent := k, flow := c.flow, failurePolicy := j.failurePolicy }

/-- `FORK_CONSUMER_EDGES_SQL`: an edge from the join to each row of a consumer's step key. -/
def consumerEdges (db : Snapshot) (c : FinalizeCall) (j : JoinSpec) (join : JobId) : List Edge :=
  j.consumers.flatMap fun b => (adoptionCandidates db c.flow b.stepKey).map fun k =>
    { child := k, parent := join, flow := c.flow, failurePolicy := b.failurePolicy }

/-- The primary key of `wf_edge` refuses the insert. -/
def edgesClash (db : Snapshot) (es : List Edge) : Bool :=
  (es.any fun e => db.edges.any fun d => d.child = e.child && d.parent = e.parent) ||
    !(es.map fun e => (e.child, e.parent)).Nodup

/-- The consumer row one outbox row turns into (`drain_outbox`). -/
def consumerRow (now : Time) (priority : Int) (o : OutboxRow) : JobRow :=
  { actor := o.bindings.actor
    queue := o.bindings.queue, payload := o.bindings.payload, stepKey := o.consumerStepKey
    mapIndex := o.mapIndex, parentId := some o.joinJob, scheduledAt := now
    traceId := some o.bindings.traceId
    idempotency := some (idempotencyScope o.flow, stepIdempotencyKey o.consumerStepKey o.mapIndex)
    priority
    startToClose := o.bindings.startToClose, fairnessKey := some o.flow
    metadata := { flowId := some o.flow } }

/-- `OUTBOX_DRAIN_CONSUMERS_SQL` with its `ON CONFLICT DO NOTHING`: the rows really inserted. -/
def drainConsumers (db : Snapshot) (now : Time) (priority : OutboxRow → Int) :
    Nat → List OutboxRow → List (JobId × JobRow)
  | _, [] => []
  | fresh, o :: os =>
    let row := consumerRow now (priority o) o
    let rest := (drainConsumers db now priority (fresh + 1) os).filter fun p =>
      p.2.idempotency ≠ row.idempotency
    if row.idempotency.any (idempotencyTaken db) then
      drainConsumers db now priority (fresh + 1) os
    else (fresh, row) :: rest

lemma mem_drainConsumers {k : Nat} (h : (k, r) ∈ drainConsumers db now priority fresh rows) :
    fresh ≤ k ∧ k < fresh + rows.length ∧ ∃ o ∈ rows, r = consumerRow now (priority o) o ∧
        r.idempotency.any (idempotencyTaken db) = false := by
  induction rows generalizing fresh with
  | nil => cases h
  | cons o os ih =>
    rw [drainConsumers] at h
    have tail : (k, r) ∈ drainConsumers db now priority (fresh + 1) os →
        fresh ≤ k ∧ k < fresh + (o :: os).length ∧
          ∃ o' ∈ o :: os, r = consumerRow now (priority o') o' ∧
            r.idempotency.any (idempotencyTaken db) = false := by
      intro hp
      obtain ⟨h1, h2, o', ho', hp'⟩ := ih hp
      refine ⟨by omega, ?_, o', mem_cons_of_mem _ ho', hp'⟩
      rw [length_cons]
      omega
    split at h
    · exact tail h
    rename_i ht
    rcases mem_cons.mp h with h | h
    · cases h
      refine ⟨le_rfl, ?_, o, mem_cons_self, rfl, by simpa using ht⟩
      rw [length_cons]
      omega
    · exact tail (mem_filter.mp h).1

lemma nodup_drainConsumers :
    ((drainConsumers db now priority fresh rows).map Prod.fst).Nodup := by
  induction rows generalizing fresh with
  | nil => exact nodup_nil
  | cons o os ih =>
    rw [drainConsumers]
    split
    · exact ih
    refine nodup_cons.mpr ⟨fun hm => ?_, ih.sublist (filter_sublist.map _)⟩
    obtain ⟨⟨_, r⟩, hr, rfl⟩ := mem_map.mp hm
    have hl := (mem_drainConsumers (mem_filter.mp hr).1).1
    omega

end TaskQ
