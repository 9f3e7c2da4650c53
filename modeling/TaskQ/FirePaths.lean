import TaskQ.Delivery

namespace TaskQ
open List Function

/-- The value under a `start_to_close_s` key: a number in the column's unit, or anything else. -/
inductive SecondsDoc where
  | number (n : Int)
  | other (text : String)
  deriving DecidableEq

def secondsOrNone : Option SecondsDoc → Option Nat
  | some (.number n) => if 0 ≤ n then some n.toNat else none
  | _ => none

structure BindingsDoc where
  (actor queue payload traceId : Option String)
  startToCloseS : Option SecondsDoc := none
  deriving DecidableEq

structure OutboxDoc where
  id : Nat
  (joinJob flow : JobId)
  consumerStepKey : String
  mapIndex : Option Nat
  doc : BindingsDoc
  delivered : Bool := false
  deriving DecidableEq

/-- The pair that `drain_outbox` inserts a consumer under. -/
def OutboxDoc.key (o : OutboxDoc) : String × String :=
  (idempotencyScope o.flow, stepIdempotencyKey o.consumerStepKey o.mapIndex)

def drainedRow (now : Time) (priority : Int) (o : OutboxDoc) : JobRow :=
  { actor := o.doc.actor.getD "workflow"
    queue := o.doc.queue.getD "default", payload := o.doc.payload, stepKey := o.consumerStepKey
    mapIndex := o.mapIndex, parentId := some o.joinJob, scheduledAt := now, traceId := o.doc.traceId
    idempotency := some o.key
    priority
    startToClose := secondsOrNone o.doc.startToCloseS, fairnessKey := some o.flow
    metadata := { flowId := some o.flow } }

section

/-- An outbox row of the join `j` without generated ids and without a trace not the join's. -/
def OutboxRow.withoutIds (j : JobRow) (o : OutboxRow) : OutboxRow :=
  { o with
    id := 0
    bindings := { o.bindings with
      traceId := if (j.traceId.filter (· ≠ "")).isSome then o.bindings.traceId else "" } }

structure Winner.Of (w : Winner) (join flow : JobId) (j : JobRow) : Prop where
  joinJob : w.fire.joinJob = join
  flow : w.fire.flow = flow
  traceId : w.traceId = j.traceId
  consumers : w.consumers = j.metadata.consumers

variable {db db' : Snapshot}

lemma fire_of (h : fire db join flow fireId by' = some w)
    (hj : db.jobs join = some j) : w.Of join flow j := by
  simp only [fire, hj] at h
  obtain ⟨-, rfl⟩ := Runs.matched h
  exact ⟨rfl, rfl, rfl, rfl⟩

lemma sweepFire_of (h : w ∈ sweepFire db now batch fresh minted)
    (hj : db.jobs w.fire.joinJob = some j) (hflow : j.metadata.flowId = some flow) :
    w.Of w.fire.joinJob flow j := by
  simp only [sweepFire, mem_filterMap, Option.bind_eq_some_iff, Option.map_eq_some_iff] at h
  obtain ⟨⟨k, i⟩, -, r, hr, flow', hflow', rfl⟩ := h
  cases hr.symm.trans hj
  exact ⟨rfl, Option.some.inj (hflow'.symm.trans hflow), rfl, rfl⟩

def plainRow (join flow : JobId) (j : JobRow) (c : ConsumerBinding) (startToClose : Option Nat) :
    OutboxRow :=
  { id := 0
    joinJob := join
    flow
    consumerStepKey := c.stepKey, mapIndex := c.mapIndex
    bindings :=
      { actor := c.actor
        queue := c.queue, payload := c.payload, traceId := (j.traceId.filter (· ≠ "")).getD ""
        startToClose } }

lemma outboxRow_withoutIds (h : Winner.Of w join flow j) :
    (outboxRow i w c startToClose).withoutIds j = plainRow join flow j c startToClose := by
  obtain ⟨rfl, rfl, htrace, -⟩ := h
  rw [OutboxRow.withoutIds, outboxRow, plainRow, htrace]
  cases j.traceId.filter (· ≠ "") <;> rfl

lemma finalizeOutbox_withoutIds (h : Winner.Of w join flow j) :
    (finalizeOutbox fresh w).map (OutboxRow.withoutIds j) =
      j.metadata.consumers.map fun c => plainRow join flow j c c.startToClose := by
  rw [finalizeOutbox, ← h.consumers]
  exact map_mapIdx_congr fun i c => outboxRow_withoutIds h

variable {ws : List Winner}

lemma flatMap_winner (hnodup : (ws.map fun w => w.fire.joinJob).Nodup)
    (hw : w ∈ ws) (f : Winner → List β) :
    (ws.filter fun w' => w'.fire.joinJob = w.fire.joinJob).flatMap f = f w := by
  have hfilt : (ws.filter fun w' => w'.fire.joinJob = w.fire.joinJob) = [w] := by
    induction ws with
    | nil => cases hw
    | cons v ws ih =>
      obtain ⟨hv, hnodup⟩ := nodup_cons.mp hnodup
      rcases mem_cons.mp hw with rfl | hw
      · have hrest : (ws.filter fun w' => w'.fire.joinJob = w.fire.joinJob) = [] := by
          rw [filter_eq_nil_iff]
          intro w' hw' he
          exact hv (mem_map.mpr ⟨w', hw', of_decide_eq_true he⟩)
        rw [filter_cons_of_pos (by simp), hrest]
      · have hne : v.fire.joinJob ≠ w.fire.joinJob := fun he =>
          hv (mem_map.mpr ⟨w, hw, he.symm⟩)
        rw [filter_cons_of_neg (by simpa using hne)]
        exact ih hnodup hw
  rw [hfilt, flatMap_singleton]

lemma filter_consumers : ((ws.flatMap fun w => w.consumers.map fun c => (w, c)).filter
      fun p => p.1.fire.joinJob = join) =
      (ws.filter fun w => w.fire.joinJob = join).flatMap fun w =>
        w.consumers.map fun c => (w, c) := by
  induction ws with
  | nil => rfl
  | cons w ws ih =>
    rw [flatMap_cons, filter_append, ih, filter_map]
    by_cases he : w.fire.joinJob = join
    · simp [he, comp_def]
    · simp [he, comp_def]

lemma sweepOutbox_withoutIds (hnodup : (ws.map fun w => w.fire.joinJob).Nodup) (hw : w ∈ ws)
    (h : Winner.Of w join flow j) :
    ((sweepOutbox fresh ws).filter fun o => o.joinJob = join).map (OutboxRow.withoutIds j) =
      j.metadata.consumers.map fun c => plainRow join flow j c none := by
  let pairs := ws.flatMap fun w => w.consumers.map fun c => (w, c)
  have hrows : (sweepOutbox fresh ws).map (OutboxRow.withoutIds j) =
      pairs.map fun p => (outboxRow 0 p.1 p.2 none).withoutIds j :=
    map_mapIdx_congr fun i p => rfl
  have hpairs : (pairs.filter fun p => p.1.fire.joinJob = join) =
      w.consumers.map fun c => (w, c) := by
    rw [filter_consumers, ← h.joinJob]
    exact flatMap_winner hnodup hw fun w => w.consumers.map fun c => (w, c)
  calc ((sweepOutbox fresh ws).filter fun o => o.joinJob = join).map (OutboxRow.withoutIds j)
      = ((sweepOutbox fresh ws).map (OutboxRow.withoutIds j)).filter fun o => o.joinJob = join := by
        rw [filter_map]
        rfl
    _ = (pairs.filter fun p => p.1.fire.joinJob = join).map
          fun p => (outboxRow 0 p.1 p.2 none).withoutIds j := by
        rw [hrows, filter_map]
        rfl
    _ = j.metadata.consumers.map fun c => plainRow join flow j c none := by
        rw [hpairs, map_map, h.consumers]
        apply map_congr_left
        intro c _
        exact outboxRow_withoutIds h

/-- Both paths fire a join alike just if no declared consumer has a deadline. -/
theorem fire_paths_agree_iff {db db' : Snapshot} (drained : Time) (priority : Int)
    (hj : db.jobs join = some j) (hj' : db'.jobs join = some j) (hflow : j.metadata.flowId = some flow)
    (hf : fire db join flow fireId .finalize = some w) (hids : db'.ids.Nodup)
    (hs : w' ∈ sweepFire db' now batch fresh' minted) (hjoin : w'.fire.joinJob = join) :
    let finalized := (finalizeOutbox fresh w).map (OutboxRow.withoutIds j)
    let swept := ((sweepOutbox fresh'' (sweepFire db' now batch fresh' minted)).filter
      fun o => o.joinJob = join).map (OutboxRow.withoutIds j)
    (finalized = swept ↔ ∀ c ∈ j.metadata.consumers, c.startToClose = none) ∧
    (finalized.map (consumerRow drained priority) = swept.map (consumerRow drained priority) ↔
      ∀ c ∈ j.metadata.consumers, c.startToClose = none) := by
  have hw := fire_of hf hj
  have hw' := sweepFire_of hs (hjoin ▸ hj') hflow
  rw [hjoin] at hw'
  intro finalized swept
  have hfinalized : finalized = _ := finalizeOutbox_withoutIds hw
  have hswept : swept = _ := sweepOutbox_withoutIds (nodup_sweepFire hids) hs hw'
  rw [hfinalized, hswept, map_map, map_map, map_inj_left, map_inj_left]
  constructor
  · apply forall₂_congr
    intro c _
    constructor
    · intro h
      exact congrArg (fun o : OutboxRow => o.bindings.startToClose) h
    · intro h
      rw [h]
  · apply forall₂_congr
    intro c _
    constructor
    · intro h
      exact congrArg JobRow.startToClose h
    · intro h
      rw [comp_apply, h]
      rfl

def readyJoin (startToClose : Option Nat) : JobRow :=
  { stepKey := "m.join"
    metadata :=
      { flowId := some 0
        blockingReason := some .join
        consumers := [{ stepKey := "use", actor := "use", queue := "default", startToClose }] } }

def readyRun (startToClose : Option Nat) : Snapshot where
  ids := [0, 1, 2]
  jobs k := match k with
    | 0 => some { stepKey := rootStepKey, status := .running, metadata := { flowId := some 0 } }
    | 1 => some { stepKey := "m[0]", status := .succeeded, metadata := { flowId := some 0 } }
    | 2 => some (readyJoin startToClose)
    | _ => none
  jobLocked _ := false
  edges := [{ child := 2, parent := 1, flow := 0 }]
  fires := []
  outbox := []
  outboxLocked _ := false
  ledger := []

/-- The deadline of the consumer is lost when the sweep fires the join. -/
theorem sweep_drops_deadline : ∃ w, fire (readyRun (some 30)) 2 0 7 .finalize = some w ∧
      (finalizeOutbox 8 w).map (fun o => (consumerRow 0 0 o).startToClose) = [some 30] ∧
      (sweepOutbox 8 (sweepFire (readyRun (some 30)) 0 10 7 1)).map
        (fun o => (o.joinJob, (consumerRow 0 0 o).startToClose)) = [(2, none)] :=
  ⟨_, rfl, rfl, by decide +kernel⟩

theorem fire_paths_agree_plain : ∃ w, fire (readyRun none) 2 0 7 .finalize = some w ∧
      (finalizeOutbox 8 w).map (OutboxRow.withoutIds (readyJoin none)) =
        ((sweepOutbox 20 (sweepFire (readyRun none) 0 10 11 1)).filter fun o => o.joinJob = 2).map
          (OutboxRow.withoutIds (readyJoin none)) := by
  let w' : Winner := ⟨⟨11, 2, 0, "m.join", .sweep⟩, none, (readyJoin none).metadata.consumers⟩
  have hj : (readyRun none).jobs 2 = some (readyJoin none) := rfl
  have hw' : w' ∈ sweepFire (readyRun none) 0 10 11 1 := by decide +kernel
  refine ⟨_, rfl, ?_⟩
  apply (fire_paths_agree_iff 0 0 hj hj rfl rfl (by decide) hw' rfl).1.mpr
  decide

end

end TaskQ
