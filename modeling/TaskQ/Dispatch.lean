import Mathlib.Data.String.Basic
import TaskQ.JobStatements
import TaskQ.Query

namespace TaskQ.Dispatch

open Jobs Query

structure ActorConfig where
  maxConcurrent : Option Int := none
  queue : String := "default"
  lastClaimedAt : Option Stamp := none

structure Slot where
  bucketName : String
  jobId : Option JobId
  keyed : Bool
  leaseExpiresAt : Option Stamp

structure World where
  jobs : List Row
  nodup : (jobs.map (·.id)).Nodup
  config : String → Option ActorConfig
  slots : List Slot
  /-- `metadata->>'workflow_execution'` of the registered workers. -/
  workflowExecution : WorkerId → Option Bool

/-- The three renders of the template; the cursor is a lower bound on the label-routed ids. -/
inductive Mode where
  | strictFifo
  | strictFifoCursor (bound : JobId)
  | roundRobin

/-- One statement's binds, its `statement_timestamp()`, its write clock and its sorts. -/
structure Round where
  mode : Mode
  queues : List String
  limit : Nat
  worker : WorkerId
  lockLease : Stamp
  oversample : Nat
  (ts now : Stamp)
  sorter : Sorter

def wfLoopEscalationStepKey : String := "loop.escalation"
def queueConcurrencyPrefix : String := "taskq:global:queue:"

/-- `COALESCE(fairness_key, '__null__')`. -/
def fkey (j : Row) : String := j.fairnessKey.getD "__null__"

structure Candidate where
  id : JobId
  actor : String
  (identityKey fairnessKey : Option String)
  fairnessRank : Option Nat
  priority : Int
  scheduledAt : Stamp
  residual : Int
  actorClaimedAt : Option Stamp
  maxConcurrent : Option Int

/-- A row of `per_actor_capacity` or `repend_capacity`. -/
structure Capacity where
  actor : String
  maxConcurrent : Option Int
  residual : Int
  actorClaimedAt : Option Stamp

/-- A row of `ranked`, `top_ids`, `locked`, `sliding_locked` or `claimed`. -/
structure Ranked where
  candidate : Candidate
  pendingRank : Nat

structure Eligible where
  ranked : Ranked
  maxConcurrent : Option Int
  actorRank : Nat
  inFlight : Int

/-- `ASC NULLS LAST`. -/
def nullsLast : Option Nat → Option Nat → Ordering
  | none, none => .eq
  | none, some _ => .gt
  | some _, none => .lt
  | some a, some b => compare a b

/-- `priority DESC, scheduled_at, id`. -/
def rowOrder (a b : Row) : Ordering :=
  (compare b.priority a.priority).then
    ((compare a.scheduledAt b.scheduledAt).then (compare a.id b.id))

/-- `priority DESC, scheduled_at`. -/
def urgency (a b : Candidate) : Ordering :=
  (compare b.priority a.priority).then (compare a.scheduledAt b.scheduledAt)

/-- `priority DESC, scheduled_at, id`. -/
def candidateOrder (a b : Candidate) : Ordering := (urgency a b).then (compare a.id b.id)

/-- `LEAST` of a value and a headroom that may be `NULL`. -/
def least (n : Int) : Option Nat → Int
  | none => n
  | some h => min n h

section
variable (w : World) (r : Round)

/-- `wf_exec_capable`. -/
def World.capable : Bool := (w.workflowExecution r.worker).getD false

def World.wfFence (j : Row) : Bool :=
  match j.stepKey with
  | none => true
  | some step => step != "__flow__" && w.capable r &&
      (step == wfLoopEscalationStepKey ||
        !w.jobs.any fun flow => j.flowId == some flow.id && flow.status.terminal)

/-- `status = 'pending' AND deps_pending = 0` and the fence, which scans, locks and claim share. -/
def World.claimable (j : Row) : Bool :=
  j.status == .pending && j.depsPending == 0 && w.wfFence r j

/-- `scheduled_at <= now AND (schedule_to_close IS NULL OR schedule_to_close > now)`. -/
def Round.due (j : Row) : Bool :=
  decide (j.scheduledAt ≤ r.ts) && j.scheduleToClose.all (r.ts < ·)

def Round.aboveCursor (j : Row) : Bool :=
  match r.mode with
  | .strictFifoCursor bound => decide (bound ≤ j.id)
  | _ => true

namespace World

def paKeys : List (String ×ₗ String) :=
  let keys := (w.jobs.filter fun j =>
    j.status == .pending && !j.assignmentRouted && r.queues.contains j.queue).map
      fun j => toLex (j.queue, j.actor)
  looseScan keys keys.length none

def rrKeys : List (String ×ₗ String ×ₗ String) :=
  let keys := (w.jobs.filter fun j =>
    j.status == .pending && !j.assignmentRouted && r.queues.contains j.queue).map
      fun j => toLex (j.actor, toLex (j.queue, fkey j))
  looseScan keys keys.length none

def rrTailKeys : List (String ×ₗ String) :=
  let keys := (w.jobs.filter fun j =>
    j.status == .pending && j.depsPending == 0 && j.assignmentRouted).map
      fun j => toLex (j.actor, fkey j)
  looseScan keys keys.length none

def paActors : List String :=
  match r.mode with
  | .roundRobin => ((w.rrKeys r).map fun k => (ofLex k).1).dedup
  | _ => ((w.paKeys r).map fun k => (ofLex k).2).dedup

/-- `SELECT DISTINCT actor FROM rr_tail_keys`. -/
def tailActors : List String := (w.rrTailKeys.map fun k => (ofLex k).1).dedup

def running (actor : String) : Nat :=
  w.jobs.countP fun j => j.actor == actor && j.status == .running

def cappedRunning : List (String × Int) :=
  (w.paActors r ++ w.tailActors).dedup.filterMap fun actor =>
    (w.config actor).map fun ac =>
      (actor, if ac.maxConcurrent = none then 0 else (w.running actor : Int))

/-- `COALESCE((SELECT in_flight FROM capped_running WHERE actor = ...), 0)`. -/
def inFlight (actor : String) : Int := ((w.cappedRunning r).lookup actor).getD 0

/-- `running_identities`. -/
def identityRunning (actor key : String) : Bool :=
  w.jobs.any fun j => j.status == .running && j.actor == actor && j.identityKey == some key

def reservationHoldings : List (String × String) :=
  ((w.slots.filter fun s => s.jobId.isSome && !s.keyed &&
      s.leaseExpiresAt.all fun t => decide (r.ts ≤ t)).flatMap fun s =>
    (w.jobs.filter fun j => s.jobId == some j.id).map fun j => (j.actor, s.bucketName)).dedup

def freeSlots (bucket : String) : Nat :=
  w.slots.countP fun s => s.bucketName == bucket &&
    (s.jobId.isNone || s.leaseExpiresAt.any fun t => decide (t < r.ts))

def reservationHeadroom (actor : String) : Option Nat :=
  (((w.reservationHoldings r).filter fun h =>
    h.1 == actor && !h.2.startsWith queueConcurrencyPrefix).map
      fun h => w.freeSlots r h.2).min?

def queueCapHeadroom (actor queue : String) : Option Nat :=
  (((w.reservationHoldings r).filter fun h =>
    h.1 == actor && h.2 == queueConcurrencyPrefix ++ queue).map fun h => w.freeSlots r h.2).min?

/-- The `residual` of either capacity CTE before the reservation headroom. -/
def baseResidual (actor : String) (ac : ActorConfig) : Int :=
  match ac.maxConcurrent with
  | none => r.limit
  | some cap => max (cap - w.inFlight r actor) 0

def capacity (actor : String) (ac : ActorConfig) : Capacity where
  actor := actor
  maxConcurrent := ac.maxConcurrent
  residual := least (w.baseResidual r actor ac) (w.reservationHeadroom r actor)
  actorClaimedAt := ac.lastClaimedAt

def hasPending (actor : String) : Bool :=
  r.queues.any fun q => w.jobs.any fun j => j.actor == actor && j.queue == q &&
    !j.assignmentRouted && j.status == .pending && j.depsPending == 0 && r.aboveCursor j

def perActorCapacity : List Capacity :=
  (w.paActors r).filterMap fun actor =>
    if w.hasPending r actor then (w.config actor).map (w.capacity r actor) else none

def rependCapacity : List Capacity :=
  w.tailActors.filterMap fun actor =>
    ((w.config actor).filter fun ac => r.queues.contains ac.queue).map (w.capacity r actor)

/-- A probe of the job table: a class in order, cut to the oversampled limit and then headroom. -/
def probe (p : Row → Bool) (headroom : Int) : List Row :=
  ((r.sorter.sort rowOrder (w.jobs.filter fun j => p j && w.claimable r j && r.due j)).take
    (r.limit * r.oversample)).take (headroom.toNat * r.oversample)

end World

def Capacity.candidate (c : Capacity) (fairnessRank : Option Nat) (j : Row) : Candidate where
  id := j.id
  actor := j.actor
  identityKey := j.identityKey
  fairnessKey := j.fairnessKey
  fairnessRank := fairnessRank
  priority := j.priority
  scheduledAt := j.scheduledAt
  residual := c.residual
  actorClaimedAt := c.actorClaimedAt
  maxConcurrent := c.maxConcurrent

/-- `ROW_NUMBER() OVER (PARTITION BY COALESCE(fairness_key, '__null__') ...)`. -/
def Round.fairnessRanks (rows : List Row) : List (Row × Nat) :=
  rowNumber fkey [] (r.sorter.sort rowOrder rows)

def labelRouted (actor queue : String) (j : Row) : Bool :=
  j.actor == actor && j.queue == queue && !j.assignmentRouted

def assignmentRouted (actor : String) (j : Row) : Bool := j.actor == actor && j.assignmentRouted

def World.labelLateral (c : Capacity) (queue : String) : List Candidate :=
  let headroom := least c.residual (w.queueCapHeadroom r c.actor queue)
  match r.mode with
  | .roundRobin =>
    let cohorts := (w.rrKeys r).filter fun k =>
      (ofLex k).1 == c.actor && (ofLex (ofLex k).2).1 == queue
    (r.fairnessRanks (cohorts.flatMap fun k => w.probe r
        (fun j => labelRouted c.actor queue j && fkey j == (ofLex (ofLex k).2).2) headroom)).map
      fun x => c.candidate (some x.2) x.1
  | _ =>
    (w.probe r (fun j => labelRouted c.actor queue j && r.aboveCursor j) headroom).map
      (c.candidate none)

def World.rependedLateral (c : Capacity) : List Candidate :=
  let cohorts := w.rrTailKeys.filter fun k => (ofLex k).1 == c.actor
  let rows := cohorts.flatMap fun k => w.probe r
    (fun j => assignmentRouted c.actor j && fkey j == (ofLex k).2) c.residual
  match r.mode with
  | .roundRobin => (r.fairnessRanks rows).map fun x => c.candidate (some x.2) x.1
  | _ => rows.map (c.candidate none)

def World.candidates : List Candidate :=
  ((w.perActorCapacity r).filter fun c => decide (0 < c.residual)).flatMap
      (fun c => r.queues.flatMap fun q => w.labelLateral r c q) ++
    ((w.rependCapacity r).filter fun c => decide (0 < c.residual)).flatMap
      fun c => w.rependedLateral r c

def World.identityDedup : List Candidate :=
  distinctOn (fun c => (c.actor, c.identityKey)) []
      (r.sorter.sort (fun a b => (compare a.actor b.actor).then
          ((compare a.identityKey b.identityKey).then (candidateOrder a b)))
        ((w.candidates r).filter fun c =>
          c.identityKey.any fun key => !w.identityRunning c.actor key)) ++
    (w.candidates r).filter fun c => c.identityKey.isNone

def Round.rankedOrder (a b : Candidate) : Ordering :=
  match r.mode with
  | .roundRobin => (nullsLast a.fairnessRank b.fairnessRank).then (candidateOrder a b)
  | _ => candidateOrder a b

def World.ranked : List Ranked :=
  (rowNumber (·.actor) [] (r.sorter.sort r.rankedOrder (w.identityDedup r))).map
    fun x => ⟨x.1, x.2⟩

/-- `pending_rank, priority DESC, actor_claimed_at ASC NULLS FIRST, scheduled_at, id`. -/
def lockOrder (a b : Ranked) : Ordering :=
  (compare a.pendingRank b.pendingRank).then
    ((compare b.candidate.priority a.candidate.priority).then
      ((compare a.candidate.actorClaimedAt b.candidate.actorClaimedAt).then
        ((compare a.candidate.scheduledAt b.candidate.scheduledAt).then
          (compare a.candidate.id b.candidate.id))))

def World.lockable (x : Ranked) : List Row :=
  w.jobs.filter fun j => j.id == x.candidate.id && w.claimable r j

/-- A row of `locked` or `sliding_locked`: the ranks of a ranked row with the columns of its job. -/
def Ranked.lock (x : Ranked) (j : Row) : Ranked :=
  { x with candidate := { x.candidate with
      id := j.id, actor := j.actor, identityKey := j.identityKey, fairnessKey := j.fairnessKey
      priority := j.priority, scheduledAt := j.scheduledAt } }

def World.topIds : List Ranked :=
  (r.sorter.sort lockOrder
    ((w.ranked r).filter fun x => x.candidate.maxConcurrent.isSome)).take r.limit

def World.locked : List Ranked :=
  (w.topIds r).flatMap fun x => (w.lockable r x).map x.lock

def World.slidingLocked : List Ranked :=
  let ids := ((w.ranked r).filter fun x => x.candidate.maxConcurrent.isNone).map (·.candidate.id)
  let joined := ((w.ranked r).filter fun x => ids.contains x.candidate.id).flatMap fun x =>
    (w.lockable r x).map fun j => (x, j)
  ((r.sorter.sort (fun a b => lockOrder a.1 b.1) joined).take r.limit).map fun a => a.1.lock a.2

def World.claimed : List Ranked := w.locked r ++ w.slidingLocked r

def Round.eligibleCandidatesOrder (a b : Ranked) : Ordering :=
  match r.mode with
  | .roundRobin => (nullsLast a.candidate.fairnessRank b.candidate.fairnessRank).then
      (urgency a.candidate b.candidate)
  | _ => urgency a.candidate b.candidate

/-- The `WHERE` of `eligible_candidates`, which the window function comes after. -/
def World.underCap (x : Ranked) : Bool :=
  (w.config x.candidate.actor).any fun ac =>
    ac.maxConcurrent.all fun cap => decide (w.inFlight r x.candidate.actor < cap)

/-- `ROW_NUMBER() OVER (PARTITION BY l.actor ...)` of the rows under their actor's cap. -/
def World.actorRanks : List (Ranked × Nat) :=
  rowNumber (·.candidate.actor) [] (r.sorter.sort r.eligibleCandidatesOrder
    ((w.claimed r).filter (w.underCap r)))

def World.eligibleCandidates : List Eligible :=
  (w.actorRanks r).filterMap fun x =>
    (w.config x.1.candidate.actor).map fun ac =>
      { ranked := x.1
        maxConcurrent := ac.maxConcurrent, actorRank := x.2
        inFlight := if ac.maxConcurrent = none then 0 else w.inFlight r x.1.candidate.actor }

/-- `pending_rank, fairness_rank, priority DESC, actor_claimed_at ASC NULLS FIRST, scheduled_at`. -/
def eligibleOrder (a b : Eligible) : Ordering :=
  (compare a.ranked.pendingRank b.ranked.pendingRank).then
    ((nullsLast a.ranked.candidate.fairnessRank b.ranked.candidate.fairnessRank).then
      ((compare b.ranked.candidate.priority a.ranked.candidate.priority).then
        ((compare a.ranked.candidate.actorClaimedAt b.ranked.candidate.actorClaimedAt).then
          (compare a.ranked.candidate.scheduledAt b.ranked.candidate.scheduledAt))))

/-- `actor_rank <= max_concurrent - in_flight`, where there is a cap. -/
def Eligible.inCap (e : Eligible) : Bool :=
  e.maxConcurrent.all fun cap => decide ((e.actorRank : Int) ≤ cap - e.inFlight)

def World.eligible : List Eligible :=
  (r.sorter.sort eligibleOrder ((w.eligibleCandidates r).filter Eligible.inCap)).take r.limit

def World.eligibleIds : List JobId := (w.eligible r).map (·.ranked.candidate.id)

def World.claims (j : Row) : Bool := (w.eligibleIds r).contains j.id && w.claimable r j

def World.claimRow (j : Row) : Row :=
  if w.claims r j then (j.claim r.worker r.now r.lockLease).getD j else j

lemma World.claimRow_id (j : Row) : (w.claimRow r j).id = j.id := by
  unfold World.claimRow Row.claim
  repeat' split
  all_goals rfl

def World.dispatch : World where
  jobs := w.jobs.map (w.claimRow r)
  nodup := by
    have hids : (w.jobs.map (w.claimRow r)).map (·.id) = w.jobs.map (·.id) := by
      simp [World.claimRow_id]
    exact hids ▸ w.nodup
  config actor :=
    if (w.eligible r).any fun e => e.ranked.candidate.actor == actor then
      (w.config actor).map fun ac => { ac with lastClaimedAt := some r.ts }
    else w.config actor
  slots := w.slots
  workflowExecution := w.workflowExecution

end

end TaskQ.Dispatch
