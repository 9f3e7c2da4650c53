import TaskQ.CronLeast
import TaskQ.Dict
import TaskQ.Rows

namespace TaskQ

def JobStatus.ownsDelivery : JobStatus → Bool
  | .pending | .scheduled | .running | .succeeded | .cancelled | .abandoned => true
  | .failed | .crashed => false

namespace Cron
open Timezone

abbrev ScheduleId := Nat

/-- What a row of `cron_schedules` declares: its expression and timezone are `cron` and `zone`. -/
structure ScheduleDef where
  id : ScheduleId
  actor : String
  zone : MinuteZone
  cron : Croniter zone
  dstStrategy : DstStrategy
  payloadFactory : Option String

structure Position where
  nextFireAt : Int
  enabled : Bool
  consecutiveFailures : Nat

structure Schedule extends ScheduleDef, Position

structure ScheduleTable where
  rows : List Schedule
  distinct : (rows.map fun r => r.id).Nodup

lemma ScheduleTable.update_distinct (T : ScheduleTable) (f : Schedule → Position) :
    ((T.rows.map fun r => (⟨r.toScheduleDef, f r⟩ : Schedule)).map fun r => r.id).Nodup := by
  rw [List.map_map]
  exact T.distinct

def ScheduleTable.update (T : ScheduleTable) (f : Schedule → Position) : ScheduleTable :=
  ⟨T.rows.map fun r => ⟨r.toScheduleDef, f r⟩, T.update_distinct f⟩

structure CronJob where
  id : JobId
  actor : String
  cronScheduleId : Option ScheduleId
  singleton : Bool
  scheduledAt : Int
  status : JobStatus

structure ActorFirePolicy where
  singleton : Bool
  maxPending : Option Int

structure ActorConfig where
  maxPending : Option Int

/-- What a worker brings to its ticks. No policies and an empty map of them are the same. -/
structure CronWorker where
  actorPolicies : List (String × ActorFirePolicy)
  catchUpWindow : Int
  autoDisableThreshold : Nat

/-- A due row's payload: `unfunded` when the tick's budget ran out before its factory. -/
inductive Payload where
  | resolved | raises | unfunded
  deriving DecidableEq

/-- What a tick leaves open: its clocks, limit, payloads, new job ids and failing inserts. -/
structure Tick where
  (serverNow transactionNow : Int)
  limit : Nat
  payload : ScheduleId → Payload
  newJobId : ScheduleId → Nat → JobId
  struck : List ScheduleId

/-- The tables of a tick; the ghost `enqueued` holds the instants a schedule had jobs for. -/
structure CronDb where
  schedules : ScheduleTable
  jobs : List CronJob
  actorConfigs : String → Option ActorConfig
  enqueued : List (ScheduleId × Int)

structure FireArgs where
  id : JobId
  actor : String
  scheduledAt : Option LocalTime
  cronScheduleId : ScheduleId
  singleton : Bool
  maxPending : Option Int

structure FireSuccess where
  row : Schedule
  fireAt : Int
  enqueueArgs : List FireArgs
  nextFireAt : LocalTime

inductive SuppressReason where
  | singletonCollision (blockingJobId : JobId)
  | maxPending (currentCount cap : Int)
  | tickBudget

structure SuppressedFire where
  scheduleId : ScheduleId
  actor : String
  nextFireAt : Int
  reason : SuppressReason

inductive FireError where
  | actorNotFound (actor : String)
  | payload
  | tickBudgetExhausted

def resolveMaxPending (stored literal : Option Int) : Option Int := stored.or literal

def CronWorker.policy (w : CronWorker) (actor : String) : Option ActorFirePolicy :=
  w.actorPolicies.lookup actor

def CronWorker.singleton (w : CronWorker) (actor : String) : Bool :=
  (w.policy actor).any fun p => p.singleton

lemma computeNextFireAfter_ne_nil {z : MinuteZone} (c : Croniter z) (after : Int)
    (s : DstStrategy) : computeNextFireAfter c after s ≠ [] := by
  rw [computeNextFireAfter]
  split
  · exact List.cons_ne_nil _ _
  split
  · exact List.cons_ne_nil _ _
  · rw [walkedFires]
    split_ifs <;> exact List.cons_ne_nil _ _

def nextFire {z : MinuteZone} (c : Croniter z) (after : Int) (s : DstStrategy) : LocalTime :=
  (computeNextFireAfter c after s).head (computeNextFireAfter_ne_nil c after s)

section
variable (w : CronWorker) (configs : String → Option ActorConfig) (t : Tick)

def fireArgs (row : ScheduleDef) (ac : ActorConfig) (n : Nat) (scheduledAt : Option LocalTime) :
    FireArgs where
  id := t.newJobId row.id n
  actor := row.actor
  scheduledAt := scheduledAt
  cronScheduleId := row.id
  singleton := w.singleton row.actor
  maxPending := resolveMaxPending ac.maxPending ((w.policy row.actor).bind fun p => p.maxPending)

/-- The slot a due row fires; one from before the catch-up window is recomputed. -/
def fireSlot (row : Schedule) : Int :=
  if row.nextFireAt < t.serverNow - w.catchUpWindow then
    row.zone.instant (nextFire row.cron t.serverNow row.dstStrategy)
  else row.nextFireAt

def planFire (row : Schedule) : Except FireError FireSuccess :=
  match configs row.actor with
  | none => .error (.actorNotFound row.actor)
  | some ac =>
    if row.payloadFactory.isSome ∧ t.payload row.id = .unfunded then .error .tickBudgetExhausted
    else if t.payload row.id = .raises then .error .payload
    else
      let fireAt := fireSlot w t row
      let immediate := fireArgs w t row.toScheduleDef ac 0 none
      .ok
        { row := row
          fireAt := fireAt
          enqueueArgs := match computeNextFireAfter row.cron fireAt row.dstStrategy with
            | _ :: later :: _ =>
              if row.dstStrategy = .allof ∧ w.singleton row.actor = false then
                [immediate, fireArgs w t row.toScheduleDef ac 1 (some later)]
              else [immediate]
            | _ => [immediate]
          nextFireAt := nextFire row.cron fireAt row.dstStrategy }

end

section
variable {z : MinuteZone} (c : Croniter z)

lemma hop_decreases (h : current < stop) (hlt : ¬ nxt ≤ current) :
    (stop - nxt : Int).toNat < (stop - current).toNat := by
  omega

def hopCovered (covered : List Int) (rangeEnd : Int) (current : LocalTime) : LocalTime :=
  if _ : z.instant current < rangeEnd ∧ z.instant current ∈ covered then
    let nxt := nextFire c (z.instant current) .allof
    if _ : z.instant nxt ≤ z.instant current then current
    else hopCovered covered rangeEnd nxt
  else current
termination_by (rangeEnd - z.instant current).toNat
decreasing_by exact hop_decreases (And.left ‹_ ∧ _›) ‹¬ _›

end

def deliveredInstants (jobs : List CronJob) (plan : FireSuccess) (rangeEnd : Int) : List Int :=
  (jobs.filter fun j => j.actor = plan.row.actor ∧ j.cronScheduleId = some plan.row.id ∧
    plan.row.zone.instant plan.nextFireAt ≤ j.scheduledAt ∧ j.scheduledAt < rangeEnd ∧
    j.status.ownsDelivery).map fun j => j.scheduledAt

/-- `_skip_already_delivered_overlap_twins`, on one plan. -/
def skipAlreadyDelivered (w : CronWorker) (jobs : List CronJob) (plan : FireSuccess) :
    FireSuccess :=
  if w.singleton plan.row.actor ∨ plan.row.dstStrategy ≠ .allof then plan
  else
    match repeatedRangeBounds plan.row.zone plan.nextFireAt.naive with
    | none => plan
    | some (_, stop) =>
      let rangeEnd := plan.row.zone.instant ⟨stop, false⟩
      { plan with
        nextFireAt := hopCovered plan.row.cron (deliveredInstants jobs plan rangeEnd) rangeEnd
          plan.nextFireAt }

section

structure Preflight where
  blocking : String → Option JobId
  capped : String → Option Int
  pendingCounts : String → Nat

def blockingJob (w : CronWorker) (jobs : List CronJob) (actor : String) : Option JobId :=
  if w.singleton actor then
    ((jobs.filter fun j => j.actor = actor ∧ j.singleton ∧
      (j.status = .pending ∨ j.status = .scheduled ∨ j.status = .running)).map fun j => j.id).min?
  else none

def effectiveCap (w : CronWorker) (configs : String → Option ActorConfig) (actor : String) :
    Option Int :=
  resolveMaxPending ((configs actor).bind fun ac => ac.maxPending)
    ((w.policy actor).bind fun p => p.maxPending)

def preflight (w : CronWorker) (configs : String → Option ActorConfig) (jobs : List CronJob) :
    Preflight where
  blocking := blockingJob w jobs
  capped := effectiveCap w configs
  pendingCounts actor := jobs.countP fun j =>
    j.actor = actor ∧ (j.status = .pending ∨ j.status = .scheduled)

structure Admitted where
  firedSingletonJob : List (String × JobId)
  intraPending : List (String × Nat)

inductive Decision where
  | keep (plan : FireSuccess)
  | suppress (entry : SuppressedFire)

def FireSuccess.suppressed (plan : FireSuccess) (reason : SuppressReason) : SuppressedFire :=
  ⟨plan.row.id, plan.row.actor, plan.row.zone.instant plan.nextFireAt, reason⟩

def FireSuccess.trim (plan : FireSuccess) (capacity : Nat) (deferredAt : LocalTime) : FireSuccess :=
  { plan with
    enqueueArgs := plan.enqueueArgs.take capacity, nextFireAt := deferredAt }

variable (w : CronWorker) (q : Preflight)

def Preflight.occupied (acc : Admitted) (actor : String) : Int :=
  q.pendingCounts actor + (acc.intraPending.lookup actor).getD 0

def Preflight.judge (acc : Admitted) (plan : FireSuccess) : Decision :=
  let actor := plan.row.actor
  match q.blocking actor with
  | some id => .suppress (plan.suppressed (.singletonCollision id))
  | none =>
    match (acc.firedSingletonJob.lookup actor).filter fun _ => w.singleton actor with
    | some id => .suppress (plan.suppressed (.singletonCollision id))
    | none =>
      match q.capped actor with
      | none => .keep plan
      | some cap =>
        let occupied := q.occupied acc actor
        if cap ≤ occupied then .suppress (plan.suppressed (.maxPending occupied cap))
        else
          let capacity := (cap - occupied).toNat
          match plan.enqueueArgs[capacity]? with
          | none => .keep plan
          | some arg =>
            match arg.scheduledAt with
            | none => .suppress (plan.suppressed (.maxPending occupied cap))
            | some deferredAt => .keep (plan.trim capacity deferredAt)

def Preflight.charge (acc : Admitted) : Decision → Admitted
  | .suppress _ => acc
  | .keep plan =>
    let actor := plan.row.actor
    { firedSingletonJob := match plan.enqueueArgs with
        | arg :: _ =>
          if w.singleton actor then Dict.set actor arg.id acc.firedSingletonJob
          else acc.firedSingletonJob
        | [] => acc.firedSingletonJob
      intraPending :=
        if (q.capped actor).isSome then
          Dict.set actor ((acc.intraPending.lookup actor).getD 0 + plan.enqueueArgs.length)
            acc.intraPending
        else acc.intraPending }

def Preflight.suppressPolicyCollisions (acc : Admitted) :
    List FireSuccess → List FireSuccess × List SuppressedFire
  | [] => ([], [])
  | plan :: plans =>
    let decision := q.judge w acc plan
    let rest := suppressPolicyCollisions (q.charge w acc decision) plans
    match decision with
    | .keep plan' => (plan' :: rest.1, rest.2)
    | .suppress entry => (rest.1, entry :: rest.2)

def Preflight.turns (acc : Admitted) : List FireSuccess → List (Admitted × FireSuccess)
  | [] => []
  | plan :: plans => (acc, plan) :: turns (q.charge w acc (q.judge w acc plan)) plans

end

section
variable (w : CronWorker) (t : Tick) (s : CronDb)

def CronDb.due : List Schedule :=
  ((s.schedules.rows.filter fun r => r.enabled ∧ r.nextFireAt ≤ t.serverNow).insertionSort
    fun a b => a.nextFireAt < b.nextFireAt ∨ (a.nextFireAt = b.nextFireAt ∧ a.id ≤ b.id)).take
      t.limit

def CronDb.successes : List FireSuccess :=
  (s.due t).filterMap fun row =>
    match planFire w s.actorConfigs t row with
    | .ok plan => some (skipAlreadyDelivered w s.jobs plan)
    | .error _ => none

def tickBudgetRetryDelay : Int := second

def CronDb.deferred : List SuppressedFire :=
  (s.due t).filterMap fun row =>
    match planFire w s.actorConfigs t row with
    | .error .tickBudgetExhausted =>
      some ⟨row.id, row.actor, t.serverNow + tickBudgetRetryDelay, .tickBudget⟩
    | _ => none

def CronDb.failed : List ScheduleId :=
  (s.due t).filterMap fun row =>
    match planFire w s.actorConfigs t row with
    | .error .tickBudgetExhausted | .ok _ => none
    | .error _ => some row.id

def CronDb.judged : List FireSuccess × List SuppressedFire :=
  if w.actorPolicies.isEmpty then (s.successes w t, [])
  else (preflight w s.actorConfigs s.jobs).suppressPolicyCollisions w ⟨[], []⟩ (s.successes w t)

/-- `_enqueue_planned_fires`. -/
def CronDb.landed : List FireSuccess :=
  (s.judged w t).1.filter fun plan => plan.row.id ∉ t.struck

def CronDb.failures : List ScheduleId :=
  s.failed w t ++ ((s.judged w t).1.filter fun plan => plan.row.id ∈ t.struck).map
    fun plan => plan.row.id

def CronDb.suppressed : List SuppressedFire := s.deferred w t ++ (s.judged w t).2

/-- The row `enqueue_batch` inserts; an immediate job is stamped with the server's clock. -/
def FireSuccess.job (plan : FireSuccess) (arg : FireArgs) : CronJob :=
  let scheduledAt := (arg.scheduledAt.map plan.row.zone.instant).getD t.transactionNow
  { id := arg.id
    actor := arg.actor, cronScheduleId := some arg.cronScheduleId, singleton := arg.singleton
    scheduledAt := scheduledAt
    status := if t.transactionNow < scheduledAt then .scheduled else .pending }

def FireSuccess.occurrences (plan : FireSuccess) : List (ScheduleId × Int) :=
  plan.enqueueArgs.map fun arg =>
    (plan.row.id, (arg.scheduledAt.map plan.row.zone.instant).getD plan.fireAt)

def advanceFired (landed : List FireSuccess) (r : Schedule) : Position :=
  match landed.find? fun plan => plan.row.id = r.id with
  | some plan => ⟨plan.row.zone.instant plan.nextFireAt, r.enabled, 0⟩
  | none => r.toPosition

def advanceSuppressed (suppressed : List SuppressedFire) (r : Schedule) : Position :=
  match suppressed.find? fun entry => entry.scheduleId = r.id with
  | some entry => { r.toPosition with nextFireAt := entry.nextFireAt }
  | none => r.toPosition

def strikeFailed (failures : List ScheduleId) (r : Schedule) : Position :=
  if r.id ∈ failures ∧ r.enabled then
    { r.toPosition with
      consecutiveFailures := r.consecutiveFailures + 1
      enabled := decide (r.consecutiveFailures + 1 < w.autoDisableThreshold) }
  else r.toPosition

def CronDb.tick : CronDb where
  schedules := ((s.schedules.update (advanceFired (s.landed w t))).update
    (advanceSuppressed (s.suppressed w t))).update (strikeFailed w (s.failures w t))
  jobs := s.jobs ++ (s.landed w t).flatMap fun plan => plan.enqueueArgs.map (plan.job t)
  actorConfigs := s.actorConfigs
  enqueued := s.enqueued ++ (s.landed w t).flatMap fun plan => plan.occurrences

end

inductive CronEvent where
  | tick (t : Tick)
  | elsewhere (jobs : List CronJob) (actorConfigs : String → Option ActorConfig)

def cronStep (w : CronWorker) (s : CronDb) : CronEvent → Option CronDb
  | .tick t => some (s.tick w t)
  | .elsewhere jobs actorConfigs => some { s with jobs, actorConfigs }

end Cron

end TaskQ
