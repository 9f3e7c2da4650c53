import TaskQ.Release

namespace TaskQ
open RowLocks

structure Board where
  db : Snapshot
  holds : List HoldId
  signals : HoldId → Option SignalRow
  locked : HoldId → Bool

/-- What the environment decides of a statement: the clock, and which rows it meets first. -/
structure DeskEnv where
  now : Time := 0
  choice : Nat := 0
  rank : HoldId → Nat := id

def Board.resolving (b : Board) (f : Resolution) : HoldId → Option SignalRow := fun h =>
  (b.signals h).bind (f h)

def heldNodeByHold (db : Snapshot) (nodeKey : String) (flow : JobId) (hold : HoldId) : List JobId :=
  db.ids.filter fun k => (db.jobs k).any fun r =>
    r.stepKey = nodeKey && r.inFlow flow && r.metadata.hold = some hold

/-- The lookup of the timer arm and of the child-join arm: any node of the key with a hold stamp. -/
def heldNodeByKey (db : Snapshot) (nodeKey : String) (flow : JobId) : List JobId :=
  db.ids.filter fun k => (db.jobs k).any fun r =>
    r.stepKey = nodeKey && r.inFlow flow && r.metadata.hold.isSome

def DeskEnv.pick (env : DeskEnv) (l : List JobId) : Option JobId := l[env.choice % l.length]?

/-- The rows `_EXPIRY_SWEEP_SQL` locks. -/
def expiredBatch (b : Board) (now : Time) (batch : Nat) : List HoldId :=
  ((b.holds.filter fun h => !b.locked h && (b.signals h).any fun r =>
    r.status = .held && r.expiresAt.any (· ≤ now) &&
      !startsWith timerMark r.signalName).insertionSort (· ≤ ·)).take batch

def deadlineOrder (b : Board) (h h' : HoldId) : Bool :=
  let e := ((b.signals h).bind SignalRow.expiresAt).getD 0
  let e' := ((b.signals h').bind SignalRow.expiresAt).getD 0
  e < e' || e = e' && h ≤ h'

/-- The rows `_TIMER_FIRE_SQL` locks. -/
def dueTimers (b : Board) (now : Time) (batch : Nat) : List HoldId :=
  ((b.holds.filter fun h => !b.locked h && (b.signals h).any fun r =>
    r.status = .held && startsWith timerMark r.signalName &&
      r.expiresAt.any (· ≤ now)).insertionSort fun h h' => deadlineOrder b h h').take batch

def childRoot (db : Snapshot) (signalName : String) : Option JobRow :=
  ((db.ids.find? fun k => childJoinMark ++ toString k = signalName).bind db.jobs).filter
    fun j => j.stepKey = rootStepKey

def childVerdict (db : Snapshot) (r : SignalRow) : Option Payload :=
  let child := dropMark childJoinMark r.signalName
  match childRoot db r.signalName with
  | none => some (.childVerdict child none)
  | some j => if j.status.terminal then some (.childVerdict child (some j.status)) else none

/-- The `verdicts` of `_CHILD_WAKE_DELIVER_SQL`, read without a lock. The `_` of its `LIKE` pattern
match any character, but the runner writes no other name of that shape. -/
def childVerdicts (b : Board) (env : DeskEnv) (batch : Nat) : List (HoldId × Payload) :=
  let due := ((b.holds.filter fun h => (b.signals h).any fun r =>
    r.status = .held && startsWith childJoinMark r.signalName).insertionSort
      fun h h' => env.rank h ≤ env.rank h').take batch
  due.filterMap fun h => (b.signals h).bind fun r => (childVerdict b.db r).map fun v => (h, v)

/-- `deliver_payload`, which names the run, or `HitlClient.resolve`; `fits` is the shape check. -/
structure HandCall where
  workflow : Option JobId
  hold : HoldId
  payload : String
  fits : Bool := true

inductive DeliveryStatus where
  | delivered | noOp | refused
  deriving DecidableEq

def staleStatus (r : Option SignalRow) : DeliveryStatus :=
  if r.any fun r => r.status = .delivered then .noOp else .refused

def boundaryRefuses (r : Option SignalRow) (fits : Bool) : Bool :=
  r.any fun r => r.status = .held && (startsWith timerMark r.signalName || !fits)

inductive HandPc where
  | childJoin
  | boundary
  | select
  | lockNode (nodeKey : String) (flow : JobId)
  | cas (node : Option JobId)
  | lookup (nodeKey : String) (flow : JobId)
  | resume (node : JobId)
  | finish (res : DeliveryStatus)

inductive CancelPc where
  | jobs | signals | commit

inductive SignalSweep where
  | expired
  | dueTimers (drain : Bool) (maxBatches : Nat)
  | childJoins

/-- Where a sweep stands; `n` counts its batches and `full` says a batch reached its limit. -/
inductive SignalSweepPc where
  | fetch (n : Nat)
  | deliver (done : List (HoldId × SignalRow)) (todo : List (HoldId × Payload))
  | lookup (n : Nat) (full : Bool) (rows : List (HoldId × SignalRow))
  | resume (n : Nat) (full : Bool) (node : JobId) (hold : HoldId)
    (rows : List (HoldId × SignalRow))

inductive DeskSession where
  | hand (c : HandCall) (pc : HandPc)
  | cancel (flow : JobId) (reason : String) (pc : CancelPc)
  | sweep (kind : SignalSweep) (batch : Nat) (pc : SignalSweepPc)

structure DeskEffect where
  jobs : Writes := fun _ => none
  signals : HoldId → Option SignalRow := fun _ => none
  commits : Bool := false
  report : Option HoldId := none
  next : Option DeskSession

def execHand (env : DeskEnv) (b : Board) (c : HandCall) : HandPc → DeskEffect
  | .childJoin =>
    let refused := (b.signals c.hold).any fun r => startsWith childJoinMark r.signalName
    { next := if refused then none else some (.hand c .boundary) }
  | .boundary =>
    let next := if c.workflow.isSome then .cas none else .select
    { next := if boundaryRefuses (b.signals c.hold) c.fits then none else some (.hand c next) }
  | .select =>
    match b.signals c.hold with
    | some r =>
      if r.status = .held then { next := some (.hand c (.lockNode r.nodeKey r.workflow)) }
      else { next := some (.hand c (.finish (staleStatus (some r)))) }
    | none => { next := some (.hand c (.finish .refused)) }
  | .lockNode nodeKey flow =>
    let node := env.pick (heldNodeByHold b.db nodeKey flow c.hold)
    { jobs := fun k => if some k = node then b.db.jobs k else none
      next := some (.hand c (.cas node)) }
  | .cas node =>
    let w := b.resolving (match c.workflow with
      | some flow => deliverCas flow env.now c.hold c.payload
      | none => resolveCas env.now c.hold c.payload)
    match w c.hold with
    | some r =>
      let next := if r.nodeKey = "" then .finish .refused
        else if c.workflow.isSome then .lookup r.nodeKey r.workflow
        else match node with
          | some k => .resume k
          | none => .finish .refused
      { signals := w, next := some (.hand c next) }
    | none => { next := some (.hand c (.finish (staleStatus (b.signals c.hold)))) }
  | .lookup nodeKey flow =>
    match env.pick (heldNodeByHold b.db nodeKey flow c.hold) with
    | some k => { next := some (.hand c (.resume k)) }
    | none => { next := some (.hand c (.finish .refused)) }
  | .resume node =>
    let w := deliverResume b.db env.now node
    { jobs := w
      next := some (.hand c (.finish (if (w node).isSome then .delivered else .refused))) }
  | .finish res =>
    { commits := true, report := if res = .delivered then some c.hold else none, next := none }

def execCancel (env : DeskEnv) (b : Board) (flow : JobId) (reason : String) : CancelPc → DeskEffect
  | .jobs =>
    let w := cancelOneRun b.db flow reason
    if (w flow).isNone then { commits := true, next := none }
    else { jobs := w, next := some (.cancel flow reason .signals) }
  | .signals =>
    { signals := b.resolving (cancelRunSignals env.now flow)
      next := some (.cancel flow reason .commit) }
  | .commit => { commits := true, next := none }

def SignalSweep.nodes (kind : SignalSweep) (db : Snapshot) (hold : HoldId) (r : SignalRow) :
    List JobId :=
  match kind with
  | .expired => heldNodeByHold db r.nodeKey r.workflow hold
  | .dueTimers _ _ | .childJoins => heldNodeByKey db r.nodeKey r.workflow

def SignalSweep.again (kind : SignalSweep) (n : Nat) (full : Bool) : Bool :=
  match kind with
  | .dueTimers drain maxBatches => drain && full && n < maxBatches
  | .expired | .childJoins => false

def returned (holds : List HoldId) (w : HoldId → Option SignalRow) : List (HoldId × SignalRow) :=
  holds.filterMap fun h => (w h).map fun r => (h, r)

def execSignalSweep (env : DeskEnv) (b : Board) (kind : SignalSweep) (batch : Nat) :
    SignalSweepPc → DeskEffect
  | .fetch n =>
    match kind with
    | .expired =>
      let due := expiredBatch b env.now batch
      let w := b.resolving (expirySweep env.now due)
      { signals := w
        commits := true, next := some (.sweep kind batch (.lookup (n + 1) false (returned due w))) }
    | .dueTimers _ _ =>
      let due := dueTimers b env.now batch
      let w := b.resolving (timerFire env.now due)
      { signals := w
        commits := true
        next := some (.sweep kind batch (.lookup (n + 1) (batch ≤ due.length) (returned due w))) }
    | .childJoins =>
      let vs := childVerdicts b env batch
      { next := some (.sweep kind batch (.deliver [] vs)) }
  | .deliver done ((h, v) :: todo) =>
    let w := b.resolving (childWakeDeliver env.now h v)
    { signals := w
      next := some (.sweep kind batch (.deliver (done ++ returned [h] w) todo)) }
  | .deliver done [] =>
    { commits := true, next := some (.sweep kind batch (.lookup 1 false done)) }
  | .lookup n full ((h, r) :: rows) =>
    match env.pick (kind.nodes b.db h r) with
    | some k => { next := some (.sweep kind batch (.resume n full k h rows)) }
    | none => { next := some (.sweep kind batch (.lookup n full rows)) }
  | .lookup n full [] =>
    { next := if kind.again n full then some (.sweep kind batch (.fetch n)) else none }
  | .resume n full node _ rows =>
    { jobs := deliverResume b.db env.now node
      commits := true, next := some (.sweep kind batch (.lookup n full rows)) }

def execDesk (env : DeskEnv) (b : Board) : DeskSession → DeskEffect
  | .hand c pc => execHand env b c pc
  | .cancel flow reason pc => execCancel env b flow reason pc
  | .sweep kind batch pc => execSignalSweep env b kind batch pc

/-- The job and hold rows with the open sessions; the ghost `reported` is what was delivered. -/
structure Desk where
  ids : List JobId
  jobs : JobId → Slot Tx JobRow
  holds : List HoldId
  signals : HoldId → Slot Tx SignalRow
  sessions : Tx → Option DeskSession := fun _ => none
  reported : List HoldId := []

def Desk.board (s : Desk) (t : Tx) : Board where
  db :=
    { ids := s.ids
      jobs := fun k => (s.jobs k).view t, jobLocked := fun k => !(s.jobs k).free t, edges := []
      fires := [], outbox := [], outboxLocked := fun _ => false, ledger := [] }
  holds := s.holds
  signals h := (s.signals h).view t
  locked h := !(s.signals h).free t

def Desk.admits (s : Desk) (t : Tx) (e : DeskEffect) : Bool :=
  (s.ids.all fun k => (e.jobs k).isNone || (s.jobs k).free t) &&
    s.holds.all fun h => (e.signals h).isNone || (s.signals h).free t

def Desk.apply (s : Desk) (t : Tx) (e : DeskEffect) : Desk where
  ids := s.ids
  jobs := statement t e.commits e.jobs s.jobs
  holds := s.holds
  signals := statement t e.commits e.signals s.signals
  sessions := Function.update s.sessions t e.next
  reported := e.report.toList ++ s.reported

inductive DeskCall where
  | deliverPayload (workflow : JobId) (hold : HoldId) (payload : String) (fits : Bool)
  | resolve (hold : HoldId) (payload : String) (fits : Bool)
  | cancelRun (flow : JobId) (reason : String)
  | sweepExpiredSignals (batch : Nat)
  | sweepDueTimers (batch : Nat) (drain : Bool) (maxBatches : Nat)
  | sweepChildJoins (batch : Nat)

def DeskCall.start : DeskCall → DeskSession
  | .deliverPayload workflow hold payload fits =>
    .hand ⟨some workflow, hold, payload, fits⟩ .boundary
  | .resolve hold payload fits => .hand ⟨none, hold, payload, fits⟩ .childJoin
  | .cancelRun flow reason => .cancel flow reason .jobs
  | .sweepExpiredSignals batch => .sweep .expired batch (.fetch 0)
  | .sweepDueTimers batch drain maxBatches => .sweep (.dueTimers drain maxBatches) batch (.fetch 0)
  | .sweepChildJoins batch => .sweep .childJoins batch (.fetch 0)

inductive DeskEvent where
  | call (t : Tx) (c : DeskCall)
  | exec (t : Tx) (env : DeskEnv)
  | crash (t : Tx)

def Desk.rollback (s : Desk) (t : Tx) : Desk :=
  { s with
    jobs := fun k => (s.jobs k).rollback t, signals := fun h => (s.signals h).rollback t
    sessions := Function.update s.sessions t none }

def Desk.step (s : Desk) : DeskEvent → Option Desk
  | .call t c =>
    if (s.sessions t).isNone then
      some { s with sessions := Function.update s.sessions t (some c.start) }
    else none
  | .exec t env => (s.sessions t).bind fun x =>
    let e := execDesk env (s.board t) x
    if s.admits t e then some (s.apply t e) else none
  | .crash t => (s.sessions t).map fun _ => s.rollback t

end TaskQ
