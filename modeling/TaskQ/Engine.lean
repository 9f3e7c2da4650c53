import TaskQ.Claims
import TaskQ.Fork
import TaskQ.RowLocks
import TaskQ.Runs
import TaskQ.Sweep

namespace TaskQ
open RowLocks

abbrev Tx := Nat

/-- What the environment decides of a statement: clock, fetched row, bodies and array sizes. -/
structure Env where
  now : Time := 0
  choice : Nat := 0
  loud : JobId → Bool := fun _ => false
  bytes : List FailureInfo → Nat := fun _ => 0

/-- Where `finalize_node` stands: the next statement of tx1 or of tx2. -/
inductive FinalizePc where
  | terminalMark
  | ledgerTerminal
  | ledgerFence
  | forkChildren
  | forkEdges (children : List JobId)
  | joinProbe (children : List JobId)
  | joinAdopt (children : List JobId) (join : JobId)
  | joinInsert (children : List JobId)
  | joinEdges (children : List JobId) (join : JobId)
  | consumerEdges (children : List JobId) (join : JobId)
  | bornZero (join : JobId)
  | tx1Commit (applied : Bool)
  | cascade
  | fanIn
  | fanInAppend (rows : List (JobId × FailureInfo))
  | decrement
  | fire (hits rest : List DecrementHit)
  | deliver (hits rest : List DecrementHit) (rows : List OutboxRow)

def FinalizePc.inTx2 : FinalizePc → Bool
  | .cascade | .fanIn | .fanInAppend _ | .decrement | .fire _ _ | .deliver _ _ _ => true
  | _ => false

def FinalizePc.hits : FinalizePc → List DecrementHit
  | .fire hits _ | .deliver hits _ _ => hits
  | _ => []

lemma FinalizePc.inTx2_of_hits {pc : FinalizePc} (h : hit ∈ pc.hits) : pc.inTx2 = true := by
  cases pc <;> first | rfl | cases h

def FinalizeCall.tx2Start (c : FinalizeCall) : FinalizePc :=
  if c.outcome.1 = .failed then .cascade else .decrement

inductive SweepPc where
  | rederive
  | sweepFire (minted : Nat)
  | bodies (winners todo : List Winner)
  | outbox (rows : List OutboxRow)
  | rootMaintain
  | commit

inductive DrainPc where
  | fetch
  | consumers (rows : List OutboxRow)
  | flip (rows : List OutboxRow)
  | commit

inductive Session where
  | finalize (c : FinalizeCall) (fork : Option ForkSpec) (pc : FinalizePc)
  | sweep (batch : Nat) (pc : SweepPc)
  | drain (batch : Nat) (pc : DrainPc)

structure FiredJoin where
  joinJob : JobId
  consumers : List ConsumerBinding

/-- What a statement does: the rows it writes, inserts or locks, its new ids and its successor. -/
structure Effect where
  jobs : Writes := fun _ => none
  born : List JobId := []
  edges : List Edge := []
  fires : List JoinFire := []
  outbox : List OutboxRow := []
  outboxWrites : OutboxRow → Option OutboxRow := fun _ => none
  ledgerWrites : LedgerRow → Option LedgerRow := fun _ => none
  fired : List FiredJoin := []
  minted : Nat := 0
  next : Session

def execTx1 (env : Env) (db : Snapshot) (fresh : Nat) (c : FinalizeCall)
    (fork : Option ForkSpec) : FinalizePc → Option Effect
  | .terminalMark =>
    let w := terminalMark db c
    let next := if (w c.job).isSome then .ledgerTerminal else .ledgerFence
    some { jobs := w, next := .finalize c fork next }
  | .ledgerFence =>
    some { ledgerWrites := ledgerFenceAttempt c, next := .finalize c fork (.tx1Commit false) }
  | .ledgerTerminal =>
    let next := if fork.isSome then .forkChildren else .tx1Commit true
    some { ledgerWrites := ledgerTerminal c, next := .finalize c fork next }
  | .forkChildren => fork.bind fun f =>
    let rows := forkChildRows env.now fresh c f
    if validateFork f && !(rows.any fun p => p.2.idempotency.any (idempotencyTaken db)) &&
        (rows.map fun p => p.2.idempotency).Nodup then
      some
        { jobs := insertJobs rows
          born := rows.map Prod.fst, minted := rows.length
          next := .finalize c fork (.forkEdges (rows.map Prod.fst)) }
    else none
  | .forkEdges children => fork.bind fun f =>
    let next := if f.join.isSome then .joinProbe children else .tx1Commit true
    if edgesClash db (forkEdges c children) then none
    else some { edges := forkEdges c children, next := .finalize c fork next }
  | .joinProbe children => fork.bind fun f => f.join.bind fun j =>
    let found := adoptionCandidates db c.flow j.stepKey
    match found[env.choice % found.length]? with
    | some join => some { next := .finalize c fork (.joinAdopt children join) }
    | none => some { next := .finalize c fork (.joinInsert children) }
  | .joinAdopt children join => fork.bind fun f => f.join.bind fun j =>
    some { jobs := adoptJoin db f j join, next := .finalize c fork (.joinEdges children join) }
  | .joinInsert children => fork.bind fun f => f.join.bind fun j =>
    let row := forkJoinRow env.now c f j
    if row.idempotency.any (idempotencyTaken db) then none
    else some
      { jobs := insertJobs [(fresh, row)]
        born := [fresh], minted := 1, next := .finalize c fork (.joinEdges children fresh) }
  | .joinEdges children join => fork.bind fun f => f.join.bind fun j =>
    if edgesClash db (joinEdges c j join children) then none
    else some
      { edges := joinEdges c j join children
        next := .finalize c fork (.consumerEdges children join) }
  | .consumerEdges children join => fork.bind fun f => f.join.bind fun j =>
    let next := if children.isEmpty then .bornZero join else .tx1Commit true
    if edgesClash db (consumerEdges db c j join) then none
    else some { edges := consumerEdges db c j join, next := .finalize c fork next }
  | .bornZero join =>
    some
      { fires := ((fire db join c.flow fresh .bornZero).map Winner.fire).toList
        minted := 1, next := .finalize c fork (.tx1Commit true) }
  | _ => none

def execTx2 (env : Env) (db : Snapshot) (fresh : Nat) (c : FinalizeCall)
    (fork : Option ForkSpec) : FinalizePc → Option Effect
  | .cascade => some { jobs := failClosedCascade db c, next := .finalize c fork .fanIn }
  | .fanIn => some { next := .finalize c fork (.fanInAppend (collectFanIn db c)) }
  | .fanInAppend [] => some { next := .finalize c fork .decrement }
  | .fanInAppend ((join, item) :: rows) =>
    some
      { jobs := collectFanInAppend db env.bytes join item
        next := .finalize c fork (.fanInAppend rows) }
  | .decrement =>
    let w := if c.outcome.1 = .failed then decrementAbsorbed db c.job c.flow
      else decrement db c.job c.flow
    some { jobs := w, next := .finalize c fork (.fire (hits db w) (hits db w)) }
  | .fire hits (h :: rest) =>
    if h.depsPending ≠ 0 then some { next := .finalize c fork (.fire hits rest) }
    else match fire db h.joinJob c.flow fresh .finalize with
      | none => some { minted := 1, next := .finalize c fork (.fire hits rest) }
      | some w =>
        let rows := finalizeOutbox (fresh + 1) w
        some
          { fires := [w.fire]
            fired := [⟨h.joinJob, w.consumers⟩], minted := 1 + rows.length
            next := .finalize c fork (.deliver hits rest rows) }
  | .deliver hits rest [] => some { next := .finalize c fork (.fire hits rest) }
  | .deliver hits rest (o :: rows) =>
    some { outbox := [o], next := .finalize c fork (.deliver hits rest rows) }
  | _ => none

def execSweep (env : Env) (db : Snapshot) (fresh batch : Nat) : SweepPc → Option Effect
  | .rederive =>
    let n := firableCount db env.now batch
    let next := if n = 0 then .rootMaintain else .sweepFire n
    some { jobs := rederiveSweep db env.now batch, next := .sweep batch next }
  | .sweepFire n =>
    let ws := sweepFire db env.now batch fresh n
    some
      { jobs := sweepFireLocks db env.now batch
        fires := ws.map Winner.fire, fired := ws.map fun w => ⟨w.fire.joinJob, w.consumers⟩
        minted := n, next := .sweep batch (.bodies ws ws) }
  | .bodies ws [] =>
    let rows := sweepOutbox fresh ws
    some { minted := rows.length, next := .sweep batch (.outbox rows) }
  | .bodies ws (w :: todo) =>
    some
      { jobs := if env.loud w.fire.joinJob then joinBodyUnavailable db w.fire.joinJob
          else fun _ => none
        next := .sweep batch (.bodies ws todo) }
  | .outbox [] => some { next := .sweep batch .rootMaintain }
  | .outbox (o :: rows) => some { outbox := [o], next := .sweep batch (.outbox rows) }
  | .rootMaintain => some { jobs := workflowRootMaintain db batch, next := .sweep batch .commit }
  | .commit => none

def fetchUndelivered (db : Snapshot) (batch : Nat) : List OutboxRow :=
  ((db.outbox.filter fun o => !o.delivered && !db.outboxLocked o.id).insertionSort
    fun a b => a.id ≤ b.id).take batch

def runPriority (db : Snapshot) (o : OutboxRow) : Int :=
  (((db.jobs o.flow).bind fun f => f.metadata.wfPriority).filter fun p =>
    -32768 ≤ p ∧ p ≤ 32767).getD 0

def execDrain (env : Env) (db : Snapshot) (fresh batch : Nat) : DrainPc → Option Effect
  | .fetch =>
    let rows := fetchUndelivered db batch
    let next := if rows.isEmpty then .commit else .consumers rows
    some
      { outboxWrites := fun o => if o.id ∈ rows.map OutboxRow.id then some o else none
        next := .drain batch next }
  | .consumers rows =>
    let new := drainConsumers db env.now (runPriority db) fresh rows
    some
      { jobs := insertJobs new
        born := new.map Prod.fst, minted := rows.length, next := .drain batch (.flip rows) }
  | .flip rows =>
    some
      { outboxWrites := fun o =>
          if o.id ∈ rows.map OutboxRow.id && !o.delivered then some { o with delivered := true }
          else none
        next := .drain batch .commit }
  | .commit => none

def execStmt (env : Env) (db : Snapshot) (fresh : Nat) : Session → Option Effect
  | .finalize c fork pc =>
    if pc.inTx2 then execTx2 env db fresh c fork pc else execTx1 env db fresh c fork pc
  | .sweep batch pc => execSweep env db fresh batch pc
  | .drain batch pc => execDrain env db fresh batch pc

/-- The database and its sessions; `counted` and `fired` are ghosts of what was committed. -/
structure Sys where
  ids : List JobId
  jobs : JobId → Slot Tx JobRow
  edges : List (Slot Tx Edge)
  fires : List (Slot Tx JoinFire)
  outbox : List (Slot Tx OutboxRow)
  ledger : List (Slot Tx LedgerRow)
  fired : List (Slot Tx FiredJoin)
  counted : List (JobId × JobId)
  fresh : Nat
  sessions : Tx → Option Session

def Sys.snapshot (s : Sys) (t : Tx) : Snapshot where
  ids := s.ids
  jobs k := (s.jobs k).view t
  jobLocked k := !(s.jobs k).free t
  edges := visible t s.edges
  fires := visible t s.fires
  outbox := visible t s.outbox
  outboxLocked i := s.outbox.any fun sl => !sl.free t && sl.base.any fun o => o.id = i
  ledger := visible t s.ledger

def Sys.admits (s : Sys) (t : Tx) (e : Effect) : Bool :=
  ((s.ids ++ e.born).all fun k => (e.jobs k).isNone || (s.jobs k).free t) &&
  rewriteFree t e.outboxWrites s.outbox && rewriteFree t e.ledgerWrites s.ledger &&
  (e.fires.all fun f => s.fires.all fun sl =>
    sl.free t || !sl.draft.any fun d => d.2.joinJob = f.joinJob) &&
  (e.born.all fun b => s.ids.all fun k =>
    (s.jobs k).free t || !(s.jobs k).draft.any fun d =>
      (e.jobs b).any fun r => r.idempotency = d.2.idempotency)

def Sys.apply (s : Sys) (t : Tx) (e : Effect) : Sys where
  ids := s.ids ++ e.born
  jobs := put t e.jobs s.jobs
  edges := insertRows t e.edges s.edges
  fires := insertRows t e.fires s.fires
  outbox := insertRows t e.outbox (rewrite t e.outboxWrites s.outbox)
  ledger := rewrite t e.ledgerWrites s.ledger
  fired := insertRows t e.fired s.fired
  counted := s.counted
  fresh := s.fresh + e.minted
  sessions := Function.update s.sessions t (some e.next)

def Sys.commit (s : Sys) (t : Tx) (next : Option Session) (counted : List (JobId × JobId)) :
    Sys where
  ids := s.ids
  jobs k := (s.jobs k).commit t
  edges := s.edges.map (Slot.commit t)
  fires := s.fires.map (Slot.commit t)
  outbox := s.outbox.map (Slot.commit t)
  ledger := s.ledger.map (Slot.commit t)
  fired := s.fired.map (Slot.commit t)
  counted := s.counted ++ counted
  fresh := s.fresh
  sessions := Function.update s.sessions t next

def Sys.rollback (s : Sys) (t : Tx) (next : Option Session) : Sys where
  ids := s.ids
  jobs k := (s.jobs k).rollback t
  edges := s.edges.map (Slot.rollback t)
  fires := s.fires.map (Slot.rollback t)
  outbox := s.outbox.map (Slot.rollback t)
  ledger := s.ledger.map (Slot.rollback t)
  fired := s.fired.map (Slot.rollback t)
  counted := s.counted
  fresh := s.fresh
  sessions := Function.update s.sessions t next

end TaskQ
