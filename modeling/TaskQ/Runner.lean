import TaskQ.Waits

namespace TaskQ

/-- Where a body stands: in its own code, before the next statement of a wait, or at its end. -/
inductive WaitPc where
  | body
  | readCursor (w : WaitCall)
  | readQueue (w : WaitCall) (loop : Bool) (cursor : Nat)
  | answered (w : WaitCall) (loop : Bool) (cursor : Nat) (answer : HoldId × SignalRow)
  | readHeld (w : WaitCall)
  | readAbandoned (w : WaitCall)
  | readFace (w : WaitCall) (epoch : Nat)
  | writeFace (w : WaitCall) (epoch : Nat)
  | readEpoch (w : WaitCall)
  | register (w : WaitCall) (epoch : Nat)
  | raised
  | over
  deriving DecidableEq

def WaitPc.call : WaitPc → Option WaitCall
  | .readCursor w | .readQueue w _ _ | .answered w _ _ _ | .readHeld w | .readAbandoned w
  | .readFace w _ | .writeFace w _ | .readEpoch w | .register w _ => some w
  | .body | .raised | .over => none

def WaitPc.answer : WaitPc → Option (HoldId × SignalRow)
  | .answered _ _ _ p => some p
  | _ => none

def WaitPc.position : WaitPc → Option (WaitCall × Bool × Nat)
  | .readQueue w loop cursor | .answered w loop cursor _ => some (w, loop, cursor)
  | _ => none

def WaitPc.starved : WaitPc → Option WaitCall
  | .readHeld w | .readAbandoned w | .readFace w _ | .writeFace w _ | .readEpoch w
  | .register w _ => some w
  | _ => none

/-- One execution of a node's body; the ghost `consumed` are the signals answered in it. -/
structure Body where
  claim : Claim
  node : NodeAddr
  pc : WaitPc := .body
  consumed : List String := []
  deriving DecidableEq

/-- The executions in the order of their claims; `minted` is the ghost of who made each hold. -/
structure Runner where
  db : Snapshot
  holds : List (HoldId × SignalRow) := []
  bodies : List Body := []
  minted : List (HoldId × NodeAddr × WaitCall) := []

def Runner.put (s : Runner) (e : Nat) (b : Body) : Runner := { s with bodies := s.bodies.set e b }

def Runner.start (s : Runner) (b : Body) : Runner := { s with bodies := s.bodies ++ [b] }

def Runner.write (s : Runner) (w : Writes) : Runner := { s with db := s.db.write w }

def Runner.settle (s : Runner) (f : Resolution) : Runner :=
  { s with holds := s.holds.map fun p => (p.1, (f p.1 p.2).getD p.2) }

def waitCursor (db : Snapshot) (c : Claim) (w : WaitCall) : Bool × Nat :=
  let row := db.jobs c.job
  let loop := row.any fun r => r.metadata.loopKind
  let cursor := (row.bind fun r => r.mark (cursorKey c.attempt w.signalName)).getD 0
  let iteration := (row.bind fun r => r.metadata.iteration).getD 0
  (loop, if loop then iteration else cursor)

/-- The queue read of a wait; a loop's counter past its queue raises `LoopWaitShapeError`. -/
def afterQueue (queue : List (HoldId × SignalRow)) (w : WaitCall) (loop : Bool) (cursor : Nat) :
    WaitPc :=
  if loop && queue.length < cursor then .raised
  else match queue[cursor]? with
    | some answer => .answered w loop cursor answer
    | none => .readHeld w

/-- `register_hold`. The unique index may refuse the row. -/
def Runner.registerHold (s : Runner) (e : Nat) (b : Body) (now : Time) (hold : HoldId)
    (w : WaitCall) (epoch : Nat) : Runner :=
  let deadline := w.deadline now
  let row : SignalRow :=
    { workflow := b.node.workflow
      nodeKey := b.node.nodeKey, signalName := w.signalName, holdEpoch := epoch
      mapIndex := b.node.mapIndex, expiresAt := deadline }
  match holdInsert s.holds hold row with
  | none => s.put e { b with pc := .raised }
  | some holds =>
    { s with
      db := s.db.write (holdNode s.db b.claim.job hold deadline)
      holds
      bodies := s.bodies.set e { b with pc := .over }, minted := (hold, b.node, w) :: s.minted }

/-- The reads of a wait with no answer left: held, abandoned and reported once, or a new epoch. -/
def Runner.readOn (s : Runner) (b : Body) : WaitPc → Option WaitPc
  | .readHeld w =>
    if (latestHold s.holds b.node w.reads .held).isSome then some .over
    else if w.isTimer then some (.readEpoch w)
    else some (.readAbandoned w)
  | .readAbandoned w =>
    match latestHold s.holds b.node w.reads .abandoned with
    | some p => some (.readFace w p.2.holdEpoch)
    | none => some (.readEpoch w)
  | .readFace w epoch =>
    let seen := (s.db.jobs b.claim.job).bind fun r => r.mark (faceKey b.claim.attempt w.signalName)
    if seen = some epoch then some (.readEpoch w) else some (.writeFace w epoch)
  | .readEpoch w => some (.register w (nextEpoch s.holds b.node))
  | _ => none

lemma Runner.readOn_starved {s : Runner} (h : s.readOn b pc = some pc') :
    pc'.answer = none ∧ pc'.position = none ∧ pc'.call = pc'.starved ∧
      ∀ w, pc'.starved = some w → pc.starved = some w := by
  cases pc <;> simp only [Runner.readOn] at h <;> try cases h
  case readHeld w =>
    split at h
    · cases h
      exact ⟨rfl, rfl, rfl, nofun⟩
    · split at h <;> cases h <;> exact ⟨rfl, rfl, rfl, fun _ hw => hw⟩
  case readAbandoned w => split at h <;> cases h <;> exact ⟨rfl, rfl, rfl, fun _ hw => hw⟩
  case readFace w epoch => split at h <;> cases h <;> exact ⟨rfl, rfl, rfl, fun _ hw => hw⟩
  case readEpoch w => exact ⟨rfl, rfl, rfl, fun _ hw => hw⟩

def Runner.exec (s : Runner) (e : Nat) (b : Body) (now : Time) (hold : HoldId) : Option Runner :=
  match b.pc with
  | .readCursor w =>
    let p := waitCursor s.db b.claim w
    s.put e { b with pc := .readQueue w p.1 p.2 }
  | .readQueue w loop cursor =>
    s.put e { b with pc := afterQueue (answerQueue s.holds b.node w.reads) w loop cursor }
  | .answered w loop cursor _ =>
    let next := { b with pc := .body, consumed := w.signalName :: b.consumed }
    let key := cursorKey b.claim.attempt w.signalName
    -- the counter of a loop is advanced by the loop's own statement
    if loop then s.put e next
    else (s.write (setMark s.db b.claim.job key (cursor + 1))).put e next
  | .writeFace w epoch =>
    let key := faceKey b.claim.attempt w.signalName
    -- the wait returns `Expired`
    (s.write (setMark s.db b.claim.job key epoch)).put e { b with pc := .body }
  | .register w epoch =>
    if s.holds.any fun p => p.1 = hold then none else s.registerHold e b now hold w epoch
  | pc => (s.readOn b pc).map fun pc => s.put e { b with pc }

def expireHold (now : Time) (hold : HoldId) : Resolution := fun h r =>
  if r.status = .held && r.expiresAt.any (· ≤ now) && !startsWith timerMark r.signalName then
    expirySweep now [hold] h r
  else none

def fireHold (now : Time) (hold : HoldId) : Resolution := fun h r =>
  if r.status = .held && r.expiresAt.any (· ≤ now) && startsWith timerMark r.signalName then
    timerFire now [hold] h r
  else none

/-- `resolve` behind its boundary: the clock's holds are not answered by hand. -/
def resolveHold (now : Time) (hold : HoldId) (payload : String) : Resolution := fun h r =>
  if startsWith timerMark r.signalName then none else resolveCas now hold payload h r

inductive RunnerEvent where
  | claim (now : Time) (flow job : JobId) (worker : WorkerId)
  | wait (e : Nat) (w : WaitCall)
  | exec (e : Nat) (now : Time) (hold : HoldId)
  | deferStep (e : Nat) (now : Time) (exc : Deferral) (delay : Time)
  | repend (e : Nat) (now backoff : Time)
  | finalize (e : Nat) (outcome : Outcome)
  | stop (e : Nat)
  | advance (e next maxIterations : Nat)
  | reclaim (now grace due : Time) (job : JobId)
  | retryNode (now : Time) (flow : JobId) (nodeKey : String)
  | cancelRun (now : Time) (flow : JobId) (reason : String)
  | resolve (now : Time) (hold : HoldId) (payload : String)
  | expire (now : Time) (hold : HoldId)
  | fire (now : Time) (hold : HoldId)
  | resume (now : Time) (node : JobId)

def Body.finalizeCall (b : Body) (outcome : Outcome) : FinalizeCall :=
  { job := b.claim.job
    flow := b.node.workflow, stepKey := b.node.nodeKey, mapIndex := b.node.mapIndex
    worker := b.claim.worker, attempt := b.claim.attempt, claimEpoch := some 0
    outcome }

/-- `defer_row_law`. The verdicts that write nothing leave the body to `finalize_node`. -/
def Runner.deferRowLaw (s : Runner) (e : Nat) (b : Body) (now : Time) (exc : Deferral)
    (delay : Time) : Runner :=
  let d := deferralDisposition exc
  let ends := match (s.db.jobs b.claim.job).map (deferVerdict b.claim d) with
    | some .exhausted | some .cancelFenced => .raised
    | _ => .over
  (s.write (nodeDefer s.db now b.claim delay d)).put e { b with pc := ends }

/-- What a body can do on its own: enter a wait, defer, fail or die in a wait, end. -/
def Runner.act (s : Runner) (e : Nat) (b : Body) : RunnerEvent → Option Runner
  | .wait _ w =>
    if b.pc = .body then
      s.put e { b with pc := if w.accepted then .readCursor w else .raised }
    else none
  | .exec _ now hold => s.exec e b now hold
  | .deferStep _ now exc delay =>
    if b.pc = .body then s.deferRowLaw e b now exc delay else none
  | .repend _ now backoff =>
    (s.write (nodeRepend s.db now b.claim.job backoff)).put e { b with pc := .over }
  | .finalize _ outcome =>
    (s.write (terminalMark s.db (b.finalizeCall outcome))).put e { b with pc := .over }
  | .stop _ => s.put e { b with pc := .over }
  | .advance _ next maxIterations =>
    if b.pc = .body then s.write (loopAdvance s.db b.claim next maxIterations) else none
  | _ => none

def RunnerEvent.body : RunnerEvent → Option Nat
  | .wait e _ | .exec e _ _ | .deferStep e _ _ _ | .repend e _ _ | .finalize e _ | .stop e
  | .advance e _ _ => some e
  | _ => none

def Runner.outside (s : Runner) : RunnerEvent → Option Runner
  | .claim now flow job worker =>
    let w := nodeClaim s.db now job worker
    (w job).bind fun r =>
      if r.inFlow flow then
        (s.write w).start
          { claim := ⟨job, worker, r.attempt⟩, node := ⟨flow, r.stepKey, r.mapIndex⟩ }
      else none
  | .reclaim now grace due job => s.write (sweepReclaim s.db now grace due job)
  | .retryNode now flow nodeKey => s.write (retryWorkflowNode s.db now flow nodeKey)
  | .cancelRun now flow reason =>
    let w := cancelOneRun s.db flow reason
    if (w flow).isNone then none else (s.write w).settle (cancelRunSignals now flow)
  | .resolve now hold payload => s.settle (resolveHold now hold payload)
  | .expire now hold => s.settle (expireHold now hold)
  | .fire now hold => s.settle (fireHold now hold)
  | .resume now node => s.write (deliverResume s.db now node)
  | _ => none

def Runner.step (s : Runner) (a : RunnerEvent) : Option Runner :=
  match a.body with
  | none => s.outside a
  | some e => (s.bodies[e]?).bind fun b => if b.pc = .over then none else s.act e b a

end TaskQ
