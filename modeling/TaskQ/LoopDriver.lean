import TaskQ.Joined
import TaskQ.Rows
import TaskQ.Runs

namespace TaskQ.Loops
open Runs

/-- The claim identity: `locked_by_worker`, `attempt` and `claim_epoch`. -/
structure Identity where
  worker : WorkerId
  (attempt epoch : Nat)
  deriving DecidableEq

/-- The declaration of a loop. Of the documents of type `α`, `none` is `null`. -/
structure LoopSpec (α : Type) where
  stepKey : String
  maxIterations : Option Nat
  initialCarry : Option α

structure LoopRow (α : Type) where
  status : JobStatus := .pending
  lockedByWorker : Option WorkerId := none
  attempt : Nat := 0
  claimEpoch : Nat := 0
  iteration : Option Nat := none
  carry : Option α := none
  iterationState : Option String := none
  errorClass : Option String := none
  errorMessage : Option String := none

inductive IterResult (α : Type) where
  | done (payload : Option α)
  | refine (feedback : Option α)

inductive IterStatus (α : Type) where
  | running
  | succeeded (result : IterResult α)
  | failed (errorClass errorMessage : Option String)

structure IterRow (α : Type) where
  stepKey : String
  attempt : Nat
  status : IterStatus α

inductive Returned (α : Type) where
  | done (payload : Option α)
  | refine (feedback : Option α)
  | other (typeName : String)
  deriving DecidableEq

inductive BodyEnd (α : Type) where
  | returned (value : Returned α)
  | raised (typeName message : String)
  | left

def loopErrorCap : String := "IterationLimitExhausted"

def loopErrorBody : String := "LoopBodyFailure"

def loopErrorShape : String := "LoopBodyShapeError"

def maxAttemptsExceeded : String := "MaxAttemptsExceeded"

def orDefault (text : Option String) (default : String) : String :=
  (text.filter (· ≠ "")).getD default

def LoopRow.holds (c : Identity) (r : LoopRow α) : Bool :=
  r.status = .running && r.lockedByWorker = some c.worker && r.attempt = c.attempt &&
    r.claimEpoch = c.epoch

/-- `LOOP_INIT_SQL`, with the document that the driver has made of the metadata it read. -/
def loopInit (spec : LoopSpec α) (r : LoopRow α) : LoopRow α :=
  if r.status = .running then { r with iteration := some 0, carry := spec.initialCarry } else r

def LoopSpec.cap (spec : LoopSpec α) : Nat := spec.maxIterations.getD 2147483647

def loopAdvance (spec : LoopSpec α) (c : Identity) (iteration : Nat) (carry : Option α)
    (r : LoopRow α) : Option (LoopRow α) :=
  if r.holds c && r.iteration.any fun i => i + 1 ≤ spec.cap then
    some { r with iteration := some iteration, carry := carry }
  else none

def stateName (errorClass : String) : String :=
  if errorClass = loopErrorBody || errorClass = maxAttemptsExceeded then "loop_body_failed"
  else if errorClass = loopErrorShape then "loop_body_shape_error"
  else "iteration_cap_exhausted"

/-- `_exhaust_loop` on the loop's row, `LOOP_EXHAUST_SQL`. -/
def exhaustLoop (c : Identity) (errorClass message : Option String) (r : LoopRow α) : LoopRow α :=
  let errorClass := orDefault errorClass loopErrorCap
  let state := stateName errorClass
  if r.holds c then
    { r with
      status := .failed, errorClass := some errorClass
      errorMessage := some (orDefault message
        ("the loop's wall fired (the named state: " ++ state ++ ")"))
      iterationState := some state }
  else r

/-- The terminal mark of `_finalize_success`. -/
def finalizeSuccess (c : Identity) (r : LoopRow α) : LoopRow α :=
  if r.holds c then { r with status := .succeeded } else r

def iterKey (spec : LoopSpec α) (iteration : Nat) : String :=
  spec.stepKey ++ ".iter" ++ toString iteration

/-- `LEDGER_CLAIM_SQL`. -/
def claimStepLedger (key : String) (attempt : Nat) (ledger : List (IterRow α)) : List (IterRow α) :=
  if ledger.any fun l => l.stepKey = key && l.attempt = attempt then ledger
  else ledger ++ [⟨key, attempt, .running⟩]

def ledgerTerminal (key : String) (attempt : Nat) (status : IterStatus α)
    (ledger : List (IterRow α)) : List (IterRow α) :=
  ledger.map fun l => if l.stepKey = key && l.attempt = attempt then { l with status } else l

def IterStatus.terminal : IterStatus α → Bool
  | .running => false
  | .succeeded _ | .failed _ _ => true

/-- `LEDGER_MEMOIZED_SQL`: the terminal row of the greatest attempt. -/
def memoizedStepResult (key : String) (ledger : List (IterRow α)) : Option (IterRow α) :=
  (ledger.filter fun l => l.stepKey = key && l.status.terminal).foldl
    (fun best l => if best.any fun b => l.attempt ≤ b.attempt then best else some l) none

def Returned.status : Returned α → IterStatus α
  | .done payload => .succeeded (.done payload)
  | .refine feedback => .succeeded (.refine feedback)
  | .other typeName => .failed (some loopErrorShape) (some ("the loop body returned '" ++ typeName ++
      "' — the body must return Done(...) or Refine(...); the iteration is the shape error it is, " ++
      "never a replayable refine"))

inductive Pc (α : Type) where
  | readState
  | init
  | top (iteration : Nat) (carry : Option α)
  | memo (iteration : Nat) (carry : Option α)
  | claimLedger (iteration : Nat) (carry : Option α)
  | body (iteration : Nat) (carry : Option α)
  | record (iteration : Nat) (value : Returned α)
  | advance (iteration : Nat) (carry : Option α)
  | exhaust (errorClass message : Option String)
  | finalize (payload : Option α)
  | ended
  deriving DecidableEq

/-- A run of `_drive_loop`; `rounds` counts down its own bound. -/
structure Driver (α : Type) where
  rounds : Nat := 10000
  pc : Pc α := .readState

/-- The row, its ledger and its drivers; the ghosts are recorded `Refine`s and started iterations.
-/
structure State (α : Type) where
  row : LoopRow α
  ledger : List (IterRow α)
  drivers : Identity → Option (Driver α)
  recorded : List (Nat × Option α)
  started : List Nat

inductive Event (α : Type) where
  | claim (c : Identity)
  | lapse
  /-- The driver's next step; `stop` is what the `until` predicate says. -/
  | drive (c : Identity) (stop : Bool) (outcome : BodyEnd α)

section
variable (spec : LoopSpec α)

def memoNext (iteration : Nat) (carry : Option α) : Option (IterRow α) → Pc α
  | none => .claimLedger iteration carry
  | some l =>
    match l.status with
    | .succeeded (.done payload) => .finalize payload
    | .succeeded (.refine feedback) => .advance iteration feedback
    | .failed errorClass message => .exhaust (some (orDefault errorClass loopErrorBody)) message
    | .running => .claimLedger iteration carry

def bodyNext (iteration : Nat) : BodyEnd α → Pc α
  | .returned value => .record iteration value
  | .raised typeName message => .exhaust (some loopErrorBody) (some ("the loop body failed: " ++
      typeName ++ ": " ++ String.ofList (message.toList.take 200)))
  | .left => .ended

def recordNext (iteration : Nat) : Returned α → Pc α
  | .done payload => .finalize payload
  | .refine feedback => .advance iteration feedback
  | .other typeName => .exhaust (some loopErrorShape) (some ("the loop body returned '" ++ typeName ++
      "' — the body must return Done(...) or Refine(...)"))

def recordedOf (iteration : Nat) : Returned α → List (Nat × Option α)
  | .refine feedback => [(iteration, feedback)]
  | _ => []

/-- The top of the loop: the `until` predicate, then the cap. -/
def topNext (iteration : Nat) (carry : Option α) (stop : Bool) : Pc α :=
  if stop then .finalize carry
  else if spec.maxIterations.any fun m => m ≤ iteration then .exhaust none none
  else .memo iteration carry

def State.goto (s : State α) (c : Identity) (d : Driver α) (pc : Pc α) : State α :=
  { s with drivers := Function.update s.drivers c (some { d with pc }) }

/-- One step of `_drive_loop`. That `LOOP_INIT_SQL` has found its row is not looked at. -/
def driveLoop (s : State α) (c : Identity) (d : Driver α) (stop : Bool) (outcome : BodyEnd α) :
    Option (State α) :=
  match d.pc with
  | .readState =>
    some (s.goto c d (match s.row.iteration with
      | none => .init
      | some i => .top i s.row.carry))
  | .init => some { s.goto c d (.top 0 spec.initialCarry) with row := loopInit spec s.row }
  | .top i carry =>
    match d.rounds with
    | 0 => some (s.goto c d .ended)
    | n + 1 => some (s.goto c { d with rounds := n } (topNext spec i carry stop))
  | .memo i carry =>
    some (s.goto c d (memoNext i carry (memoizedStepResult (iterKey spec i) s.ledger)))
  | .claimLedger i carry => some { s.goto c d (.body i carry) with
      ledger := claimStepLedger (iterKey spec i) c.attempt s.ledger, started := i :: s.started }
  | .body i _ => some (s.goto c d (bodyNext i outcome))
  | .record i value => some { s.goto c d (recordNext i value) with
      ledger := ledgerTerminal (iterKey spec i) c.attempt value.status s.ledger
      recorded := recordedOf i value ++ s.recorded }
  | .advance i carry =>
    match loopAdvance spec c (i + 1) carry s.row with
    | some row => some { s.goto c d (.top (i + 1) carry) with row }
    | none => some (s.goto c d (.exhaust none none))
  | .exhaust errorClass message =>
    some { s.goto c d .ended with row := exhaustLoop c errorClass message s.row }
  | .finalize _ => some { s.goto c d .ended with row := finalizeSuccess c s.row }
  | .ended => none

/-- No two claims have the same identity. -/
def step (s : State α) : Event α → Option (State α)
  | .claim c =>
    if (s.row.status = .pending || s.row.status = .scheduled) && (s.drivers c).isNone then
      some { s with
        row := { s.row with
          status := .running, lockedByWorker := some c.worker, attempt := c.attempt
          claimEpoch := c.epoch }
        drivers := Function.update s.drivers c (some {}) }
    else none
  | .lapse =>
    if s.row.status = .running then
      some { s with row := { s.row with status := .pending, lockedByWorker := none } }
    else none
  | .drive c stop outcome => (s.drivers c).bind fun d => driveLoop spec s c d stop outcome

end

def State.start : State α := ⟨{}, [], fun _ => none, [], []⟩

end TaskQ.Loops
