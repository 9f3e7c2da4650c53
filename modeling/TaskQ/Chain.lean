import TaskQ.Fork

namespace TaskQ

def pySpace (c : Char) : Bool :=
  let n := c.toNat
  (0x09 ≤ n && n ≤ 0x0d) || (0x1c ≤ n && n ≤ 0x20) || n == 0x85 || n == 0xa0 || n == 0x1680 ||
    (0x2000 ≤ n && n ≤ 0x200a) || n == 0x2028 || n == 0x2029 || n == 0x202f || n == 0x205f ||
    n == 0x3000

def forbiddenInNodeKey (c : Char) : Bool :=
  "/?#%\"'".toList.contains c || c.toNat < 0x20 || c.toNat == 0x7f

inductive NodeKeyError where
  | dotted
  | forbidden (c : Char)
  | edgeWhitespace
  deriving DecidableEq

def checkNodeKey (key : String) : Except NodeKeyError Unit :=
  if key.toList.contains '.' then .error .dotted
  else
    match key.toList.find? forbiddenInNodeKey with
    | some c => .error (.forbidden c)
    | none =>
      if key.toList.head?.any pySpace || key.toList.getLast?.any pySpace then .error .edgeWhitespace
      else .ok ()

namespace Chain

def done : String := "__done__"

/-- The arms by the tag of the outcome: the value of an enum member or the tag of a type. -/
structure Route where
  arms : List (String × Option String)

structure Step where
  outcomes : List String
  route : Option Route := none

end Chain

structure Chain where
  (name start : String)
  steps : List (String × Chain.Step)
  actor : String := "wf"
  queue : String := "default"

namespace Chain

inductive Error where
  | startIsNotAStep (chain start : String)
  | routeNotTotal (step : String) (missing unknown : List String)
  | routesToNoStep (chain step target : String)
  | noStep (step : String)
  /-- `RouterNotTotal` -/
  | noRoute (outcome : String)

def Route.bind (r : Route) (outcomes : List String) (step : String) : Except Error Unit :=
  let declared := r.arms.map Prod.fst
  let missing := outcomes.filter (!declared.contains ·)
  let unknown := declared.filter (!outcomes.contains ·)
  if missing.isEmpty && unknown.isEmpty then .ok ()
  else .error (.routeNotTotal step missing unknown)

def Route.targets (r : Route) : List String := (r.arms.filterMap Prod.snd).dedup

def Route.nextStep (r : Route) (outcome : String) : Except Error (Option String) :=
  match r.arms.lookup outcome with
  | some target => .ok target
  | none => .error (.noRoute outcome)

def postInit (c : Chain) : Except Error Unit := do
  unless (c.steps.lookup c.start).isSome do
    throw (.startIsNotAStep c.name c.start)
  for (key, step) in c.steps do
    match step.route with
    | none => pure ()
    | some route =>
      route.bind step.outcomes key
      for next in route.targets do
        unless next = done || (c.steps.lookup next).isSome do
          throw (.routesToNoStep c.name key next)

/-- What a step's body returns: an enum member, a text, or a tagged element of its union. -/
inductive Outcome where
  | literal (value : String)
  | element (tag json : String)

def Outcome.tag : Outcome → String
  | .literal value => value
  | .element tag _ => tag

def wfItem (json : String) : String := "\x7b\"wf_item\":" ++ json ++ "\x7d"

def nextChild (c : Chain) (stepKey : String) (outcome : Outcome) (payload : Option String)
    (mapIndex : Option Nat) : Except Error (Option ChildSpec) := do
  let step ← match c.steps.lookup stepKey with
    | some step => pure step
    | none => throw (.noStep stepKey)
  match step.route with
  | none => pure none
  | some route =>
    match ← route.nextStep outcome.tag with
    | none => pure none
    | some next =>
      if next = done then pure none
      else
        let payload := match outcome with
          | .literal _ => payload
          | .element _ json => some (wfItem json)
        pure (some { stepKey := next, actor := c.actor, queue := c.queue, payload, mapIndex })

end Chain

structure EmitChild where
  (stepKey actor queue : String)
  payload : Option String
  traceId : String
  mapIndex : Nat

def Chain.chainStart (c : Chain) (item : String) (mapIndex : Nat) (traceId : String) : EmitChild :=
  { stepKey := c.start, actor := c.actor, queue := c.queue, payload := some (Chain.wfItem item),
    traceId, mapIndex }

def Chain.chainFork (child : Option ChildSpec) (traceId : Option String) : Option ForkSpec :=
  child.map fun child => { children := [child], traceId }

def Chain.finalizeChainStep (c : Chain) (encodeResult : Outcome → NodeResult)
    (refusal : String → String) (flow job : JobId) (row : JobRow) (worker : WorkerId)
    (attempt : Nat) (claimEpoch : Option Nat) (outcome : Outcome) :
    Except Error (FinalizeCall × Option ForkSpec) :=
  let call : FinalizeCall :=
    { job, flow, stepKey := row.stepKey, mapIndex := row.mapIndex, worker, attempt, claimEpoch,
      outcome := failedOutcome }
  match c.nextChild row.stepKey outcome row.payload row.mapIndex with
  | .ok child =>
    .ok ({ call with
      outcome := ⟨.succeeded, succeeded_terminal⟩
      result := some (encodeResult outcome) }, chainFork child row.traceId)
  | .error (.noRoute tag) =>
    .ok ({ call with
      errorClass := some "RouterNotTotal", errorMessage := some (refusal tag) }, none)
  | .error e => .error e

def mapIndexCeiling : Nat := 32767

/-- The children of a page that `emit_batch` writes, unless it refuses the page. -/
def emitBatch (children : List EmitChild) : Option (List EmitChild) :=
  if children.any fun c => c.traceId.isEmpty then none
  else
    let valid := children.filter fun c => c.mapIndex ≤ mapIndexCeiling
    if valid.isEmpty && !children.isEmpty then none else some valid

def emitIdempotencyKey (flow : JobId) (mapIndex : Nat) (stepKey : String) : String :=
  "wf:" ++ toString flow ++ ":emit:" ++ toString mapIndex ++ ":" ++ stepKey

/-- `EMIT_CHILDREN_SQL`. -/
def emitChildRow (now : Time) (flow source : JobId) (c : EmitChild) : JobRow :=
  { actor := c.actor
    queue := c.queue, payload := c.payload, stepKey := c.stepKey, mapIndex := some c.mapIndex
    parentId := some source, scheduledAt := now, traceId := some c.traceId
    idempotency := some (idempotencyScope flow, emitIdempotencyKey flow c.mapIndex c.stepKey)
    fairnessKey := some flow, metadata := { flowId := some flow } }

end TaskQ
