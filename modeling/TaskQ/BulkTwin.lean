import TaskQ.BulkEnqueue

namespace TaskQ.Bulk
open UniqueIndex
open Jobs (Stamp BatchId BatchRow)

structure InMemoryBackend where
  jobs : List JobRecord
  idempotencyIndex : Pair → Option JobId
  maxPending : String → Option Int
  batches : BatchId → Option BatchRow

structure InMemoryReply (α : Type) where
  result : Except EnqueueError α
  state : InMemoryBackend

section
variable (parse : String → Option BatchId) (m : InMemoryBackend) (now : Stamp)

namespace InMemoryBackend

def get (id : JobId) : Option JobRecord := m.jobs.find? fun r => r.id = id

def scanSingletonPreflight (actor : String) : Option JobRecord :=
  m.jobs.find? fun r => r.singletonActor = some actor

/-- The row `unique_for` finds: the youngest of the candidates, the first of equals. -/
def uniqueHit (a : EnqueueArgs) : Option JobRecord :=
  match a.uniqueFor, a.identityKey with
  | some window, some identity =>
    let candidates := m.jobs.filter fun r => r.actor = a.actor && r.identityKey = some identity &&
      a.uniqueStates.contains r.status && now - window < r.createdAt
    candidates.foldl (fun best r =>
      if best.all fun b => b.createdAt < r.createdAt then some r else best) none
  | _, _ => none

def pairHolder (a : EnqueueArgs) : Option JobRecord :=
  a.pair.bind fun p => (m.idempotencyIndex p).bind m.get

/-- The terminal batch the item names; a text that does not parse names none. -/
def terminalBatch (a : EnqueueArgs) : Option BatchId :=
  (a.batchIdText.bind parse).filter (batchTerminal m.batches)

def store (a : EnqueueArgs) : InMemoryBackend :=
  { m with
    jobs := m.jobs ++ [a.row now]
    idempotencyIndex := match a.pair with
      | some p => Function.update m.idempotencyIndex p (some a.id)
      | none => m.idempotencyIndex }

/-- A call that raises leaves the backend as it is. -/
def enqueue (a : EnqueueArgs) : Except EnqueueError (JobRecord × InMemoryBackend) :=
  match m.uniqueHit now a with
  | some r => .ok (r, m)
  | none =>
    match (m.scanSingletonPreflight a.actor).filter fun _ => a.singleton with
    | some r => .error (.singletonCollision a.actor (some r.id))
    | none =>
      match a.maxPending.filter fun cap => cap ≤ (pendingCount m.jobs a.actor : Int) with
      | some cap => .error (.maxPendingExceeded ⟨a.actor, pendingCount m.jobs a.actor, cap⟩)
      | none =>
        match a.unencodable with
        | some field => .error (.nulValue field)
        | none =>
          match m.pairHolder a with
          | some r =>
            if r.actor ≠ a.actor then .error (.actorMismatch a.actor r.actor (some r.id))
            else .ok (r, m)
          | none =>
            match m.terminalBatch parse a with
            | some b => .error (.batchIdExists b)
            | none =>
              -- the twin of `jobs_singleton_uniq`, then that of `jobs_pkey`
              if a.singleton && (m.scanSingletonPreflight a.actor).isSome then
                .error (.singletonCollision a.actor none)
              else if (m.get a.id).isSome then .error .uniqueViolation
              else .ok (a.row now, m.store now a)

def capRefusals (args : List EnqueueArgs) : List Refusal :=
  batchCapRefusalKernel args m.maxPending (fun p => (m.idempotencyIndex p).isSome)
    (pendingCount m.jobs)

def admission (enforce : Bool) (args : List EnqueueArgs) :
    Except EnqueueError Admission :=
  if args.isEmpty then .error .emptyArgs
  else
    match unencodable args with
    | some e => .error e
    | none =>
      -- `_refuse_terminal_batch_members`
      match args.findSome? (m.terminalBatch parse) with
      | some b => .error (.batchIdExists b)
      | none => .ok (.of (if enforce then m.capRefusals args else []) args)

/-- `_first_row_violation`, with the ids, pairs and singleton actors of the rows before. -/
def firstRowViolation (pairsRaise : Bool) (ids : List JobId) (pairs : List Pair)
    (singletons : List String) : List EnqueueArgs → Option Violation
  | [] => none
  | a :: l =>
    let pairConflict := a.pair.any fun p => (m.idempotencyIndex p).isSome || pairs.contains p
    let idConflict := (m.get a.id).isSome || ids.contains a.id
    let singletonConflict := a.singleton &&
      ((m.scanSingletonPreflight a.actor).isSome || singletons.contains a.actor)
    if pairConflict && !pairsRaise then
      firstRowViolation pairsRaise ids pairs singletons l
    else if idConflict then some .pkey
    else if singletonConflict then some .singleton
    else if pairConflict then some .idempotency
    else
      firstRowViolation pairsRaise (a.id :: ids) (a.pair.toList ++ pairs)
        (if a.singleton then a.actor :: singletons else singletons) l

def checkBatchJobIds (seen : List JobId) : List EnqueueArgs → Option EnqueueError
  | [] => none
  | a :: l =>
    if (m.get a.id).isSome || seen.contains a.id then some .uniqueViolation
    else checkBatchJobIds (a.id :: seen) l

def checkBatchSingletons (args : List EnqueueArgs) : Option EnqueueError :=
  (firstSingletonCollisionActor (fun actor => (m.scanSingletonPreflight actor).isSome) []
    args).map fun actor =>
      .singletonCollision actor ((m.scanSingletonPreflight actor).map fun r => r.id)

/-- `_check_batch_idempotency_actors`, with the holders among the items before. -/
def checkBatchIdempotencyActors (holders : List (Pair × String × JobId)) :
    List EnqueueArgs → Option EnqueueError
  | [] => none
  | a :: l =>
    match a.pair with
    | none => checkBatchIdempotencyActors holders l
    | some p =>
      match ((m.pairHolder a).map fun r => (r.actor, r.id)).or (holders.lookup p) with
      | some (actor, id) =>
        if actor ≠ a.actor then some (.actorMismatch a.actor actor (some id))
        else checkBatchIdempotencyActors holders l
      | none => checkBatchIdempotencyActors (Dict.set p (a.actor, a.id) holders) l

def preflight (admitted : List EnqueueArgs) : Option EnqueueError :=
  ((match m.firstRowViolation false [] [] [] admitted with
    | some .pkey => m.checkBatchJobIds [] admitted
    | some .singleton => m.checkBatchSingletons admitted
    | some .idempotency | none => none).or
    (m.checkBatchIdempotencyActors [] admitted))

def insertAll (m : InMemoryBackend) : List EnqueueArgs →
    InMemoryBackend × List (JobId × Option Pair) × Except EnqueueError (List JobRecord)
  | [] => (m, [], .ok [])
  | a :: l =>
    match m.enqueue parse now { a with maxPending := none, uniqueFor := none } with
    | .error e => (m, [], .error e)
    | .ok (row, m') =>
      let rest := insertAll m' l
      (rest.1,
        if (m.get a.id).isNone && (m'.get a.id).isSome then (row.id, a.pair) :: rest.2.1
        else rest.2.1, rest.2.2.map (row :: ·))

def rollbackInsertedRows (inserted : List (JobId × Option Pair)) :
    InMemoryBackend :=
  inserted.foldl (fun m x =>
    { m with
      jobs := m.jobs.filter fun r => r.id ≠ x.1
      idempotencyIndex := match x.2 with
        | some p =>
          if m.idempotencyIndex p = some x.1 then Function.update m.idempotencyIndex p none
          else m.idempotencyIndex
        | none => m.idempotencyIndex }) m

def enqueueBatch (enforce : Bool) (args : List EnqueueArgs) :
    InMemoryReply (List JobRecord) :=
  match m.admission parse enforce args with
  | .error e => ⟨.error e, m⟩
  | .ok ad =>
    match m.preflight ad.admitted with
    | some e => ⟨.error e, m⟩
    | none =>
      match m.insertAll parse now ad.admitted with
      | (m', inserted, .error e) => ⟨.error e, m'.rollbackInsertedRows inserted⟩
      | (m', _, .ok rows) => ⟨ad.raise args rows.length rows, m'⟩

def preflightFast (admitted : List EnqueueArgs) : Option EnqueueError :=
  match m.firstRowViolation true [] [] [] admitted with
  | some .pkey => m.checkBatchJobIds [] admitted
  | some .singleton => m.checkBatchSingletons admitted
  | some .idempotency =>
    match firstDuplicateIdempotencyPair (fun p => (m.idempotencyIndex p).isSome) [] admitted with
    | some p => some (duplicateError admitted (fun p => (m.idempotencyIndex p).bind m.get) p)
    | none => some .assertion
  | none => none

def enqueueBatchFast (enforce : Bool) (args : List EnqueueArgs) :
    InMemoryReply Nat :=
  match m.admission parse enforce args with
  | .error e => ⟨.error e, m⟩
  | .ok ad =>
    match m.preflightFast ad.admitted with
    | some e => ⟨.error e, m⟩
    | none =>
      if ad.admitted.isEmpty then ⟨ad.raise args 0 0, m⟩
      else
        match m.enqueueBatch parse now false ad.admitted with
        | ⟨.error e, m'⟩ => ⟨.error e, m'⟩
        | ⟨.ok rows, m'⟩ => ⟨ad.raise args rows.length rows.length, m'⟩

end InMemoryBackend

end

end TaskQ.Bulk
