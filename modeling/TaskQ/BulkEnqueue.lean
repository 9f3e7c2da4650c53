import TaskQ.Batches
import TaskQ.Dict
import TaskQ.UniqueIndex

namespace TaskQ.Bulk
open UniqueIndex List
open Jobs (Stamp BatchId BatchRow)

inductive Json where
  | null
  | bool (b : Bool)
  | str (s : String)
  | other (text : String)
  deriving DecidableEq

/-- `str(value)`. -/
def Json.text : Json → String
  | .null => "None"
  | .bool true => "True"
  | .bool false => "False"
  | .str s | .other s => s

/-- `(idempotency_scope, idempotency_key)`. -/
abbrev Pair := String × String

structure Columns where
  actor : String
  queue : String := "default"
  identityKey : Option String := none
  fairnessKey : Option String := none
  payload : String := ""
  priority : Int := 0
  maxAttempts : Int := 3
  retryKind : RetryKind := .transient
  startToClose : Option Stamp := none
  heartbeatTimeout : Option Stamp := none
  idempotencyScope : String := ""
  idempotencyKey : Option String := none
  metadata : List (String × Json) := []
  deriving DecidableEq

def Columns.pair (c : Columns) : Option Pair := c.idempotencyKey.map (c.idempotencyScope, ·)

/-- `metadata.get("singleton") is True`, in SQL `metadata @> '{"singleton": true}'`. -/
def Columns.singleton (c : Columns) : Bool :=
  c.metadata.lookup "singleton" = some (.bool true)

structure JobRecord extends Columns where
  id : JobId
  status : JobStatus := .pending
  createdAt : Stamp := 0
  scheduledAt : Stamp := 0
  scheduleToClose : Option Stamp := none
  resultExpiresAt : Option Stamp := none
  deriving DecidableEq

/-- What `max_pending` counts. -/
def JobRecord.waiting (r : JobRecord) : Bool := r.status = .pending || r.status = .scheduled

/-- The key of `jobs_pkey`. -/
def JobRecord.key (r : JobRecord) : Option JobId := some r.id

/-- The key of `jobs_singleton_uniq`. -/
def JobRecord.singletonActor (r : JobRecord) : Option String :=
  if r.singleton && !r.status.terminal then some r.actor else none

/-- The key of `jobs_idempotency_scope_key_uniq`. -/
def JobRecord.pair (r : JobRecord) : Option Pair := r.toColumns.pair

inductive JsonField where
  | payload | metadata
  deriving DecidableEq

structure EnqueueArgs extends Columns where
  id : JobId
  scheduledAt : Option Stamp := none
  scheduleToClose : Option Stamp := none
  scheduleToCloseInterval : Option Stamp := none
  resultTtl : Option Stamp := none
  maxPending : Option Int := none
  uniqueFor : Option Stamp := none
  uniqueStates : List JobStatus := [.pending, .scheduled, .running, .succeeded]
  /-- The first of its JSON values that `dumps_jsonb_str` refuses. -/
  unencodable : Option JsonField := none
  deriving DecidableEq

def EnqueueArgs.row (a : EnqueueArgs) (now : Stamp) : JobRecord :=
  { a.toColumns with
    id := a.id, status := if now < a.scheduledAt.getD now then .scheduled else .pending
    createdAt := now, scheduledAt := a.scheduledAt.getD now
    scheduleToClose := (a.scheduleToCloseInterval.map (now + ·)).or a.scheduleToClose
    resultExpiresAt := a.resultTtl.map (now + ·) }

/-- `str(metadata["batch_id"])`, unless it is missing or null. -/
def EnqueueArgs.batchIdText (a : EnqueueArgs) : Option String :=
  match a.metadata.lookup "batch_id" with
  | none | some .null => none
  | some v => some v.text

structure JobsTable where
  rows : List JobRecord
  ids : Unique JobRecord.key rows
  singletons : Unique JobRecord.singletonActor rows
  pairs : Unique JobRecord.pair rows

inductive Violation where
  | pkey | singleton | idempotency

/-- One row of an `INSERT` or a `COPY`: the indexes are checked in the order of their creation. -/
def insertRow (rows : List JobRecord) (r : JobRecord) : Except Violation (List JobRecord) :=
  if conflicts JobRecord.key rows r then .error .pkey
  else if conflicts JobRecord.singletonActor rows r then .error .singleton
  else if conflicts JobRecord.pair rows r then .error .idempotency
  else .ok (rows ++ [r])

/-- `sql.enqueue_batch`, whose arbiter comes before the other indexes, and what `RETURNING` gives.
-/
def insertBatch (now : Stamp) (rows : List JobRecord) :
    List EnqueueArgs → Except Violation (List JobRecord × List JobRecord)
  | [] => .ok (rows, [])
  | a :: l =>
    if conflicts JobRecord.pair rows (a.row now) then insertBatch now rows l
    else
      match insertRow rows (a.row now) with
      | .error v => .error v
      | .ok rows' =>
        match insertBatch now rows' l with
        | .error v => .error v
        | .ok (out, returned) => .ok (out, a.row now :: returned)

structure Refusal where
  actor : String
  currentCount : Nat
  maxPending : Int

inductive EnqueueError where
  | emptyArgs
  | nulValue (field : JsonField)
  | invalidBatchId (raw : String)
  | payloadValidation (index : Nat) (actor : String) (field : JsonField)
  | batchIdExists (b : BatchId)
  | uniqueViolation
  | singletonCollision (actor : String) (blocking : Option JobId)
  | maxPendingExceeded (r : Refusal)
  | actorMismatch (actor existingActor : String) (existing : Option JobId)
  | duplicateKey (pair : Option Pair)
  | batchMaxPendingExceeded (refusals : List Refusal) (refusedIndices : List (String × List Nat))
      (admittedCount : Nat)
  | noRowFound (id : JobId)
  | assertion

inductive ErrorFamily where
  | valueError | payloadValidation | batchIdExists | uniqueViolation | singletonCollision
  | maxPendingExceeded | actorMismatch | duplicateKey | batchMaxPendingExceeded | runtimeError
  | assertionError
  deriving DecidableEq

def EnqueueError.family : EnqueueError → ErrorFamily
  | .emptyArgs | .nulValue _ | .invalidBatchId _ => .valueError
  | .payloadValidation .. => .payloadValidation
  | .batchIdExists _ => .batchIdExists
  | .uniqueViolation => .uniqueViolation
  | .singletonCollision .. => .singletonCollision
  | .maxPendingExceeded _ => .maxPendingExceeded
  | .actorMismatch .. => .actorMismatch
  | .duplicateKey _ => .duplicateKey
  | .batchMaxPendingExceeded .. => .batchMaxPendingExceeded
  | .noRowFound _ => .runtimeError
  | .assertion => .assertionError

/-- One round of the loop of `batch_cap_groups` over its two dictionaries. -/
def capGroupStep (d : List (String × Nat) × List (String × Int)) (a : EnqueueArgs) :
    List (String × Nat) × List (String × Int) :=
  match a.maxPending with
  | none => d
  | some cap =>
    (Dict.set a.actor ((d.1.lookup a.actor).getD 0 + 1) d.1,
      if (d.2.lookup a.actor).all (cap < ·) then Dict.set a.actor cap d.2 else d.2)

def batchCapGroups (args : List EnqueueArgs) : List (String × Nat × Int) :=
  let d := args.foldl capGroupStep ([], [])
  d.1.filterMap fun g => (d.2.lookup g.1).map fun cap => (g.1, g.2, cap)

def capKeyedPairs (args : List EnqueueArgs) : List (String × Pair) :=
  args.filterMap fun a => a.maxPending.bind fun _ => a.pair.map fun p => (a.actor, p)

def dedupedCounts (stored : Pair → Bool) (seen : List Pair) :
    List (String × Pair) → List (String × Nat) → List (String × Nat)
  | [], counts => counts
  | (actor, p) :: keyed, counts =>
    dedupedCounts stored (p :: seen) keyed <|
      if stored p || seen.contains p then
        Dict.set actor ((counts.lookup actor).getD 0 + 1) counts
      else counts

def batchCapRefusalKernel (args : List EnqueueArgs) (overrides : String → Option Int)
    (stored : Pair → Bool) (existing : String → Nat) : List Refusal :=
  let deduped := dedupedCounts stored [] (capKeyedPairs args) []
  (batchCapGroups args).filterMap fun (actor, count, carried) =>
    let cap := (overrides actor).getD carried
    if cap < existing actor + ((count : Int) - (deduped.lookup actor).getD 0) then
      some ⟨actor, existing actor, cap⟩
    else none

def firstDuplicateIdempotencyPair (stored : Pair → Bool) (seen : List Pair) :
    List EnqueueArgs → Option Pair
  | [] => none
  | a :: l =>
    match a.pair with
    | none => firstDuplicateIdempotencyPair stored seen l
    | some p =>
      if seen.contains p || stored p then some p
      else firstDuplicateIdempotencyPair stored (p :: seen) l

/-- The incoming and the existing actor, when the abort on `p` spans two. -/
def duplicatePairActorMismatch (args : List EnqueueArgs) (p : Pair) (stored : Option String) :
    Option (String × String) :=
  match (args.filter fun a => a.pair = some p).map fun a => a.actor, stored with
  | [], _ => none
  | a :: _, some existing => if a ≠ existing then some (a, existing) else none
  | a :: b :: _, none => if b ≠ a then some (b, a) else none
  | [_], none => none

def firstSingletonCollisionActor (stored : String → Bool) (seen : List String) :
    List EnqueueArgs → Option String
  | [] => none
  | a :: l =>
    if a.singleton then
      if seen.contains a.actor || stored a.actor then some a.actor
      else firstSingletonCollisionActor stored (a.actor :: seen) l
    else firstSingletonCollisionActor stored seen l

def pendingCount (rows : List JobRecord) (actor : String) : Nat :=
  rows.countP fun r => r.actor = actor && r.waiting

structure EnqueueDb where
  jobs : JobsTable
  maxPending : String → Option Int
  batches : BatchId → Option BatchRow

structure Reply (α : Type) where
  result : Except EnqueueError α
  jobs : List JobRecord

structure Admission where
  refusals : List Refusal
  admitted : List EnqueueArgs

def Admission.of (refusals : List Refusal) (args : List EnqueueArgs) : Admission :=
  ⟨refusals, args.filter fun a => a.actor ∉ refusals.map Refusal.actor⟩

def refusedIndices (refusals : List Refusal) (args : List EnqueueArgs) : List (String × List Nat) :=
  refusals.map fun r => (r.actor, (args.zipIdx.filter fun p => p.1.actor = r.actor).map Prod.snd)

def Admission.raise (ad : Admission) (args : List EnqueueArgs) (stored : Nat) (value : α) :
    Except EnqueueError α :=
  if ad.refusals.isEmpty then .ok value
  else .error (.batchMaxPendingExceeded ad.refusals (refusedIndices ad.refusals args) stored)

/-- The build loop serializes every item before any statement. -/
def unencodable (args : List EnqueueArgs) : Option EnqueueError :=
  args.zipIdx.findSome? fun (a, i) => a.unencodable.map (.payloadValidation i a.actor ·)

section

variable (parse : String → Option BatchId) (db : EnqueueDb) (now : Stamp)

/-- `parse` is the constructor `UUID`, which raises on any other text. -/
def membershipBatchIds : List EnqueueArgs → List (String × BatchId) →
    Except EnqueueError (List BatchId)
  | [], ids => .ok (ids.map Prod.snd)
  | a :: l, ids =>
    match a.batchIdText with
    | none => membershipBatchIds l ids
    | some raw =>
      match parse raw with
      | none => .error (.invalidBatchId raw)
      | some b => membershipBatchIds l (Dict.set raw b ids)

def batchTerminal (batches : BatchId → Option BatchRow) (b : BatchId) : Bool :=
  (batches b).any (·.status ≠ .active)

/-- `_batch_cap_refusals`: the kernel on what the three queries find. -/
def EnqueueDb.capRefusals (args : List EnqueueArgs) : List Refusal :=
  let keyed := (capKeyedPairs args).map Prod.snd
  let found := db.jobs.rows.filter fun r => r.pair.any keyed.contains
  batchCapRefusalKernel args db.maxPending (fun p => found.any fun r => r.pair = some p)
    (pendingCount db.jobs.rows)

def EnqueueDb.admission (enforce : Bool) (args : List EnqueueArgs) :
    Except EnqueueError Admission :=
  if args.isEmpty then .error .emptyArgs
  else
    match unencodable args with
    | some e => .error e
    | none =>
      match membershipBatchIds parse args [] with
      | .error e => .error e
      | .ok ids =>
        -- `_lock_batch_membership`
        match ids.find? (batchTerminal db.batches) with
        | some b => .error (.batchIdExists b)
        | none => .ok (.of (if enforce then db.capRefusals args else []) args)

/-- `_attribute_singleton_collision`, without the driver's text. -/
def attributeSingletonCollision (rows : List JobRecord) (admitted : List EnqueueArgs) : String :=
  match firstSingletonCollisionActor
    (fun actor => rows.any fun r => r.singletonActor = some actor) [] admitted with
  | some actor => actor
  | none =>
    match ((admitted.filter fun a => a.singleton).map fun a => a.actor).dedup with
    | [actor] => actor
    | _ => "<unattributed>"

def assemble (rows returned : List JobRecord) : List EnqueueArgs →
    Except EnqueueError (List JobRecord)
  | [] => .ok []
  | a :: l =>
    match returned.find? fun r => r.id = a.id with
    | some r => (assemble rows returned l).map (r :: ·)
    | none =>
      match a.pair.bind (holder JobRecord.pair rows) with
      | none => .error (.noRowFound a.id)
      | some h =>
        if h.actor ≠ a.actor then .error (.actorMismatch a.actor h.actor (some h.id))
        else (assemble rows returned l).map (h :: ·)

def insertError (rows : List JobRecord) (admitted : List EnqueueArgs) : Violation → EnqueueError
  | .singleton => .singletonCollision (attributeSingletonCollision rows admitted) none
  | .pkey | .idempotency => .uniqueViolation

def EnqueueDb.enqueueBatch (enforce : Bool) (args : List EnqueueArgs) : Reply (List JobRecord) :=
  match db.admission parse enforce args with
  | .error e => ⟨.error e, db.jobs.rows⟩
  | .ok ad =>
    if ad.admitted.isEmpty then ⟨ad.raise args 0 [], db.jobs.rows⟩
    else
      match insertBatch now db.jobs.rows ad.admitted with
      | .error v => ⟨.error (insertError db.jobs.rows ad.admitted v), db.jobs.rows⟩
      | .ok (rows, returned) =>
        match assemble rows returned ad.admitted with
        | .error e => ⟨.error e, db.jobs.rows⟩
        | .ok result => ⟨ad.raise args result.length result, rows⟩

/-- A row as `COPY` lands it: `COPY_ENQUEUE_STATUS` and the defaults of the omitted columns. -/
def EnqueueArgs.copied (a : EnqueueArgs) (now : Stamp) : JobRecord :=
  { a.toColumns with id := a.id, status := .scheduled, createdAt := now, scheduledAt := now }

def copyRecords (now : Stamp) (rows : List JobRecord) :
    List EnqueueArgs → Except Violation (List JobRecord)
  | [] => .ok rows
  | a :: l =>
    match insertRow rows (a.copied now) with
    | .error v => .error v
    | .ok rows' => copyRecords now rows' l

/-- `sql.enqueue_batch_fast_fixup` on one row. -/
def fixup (now : Stamp) (params : List EnqueueArgs) (r : JobRecord) : JobRecord :=
  match params.find? fun p => p.id = r.id with
  | none => r
  | some p =>
    { r with
      status := if now < p.scheduledAt.getD now then .scheduled else .pending
      scheduledAt := p.scheduledAt.getD now
      scheduleToClose := (p.scheduleToCloseInterval.map (now + ·)).or p.scheduleToClose
      resultExpiresAt := p.resultTtl.map (now + ·) }

def duplicateError (args : List EnqueueArgs) (stored : Pair → Option JobRecord) (p : Pair) :
    EnqueueError :=
  match duplicatePairActorMismatch args p ((stored p).map fun r => r.actor) with
  | some (incoming, existing) => .actorMismatch incoming existing ((stored p).map fun r => r.id)
  | none => .duplicateKey (some p)

/-- A unique violation of the `COPY`, as `_attribute_copy_duplicate` converts it. -/
def copyError (rows : List JobRecord) (admitted : List EnqueueArgs) : Violation → EnqueueError
  | .pkey => .uniqueViolation
  | .singleton => .singletonCollision (attributeSingletonCollision rows admitted) none
  | .idempotency =>
    let stored := holder JobRecord.pair rows
    match firstDuplicateIdempotencyPair (fun p => (stored p).isSome) [] admitted with
    | some p => duplicateError admitted stored p
    | none => .duplicateKey none

def EnqueueDb.enqueueBatchFast (enforce : Bool) (args : List EnqueueArgs) : Reply Nat :=
  match db.admission parse enforce args with
  | .error e => ⟨.error e, db.jobs.rows⟩
  | .ok ad =>
    if ad.admitted.isEmpty then ⟨ad.raise args 0 0, db.jobs.rows⟩
    else
      match copyRecords now db.jobs.rows ad.admitted with
      | .error v => ⟨.error (copyError db.jobs.rows ad.admitted v), db.jobs.rows⟩
      | .ok rows =>
        let count := ad.admitted.length
        ⟨ad.raise args count count, rows.map (fixup now ad.admitted)⟩

end

section
variable {rows out returned : List JobRecord} {l : List EnqueueArgs}

section
variable (a : EnqueueArgs)
include a

namespace EnqueueArgs

lemma row_actor : (a.row now).actor = a.actor := rfl

lemma row_pair : (a.row now).pair = a.pair := rfl

lemma row_waiting : (a.row now).waiting = true := by
  simp only [JobRecord.waiting, EnqueueArgs.row]
  split <;> rfl

lemma row_singletonActor :
    (a.row now).singletonActor = if a.singleton then some a.actor else none := by
  have hlive : (a.row now).status.terminal = false := by
    simp only [EnqueueArgs.row]
    split <;> rfl
  simp only [JobRecord.singletonActor, hlive, Bool.not_false, Bool.and_true]
  rfl

lemma copied_singletonActor :
    (a.copied now).singletonActor = (a.row now).singletonActor := by
  rw [a.row_singletonActor]
  simp [JobRecord.singletonActor, EnqueueArgs.copied, JobStatus.terminal]

end EnqueueArgs

end

structure Fits (rows : List JobRecord) (r : JobRecord) : Prop where
  id : conflicts JobRecord.key rows r = false
  singleton : conflicts JobRecord.singletonActor rows r = false
  pair : conflicts JobRecord.pair rows r = false

lemma Fits.insertRow (h : Fits rows r) : insertRow rows r = .ok (rows ++ [r]) := by
  simp [Bulk.insertRow, h.id, h.singleton, h.pair]

lemma fits_of_insertRow (h : insertRow rows r = .ok out) : Fits rows r ∧ out = rows ++ [r] := by
  unfold insertRow at h
  split at h
  · cases h
  next hid =>
    split at h
    · cases h
    next hs =>
      split at h
      · cases h
      next hp =>
        exact ⟨⟨Bool.eq_false_of_not_eq_true hid, Bool.eq_false_of_not_eq_true hs,
          Bool.eq_false_of_not_eq_true hp⟩, (Except.ok.inj h).symm⟩

def JobsTable.snoc (t : JobsTable) (r : JobRecord) (h : Fits t.rows r) : JobsTable :=
  ⟨t.rows ++ [r], t.ids.snoc h.id, t.singletons.snoc h.singleton, t.pairs.snoc h.pair⟩

lemma insertBatch_append (h : insertBatch now rows l = .ok (out, returned)) :
    out = rows ++ returned := by
  induction l generalizing rows returned with
  | nil =>
    cases h
    exact (append_nil out).symm
  | cons a l ih =>
    rw [insertBatch] at h
    split at h
    · exact ih h
    split at h
    · cases h
    next rows' hrow =>
      split at h
      · cases h
      next out' returned' hrest =>
        cases h
        obtain ⟨-, rfl⟩ := fits_of_insertRow hrow
        rw [ih hrest, append_assoc, singleton_append]

lemma insertBatch_table {t : JobsTable} (h : insertBatch now t.rows l = .ok (out, returned)) :
    ∃ t' : JobsTable, t'.rows = out := by
  induction l generalizing t returned with
  | nil =>
    cases h
    exact ⟨t, rfl⟩
  | cons a l ih =>
    rw [insertBatch] at h
    split at h
    · exact ih h
    split at h
    · cases h
    next rows' hrow =>
      split at h
      · cases h
      next hrest =>
        cases h
        obtain ⟨hf, rfl⟩ := fits_of_insertRow hrow
        exact ih (t := t.snoc _ hf) hrest

lemma mem_returned (h : insertBatch now rows l = .ok (out, returned)) (hr : r ∈ returned) :
    ∃ a ∈ l, r = a.row now := by
  induction l generalizing rows returned with
  | nil =>
    cases h
    cases hr
  | cons a l ih =>
    rw [insertBatch] at h
    split at h
    · obtain ⟨b, hb, rfl⟩ := ih h hr
      exact ⟨b, mem_cons_of_mem _ hb, rfl⟩
    split at h
    · cases h
    split at h
    · cases h
    next hrest =>
      cases h
      rcases mem_cons.mp hr with rfl | hr
      · exact ⟨a, mem_cons_self, rfl⟩
      · obtain ⟨b, hb, rfl⟩ := ih hrest hr
        exact ⟨b, mem_cons_of_mem _ hb, rfl⟩

lemma copyRecords_append {t : JobsTable} (h : copyRecords now t.rows l = .ok out) :
    out = t.rows ++ l.map (·.copied now) ∧ Unique JobRecord.key out := by
  induction l generalizing t with
  | nil =>
    cases h
    exact ⟨(append_nil _).symm, t.ids⟩
  | cons a l ih =>
    rw [copyRecords] at h
    split at h
    · cases h
    next rows' hrow =>
      obtain ⟨hf, rfl⟩ := fits_of_insertRow hrow
      obtain ⟨rfl, hu⟩ := ih (t := t.snoc _ hf) h
      refine ⟨?_, hu⟩
      rw [JobsTable.snoc, append_assoc, singleton_append, map_cons]

lemma map_fixup (hu : Unique JobRecord.key (rows ++ l.map (·.copied now))) :
    (rows ++ l.map (·.copied now)).map (fixup now l) = rows ++ l.map (·.row now) := by
  obtain ⟨-, hl, hapart⟩ := pairwise_append.mp hu
  have hids : Unique (fun a : EnqueueArgs => some a.id) l := pairwise_map.mp hl
  have hold : ∀ r ∈ rows, fixup now l r = r := by
    intro r hr
    have hnone : (l.find? fun p => p.id = r.id) = none := by
      rw [find?_eq_none]
      intro p hp
      have hne := hapart r hr (p.copied now) (mem_map_of_mem hp) r.id rfl
      simpa [JobRecord.key, EnqueueArgs.copied] using hne
    rw [fixup, hnone]
  have hnew : ∀ a ∈ l, fixup now l (a.copied now) = a.row now := by
    intro a ha
    have hsome : (l.find? fun p => p.id = (a.copied now).id) = some a := hids.find?_of_mem ha
    rw [fixup, hsome]
    rfl
  rw [map_append, map_map]
  congr 1
  · exact (map_congr_left hold).trans (map_id rows)
  · exact map_congr_left hnew

end

end TaskQ.Bulk
