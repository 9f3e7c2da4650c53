import TaskQ.Claims

namespace TaskQ

abbrev HoldId := Nat

inductive SignalStatus where
  | held | delivered | cancelled | abandoned
  deriving DecidableEq

/-- A hold row's `payload`: a human's answer, the clock's receipt, or a child flow's outcome. -/
inductive Payload where
  | doc (text : String)
  | timerWake (key : String) (scheduled : Option Time) (firedAt : Time)
  | childVerdict (child : String) (status : Option JobStatus)
  deriving DecidableEq

structure SignalRow where
  workflow : JobId
  (nodeKey signalName : String)
  holdEpoch : Nat := 1
  mapIndex : Option Nat := none
  payload : Option Payload := none
  status : SignalStatus := .held
  expiresAt : Option Time := none
  resolvedAt : Option Time := none
  deriving DecidableEq

/-- The columns of `wf_signals_hold_identity_uniq`, an index over the unresolved rows. -/
def SignalRow.identity (r : SignalRow) : JobId × String × String × Option Nat × Nat :=
  (r.workflow, r.nodeKey, r.signalName, r.mapIndex, r.holdEpoch)

/-- `TIMER_SIGNAL_PREFIX`. -/
def timerMark : String := "__timer__"

/-- `CHILD_JOIN_SIGNAL_PREFIX`. -/
def childJoinMark : String := "__child__:"

def startsWith (mark name : String) : Bool := mark.toList.isPrefixOf name.toList

def dropMark (mark name : String) : String := String.ofList (name.toList.drop mark.length)

def holdInsert (rows : List (HoldId × SignalRow)) (hold : HoldId) (r : SignalRow) :
    Option (List (HoldId × SignalRow)) :=
  if rows.any fun p => p.2.resolvedAt.isNone && p.2.identity = r.identity then none
  else some (rows ++ [(hold, r)])

/-- `_HOLD_HOLD_NODE_SQL`: the held representation. -/
def holdNode (db : Snapshot) (job : JobId) (hold : HoldId) (deadline : Option Time) : Writes :=
  update db (fun k r => k = job && r.status = .running) fun _ r =>
    { r with
      status := .pending, lockedByWorker := none, lockExpiresAt := none
      scheduledAt := deadline.getD r.scheduledAt
      metadata := { r.metadata with hold := some hold } }

lemma holdNode_row {db : Snapshot} (h : holdNode db job hold deadline k = some r) :
    ∃ r0, db.jobs k = some r0 ∧ k = job ∧ r0.status = .running ∧ r.attempt = r0.attempt ∧
      r.depsPending = r0.depsPending := by
  obtain ⟨r0, hr0, hp, rfl⟩ := update_some.mp h
  simp only [Bool.and_eq_true, decide_eq_true_eq] at hp
  exact ⟨r0, hr0, hp.1, hp.2, rfl, rfl⟩

def deliverResume (db : Snapshot) (now : Time) (node : JobId) : Writes :=
  update db (fun k r => k = node && r.status = .pending) fun _ r =>
    { r with scheduledAt := now, metadata := { r.metadata with hold := none } }

lemma deliverResume_row {db : Snapshot} (h : deliverResume db now node k = some r) :
    k = node ∧ r.metadata.hold = none ∧ ∃ r0, db.jobs k = some r0 := by
  obtain ⟨r0, hr0, hp, rfl⟩ := update_some.mp h
  simp only [Bool.and_eq_true, decide_eq_true_eq] at hp
  exact ⟨hp.1, rfl, r0, hr0⟩

/-- A statement that resolves hold rows: what it writes for the row of each hold. -/
abbrev Resolution := HoldId → SignalRow → Option SignalRow

def signalCas (workflow : Option JobId) (now : Time) (hold : HoldId) (payload : String) :
    Resolution := fun h r =>
  if h = hold && workflow.all (· = r.workflow) && r.status = .held then
    some { r with
      status := .delivered, payload := some (.doc payload), resolvedAt := some now }
  else none

def Resolution.Guarded (f : Resolution) : Prop :=
  ∀ h r r', f h r = some r' → r.status = .held ∧ r'.status ≠ .held ∧ r'.identity = r.identity

lemma guarded_signalCas : (signalCas workflow now hold payload).Guarded := by
  intro h r r' hf
  simp only [signalCas, Option.ite_none_right_eq_some, Bool.and_eq_true, decide_eq_true_eq,
    Option.some.injEq] at hf
  obtain ⟨⟨-, hs⟩, rfl⟩ := hf
  exact ⟨hs, nofun, rfl⟩

def deliverCas (workflow : JobId) : Time → HoldId → String → Resolution :=
  signalCas (some workflow)

def resolveCas : Time → HoldId → String → Resolution := signalCas none

def cancelRunSignals (now : Time) (flow : JobId) : Resolution := fun _ r =>
  if r.workflow = flow && r.status = .held then
    some { r with status := .cancelled, resolvedAt := some now }
  else none

lemma guarded_cancelRunSignals : (cancelRunSignals now flow).Guarded := by
  intro h r r' hf
  simp only [cancelRunSignals, Option.ite_none_right_eq_some, Bool.and_eq_true,
    decide_eq_true_eq, Option.some.injEq] at hf
  obtain ⟨⟨-, hs⟩, rfl⟩ := hf
  exact ⟨hs, nofun, rfl⟩

/-- The update of `_EXPIRY_SWEEP_SQL` over the rows its subquery locked. -/
def expirySweep (now : Time) (expired : List HoldId) : Resolution := fun h r =>
  if h ∈ expired then some { r with status := .abandoned, resolvedAt := some now } else none

/-- The update of `_TIMER_FIRE_SQL` over the rows its subquery locked. -/
def timerFire (now : Time) (due : List HoldId) : Resolution := fun h r =>
  if h ∈ due then
    some { r with
      status := .delivered
      payload := some (.timerWake (dropMark timerMark r.signalName) r.expiresAt now)
      resolvedAt := some now }
  else none

/-- `_CHILD_WAKE_DELIVER_SQL`'s update for a verdict, keyed by the id alone. -/
def childWakeDeliver (now : Time) (hold : HoldId) (verdict : Payload) : Resolution := fun h r =>
  if h = hold then
    some { r with status := .delivered, payload := some verdict, resolvedAt := some now }
  else none

end TaskQ
