import TaskQ.System

namespace TaskQ
open RowLocks

def Snapshot.write (db : Snapshot) (w : Writes) : Snapshot :=
  { db with jobs := fun k => (w k).or (db.jobs k) }

def Writes.andThen (w w' : Writes) : Writes := fun k => (w' k).or (w k)

def JobRow.rearm (r : JobRow) (now : Time) : JobRow :=
  { r with status := .pending, scheduledAt := now, lockedByWorker := none, lockExpiresAt := none }

def retryNodeCas (db : Snapshot) (now : Time) (flow : JobId) (nodeKey : String) : Writes :=
  update db (fun _ r => r.stepKey = nodeKey && r.inFlow flow && r.status = .failed &&
      r.stepKey ≠ rootStepKey) fun _ r =>
    { r.rearm now with errorClass := none, errorMessage := none }

/-- `_DESCENDANTS_SQL`: the step keys of the children of the nodes with the given key. -/
def descendantKeys (db : Snapshot) (flow : JobId) (nodeKey : String) : List String :=
  db.edges.filterMap fun e => (db.jobs e.child).bind fun c =>
    if (db.jobs e.parent).any fun p => p.inFlow flow && p.stepKey = nodeKey then some c.stepKey
    else none

def retryReopenClosure (db : Snapshot) (flow : JobId) (keys : List String) : Writes :=
  update db (fun _ r => r.inFlow flow && r.stepKey ∈ keys &&
      r.metadata.blockingReason = some .failedParent && !r.status.terminal) fun _ r =>
    { r with metadata := { r.metadata with blockingReason := some .join } }

def retrySkipRearm (db : Snapshot) (now : Time) (flow : JobId) : Writes :=
  update db (fun _ r => r.inFlow flow && r.status = .succeeded && r.result = some .skipped &&
      r.stepKey ≠ rootStepKey) fun _ r =>
    { r.rearm now with result := none }

def retryFlowReopen (db : Snapshot) (flow : JobId) : Writes :=
  update db (fun k r => k = flow && r.status = .failed) fun _ r => { r with status := .running }

/-- The statements of `retry_workflow_node` after the root's check; they stop if none resumes. -/
def retryWorkflowNode (db : Snapshot) (now : Time) (flow : JobId) (nodeKey : String) : Writes :=
  let w1 := retryNodeCas db now flow nodeKey
  if db.ids.all fun k => (w1 k).isNone then fun _ => none
  else
    let db1 := db.write w1
    let w2 := retryReopenClosure db1 flow (descendantKeys db1 flow nodeKey)
    let db2 := db1.write w2
    let w3 := retrySkipRearm db2 now flow
    let db3 := db2.write w3
    ((w1.andThen w2).andThen w3).andThen (retryFlowReopen db3 flow)

structure Resumes (r0 r : JobRow) : Prop where
  deps : r.depsPending = r0.depsPending
  status : r.status = r0.status ∧ r.result = r0.result ∨ r.status.terminal = false ∧
    (r0.status = .failed ∨ r0.status = .succeeded ∧ r0.result = some .skipped)

lemma Resumes.trans (h : Resumes r0 r1) (h' : Resumes r1 r2) : Resumes r0 r2 := by
  refine ⟨h'.deps.trans h.deps, ?_⟩
  rcases h'.status with ⟨hs', hr'⟩ | ⟨ht', hs'⟩
  · rcases h.status with ⟨hs, hr⟩ | ⟨ht, hs⟩
    · exact .inl ⟨hs'.trans hs, hr'.trans hr⟩
    · exact .inr ⟨hs' ▸ ht, hs⟩
  · rcases h.status with ⟨hs, hr⟩ | ⟨-, hs⟩
    · exact .inr ⟨ht', by rwa [hs, hr] at hs'⟩
    · exact .inr ⟨ht', hs⟩

variable {db : Snapshot}

lemma resumes_retryNodeCas (h : retryNodeCas db now flow key k = some r) :
    ∃ r0, db.jobs k = some r0 ∧ Resumes r0 r := by
  obtain ⟨r0, hr0, hp, rfl⟩ := update_some.mp h
  simp only [Bool.and_eq_true, decide_eq_true_eq] at hp
  exact ⟨r0, hr0, rfl, .inr ⟨rfl, .inl hp.1.2⟩⟩

lemma resumes_retryReopenClosure {keys : List String}
    (h : retryReopenClosure db flow keys k = some r) :
    ∃ r0, db.jobs k = some r0 ∧ Resumes r0 r := by
  obtain ⟨r0, hr0, -, rfl⟩ := update_some.mp h
  exact ⟨r0, hr0, rfl, .inl ⟨rfl, rfl⟩⟩

lemma resumes_retrySkipRearm (h : retrySkipRearm db now flow k = some r) :
    ∃ r0, db.jobs k = some r0 ∧ Resumes r0 r := by
  obtain ⟨r0, hr0, hp, rfl⟩ := update_some.mp h
  simp only [Bool.and_eq_true, decide_eq_true_eq] at hp
  exact ⟨r0, hr0, rfl, .inr ⟨rfl, .inr ⟨hp.1.1.2, hp.1.2⟩⟩⟩

lemma resumes_retryFlowReopen (h : retryFlowReopen db flow k = some r) :
    ∃ r0, db.jobs k = some r0 ∧ Resumes r0 r := by
  obtain ⟨r0, hr0, hp, rfl⟩ := update_some.mp h
  simp only [Bool.and_eq_true, decide_eq_true_eq] at hp
  exact ⟨r0, hr0, rfl, .inr ⟨rfl, .inl hp.2⟩⟩

lemma Resumes.of_write {w : Writes}
    (hw : ∀ r, w k = some r → ∃ r0, db.jobs k = some r0 ∧ Resumes r0 r)
    (h : (db.write w).jobs k = some r) : ∃ r0, db.jobs k = some r0 ∧ Resumes r0 r := by
  rcases Option.or_eq_some_iff.mp h with hr | ⟨-, hr⟩
  · exact hw r hr
  · exact ⟨r, hr, rfl, .inl ⟨rfl, rfl⟩⟩

lemma Resumes.andThen {w w' : Writes}
    (hw : ∀ r, w k = some r → ∃ r0, db.jobs k = some r0 ∧ Resumes r0 r)
    (hw' : ∀ r, w' k = some r → ∃ r0, (db.write w).jobs k = some r0 ∧ Resumes r0 r)
    (h : w.andThen w' k = some r) : ∃ r0, db.jobs k = some r0 ∧ Resumes r0 r := by
  rcases Option.or_eq_some_iff.mp h with hr | ⟨-, hr⟩
  · obtain ⟨r1, hr1, h1⟩ := hw' r hr
    obtain ⟨r0, hr0, h0⟩ := Resumes.of_write hw hr1
    exact ⟨r0, hr0, h0.trans h1⟩
  · exact hw r hr

lemma Snapshot.write_andThen (db : Snapshot) (w w' : Writes) :
    (db.write w).write w' = db.write (w.andThen w') := by
  simp only [Snapshot.write, Writes.andThen, Option.or_assoc]

lemma resumes_retryWorkflowNode (h : retryWorkflowNode db now flow key k = some r) :
    ∃ r0, db.jobs k = some r0 ∧ Resumes r0 r := by
  unfold retryWorkflowNode at h
  split at h
  · cases h
  refine Resumes.andThen ?_ (fun r hr => ?_) h
  · refine fun r hr => Resumes.andThen ?_ (fun r hr => ?_) hr
    · refine fun r hr => Resumes.andThen (fun r hr => ?_) (fun r hr => ?_) hr
      · exact resumes_retryNodeCas hr
      · exact resumes_retryReopenClosure hr
    · rw [← Snapshot.write_andThen]
      exact resumes_retrySkipRearm hr
  · rw [← Snapshot.write_andThen, ← Snapshot.write_andThen]
    exact resumes_retryFlowReopen hr

/-- `retry_workflow_node` in one transaction, under the root's lock; a cancelled run refuses it. -/
def Sys.retry (s : Sys) (t : Tx) (now : Time) (flow : JobId) (nodeKey : String) : Option Sys :=
  if (s.jobs flow).draft.isNone && !(s.jobs flow).base.any fun f => f.status = .cancelled then
    s.autocommit t (retryWorkflowNode (s.snapshot t) now flow nodeKey)
  else none

inductive Operation where
  | engine (a : Event)
  | retry (t : Tx) (now : Time) (flow : JobId) (nodeKey : String)

def Sys.operate (s : Sys) : Operation → Option Sys
  | .engine a => s.step a
  | .retry t now flow nodeKey => s.retry t now flow nodeKey

def Operation.tx : Operation → Tx
  | .engine (.call t _) | .engine (.exec t _) | .engine (.commit t) | .engine (.deadlock t)
  | .engine (.crash t) | .engine (.claim t _ _ _) | .engine (.reclaim t _ _ _ _)
  | .retry t _ _ _ => t

lemma Sys.retry_some {s : Sys} (h : s.retry t now flow key = some s') :
    s.autocommit t (retryWorkflowNode (s.snapshot t) now flow key) = some s' := by
  simp only [Sys.retry, Option.ite_none_right_eq_some] at h
  exact h.2

lemma Sys.sessions_operate {s : Sys} (h : s.operate a = some s') (hu : u ≠ a.tx) :
    s'.sessions u = s.sessions u := by
  have hauto : ∀ {t w}, s.autocommit t w = some s' → s'.sessions u = s.sessions u := by
    intro t w hs
    obtain ⟨-, -, rfl⟩ := Sys.autocommit_some hs
    rfl
  cases a with
  | engine a =>
    cases Sys.moves_of_step h with
    | call | exec | commit | deadlock | crash => exact Function.update_of_ne hu ..
    | claim hc => exact hauto hc
    | reclaim hr => exact hauto hr
  | retry t now flow nodeKey => exact hauto (Sys.retry_some h)

end TaskQ
