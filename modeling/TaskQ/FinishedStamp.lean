import TaskQ.CancelKept
import TaskQ.NodeStatements

namespace TaskQ.Jobs

open Runs Row Table

def validTransitions : JobStatus → List JobStatus
  | .pending => [.running, .cancelled, .failed]
  | .scheduled => [.pending, .cancelled, .failed]
  | .running => [.succeeded, .failed, .cancelled, .crashed, .abandoned, .scheduled, .pending]
  | .succeeded | .failed | .cancelled | .crashed | .abandoned => []

def Row.Stamped (j : Row) : Prop := j.finishedAt.isSome = j.status.terminal

instance (j : Row) : Decidable j.Stamped := inferInstanceAs (Decidable (_ = _))

inductive Stamping (j j' : Row) : Prop where
  | ends (status : j'.status.terminal = true) (finished : j'.finishedAt.isSome = true)
  | reopens (status : j'.status.terminal = false) (finished : j'.finishedAt = none)
  | keeps (status : j'.status.terminal = j.status.terminal)
      (finished : j'.finishedAt = j.finishedAt)

section
variable {j j' : Row}

lemma Stamping.stamped (h : Stamping j j') (hj : j.Stamped) : j'.Stamped := by
  cases h with
  | ends hs hf => exact hf.trans hs.symm
  | reopens hs hf => rw [Row.Stamped, hs, hf, Option.isSome_none]
  | keeps hs hf => rw [Row.Stamped, hs, hf, hj]

lemma Stamping.moves (hj : j.status.terminal = false) (hs : j'.status.terminal = false)
    (hf : j'.finishedAt = j.finishedAt) : Stamping j j' :=
  .keeps (hs.trans hj.symm) hf

lemma Row.waiting.open (h : j.waiting) : j.status.terminal = false := by
  rcases h with h | h <;> rw [h] <;> rfl

lemma handBack_open (delay : Stamp) :
    (if 0 < delay then JobStatus.scheduled else .pending).terminal = false := by
  split <;> rfl

lemma Row.claim_stamping (h : j.claim worker now lease = some j') : Stamping j j' := by
  obtain ⟨-, rfl⟩ := matched h
  exact .reopens rfl rfl

lemma Arm.stamping (h : Arm f now j j') : Stamping j j' := by
  cases h with
  | handBack _ hs hf _ _ _ =>
    refine .reopens ?_ hf
    rw [hs]
    exact handBack_open _
  | finish _ hs hf _ _ =>
    refine .ends ?_ (by rw [hf]; rfl)
    rcases hs with hs | hs | hs <;> rw [hs] <;> rfl

lemma Row.reclaimed_stamping (hj : j.status = .running) :
    Stamping j (j.reclaimed now delay crashClass crashMessage) := by
  by_cases hp : j.cancelPhase = .none
  · by_cases hb : j.reclaimHasBudget
    · exact .moves (by rw [hj]; rfl) (by simp [reclaimed, hp, hb, JobStatus.terminal])
        (by simp [reclaimed, hp, hb])
    · exact .ends (by simp [reclaimed, hp, hb, JobStatus.terminal])
        (by simp [reclaimed, hb])
  · exact .ends (by simp [reclaimed, hp, JobStatus.terminal]) (by simp [reclaimed, hp])

lemma Row.cancelPendingScheduled_stamping (h : j.cancelPendingScheduled now = some j') :
    Stamping j j' := by
  obtain ⟨-, rfl⟩ := matched h
  exact .ends rfl rfl

lemma Row.cancelRunning_stamping (h : j.cancelRunning now = some j') : Stamping j j' := by
  obtain ⟨-, rfl⟩ := matched h
  exact .keeps rfl rfl

lemma Stmt.stamping {stmt : Stmt} (h : stmt.apply j = some j') : Stamping j j' := by
  cases stmt with
  | cancelPendingScheduled now => exact cancelPendingScheduled_stamping h
  | cancelRunning now => exact cancelRunning_stamping h
  | cancelRequest now =>
    rcases Option.or_eq_some_iff.mp h with h | ⟨-, h⟩
    · exact cancelPendingScheduled_stamping h
    · exact cancelRunning_stamping h
  | markAbandoned | abortBatch | deregister | sweepDeadline =>
    obtain ⟨-, rfl⟩ := matched h
    exact .ends rfl rfl
  | cancelEscalation | heartbeat | sweepResultTtl | reconcileLostClaim | flushProgress
  | moveBacklog =>
    obtain ⟨-, rfl⟩ := matched h
    exact .keeps rfl rfl
  | sweepReclaim ts now grace delay =>
    obtain ⟨hx, _, rfl⟩ := sweepReclaim_some h
    exact reclaimed_stamping hx
  | sweepPromote ts =>
    obtain ⟨⟨hj, -⟩, rfl⟩ := matched h
    exact .moves (by rw [hj]; rfl) rfl rfl
  | isolate worker now delay =>
    obtain ⟨⟨hj, -⟩, rfl⟩ := matched h
    exact reclaimed_stamping hj
  | shutdownRepend worker recorded =>
    obtain ⟨⟨-, hj, -⟩, rfl⟩ := matched h
    exact .moves (by rw [hj]; rfl) rfl rfl
  | retryJob now =>
    obtain ⟨-, rfl⟩ := matched h
    exact .reopens rfl rfl

lemma NodeStmt.stamping {stmt : NodeStmt} (h : stmt.apply j = some j')
    (hretry : ∀ now, stmt ≠ .retryNodeCas now) : Stamping j j' := by
  cases stmt with
  | terminalMark f now m =>
    obtain ⟨-, rfl⟩ := matched h
    exact .ends m.outcome.2 rfl
  | nodeClaim worker now =>
    obtain ⟨⟨hj, -⟩, rfl⟩ := matched h
    exact .moves (waiting.open (hj.imp_right And.left)) rfl rfl
  | nodeRepend | holdNode | rootStart =>
    obtain ⟨hj, rfl⟩ := matched h
    exact .moves (by rw [hj]; rfl) rfl rfl
  | nodeDeadlineRepend f now backoff exhausted =>
    obtain ⟨⟨hj, -⟩, rfl⟩ := matched h
    exact .moves (by rw [hj.1]; rfl) rfl rfl
  | nodeDefer f now delay consuming deferral =>
    obtain ⟨-, rfl⟩ := matched h
    exact .reopens (handBack_open _) rfl
  | deliverResume now =>
    obtain ⟨-, rfl⟩ := matched h
    exact .keeps rfl rfl
  | cancelNodes now =>
    obtain ⟨-, rfl⟩ := matched h
    by_cases hrun : j.status = .running
    · exact .keeps (by simp [hrun]) (by simp [hrun])
    · exact .ends (by simp [hrun, JobStatus.terminal]) (by simp [hrun])
  | cancelRoot | exitSkip | peerCancel | flowFailed | loopExhaust | nodelessRootReap =>
    obtain ⟨-, rfl⟩ := matched h
    exact .ends rfl rfl
  | rootMaintain now failed cancelled =>
    obtain ⟨-, rfl⟩ := matched h
    exact .ends (by cases failed <;> cases cancelled <;> rfl) rfl
  | retryNodeCas now => exact absurd rfl (hretry now)
  | retryFlowReopen | retrySkipRearm =>
    obtain ⟨-, rfl⟩ := matched h
    exact .reopens rfl rfl
  | annotate depsPending metadata scheduledAt =>
    cases h
    exact .keeps rfl rfl

/-- A status change of the job statements, and which of them is no pair of the table. -/
def Allowed (a : Op) (j j' : Row) : Prop :=
  j'.status = j.status ∨ j'.status ∈ validTransitions j.status ∨
    ∃ now ids, a = .run (.retryJob now) ids ∧ j.status.terminal = true ∧ j'.status = .pending

lemma Allowed.of_running (hj : j.status = .running) : Allowed a j j' := by
  have hall : ∀ st : JobStatus, st = .running ∨ st ∈ validTransitions .running := by
    intro st
    cases st <;> decide
  rw [Allowed, hj]
  exact (hall j'.status).imp_right .inl

lemma Allowed.of_waiting (hj : j.waiting) (hs : j'.status = .cancelled ∨ j'.status = .failed) :
    Allowed a j j' := by
  right
  left
  rcases hj with hj | hj <;> rcases hs with hs | hs <;> rw [hj, hs] <;> decide

lemma Row.cancelPendingScheduled_allowed (h : j.cancelPendingScheduled now = some j') :
    Allowed a j j' := by
  obtain ⟨hj, rfl⟩ := matched h
  exact .of_waiting hj (.inl rfl)

lemma Stmt.allowed {stmt : Stmt} (h : stmt.apply j = some j') : Allowed (.run stmt ids) j j' := by
  cases stmt with
  | cancelPendingScheduled now => exact cancelPendingScheduled_allowed h
  | cancelRunning | markAbandoned | cancelEscalation | heartbeat | flushProgress | isolate =>
    obtain ⟨⟨hj, -⟩, rfl⟩ := matched h
    exact .of_running hj
  | cancelRequest now =>
    rcases Option.or_eq_some_iff.mp h with h | ⟨-, h⟩
    · exact cancelPendingScheduled_allowed h
    · obtain ⟨⟨hj, -⟩, rfl⟩ := matched h
      exact .of_running hj
  | shutdownRepend | reconcileLostClaim =>
    obtain ⟨⟨-, hj, -⟩, rfl⟩ := matched h
    exact .of_running hj
  | abortBatch | deregister =>
    obtain ⟨hj, rfl⟩ := matched h
    exact .of_waiting hj (.inl rfl)
  | sweepReclaim ts now grace delay =>
    exact .of_running (sweepReclaim_some h).1
  | sweepDeadline ts now =>
    obtain ⟨⟨hj, -⟩, rfl⟩ := matched h
    exact .of_waiting hj (.inr rfl)
  | sweepPromote ts =>
    obtain ⟨⟨hj, -⟩, rfl⟩ := matched h
    right
    left
    rw [hj]
    exact List.mem_cons_self
  | sweepResultTtl | moveBacklog =>
    obtain ⟨-, rfl⟩ := matched h
    exact .inl rfl
  | retryJob now =>
    obtain ⟨⟨hrun, hwait, -⟩, rfl⟩ := matched h
    refine .inr (.inr ⟨now, ids, rfl, ?_, rfl⟩)
    rw [waiting, not_or] at hwait
    cases hs : j.status with
    | pending => exact absurd hs hwait.1
    | scheduled => exact absurd hs hwait.2
    | running => exact absurd hs hrun
    | succeeded | failed | cancelled | crashed | abandoned => rfl

lemma Table.step_allowed {t t' : Table} {id : JobId} (h : t.step a = some t')
    (hj : t id = some j) (hj' : t' id = some j') : Allowed a j j' := by
  rcases step_row h hj' with hold | ⟨n, now, rfl, rfl, rfl⟩ | ⟨j0, hj0, hc⟩
  · rw [hj] at hold
    exact .inl (congrArg status (Option.some.inj hold)).symm
  · obtain ⟨hnone, -⟩ := matched h
    rw [hnone] at hj
    cases hj
  · cases hj.symm.trans hj0
    rcases hc with ⟨ids, worker, now, lease, rfl, -, hc⟩ | ⟨f, now, o, w, rfl, hw, rfl⟩ |
      ⟨stmt, ids, rfl, -, hs⟩
    · have hclaim := claimed hc
      right
      left
      rw [hclaim.pending, hclaim.running]
      decide
    · exact .of_running (o.landing hw).fence.1
    · exact Stmt.allowed hs

end

inductive AnyOp where
  | job (a : Op)
  | insertNode (n : NewNode) (now : Stamp)
  | node (stmt : NodeStmt) (ids : List JobId)

def Table.anyStep (t : Table) : AnyOp → Option Table
  | .job a => t.step a
  | .insertNode n now =>
    if t n.id = none then some fun id => if id = n.id then some (n.row now) else t id else none
  | .node stmt ids => some (t.update ids fun j => stmt.apply j)

def RetriesNoNode (t : Table) : AnyOp → Prop
  | .node (.retryNodeCas now) ids => ∀ id ∈ ids, ∀ j ∈ t id, j.retryNodeCas now = none
  | _ => True

section
variable {t t' : Table} {j j' : Row}

lemma Table.step_stamped {id : JobId} (hI : ∀ id j, t id = some j → j.Stamped)
    (h : t.step a = some t') (hj : t' id = some j') : j'.Stamped := by
  rcases step_row h hj with hj | ⟨n, now, rfl, -, rfl⟩ | ⟨j, hj, hc⟩
  · exact hI id j' hj
  · exact (waiting.open (n.row_waiting now)).symm
  refine Stamping.stamped ?_ (hI id j hj)
  rcases hc with ⟨ids, worker, now, lease, rfl, -, hc⟩ | ⟨f, now, o, w, rfl, hw, rfl⟩ |
    ⟨stmt, ids, rfl, -, hs⟩
  · exact claim_stamping hc
  · exact (o.lands hw).arm.stamping
  · exact Stmt.stamping hs

lemma Table.anyStep_stamped {id : JobId} (hI : ∀ id j, t id = some j → j.Stamped)
    (hok : RetriesNoNode t a) (h : t.anyStep a = some t') (hj : t' id = some j') : j'.Stamped := by
  cases a with
  | job a => exact step_stamped hI h hj
  | insertNode n now =>
    obtain ⟨-, rfl⟩ := matched h
    dsimp only at hj
    split at hj
    · cases hj
      rfl
    · exact hI id j' hj
  | node stmt ids =>
    cases h
    rcases update_some hj with hold | ⟨hid, j, hold, hs⟩
    · exact hI id j' hold
    refine (NodeStmt.stamping hs fun now hretry => ?_).stamped (hI id j hold)
    subst hretry
    rw [NodeStmt.apply, hok id hid j hold] at hs
    cases hs

/-- Without a node retry `finished_at` marks the terminal rows, and the status moves are known. -/
theorem finished_marks_terminal {t : Table}
    (h : Reach Table.anyStep RetriesNoNode (fun _ => none) t) :
    (∀ id j, t id = some j → (j.finishedAt.isSome = true ↔ j.status.terminal = true)) ∧
    ∀ (u u' : Table) (a : Op) (id : JobId) (j j' : Row), u.step a = some u' → u id = some j →
      u' id = some j' → j'.status ≠ j.status → j'.status ∈ validTransitions j.status ∨
        ∃ now ids, a = .run (.retryJob now) ids ∧ j.status.terminal = true ∧
          j'.status = .pending := by
  constructor
  · intro id j hj
    have hstamped : ∀ id j, t id = some j → j.Stamped :=
      h.invariant (fun _ _ h => by cases h) fun _ _ _ hI hok hs _ _ hj =>
        anyStep_stamped hI hok hs hj
    rw [hstamped id j hj]
  · intro u u' a id j j' hs hj hj' hne
    exact (step_allowed hs hj hj').resolve_left hne

def failedNode : List AnyOp :=
  [.insertNode { id := 1, actor := "wf", stepKey := "load", flow := 0 } 0,
    .node (.nodeClaim 7 10) [1],
    .node (.terminalMark ⟨7, some 1, some 0⟩ 20 { outcome := failedOutcome }) [1]]

/-- `retry_workflow_node` leaves the stamp on the node it reopens. -/
theorem retried_node_stamped : ∃ t, Reach Table.anyStep (fun _ _ => True) (fun _ => none) t ∧
      ∃ j, t 1 = some j ∧ j.status = .pending ∧ j.finishedAt = some 20 :=
  ⟨final anyStep (fun _ => none) (failedNode ++ [.node (.retryNodeCas 30) [1]]),
    .of_final (by decide), _, rfl, rfl, rfl⟩

theorem failed_node_stamped : (∃ t, Reach Table.anyStep RetriesNoNode (fun _ => none) t ∧
      ∃ j, t 1 = some j ∧ (j.finishedAt.isSome = true ↔ j.status.terminal = true)) ∧
    ∃ j j', final Table.step (fun _ => none) (retriedFailure.take 2) 1 = some j ∧
      final Table.step (fun _ => none) (retriedFailure.take 3) 1 = some j' ∧
      j'.status ∈ validTransitions j.status := by
  have hreach : Reach anyStep RetriesNoNode (fun _ => none)
      (final anyStep (fun _ => none) failedNode) := by
    let other : Table → AnyOp → Bool
      | _, .node (.retryNodeCas _) _ => false
      | _, _ => true
    refine .of_exec (exec_final (by decide)) (.of_checks other (by decide) fun t a h => ?_)
    unfold RetriesNoNode
    split
    · cases h
    · trivial
  obtain ⟨hstamped, hallowed⟩ := finished_marks_terminal hreach
  let failing : Op := .write 1 ⟨7, some 1, some 1⟩ 20 (.failed ⟨"ValueError", "bad input", none⟩ {})
  have hfails : step (final step (fun _ => none) (retriedFailure.take 2)) failing =
      some (final step (fun _ => none) (retriedFailure.take 3)) := rfl
  refine ⟨⟨_, hreach, _, rfl, hstamped 1 _ rfl⟩, _, _, rfl, rfl, ?_⟩
  rcases hallowed _ _ failing 1 _ _ hfails rfl rfl (by decide) with h | ⟨now, ids, h, -⟩
  · exact h
  · cases (show Op.write _ _ _ _ = _ from h)

end

/-- Whatever runs, a job that is over keeps its status until it is retried. -/
theorem over_until_retried {t t' : Table} {id : JobId} {j : Row} (hj : t id = some j)
    (hover : j.status.terminal = true) (h : Reach Table.step (fun _ a => id ∉ a.retried) t t') :
    ∃ j', t' id = some j' ∧ j'.status = j.status := by
  refine h.invariant (I := fun t => ∃ j', t id = some j' ∧ j'.status = j.status) ⟨j, hj, rfl⟩ ?_
  intro u a u' hI hr hs
  obtain ⟨k, hk, hst⟩ := hI
  obtain ⟨k', hk'⟩ := Option.isSome_iff_exists.mp (step_isSome hs (Option.isSome_of_eq_some hk))
  refine ⟨k', hk', ?_⟩
  rcases step_allowed hs hk hk' with hsame | hmem | ⟨now, ids, rfl, -, hpend⟩
  · exact hsame.trans hst
  · rw [hst] at hmem
    generalize j.status = st at hmem hover
    cases st <;> cases hover <;> cases hmem
  · have hid : id ∉ ids := hr
    cases hs
    rw [Table.update, if_neg hid, hk] at hk'
    cases hk'
    exact hst

def reportCancelled : Table :=
  final Table.step (fun _ => none)
    [.enqueue { id := 1, actor := "report" } 0, .claim [1] 7 10 60000000,
      .write 1 ⟨7, some 1, some 1⟩ 30 (.cancelled {})]

theorem over_until_retried_cancelled : ∃ j', final Table.step reportCancelled
      [.write 1 ⟨7, some 1, some 1⟩ 40 (.interrupted 5 {}), .run (.retryJob 50) [2],
        .claim [1] 8 60 60000000, .run (.sweepReclaim 900000000 900000000 0 0) [1]] 1 = some j' ∧
      j'.status = .cancelled :=
  @over_until_retried reportCancelled _ 1 _ rfl rfl (.of_decide (by decide) (by decide))

end TaskQ.Jobs
