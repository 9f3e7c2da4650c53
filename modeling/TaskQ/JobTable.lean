import TaskQ.JobStatements
import TaskQ.Runs

namespace TaskQ.Jobs

open Runs

def Row.leaseFree (j : Row) : Prop := j.lockedByWorker = none ∧ j.lockExpiresAt = none

instance (j : Row) : Decidable j.leaseFree := inferInstanceAs (Decidable (_ ∧ _))

structure Changes (stmt : Stmt) (j j' : Row) : Prop where
  epoch : j'.claimEpoch = j.claimEpoch
  running : j'.status = .running →
    j.status = .running ∧ (j.lockExpiresAt.isSome → j'.lockExpiresAt.isSome)
  lease : j'.status ≠ .running → j'.status ≠ .abandoned →
    j'.leaseFree ∨ j.status ≠ .running ∧ j'.lockedByWorker = j.lockedByWorker ∧
      j'.lockExpiresAt = j.lockExpiresAt
  abandoned : j.status = .abandoned → j'.status = .abandoned ∨ ∃ now, stmt = .retryJob now
  waiting : j'.waiting → j'.cancelPhase = .none ∨ j.waiting ∧ j'.cancelPhase = j.cancelPhase
  forced : j'.status = .running → j'.cancelPhase = .forced →
    j.cancelPhase = .forced ∨ ∃ worker, stmt = .cancelEscalation worker

section
variable {stmt : Stmt} {j j' : Row}

lemma Row.sweepReclaim_some (h : j.sweepReclaim ts now grace delay = some j') :
    j.status = .running ∧
      ∃ message, j' = j.reclaimed now delay errorClassWorkerCrashed message := by
  rw [Row.sweepReclaim] at h
  split at h
  next hx => exact ⟨hx.1, _, (Option.some.inj h).symm⟩
  · obtain ⟨hx, rfl⟩ := matched h
    exact ⟨hx.1, _, rfl⟩

lemma Changes.finish (hj : j.waiting) (hs : j'.status = .cancelled ∨ j'.status = .failed)
    (he : j'.claimEpoch = j.claimEpoch) (hw : j'.lockedByWorker = j.lockedByWorker)
    (hx : j'.lockExpiresAt = j.lockExpiresAt) : Changes stmt j j' where
  epoch := he
  running h := by rcases hs with hs | hs <;> rw [hs] at h <;> cases h
  lease _ _ := .inr ⟨by rcases hj with hj | hj <;> rw [hj] <;> nofun, hw, hx⟩
  abandoned h := by rcases hj with hj | hj <;> rw [hj] at h <;> cases h
  waiting h := by rcases hs with hs | hs <;> rcases h with h | h <;> rw [hs] at h <;> cases h
  forced h := by rcases hs with hs | hs <;> rw [hs] at h <;> cases h

lemma Changes.hold (hj : j.status = .running) (hs : j'.status = .running)
    (he : j'.claimEpoch = j.claimEpoch) (hx : j.lockExpiresAt.isSome → j'.lockExpiresAt.isSome)
    (hf : j'.cancelPhase = .forced →
      j.cancelPhase = .forced ∨ ∃ worker, stmt = .cancelEscalation worker) : Changes stmt j j' where
  epoch := he
  running _ := ⟨hj, hx⟩
  lease h := absurd hs h
  abandoned h := by rw [hj] at h; cases h
  waiting h := by rcases h with h | h <;> rw [hs] at h <;> cases h
  forced _ := hf

lemma Changes.release (hj : j.status = .running) (hs : j'.status ≠ .running)
    (he : j'.claimEpoch = j.claimEpoch) (hl : j'.leaseFree)
    (hp : j'.waiting → j'.cancelPhase = .none) : Changes stmt j j' where
  epoch := he
  running h := absurd h hs
  lease _ _ := .inl hl
  abandoned h := by rw [hj] at h; cases h
  waiting h := .inl (hp h)
  forced h := absurd h hs

lemma Row.reclaimed_changes (hj : j.status = .running) :
    Changes stmt j (j.reclaimed now delay crashClass crashMessage) := by
  by_cases hp : j.cancelPhase = .none
  · by_cases hb : j.reclaimHasBudget
    · exact .release hj (by simp [Row.reclaimed, hp, hb]) rfl ⟨rfl, rfl⟩ fun _ => hp
    · exact .release hj (by simp [Row.reclaimed, hp, hb]) rfl ⟨rfl, rfl⟩ fun _ => hp
  · refine .release hj (by simp [Row.reclaimed, hp]) rfl ⟨rfl, rfl⟩ fun h => ?_
    simp [Row.waiting, Row.reclaimed, hp] at h

lemma Row.markAbandoned_changes (h : j.markAbandoned now p = some j') :
    Changes (.markAbandoned now p) j j' := by
  obtain ⟨⟨hj, -⟩, rfl⟩ := matched h
  exact
    { epoch := rfl
      running := nofun
      lease := fun _ h => absurd rfl h
      abandoned := fun _ => .inl rfl
      waiting := nofun
      forced := nofun }

lemma Row.retryJob_changes (h : j.retryJob now = some j') : Changes (.retryJob now) j j' := by
  obtain ⟨⟨hj, -, -⟩, rfl⟩ := matched h
  exact
    { epoch := rfl
      running := nofun
      lease := fun _ _ => .inr ⟨hj, rfl, rfl⟩
      abandoned := fun _ => .inr ⟨now, rfl⟩
      waiting := fun _ => .inl rfl
      forced := nofun }

lemma Row.cancelPendingScheduled_changes (h : j.cancelPendingScheduled now = some j') :
    Changes stmt j j' := by
  obtain ⟨hj, rfl⟩ := matched h
  exact .finish hj (.inl rfl) rfl rfl rfl

lemma Row.cancelRunning_changes (h : j.cancelRunning now = some j') : Changes stmt j j' := by
  obtain ⟨⟨hj, -⟩, rfl⟩ := matched h
  exact .hold hj hj rfl (fun h => h) nofun

lemma Changes.frame (hs : j'.status = j.status) (he : j'.claimEpoch = j.claimEpoch)
    (hw : j'.lockedByWorker = j.lockedByWorker) (hx : j'.lockExpiresAt = j.lockExpiresAt)
    (hp : j'.cancelPhase = j.cancelPhase) : Changes stmt j j' where
  epoch := he
  running h := ⟨hs ▸ h, by rw [hx]; exact id⟩
  lease h _ := .inr ⟨hs ▸ h, hw, hx⟩
  abandoned h := .inl (hs ▸ h)
  waiting h := .inr ⟨by rw [Row.waiting, hs] at h; exact h, hp⟩
  forced _ h := .inl (hp ▸ h)

lemma Stmt.changes (h : stmt.apply j = some j') : Changes stmt j j' := by
  cases stmt with
  | markAbandoned now p => exact Row.markAbandoned_changes h
  | cancelPendingScheduled now => exact Row.cancelPendingScheduled_changes h
  | cancelRunning now => exact Row.cancelRunning_changes h
  | cancelRequest now =>
    rcases Option.or_eq_some_iff.mp h with h | ⟨-, h⟩
    · exact Row.cancelPendingScheduled_changes h
    · exact Row.cancelRunning_changes h
  | cancelEscalation worker =>
    obtain ⟨⟨hj, -⟩, rfl⟩ := matched h
    exact .hold hj hj rfl id fun _ => .inr ⟨worker, rfl⟩
  | abortBatch | deregister =>
    obtain ⟨hj, rfl⟩ := matched h
    exact .finish hj (.inl rfl) rfl rfl rfl
  | heartbeat worker now lease =>
    obtain ⟨⟨hj, -⟩, rfl⟩ := matched h
    exact .hold hj hj rfl (fun _ => rfl) .inl
  | sweepReclaim ts now grace delay =>
    obtain ⟨hx, _, rfl⟩ := Row.sweepReclaim_some h
    exact Row.reclaimed_changes hx
  | sweepDeadline ts now =>
    obtain ⟨⟨hj, -⟩, rfl⟩ := matched h
    exact .finish hj (.inr rfl) rfl rfl rfl
  | sweepPromote ts =>
    obtain ⟨⟨hj, -⟩, rfl⟩ := matched h
    exact
      { epoch := rfl
        running := nofun
        lease := fun _ _ => .inr ⟨by rw [hj]; nofun, rfl, rfl⟩
        abandoned := fun h => by rw [hj] at h; cases h
        waiting := fun _ => .inr ⟨.inr hj, rfl⟩
        forced := nofun }
  | sweepResultTtl | moveBacklog =>
    obtain ⟨-, rfl⟩ := matched h
    exact .frame rfl rfl rfl rfl rfl
  | isolate worker now delay =>
    obtain ⟨⟨hj, -⟩, rfl⟩ := matched h
    exact Row.reclaimed_changes hj
  | shutdownRepend worker recorded =>
    obtain ⟨⟨-, hj, hp, -⟩, rfl⟩ := matched h
    exact .release hj nofun rfl ⟨rfl, rfl⟩ fun _ => hp
  | reconcileLostClaim worker now grace recorded =>
    obtain ⟨⟨-, hj, -⟩, rfl⟩ := matched h
    exact .hold hj hj rfl id .inl
  | flushProgress worker attempt seqDelta delta =>
    obtain ⟨⟨hj, -⟩, rfl⟩ := matched h
    exact .hold hj hj rfl id .inl
  | retryJob now => exact Row.retryJob_changes h

structure Claimed (worker : WorkerId) (j j' : Row) : Prop where
  pending : j.status = .pending
  running : j'.status = .running
  epoch : j'.claimEpoch = j.claimEpoch + 1
  worker : j'.lockedByWorker = some worker
  lease : j'.lockExpiresAt.isSome
  phase : j'.cancelPhase = j.cancelPhase

lemma Row.claimed (h : j.claim worker now lease = some j') : Claimed worker j j' := by
  obtain ⟨⟨hj, -⟩, rfl⟩ := matched h
  exact ⟨hj, rfl, rfl, rfl, rfl, rfl⟩

structure Landing (f : Fence) (j j' : Row) : Prop where
  fence : j.jobFence f
  running : j'.status ≠ .running
  abandoned : j'.status ≠ .abandoned
  epoch : j'.claimEpoch = j.claimEpoch
  lease : j'.leaseFree
  waiting : j'.waiting → j'.cancelPhase = .none

inductive Arm (f : Fence) (now : Stamp) (j j' : Row) : Prop where
  | handBack {delay : Stamp} (fence : j.jobFence f)
      (status : j'.status = if 0 < delay then .scheduled else .pending)
      (finished : j'.finishedAt = none) (epoch : j'.claimEpoch = j.claimEpoch)
      (lease : j'.leaseFree) (phase : j'.cancelPhase = .none)
  | finish (fence : j.jobFence f)
      (status : j'.status = .succeeded ∨ j'.status = .failed ∨ j'.status = .cancelled)
      (finished : j'.finishedAt = some now) (epoch : j'.claimEpoch = j.claimEpoch)
      (lease : j'.leaseFree)

lemma Arm.landing (h : Arm f now j j') : Landing f j j' := by
  cases h with
  | handBack hf hs _ he hl hp =>
    have hst : j'.status = .scheduled ∨ j'.status = .pending := hs ▸ ite_eq_or_eq _ _ _
    refine ⟨hf, ?_, ?_, he, hl, fun _ => hp⟩ <;> rcases hst with h | h <;> rw [h] <;> nofun
  | finish hf hs _ he hl =>
    refine ⟨hf, ?_, ?_, he, hl, fun h => ?_⟩
    · rcases hs with h | h | h <;> rw [h] <;> nofun
    · rcases hs with h | h | h <;> rw [h] <;> nofun
    · rcases hs with hs | hs | hs <;> rcases h with h | h <;> rw [hs] at h <;> cases h

structure Lands (f : Fence) (now : Stamp) (j : Row) (o : OutcomeWrite) (w : Written) : Prop where
  arm : Arm f now j w.row
  metadata : (∀ p, o ≠ .snoozed p) → w.row.metadata = j.metadata
  attempt : w.row.attempt =
    if w.branch = .snoozed ∧ w.attempt = none then j.attemptRefund else j.attempt
  maxAttempts : w.row.maxAttempts = j.maxAttempts
  cancel : j.cancelPhase = .none ∨
    w.row.cancelPhase = j.cancelPhase ∧ w.row.cancelRequestedAt = j.cancelRequestedAt

lemma Lands.deadlineFailed (hf : j.jobFence f) :
    Lands f now j o (Jobs.deadlineFailed now j message p) :=
  ⟨.finish hf (.inr (.inl rfl)) rfl rfl ⟨rfl, rfl⟩, fun _ => rfl, rfl, rfl, .inr ⟨rfl, rfl⟩⟩

lemma Lands.deadlineCancelled (hf : j.jobFence f) :
    Lands f now j o (Jobs.deadlineCancelled now j p) :=
  ⟨.finish hf (.inr (.inr rfl)) rfl rfl ⟨rfl, rfl⟩, fun _ => rfl, rfl, rfl, .inr ⟨rfl, rfl⟩⟩

lemma markSnoozed_lands (h : markSnoozed f now j p = some w) : Lands f now j (.snoozed p) w := by
  simp only [markSnoozed] at h
  split at h
  next hg =>
    cases h
    exact ⟨.handBack hg.1 rfl rfl rfl ⟨rfl, rfl⟩ rfl, fun ho => absurd rfl (ho p), rfl, rfl,
      .inl hg.2.1⟩
  · split at h
    next hg =>
      cases h
      exact .deadlineCancelled hg.1
    · obtain ⟨hg, rfl⟩ := matched h
      exact ⟨.finish hg.1 (.inr (.inl rfl)) rfl rfl ⟨rfl, rfl⟩, fun _ => rfl, rfl, rfl,
        .inl hg.2.1⟩

lemma retryAfterArm_lands (h : retryAfterArm f now j consumeBudget delay p = some w) :
    Lands f now j (.retryAfter consumeBudget delay p) w := by
  cases consumeBudget with
  | true =>
    simp only [retryAfterArm, if_true, markRetryAfterConsumeTrue] at h
    split at h
    next hg =>
      cases h
      exact ⟨.handBack hg.1 rfl rfl rfl ⟨rfl, rfl⟩ rfl, fun _ => rfl, rfl, rfl, .inl hg.2.1⟩
    · split at h
      next hg =>
        cases h
        exact .deadlineCancelled hg.1
      · split at h
        next hg =>
          cases h
          exact ⟨.finish hg.1 (.inr (.inl rfl)) rfl rfl ⟨rfl, rfl⟩, fun _ => rfl, rfl, rfl,
            .inr ⟨rfl, rfl⟩⟩
        · obtain ⟨hg, rfl⟩ := matched h
          exact .deadlineFailed hg.1
  | false =>
    simp only [retryAfterArm, Bool.false_eq_true, if_false, markRetryAfterConsumeFalse] at h
    split at h
    next hg =>
      cases h
      exact ⟨.handBack hg.1 rfl rfl rfl ⟨rfl, rfl⟩ rfl, fun _ => rfl, rfl, rfl, .inl hg.2.1⟩
    · split at h
      next hg =>
        cases h
        exact .deadlineCancelled hg.1
      · obtain ⟨hg, rfl⟩ := matched h
        exact .deadlineFailed hg.1

lemma OutcomeWrite.lands (o : OutcomeWrite) (h : o.written f now j = some w) :
    Lands f now j o w := by
  cases o with
  | succeeded p =>
    obtain ⟨hf, rfl⟩ := matched h
    exact ⟨.finish hf (.inl rfl) rfl rfl ⟨rfl, rfl⟩, fun _ => rfl, rfl, rfl, .inr ⟨rfl, rfl⟩⟩
  | failed e p =>
    obtain ⟨hf, rfl⟩ := matched h
    exact ⟨.finish hf (.inr (.inl rfl)) rfl rfl ⟨rfl, rfl⟩, fun _ => rfl, rfl, rfl,
      .inr ⟨rfl, rfl⟩⟩
  | cancelled p =>
    obtain ⟨hf, rfl⟩ := matched h
    exact ⟨.finish hf (.inr (.inr rfl)) rfl rfl ⟨rfl, rfl⟩, fun _ => rfl, rfl, rfl,
      .inr ⟨rfl, rfl⟩⟩
  | retry delay e p =>
    simp only [OutcomeWrite.written, markRetry] at h
    split at h
    next hg =>
      cases h
      exact ⟨.handBack hg.1 rfl rfl rfl ⟨rfl, rfl⟩ rfl, fun _ => rfl, rfl, rfl, .inl hg.2.1⟩
    · obtain ⟨hg, rfl⟩ := matched h
      exact .deadlineFailed hg.1
  | snoozed p => exact markSnoozed_lands h
  | retryAfter consumeBudget delay p => exact retryAfterArm_lands h
  | interrupted hold p =>
    simp only [OutcomeWrite.written, markInterrupted] at h
    split at h
    next hg =>
      cases h
      exact ⟨.handBack hg.1 rfl rfl rfl ⟨rfl, rfl⟩ rfl, fun _ => rfl, rfl, rfl, .inl hg.2.1⟩
    · obtain ⟨hg, rfl⟩ := matched h
      exact .deadlineFailed hg.1

lemma OutcomeWrite.landing (o : OutcomeWrite) (h : o.written f now j = some w) :
    Landing f j w.row :=
  (o.lands h).arm.landing

end

abbrev Table := JobId → Option Row

/-- An `UPDATE` over the rows it picks: those of them its `WHERE` matches are written. -/
def Table.update (t : Table) (ids : List JobId) (g : Row → Option Row) : Table := fun id =>
  if id ∈ ids then (t id).map fun j => (g j).getD j else t id

lemma Table.update_some {t : Table} {id : JobId} {j' : Row} (h : t.update ids g id = some j') :
    t id = some j' ∨ id ∈ ids ∧ ∃ j, t id = some j ∧ g j = some j' := by
  unfold Table.update at h
  split at h
  next hid =>
    obtain ⟨j, hj, hg⟩ := Option.map_eq_some_iff.mp h
    cases hgj : g j with
    | none =>
      rw [hgj, Option.getD_none] at hg
      exact .inl (hg ▸ hj)
    | some k =>
      rw [hgj, Option.getD_some] at hg
      exact .inr ⟨hid, j, hj, hg ▸ hgj⟩
  · exact .inl h

/-- One statement; `ids` are the rows it picks, of which nothing is assumed. -/
inductive Op where
  | enqueue (n : NewJob) (now : Stamp)
  | claim (ids : List JobId) (worker : WorkerId) (now lease : Stamp)
  | write (id : JobId) (f : Fence) (now : Stamp) (o : OutcomeWrite)
  | run (stmt : Stmt) (ids : List JobId)

def Table.step (t : Table) : Op → Option Table
  | .enqueue n now =>
    if t n.id = none then some fun id => if id = n.id then some (n.row now) else t id else none
  | .claim ids worker now lease => some (t.update ids fun j => j.claim worker now lease)
  | .write id f now o => some (t.update [id] fun j => (o.written f now j).map (·.row))
  | .run stmt ids => some (t.update ids fun j => stmt.apply j)

section
variable {t t' : Table} {id : JobId} {j j' : Row} {a : Op}

lemma Table.step_row (h : t.step a = some t') (hj : t' id = some j') :
    t id = some j' ∨ (∃ n now, a = .enqueue n now ∧ id = n.id ∧ j' = n.row now) ∨
      ∃ j, t id = some j ∧ ((∃ ids worker now lease, a = .claim ids worker now lease ∧ id ∈ ids ∧
            j.claim worker now lease = some j') ∨
          (∃ f now o w, a = .write id f now o ∧ o.written f now j = some w ∧ j' = w.row) ∨
          ∃ stmt ids, a = .run stmt ids ∧ id ∈ ids ∧ stmt.apply j = some j') := by
  cases a with
  | enqueue n now =>
    obtain ⟨-, rfl⟩ := matched h
    by_cases hid : id = n.id
    · simp only [if_pos hid] at hj
      exact .inr (.inl ⟨n, now, rfl, hid, (Option.some.inj hj).symm⟩)
    · simp only [if_neg hid] at hj
      exact .inl hj
  | claim ids worker now lease =>
    cases h
    rcases Table.update_some hj with hj | ⟨hid, j, hj, hc⟩
    · exact .inl hj
    · exact .inr (.inr ⟨j, hj, .inl ⟨ids, worker, now, lease, rfl, hid, hc⟩⟩)
  | write id' f now o =>
    cases h
    rcases Table.update_some hj with hj | ⟨hid, j, hold, hmap⟩
    · exact .inl hj
    obtain rfl := List.mem_singleton.mp hid
    obtain ⟨w, hw, rfl⟩ := Option.map_eq_some_iff.mp hmap
    exact .inr (.inr ⟨j, hold, .inr (.inl ⟨f, now, o, w, rfl, hw, rfl⟩)⟩)
  | run stmt ids =>
    cases h
    rcases Table.update_some hj with hj | ⟨hid, j, hj, hs⟩
    · exact .inl hj
    · exact .inr (.inr ⟨j, hj, .inr (.inr ⟨stmt, ids, rfl, hid, hs⟩)⟩)

lemma NewJob.row_waiting (n : NewJob) (now : Stamp) : (n.row now).waiting := by
  exact (ite_eq_or_eq _ _ _).symm

def Row.leaseFollows (j : Row) : Prop :=
  j.status = .running ∨ j.status = .abandoned ∨ j.leaseFree

def Op.retried : Op → List JobId
  | .run (.retryJob _) ids => ids
  | _ => []

def RetriesUnleased (t : Table) (a : Op) : Prop :=
  ∀ id ∈ a.retried, ∀ j ∈ t id, j.status ≠ .abandoned

instance (t : Table) : Decidable (RetriesUnleased t a) :=
  inferInstanceAs (Decidable (∀ id ∈ a.retried, ∀ j ∈ t id, _))

lemma Changes.leaseFollows (h : Changes stmt j j') (hj : j.leaseFollows)
    (hr : ∀ now, stmt = .retryJob now → j.status ≠ .abandoned) : j'.leaseFollows := by
  by_cases hs : j'.status = .running
  · exact .inl hs
  by_cases ha : j'.status = .abandoned
  · exact .inr (.inl ha)
  rcases h.lease hs ha with hfree | ⟨hrun, hw, hx⟩
  · exact .inr (.inr hfree)
  -- the columns are as they were, so the row was not the abandoned one
  have hab : j.status ≠ .abandoned := by
    intro hab
    obtain ⟨now, rfl⟩ := (h.abandoned hab).resolve_left ha
    exact hr now rfl hab
  have hfree := (hj.resolve_left hrun).resolve_left hab
  exact .inr (.inr ⟨hw.trans hfree.1, hx.trans hfree.2⟩)

lemma Table.step_leaseFollows (hI : ∀ id j, t id = some j → j.leaseFollows)
    (hok : RetriesUnleased t a) (h : t.step a = some t') (hj : t' id = some j') :
    j'.leaseFollows := by
  rcases Table.step_row h hj with hj | ⟨n, now, rfl, -, rfl⟩ | ⟨j, hj, hc⟩
  · exact hI id j' hj
  · exact .inr (.inr ⟨rfl, rfl⟩)
  rcases hc with ⟨ids, worker, now, lease, rfl, -, hc⟩ | ⟨f, now, o, w, rfl, hw, rfl⟩ |
    ⟨stmt, ids, rfl, hid, hs⟩
  · exact .inl (Row.claimed hc).running
  · exact .inr (.inr (o.landing hw).lease)
  refine (Stmt.changes hs).leaseFollows (hI id j hj) fun now hr => ?_
  subst hr
  exact hok id hid j hj

/-- If no `retry_job` goes to an abandoned job, a pending or scheduled row has no lease. -/
theorem waiting_rows_unleased (h : Reach Table.step RetriesUnleased (fun _ => none) t)
    (id : JobId) (j : Row) (hj : t id = some j) (hw : j.waiting) :
    j.lockedByWorker = none ∧ j.lockExpiresAt = none := by
  have hI : ∀ id j, t id = some j → j.leaseFollows :=
    h.invariant (fun _ _ h => by cases h) fun _ _ _ hI hok hs _ _ hj =>
      Table.step_leaseFollows hI hok hs hj
  rcases hI id j hj with hs | hs | hfree
  · rcases hw with hw | hw <;> rw [hs] at hw <;> cases hw
  · rcases hw with hw | hw <;> rw [hs] at hw <;> cases hw
  · exact hfree

def retriedFailure : List Op :=
  [.enqueue { id := 1, actor := "report" } 0, .claim [1] 7 10 60000000,
    .write 1 ⟨7, some 1, some 1⟩ 20 (.failed ⟨"ValueError", "bad input", none⟩ {}),
    .run (.retryJob 30) [1]]

theorem waiting_rows_unleased_retriedFailure :
    ∃ j, final Table.step (fun _ => none) retriedFailure 1 = some j ∧ j.waiting ∧
      j.lockedByWorker = none ∧ j.lockExpiresAt = none :=
  ⟨_, rfl, by decide, waiting_rows_unleased (t := final Table.step (fun _ => none) retriedFailure)
    (.of_decide (by decide) (by decide)) 1 _ rfl (by decide)⟩

/-- `mark_abandoned` keeps the lease columns and `retry_job` does not clear them. -/
theorem abandoned_retried_leased : ∃ t, Reach Table.step (fun _ _ => True) (fun _ => none) t ∧
      ∃ j, t 1 = some j ∧ j.waiting ∧ j.lockedByWorker = some 7 ∧ j.lockExpiresAt = some 60000010 :=
  ⟨final Table.step (fun _ => none)
      [.enqueue { id := 1, actor := "report" } 0, .claim [1] 7 10 60000000,
        .run (.cancelRequest 20) [1], .run (.cancelEscalation 7) [1],
        .run (.markAbandoned 30 {}) [1], .run (.retryJob 40) [1]],
    .of_final (by decide), _, rfl, by decide, rfl, rfl⟩

end

end TaskQ.Jobs
