import TaskQ.Waits

namespace TaskQ

open Runs List

structure Identity where
  worker : WorkerId
  (attempt epoch : Nat)
  deriving DecidableEq

def smallintMax : Nat := 32767

def Identity.holds (c : Identity) (r : JobRow) : Bool :=
  r.status = .running && sqlEq r.lockedByWorker (some c.worker) && r.attempt = c.attempt &&
    sqlEq r.claimEpoch (some c.epoch)

def flowStepKey : String := "__flow__"

/-- A fleet worker's claim `UPDATE` on a node row; `capable` is its `workflow_execution`. -/
def dispatchClaim (db : Snapshot) (now lease : Time) (job : JobId) (worker : WorkerId)
    (capable : Bool) : Writes :=
  update db
    (fun k r => k = job && r.status = .pending && r.depsPending = 0 &&
      r.stepKey ≠ flowStepKey && capable && (r.stepKey = loopEscalationStepKey ||
        !(r.metadata.flowId.bind db.jobs).any fun f => f.status.terminal))
    fun _ r =>
      { r with
        status := .running, lockedByWorker := some worker, lockExpiresAt := some (now + lease)
        errorClass := none, errorMessage := none, result := none
        attempt := min (r.attempt + 1) smallintMax, claimEpoch := r.claimEpoch.map (· + 1) }

/-- `NODE_DEFER_SQL` for a claim of either door. -/
def deferNode (db : Snapshot) (now : Time) (job : JobId) (c : Identity) (delay : Time)
    (d : DeferralDisposition) : Writes :=
  let effectiveDelay :=
    if d = .retryAfterConsuming then delay else max delay minDeferralInterval
  update db
    (fun k r => k = job && c.holds r && !r.cancelMarked &&
      (d = .snooze || r.retryKind = .indefinite || r.attempt < r.maxAttempts))
    fun _ r =>
      { r with
        status := if 0 < effectiveDelay then .scheduled else .pending
        scheduledAt := now + effectiveDelay, lockedByWorker := none, lockExpiresAt := none
        cancelPhase := 0, attempt := if d = .retryAfterConsuming then c.attempt else c.attempt - 1 }

/-- The `repended` arm of `NODE_DEADLINE_REPEND_SQL`. -/
def deadlineRepend (db : Snapshot) (now : Time) (job : JobId) (c : Identity) (backoff : Time)
    (exhausted : Bool) : Writes :=
  update db (fun k r => k = job && c.holds r && !exhausted && !r.cancelMarked) fun _ r =>
    { r with status := .scheduled, lockedByWorker := none, scheduledAt := now + backoff }

/-- The hand-back of a worker that shuts down; `unrecorded`: a start without attempt record. -/
def drainNode (db : Snapshot) (job : JobId) (worker : WorkerId) (unrecorded : Bool) : Writes :=
  update db
    (fun k r => k = job && sqlEq r.lockedByWorker (some worker) && r.status = .running &&
      r.cancelPhase = 0 && unrecorded)
    fun _ r =>
      { r with
        status := .pending, lockedByWorker := none, lockExpiresAt := none
        attempt := r.attempt - 1 }

def heartbeatLostClass : String := "HeartbeatLost"
def isolateCrashedMessage : String :=
  "worker heartbeat connection lost before terminal state was reported"

def isolateNode (db : Snapshot) (due : Time) (job : JobId) (worker : WorkerId) : Writes :=
  update db (fun k r => k = job && r.status = .running && sqlEq r.lockedByWorker (some worker))
    fun _ r =>
      let r' := reclaimed due r
      { r' with
        errorClass := if r'.status = .crashed then some heartbeatLostClass else r.errorClass
        errorMessage := if r'.status = .crashed then some isolateCrashedMessage
          else r.errorMessage }

structure Register where
  db : Snapshot
  granted : List Identity := []

inductive NodeAct where
  | nodeClaim (now : Time) (worker : WorkerId)
  | dispatchClaim (now lease : Time) (worker : WorkerId) (capable : Bool)
  | defer (now : Time) (c : Identity) (delay : Time) (d : DeferralDisposition)
  | repend (now backoff : Time)
  | deadlineRepend (now : Time) (c : Identity) (backoff : Time) (exhausted : Bool)
  | drain (worker : WorkerId) (unrecorded : Bool)
  | reclaim (now grace due : Time)
  | isolate (due : Time) (worker : WorkerId)
  | mark (c : FinalizeCall)
  | elsewhere (db : Snapshot)

def Register.wrote (s : Register) (w : Writes) : Register := { s with db := s.db.write w }

/-- A claim that matched the row; a value the column cannot hold is an error of the server. -/
def Register.grant (s : Register) (job : JobId) (worker : WorkerId) (w : Writes) : Register :=
  match w job with
  | none => s
  | some r => if r.attempt ≤ smallintMax then
      { db := s.db.write w
        granted := ⟨worker, r.attempt, r.claimEpoch.getD 0⟩ :: s.granted }
    else s

def Register.step (job : JobId) (s : Register) : NodeAct → Option Register
  | .nodeClaim now worker => some (s.grant job worker (TaskQ.nodeClaim s.db now job worker))
  | .dispatchClaim now lease worker capable =>
    some (s.grant job worker (TaskQ.dispatchClaim s.db now lease job worker capable))
  | .defer now c delay d => some (s.wrote (deferNode s.db now job c delay d))
  | .repend now backoff => some (s.wrote (nodeRepend s.db now job backoff))
  | .deadlineRepend now c backoff exhausted =>
    some (s.wrote (TaskQ.deadlineRepend s.db now job c backoff exhausted))
  | .drain worker unrecorded => some (s.wrote (drainNode s.db job worker unrecorded))
  | .reclaim now grace due => some (s.wrote (sweepReclaim s.db now grace due job))
  | .isolate due worker => some (s.wrote (isolateNode s.db due job worker))
  | .mark c => if c.job = job then some (s.wrote (terminalMark s.db c)) else none
  | .elsewhere db => if db.jobs job = s.db.jobs job then some { s with db } else none

structure Distinct (r : JobRow) (e : Nat) (granted : List Identity) : Prop where
  epoch : r.claimEpoch = some e
  unique : granted.Nodup
  current : r.status = .running →
    ∃ w, r.lockedByWorker = some w ∧ granted.head? = some ⟨w, r.attempt, e⟩
  bound : ∀ g ∈ granted, g.attempt ≤ r.attempt + 1
  held : r.status = .running → ∀ g ∈ granted, g.attempt ≤ r.attempt
  zero : ∀ g ∈ granted, g.epoch = 0 → g.attempt ≤ r.attempt
  zeroHeld : r.status = .running → e ≠ 0 → ∀ g ∈ granted, g.epoch = 0 → g.attempt < r.attempt
  next : ∀ g ∈ granted, r.attempt < g.attempt → g.epoch ≤ e
  nextHeld : r.status = .running → e ≠ 0 → ∀ g ∈ granted, r.attempt ≤ g.attempt → g.epoch ≤ e

section
variable {r r' : JobRow} {granted : List Identity}

lemma Distinct.start (he : r.claimEpoch = some e) (hs : r.status ≠ .running) :
    Distinct r e [] := by
  constructor <;> simp [he, hs]

section
variable (h : Distinct r e granted)
include h

lemma Distinct.release (hs : r'.status ≠ .running)
    (ha : r'.attempt = r.attempt) (he : r'.claimEpoch = r.claimEpoch) : Distinct r' e granted where
  epoch := he.trans h.epoch
  unique := h.unique
  current hrun := absurd hrun hs
  bound := ha ▸ h.bound
  held hrun := absurd hrun hs
  zero := ha ▸ h.zero
  zeroHeld hrun := absurd hrun hs
  next := ha ▸ h.next
  nextHeld hrun := absurd hrun hs

lemma Distinct.refund (hrun : r.status = .running) (he0 : e ≠ 0)
    (hs : r'.status ≠ .running) (ha : r'.attempt = r.attempt - 1)
    (he : r'.claimEpoch = r.claimEpoch) : Distinct r' e granted where
  epoch := he.trans h.epoch
  unique := h.unique
  current hrun := absurd hrun hs
  bound g hg := by
    have hle := h.held hrun g hg
    omega
  held hrun := absurd hrun hs
  zero g hg h0 := by
    have hlt := h.zeroHeld hrun he0 g hg h0
    omega
  zeroHeld hrun := absurd hrun hs
  next g hg hlt := h.nextHeld hrun he0 g hg (by omega)
  nextHeld hrun := absurd hrun hs

lemma Distinct.le_claimed (ha : r'.attempt = r.attempt + 1)
    (hg : g ∈ ⟨w, r'.attempt, e'⟩ :: granted) : g.attempt ≤ r'.attempt := by
  rcases mem_cons.mp hg with rfl | hg
  · exact le_rfl
  · have hle := h.bound g hg
    omega

lemma Distinct.nodeClaim (hw : r'.lockedByWorker = some w) (ha : r'.attempt = r.attempt + 1)
    (he : r'.claimEpoch = some 0) : Distinct r' 0 (⟨w, r'.attempt, 0⟩ :: granted) where
  epoch := he
  unique := by
    refine nodup_cons.mpr ⟨fun hmem => ?_, h.unique⟩
    have hle : r'.attempt ≤ r.attempt := h.zero _ hmem rfl
    omega
  current _ := ⟨w, hw, rfl⟩
  bound _ hg := (h.le_claimed ha hg).trans (Nat.le_succ _)
  held _ _ hg := h.le_claimed ha hg
  zero g hg h0 := by
    rcases mem_cons.mp hg with rfl | hg
    · exact le_rfl
    · have hle := h.zero g hg h0
      omega
  zeroHeld _ h0 := absurd rfl h0
  next g hg hlt := by
    rcases mem_cons.mp hg with rfl | hg
    · exact le_rfl
    · have hle := h.bound g hg
      omega
  nextHeld _ h0 := absurd rfl h0

lemma Distinct.dispatch (hw : r'.lockedByWorker = some w) (ha : r'.attempt = r.attempt + 1)
    (he : r'.claimEpoch = some (e + 1)) :
    Distinct r' (e + 1) (⟨w, r'.attempt, e + 1⟩ :: granted) where
  epoch := he
  unique := by
    refine nodup_cons.mpr ⟨fun hmem => ?_, h.unique⟩
    have hle : e + 1 ≤ e := h.next _ hmem (by dsimp only; omega)
    omega
  current _ := ⟨w, hw, rfl⟩
  bound _ hg := (h.le_claimed ha hg).trans (Nat.le_succ _)
  held _ _ hg := h.le_claimed ha hg
  zero g hg h0 := by
    rcases mem_cons.mp hg with rfl | hg
    · exact absurd h0 (Nat.succ_ne_zero e)
    · have hle := h.zero g hg h0
      omega
  zeroHeld _ _ g hg h0 := by
    rcases mem_cons.mp hg with rfl | hg
    · exact absurd h0 (Nat.succ_ne_zero e)
    · have hle := h.zero g hg h0
      omega
  next g hg hlt := by
    rcases mem_cons.mp hg with rfl | hg
    · exact le_rfl
    · have hle := h.next g hg (by omega)
      omega
  nextHeld _ _ g hg hle := by
    rcases mem_cons.mp hg with rfl | hg
    · exact le_rfl
    · have hle := h.next g hg (by omega)
      omega

end

end

/-- No claim of epoch zero is given back, and no dispatch finds the attempt at its ceiling. -/
def EpochKept (job : JobId) (s : Register) : NodeAct → Prop
  | .dispatchClaim .. => ∀ r ∈ s.db.jobs job, r.attempt < smallintMax
  | .defer _ _ _ d => d = .snooze → ∀ r ∈ s.db.jobs job, r.claimEpoch ≠ some 0
  | .drain .. => ∀ r ∈ s.db.jobs job, r.claimEpoch ≠ some 0
  | _ => True

instance (job : JobId) (s : Register) : (a : NodeAct) → Decidable (EpochKept job s a)
  | .dispatchClaim .. | .drain .. => inferInstanceAs (Decidable (∀ r ∈ s.db.jobs job, _))
  | .defer .. => inferInstanceAs (Decidable (_ → ∀ r ∈ s.db.jobs job, _))
  | .nodeClaim .. | .repend .. | .deadlineRepend .. | .reclaim .. | .isolate .. | .mark ..
  | .elsewhere .. => inferInstanceAs (Decidable True)

def Register.Apart (job : JobId) (s : Register) : Prop :=
  ∃ r e, s.db.jobs job = some r ∧ Distinct r e s.granted

section
variable {s s' : Register} {job : JobId} {r : JobRow}

lemma Snapshot.write_jobs {db : Snapshot} {w : Writes} :
    (db.write w).jobs job = (w job).or (db.jobs job) := rfl

lemma Register.Apart.update (hr : s.db.jobs job = some r) (h : Distinct r e s.granted)
    (hf : p job r = true → Distinct (f job r) e s.granted) :
    (s.wrote (TaskQ.update s.db p f)).Apart job := by
  cases hp : p job r with
  | false =>
    refine ⟨r, e, ?_, h⟩
    simp [Register.wrote, Snapshot.write_jobs, TaskQ.update, hr, hp]
  | true =>
    refine ⟨f job r, e, ?_, hf hp⟩
    simp [Register.wrote, Snapshot.write_jobs, TaskQ.update, hr, hp]

lemma Register.Apart.grant {w : Writes} (hr : s.db.jobs job = some r) (h : Distinct r e s.granted)
    (hw : ∀ r', w job = some r' →
      ∃ e', r'.claimEpoch = some e' ∧ Distinct r' e' (⟨worker, r'.attempt, e'⟩ :: s.granted)) :
    (s.grant job worker w).Apart job := by
  unfold Register.grant
  split
  · exact ⟨r, e, hr, h⟩
  next r' hr' =>
    split
    · obtain ⟨e', he', hd⟩ := hw r' hr'
      refine ⟨r', e', by simp [Snapshot.write_jobs, hr'], ?_⟩
      simpa [he'] using hd
    · exact ⟨r, e, hr, h⟩

lemma reclaimed_status_ne (due : Time) (r : JobRow) : (reclaimed due r).status ≠ .running := by
  simp only [reclaimed]
  split
  · nofun
  · split <;> nofun

lemma handedBack_ne (delay : Time) :
    (if 0 < delay then JobStatus.scheduled else .pending) ≠ .running := by
  split <;> nofun

lemma Identity.holds_eq_true {c : Identity} (h : c.holds r = true) :
    r.status = .running ∧ r.attempt = c.attempt := by
  simp only [Identity.holds, Bool.and_eq_true, decide_eq_true_eq] at h
  exact ⟨h.1.1.1, h.1.2⟩

section
variable (hr : s.db.jobs job = some r) (h : Distinct r e s.granted)
include hr h

lemma Register.Apart.defer (hok : d = .snooze → r.claimEpoch ≠ some 0) :
    (s.wrote (deferNode s.db now job c delay d)).Apart job := by
  refine .update hr h fun hp => ?_
  simp only [Bool.and_eq_true] at hp
  obtain ⟨hrun, ha⟩ := Identity.holds_eq_true hp.1.1.2
  cases d with
  | retryAfterConsuming => exact h.release (handedBack_ne _) ha.symm rfl
  | snooze =>
    have he0 : e ≠ 0 := fun h0 => hok rfl (h0 ▸ h.epoch)
    exact h.refund hrun he0 (handedBack_ne _) (congrArg (· - 1) ha.symm) rfl

lemma Register.Apart.claim : (s.grant job worker (nodeClaim s.db now job worker)).Apart job := by
  refine .grant hr h fun r' hr' => ⟨0, ?_⟩
  obtain ⟨r0, hr0, -, rfl⟩ := update_some.mp hr'
  cases hr.symm.trans hr0
  exact ⟨rfl, h.nodeClaim rfl rfl rfl⟩

lemma Register.Apart.dispatch (hok : r.attempt < smallintMax) :
    (s.grant job worker (dispatchClaim s.db now lease job worker capable)).Apart job := by
  refine .grant hr h fun r' hr' => ⟨e + 1, ?_⟩
  obtain ⟨r0, hr0, -, rfl⟩ := update_some.mp hr'
  cases hr.symm.trans hr0
  have he : r.claimEpoch.map (· + 1) = some (e + 1) := by rw [h.epoch, Option.map_some]
  exact ⟨he, h.dispatch rfl (min_eq_left hok) he⟩

end

lemma Register.Apart.step (h : s.Apart job) (hok : EpochKept job s a)
    (hs : s.step job a = some s') : s'.Apart job := by
  obtain ⟨r, e, hr, hd⟩ := h
  cases a with
  | nodeClaim now worker =>
    cases hs
    exact .claim hr hd
  | dispatchClaim now lease worker capable =>
    cases hs
    exact .dispatch hr hd (hok r hr)
  | defer now c delay d =>
    cases hs
    exact .defer hr hd fun hd => hok hd r hr
  | repend | deadlineRepend =>
    cases hs
    exact .update hr hd fun _ => hd.release (fun h => by cases h) rfl rfl
  | drain worker unrecorded =>
    cases hs
    refine .update hr hd fun hp => ?_
    simp only [Bool.and_eq_true, decide_eq_true_eq] at hp
    have he0 : e ≠ 0 := fun h0 => hok r hr (h0 ▸ hd.epoch)
    exact hd.refund hp.1.1.2 he0 (fun h => by cases h) rfl rfl
  | reclaim now grace due =>
    cases hs
    exact .update hr hd fun _ => hd.release (reclaimed_status_ne due r) rfl rfl
  | isolate due worker =>
    cases hs
    exact .update hr hd fun _ => hd.release (reclaimed_status_ne due r) rfl rfl
  | mark c =>
    obtain ⟨-, rfl⟩ := matched hs
    refine .update hr hd fun _ => hd.release ?_ rfl rfl
    intro hrun
    have ht := c.outcome.2
    rw [show c.outcome.1 = .running from hrun] at ht
    cases ht
  | elsewhere db =>
    obtain ⟨hdb, rfl⟩ := matched hs
    exact ⟨r, e, hdb.trans hr, hd⟩

lemma Distinct.mark_current (h : Distinct r e granted) {c : FinalizeCall}
    (hc : holdsClaim c r = true) : ∃ e, c.claimEpoch = some e ∧
      granted.head? = some ⟨c.worker, c.attempt, e⟩ := by
  simp only [holdsClaim, Bool.and_eq_true, decide_eq_true_eq] at hc
  obtain ⟨⟨⟨hrun, hworker⟩, hatt⟩, hepoch⟩ := hc
  obtain ⟨w, hw, hhead⟩ := h.current hrun
  rw [hw] at hworker
  rw [h.epoch] at hepoch
  refine ⟨e, ?_, ?_⟩
  · cases hce : c.claimEpoch with
    | none => rw [hce] at hepoch; cases hepoch
    | some e' =>
      rw [hce] at hepoch
      exact congrArg some (of_decide_eq_true hepoch).symm
  · rw [hhead, of_decide_eq_true hworker, hatt]

/-- Claims of a node row are told apart by worker, attempt and epoch, in every run that gives no
claim of epoch zero back and dispatches none at the ceiling. -/
theorem node_claims_distinct {db : Snapshot} (hr : db.jobs job = some r)
    (he : r.claimEpoch.isSome) (hs : r.status ≠ .running)
    (h : Reach (Register.step job) (EpochKept job) { db } s) :
    s.granted.Nodup ∧ ∀ g ∈ s.granted.tail, ∀ c : FinalizeCall, c.worker = g.worker →
      c.attempt = g.attempt → c.claimEpoch = some g.epoch → terminalMark s.db c job = none := by
  obtain ⟨e, he⟩ := Option.isSome_iff_exists.mp he
  obtain ⟨r', e', hr', hd⟩ : s.Apart job :=
    h.invariant ⟨r, e, hr, .start he hs⟩ fun _ _ _ hI hok hs => hI.step hok hs
  refine ⟨hd.unique, fun g hg c hworker hattempt hepoch => ?_⟩
  by_contra hne
  obtain ⟨m, hm⟩ := Option.ne_none_iff_exists'.mp hne
  obtain ⟨r0, hr0, hp, -⟩ := update_some.mp hm
  cases hr'.symm.trans hr0
  simp only [Bool.and_eq_true] at hp
  obtain ⟨e0, he0, hhead⟩ := hd.mark_current hp.2
  cases hepoch.symm.trans he0
  rw [hworker, hattempt] at hhead
  -- the newest claim would occur twice
  obtain ⟨l, hl⟩ : ∃ l, s.granted = g :: l := ⟨s.granted.tail, (cons_head?_tail hhead).symm⟩
  have hnodup := hd.unique
  rw [hl] at hnodup hg
  exact (nodup_cons.mp hnodup).1 hg

def loneNode : Snapshot where
  ids := [1]
  jobs k := if k = 1 then some { stepKey := "load", claimEpoch := some 0 } else none
  jobLocked _ := false
  edges := []
  fires := []
  outbox := []
  outboxLocked _ := false
  ledger := []

def bothDoors : List NodeAct :=
  [.dispatchClaim 0 90000 7 true, .defer 10 ⟨7, 1, 1⟩ 0 .snooze, .nodeClaim 2000 7,
    .reclaim 100000 60000 100000, .dispatchClaim 100000 90000 7 true,
    .defer 100010 ⟨7, 2, 1⟩ 0 .retryAfterConsuming, .nodeClaim 200000 7]

theorem node_claims_distinct_bothDoors :
    (final (Register.step 1) { db := loneNode } bothDoors).granted =
        [⟨7, 3, 0⟩, ⟨7, 2, 1⟩, ⟨7, 1, 0⟩, ⟨7, 1, 1⟩] ∧
      (final (Register.step 1) { db := loneNode } bothDoors).granted.Nodup :=
  ⟨by decide, (@node_claims_distinct _ _ _ loneNode rfl rfl (by decide)
    (.of_decide (by decide) (by decide))).1⟩

/-- The body snoozes and the runner claims again under the same worker, attempt and epoch. -/
theorem snoozed_claim_repeated :
    ∃ s, Reach (Register.step 1) (fun _ _ => True) { db := loneNode } s ∧
      s.granted = [⟨7, 1, 0⟩, ⟨7, 1, 0⟩] ∧
      (terminalMark s.db
        { job := 1, flow := 2, stepKey := "load", worker := 7, attempt := 1, claimEpoch := some 0
          outcome := failedOutcome } 1).isSome :=
  ⟨final (Register.step 1) { db := loneNode }
      [.nodeClaim 0 7, .defer 10 ⟨7, 1, 0⟩ 0 .snooze, .nodeClaim 2000 7],
    .of_final (by decide), by decide, by decide⟩

end

end TaskQ
