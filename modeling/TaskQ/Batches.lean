import TaskQ.JobTable
import TaskQ.RowLocks

namespace TaskQ.Jobs
open RowLocks Runs Option

abbrev BatchId := String

abbrev Conn := Nat

inductive BatchStatus where
  | active | complete | aborted
  deriving DecidableEq

structure BatchRow where
  status : BatchStatus := .active
  consecutiveFailures : Nat := 0
  failureThreshold : Option Nat := none
  deriving DecidableEq

/-- `metadata->>'batch_id'`. -/
def Row.batchId (j : Row) : Option BatchId := j.metadata.lookup "batch_id"

def Row.openMember (j : Row) (b : BatchId) : Bool := j.batchId = some b && !j.status.terminal

lemma Row.openMember_iff {j : Row} :
    j.openMember b = true ↔ j.batchId = some b ∧ j.status.terminal = false := by
  simp [Row.openMember]

/-- What a single-statement writer makes of row `k`, if it picks it and its `WHERE` matches. -/
def Op.onRow (k : JobId) (j : Row) : Op → Option Row
  | .enqueue _ _ => none
  | .claim ids worker now lease => if k ∈ ids then j.claim worker now lease else none
  | .write id f now o => if k = id then (o.written f now j).map (·.row) else none
  | .run stmt ids => if k ∈ ids then stmt.apply j else none

/-- The writers that neither insert a member nor re-pend one nor rewrite `metadata`. -/
def Op.plain : Op → Bool
  | .enqueue _ _ | .run (.retryJob _) _ => false
  | .write _ _ _ (.snoozed p) => p.metadataUpdate.isNone
  | _ => true

structure MemberKept (j j' : Row) : Prop where
  metadata : j'.metadata = j.metadata
  terminal : j.status.terminal = true → j'.status.terminal = true

section
variable {j j' : Row} {stmt : Stmt}

lemma MemberKept.of_open (hj : j.status.terminal = false) (hm : j'.metadata = j.metadata) :
    MemberKept j j' :=
  ⟨hm, fun h => by rw [hj] at h; cases h⟩

lemma MemberKept.of_running (hj : j.status = .running) (hm : j'.metadata = j.metadata) :
    MemberKept j j' :=
  .of_open (by rw [hj]; rfl) hm

lemma MemberKept.of_waiting (hj : j.waiting) (hm : j'.metadata = j.metadata) : MemberKept j j' :=
  .of_open (by rcases hj with h | h <;> rw [h] <;> rfl) hm

lemma MemberKept.batchId (h : MemberKept j j') : j'.batchId = j.batchId := by
  rw [Row.batchId, Row.batchId, h.metadata]

lemma Row.abortBatch_memberKept (h : j.abortBatch now = some j') : MemberKept j j' := by
  obtain ⟨hj, rfl⟩ := matched h
  exact .of_waiting hj rfl

lemma Stmt.memberKept (hr : ∀ now, stmt ≠ .retryJob now) (h : stmt.apply j = some j') :
    MemberKept j j' := by
  cases stmt with
  | markAbandoned | cancelRunning | cancelEscalation | heartbeat | isolate | flushProgress =>
    obtain ⟨⟨hj, -⟩, rfl⟩ := matched h
    exact .of_running hj rfl
  | cancelPendingScheduled | deregister =>
    obtain ⟨hj, rfl⟩ := matched h
    exact .of_waiting hj rfl
  | cancelRequest now =>
    rcases or_eq_some_iff.mp h with h | ⟨-, h⟩
    · obtain ⟨hj, rfl⟩ := matched h
      exact .of_waiting hj rfl
    · obtain ⟨⟨hj, -⟩, rfl⟩ := matched h
      exact .of_running hj rfl
  | abortBatch now => exact Row.abortBatch_memberKept h
  | sweepReclaim ts now grace delay =>
    obtain ⟨hx, _, rfl⟩ := Row.sweepReclaim_some h
    exact .of_running hx rfl
  | sweepDeadline ts now =>
    obtain ⟨⟨hj, -⟩, rfl⟩ := matched h
    exact .of_waiting hj rfl
  | sweepPromote ts =>
    obtain ⟨⟨hj, -⟩, rfl⟩ := matched h
    exact .of_waiting (.inr hj) rfl
  | sweepResultTtl ts =>
    obtain ⟨-, rfl⟩ := matched h
    exact ⟨rfl, id⟩
  | shutdownRepend | reconcileLostClaim =>
    obtain ⟨⟨-, hj, -⟩, rfl⟩ := matched h
    exact .of_running hj rfl
  | moveBacklog queue target =>
    obtain ⟨⟨-, hj⟩, rfl⟩ := matched h
    exact .of_waiting hj rfl
  | retryJob now => exact absurd rfl (hr now)

lemma markSnoozed_metadata (hp : p.metadataUpdate = none)
    (h : markSnoozed f now j p = some w) : w.row.metadata = j.metadata := by
  unfold markSnoozed at h
  dsimp only at h
  split at h
  · cases h
    simp [hp]
  split at h
  · cases h
    rfl
  split at h
  · cases h
    rfl
  · cases h

lemma Op.memberKept {op : Op} (hp : op.plain = true) (h : op.onRow k j = some j') :
    MemberKept j j' := by
  cases op with
  | enqueue n now => cases hp
  | claim ids worker now lease =>
    obtain ⟨-, hc⟩ := ite_none_right_eq_some.mp h
    obtain ⟨⟨hj, -⟩, rfl⟩ := matched hc
    exact .of_waiting (.inl hj) rfl
  | write id f now o =>
    obtain ⟨-, hm⟩ := ite_none_right_eq_some.mp h
    obtain ⟨w, hw, rfl⟩ := map_eq_some_iff.mp hm
    refine .of_running (o.landing hw).fence.1 ?_
    by_cases ho : ∃ p, o = .snoozed p
    · obtain ⟨p, rfl⟩ := ho
      exact markSnoozed_metadata (isNone_iff_eq_none.mp hp) hw
    · exact (o.lands hw).metadata fun p h => ho ⟨p, h⟩
  | run stmt ids =>
    obtain ⟨-, hs⟩ := ite_none_right_eq_some.mp h
    refine Stmt.memberKept ?_ hs
    rintro now rfl
    cases hp

end

/-- The outcomes `apply_batch_terminal_outcome` is called with. -/
inductive HookOutcome where
  | succeeded | failed | cancelled | crashed
  | snoozed | reservationDenied | rateLimitDenied | scheduled | noop

/-- The next statement of a connection's operation; between two operations it is `idle`. -/
inductive BatchPc where
  | idle
  | job (op : Op)
  | lockMembership (new : List NewJob)
  | insertMembers (new : List NewJob)
  | resetFailures (b : BatchId)
  | incrementFailures (b : BatchId)
  | countNonTerminal (b : BatchId)
  | lockBatchRow (b : BatchId)
  | completeBatch (b : BatchId)
  | abortBatchRow (b : BatchId) (size : Nat)
  | abortWindow (b : BatchId) (size : Nat) (cursor : JobId)
  | abortBatchJobs (b : BatchId) (size : Nat) (ids : List JobId)
  | retryJob (id : JobId)
  /-- The statement has its snapshot: the job's row and the `batches` rows as it sees them. -/
  | retried (id : JobId) (seen : Option Row) (rows : BatchId → Option BatchRow)
  | reopened (b : Option BatchId) (rows : BatchId → Option BatchRow)

def BatchPc.boundary : BatchPc → Bool
  | .insertMembers _ | .completeBatch _ | .abortBatchJobs _ _ _ | .retried _ _ _ |
    .reopened _ _ => false
  | _ => true

def BatchPc.follows : BatchPc → Bool
  | .insertMembers _ | .completeBatch _ | .reopened _ _ => true
  | _ => false

def BatchPc.reopens : BatchPc → Bool
  | .reopened _ _ => true
  | _ => false

inductive BatchCall where
  | job (op : Op)
  | append (new : List NewJob)
  | applyTerminalOutcome (b : BatchId) (outcome : HookOutcome)
  | completeBatch (b : BatchId)
  | abortBatch (b : BatchId) (size : Nat)
  | retryJob (id : JobId)

def BatchCall.start : BatchCall → BatchPc
  | .job op => .job op
  | .append new => .lockMembership new
  | .applyTerminalOutcome b .succeeded => .resetFailures b
  | .applyTerminalOutcome b .failed => .incrementFailures b
  | .applyTerminalOutcome b .cancelled | .applyTerminalOutcome b .crashed => .countNonTerminal b
  | .applyTerminalOutcome _ _ => .idle
  | .completeBatch b => .countNonTerminal b
  | .abortBatch b size => .abortBatchRow b size
  | .retryJob id => .retryJob id

def completeTailRecheckMaxOpen : Nat := 16

def defaultEventWriterBatchSize : Nat := 100

structure BatchDb where
  ids : List JobId
  jobs : JobId → Slot Conn Row
  rows : BatchId → Slot Conn BatchRow
  conns : Conn → Option BatchPc

structure BatchEffect where
  jobs : JobId → Option Row := fun _ => none
  born : List JobId := []
  locks : List BatchId := []
  rows : BatchId → Option BatchRow := fun _ => none
  next : BatchPc

def membershipBatchIds (new : List NewJob) : List BatchId :=
  (new.filterMap fun n => n.metadata.lookup "batch_id").dedup

section

variable (s : BatchDb) (t : Conn)

namespace BatchDb

def jobView (k : JobId) : Option Row := (s.jobs k).view t

def rowView (b : BatchId) : Option BatchRow := (s.rows b).view t

def openMembers (b : BatchId) : List JobId :=
  s.ids.filter fun k => (s.jobView t k).any fun j => j.openMember b

def updateActive (b : BatchId) (f : BatchRow → BatchRow) (next : BatchPc) : BatchEffect :=
  if (s.rowView t b).any (·.status = .active) then
    { locks := [b], rows := fun b' => (s.rowView t b').map f, next }
  else { next }

/-- `_lock_batch_membership`: the rows stay locked, and a terminal one refuses the append. -/
def lockMembership (new : List NewJob) : BatchEffect :=
  let refused := (membershipBatchIds new).any fun b =>
    (s.rowView t b).any fun x => x.status ≠ .active
  { locks := membershipBatchIds new
    rows := s.rowView t, next := if refused then .idle else .insertMembers new }

def statement (now : Stamp) : BatchPc → Option BatchEffect
  | .idle => none
  | .job op =>
    some
      { jobs := fun k => if op.plain then (s.jobView t k).bind fun j => op.onRow k j else none
        next := .idle }
  | .lockMembership new => some (s.lockMembership t new)
  | .insertMembers new =>
    if (new.map NewJob.id).Nodup && new.all fun n => n.id ∉ s.ids then
      some
        { jobs := fun k => (new.find? fun n => n.id = k).map fun n => n.row now
          born := new.map NewJob.id, next := .idle }
    else none
  | .resetFailures b =>
    if (s.rowView t b).any (·.consecutiveFailures ≠ 0) then
      some (s.updateActive t b (fun x => { x with consecutiveFailures := 0 }) (.countNonTerminal b))
    else some { next := .countNonTerminal b }
  | .incrementFailures b =>
    let reached := (s.rowView t b).any fun x => x.status = .active &&
      x.failureThreshold.any fun n => n ≤ x.consecutiveFailures + 1
    some (s.updateActive t b (fun x => { x with consecutiveFailures := x.consecutiveFailures + 1 })
      (if reached then .abortBatchRow b defaultEventWriterBatchSize else .countNonTerminal b))
  | .countNonTerminal b =>
    let tail := (s.openMembers t b).length ≤ completeTailRecheckMaxOpen
    some { next := if tail then .lockBatchRow b else .idle }
  | .lockBatchRow b =>
    some
      { locks := [b]
        rows := s.rowView t, next := if (s.rowView t b).isSome then .completeBatch b else .idle }
  | .completeBatch b =>
    if (s.openMembers t b).isEmpty then
      some (s.updateActive t b (fun x => { x with status := .complete }) .idle)
    else some { next := .idle }
  | .abortBatchRow b size =>
    some (s.updateActive t b (fun x => { x with status := .aborted }) (.abortWindow b size 0))
  | .abortWindow b size cursor =>
    let window := ((s.ids.filter fun k => cursor < k && (s.jobView t k).any fun j =>
      j.batchId = some b && (j.status = .pending || j.status = .scheduled)).insertionSort
        (· ≤ ·)).take size
    some { next := .abortBatchJobs b size window }
  | .abortBatchJobs b size ids =>
    some
      { jobs := fun k => if k ∈ ids then (s.jobView t k).bind (Row.abortBatch · now) else none
        next := match ids.getLast? with
          | some last => if ids.length < size then .idle else .abortWindow b size last
          | none => .idle }
  | .retryJob id => some { next := .retried id (s.jobView t id) (s.rowView t) }
  | .retried id seen rows =>
    -- the row is found in the snapshot and matched again once its lock is held
    match (seen.bind (Row.retryJob · now)).bind fun _ =>
      (s.jobView t id).bind (Row.retryJob · now) with
    | some j =>
      some { jobs := fun k => if k = id then some j else none, next := .reopened j.batchId rows }
    | none => some { next := .idle }
  | .reopened none _ => some { next := .idle }
  | .reopened (some b) rows =>
    -- the same for the batch: a row the snapshot shows active is not looked at again
    if (rows b).any (·.status ≠ .active) then
      some
        { locks := [b]
          rows := fun b' => (s.rowView t b').map fun x => { x with status := .active }
          next := .idle }
    else some { next := .idle }

def admits (e : BatchEffect) : Bool :=
  ((s.ids ++ e.born).all fun k => (e.jobs k).isNone || (s.jobs k).free t) &&
    e.locks.all fun b => (s.rows b).free t

def apply (e : BatchEffect) : BatchDb where
  ids := s.ids ++ e.born
  jobs := put t e.jobs s.jobs
  rows := put t (fun b => if b ∈ e.locks then e.rows b else none) s.rows
  conns := Function.update s.conns t (some e.next)

def commit (pc : Option BatchPc) : BatchDb where
  ids := s.ids
  jobs k := (s.jobs k).commit t
  rows b := (s.rows b).commit t
  conns := Function.update s.conns t pc

def rollback : BatchDb where
  ids := s.ids
  jobs k := (s.jobs k).rollback t
  rows b := (s.rows b).rollback t
  conns := Function.update s.conns t none

end BatchDb

end

def BatchPc.expired : BatchPc → Option (BatchId × BatchPc)
  | .resetFailures b | .incrementFailures b => some (b, .countNonTerminal b)
  | .lockBatchRow b | .abortBatchRow b _ => some (b, .idle)
  | _ => none

inductive BatchEvent where
  | call (t : Conn) (c : BatchCall)
  | exec (t : Conn) (now : Stamp)
  | expire (t : Conn)
  | commit (t : Conn)
  | crash (t : Conn)

def BatchDb.step (s : BatchDb) : BatchEvent → Option BatchDb
  | .call t c =>
    match s.conns t with
    | none | some .idle => some { s with conns := Function.update s.conns t (some c.start) }
    | _ => none
  | .exec t now => (s.conns t).bind fun pc => (s.statement t now pc).bind fun e =>
    if s.admits t e then some (s.apply t e) else none
  | .expire t => (s.conns t).bind fun pc => pc.expired.bind fun p =>
    if (s.rows p.1).free t then none
    else some { s with conns := Function.update s.conns t (some p.2) }
  | .commit t => (s.conns t).bind fun pc =>
    match pc with
    | .idle => some (s.commit t none)
    | pc => if pc.boundary then some (s.commit t (some pc)) else none
  | .crash t => (s.conns t).map fun _ => s.rollback t

inductive BatchDb.Moves (s : BatchDb) : BatchEvent → BatchDb → Prop where
  | call : s.conns t = none ∨ s.conns t = some .idle →
      s.Moves (.call t c) { s with conns := Function.update s.conns t (some c.start) }
  | exec : s.conns t = some pc → s.statement t now pc = some e → s.admits t e = true →
      s.Moves (.exec t now) (s.apply t e)
  | expire : s.conns t = some pc → pc.expired = some (b, pc') →
      s.Moves (.expire t) { s with conns := Function.update s.conns t (some pc') }
  | commit : s.conns t = some pc → pc.boundary = true → (pc' = none ∨ pc' = some pc) →
      s.Moves (.commit t) (s.commit t pc')
  | crash : s.conns t = some pc → s.Moves (.crash t) (s.rollback t)

variable {s : BatchDb}

lemma BatchDb.moves_of_step (h : s.step a = some s') : s.Moves a s' := by
  cases a with
  | call t c =>
    simp only [BatchDb.step] at h
    split at h
    · rename_i hn
      cases h
      exact .call (.inl hn)
    · rename_i hi
      cases h
      exact .call (.inr hi)
    · cases h
  | exec t now =>
    obtain ⟨pc, hpc, h⟩ := bind_eq_some_iff.mp h
    obtain ⟨e, he, h⟩ := bind_eq_some_iff.mp h
    obtain ⟨ha, rfl⟩ := matched h
    exact .exec hpc he ha
  | expire t =>
    obtain ⟨pc, hpc, h⟩ := bind_eq_some_iff.mp h
    obtain ⟨⟨b, pc'⟩, hp, h⟩ := bind_eq_some_iff.mp h
    obtain ⟨-, h⟩ := ite_none_left_eq_some.mp h
    cases h
    exact .expire hpc hp
  | commit t =>
    obtain ⟨pc, hpc, h⟩ := bind_eq_some_iff.mp h
    split at h
    · cases h
      exact .commit hpc rfl (.inl rfl)
    · obtain ⟨hb, rfl⟩ := matched h
      exact .commit hpc hb (.inr rfl)
  | crash t =>
    obtain ⟨pc, hpc, rfl⟩ := map_eq_some_iff.mp h
    exact .crash hpc

inductive JobWrite (s : BatchDb) (t : Conn) (now : Stamp) (e : BatchEffect) :
    BatchPc → JobId → Row → Prop where
  | plain : pc.reopens = false → s.jobView t k = some j0 → MemberKept j0 j →
      JobWrite s t now e pc k j
  | inserted : n ∈ new → n.id ∉ s.ids → n.id ∈ e.born →
      JobWrite s t now e (.insertMembers new) n.id (n.row now)
  | retried : s.jobView t k = some j0 → j.batchId = j0.batchId →
      e.next = .reopened j.batchId rows → JobWrite s t now e (.retried k seen rows) k j

structure BatchSpec (s : BatchDb) (t : Conn) (now : Stamp) (pc : BatchPc)
    (e : BatchEffect) : Prop where
  job : e.jobs k = some j → JobWrite s t now e pc k j
  apart : e.jobs k = some j → e.locks = []
  born : k ∈ e.born → k ∉ s.ids
  row : b ∈ e.locks → e.rows b = some x → ∃ x0, s.rowView t b = some x0 ∧
    (x.status = .complete → x0.status = .complete ∧ pc.boundary = true ∨
      pc = .completeBatch b ∧ s.openMembers t b = [])
  inserts : e.next = .insertMembers new → pc = .lockMembership new ∧ ∀ b ∈ membershipBatchIds new,
    b ∈ e.locks ∧ ∀ x, s.rowView t b = some x → e.rows b = some x ∧ x.status = .active
  completes : e.next = .completeBatch b → pc = .lockBatchRow b ∧ b ∈ e.locks ∧
    ∃ x, s.rowView t b = some x ∧ e.rows b = some x
  reopens : e.next = .reopened b' snap → ∃ id seen, pc = .retried id seen snap
  reopened : pc = .reopened (some b) snap → snap b = some x → x.status ≠ .active →
    b ∈ e.locks ∧ ∀ y, s.rowView t b = some y → ∃ y', e.rows b = some y'

lemma BatchSpec.silent (hn : next.follows = false)
    (ho : ∀ b rows, pc = .reopened (some b) rows → ∀ x, rows b = some x → x.status = .active) :
    BatchSpec s t now pc { next } where
  job h := by cases h
  apart h := by cases h
  born h := by cases h
  row h := by cases h
  inserts h := by subst h; cases hn
  completes h := by subst h; cases hn
  reopens h := by subst h; cases hn
  reopened hp hx hna := absurd (ho _ _ hp _ hx) hna

lemma BatchSpec.quiet (hn : next.follows = false) (ho : pc.reopens = false) :
    BatchSpec s t now pc { next } :=
  .silent hn fun b rows hp => by subst hp; cases ho

lemma BatchDb.updateActive_spec (hf : ∀ x : BatchRow, x.status = .active →
      (f x).status = .complete → pc = .completeBatch b ∧ s.openMembers t b = [])
    (hn : next.follows = false) (ho : pc.reopens = false) :
    BatchSpec s t now pc (s.updateActive t b f next) := by
  unfold BatchDb.updateActive
  split
  · rename_i ha
    refine
      { job := fun h => by cases h
        apart := fun h => by cases h
        born := fun h => by cases h
        row := ?_
        inserts := fun h => by subst h; cases hn
        completes := fun h => by subst h; cases hn
        reopens := fun h => by subst h; cases hn
        reopened := fun h => by subst h; cases ho }
    intro b' x hb hx
    obtain rfl := List.mem_singleton.mp hb
    obtain ⟨x0, hx0, rfl⟩ := map_eq_some_iff.mp hx
    rw [hx0, any_some, decide_eq_true_eq] at ha
    exact ⟨x0, hx0, fun hcomp => .inr (hf x0 ha hcomp)⟩
  · exact .quiet hn ho

lemma BatchSpec.jobs_only {w : JobId → Option Row}
    (hw : ∀ k j, w k = some j → JobWrite s t now { jobs := w, next } pc k j)
    (hr : next.follows = true → ∃ id seen b rows, pc = .retried id seen rows ∧
      next = .reopened b rows) (ho : pc.reopens = false) :
    BatchSpec s t now pc { jobs := w, next } where
  job := hw _ _
  apart _ := rfl
  born h := by cases h
  row h := by cases h
  inserts h := by
    obtain ⟨id, seen, b, rows, -, hn⟩ := hr (by subst h; rfl)
    exact BatchPc.noConfusion (hn.symm.trans h)
  completes h := by
    obtain ⟨id, seen, b, rows, -, hn⟩ := hr (by subst h; rfl)
    exact BatchPc.noConfusion (hn.symm.trans h)
  reopens h := by
    obtain ⟨id, seen, b, rows, hp, hn⟩ := hr (by subst h; rfl)
    cases hn.symm.trans h
    exact ⟨id, seen, hp⟩
  reopened hp := by subst hp; cases ho

lemma BatchDb.lock_spec (hb : pc.boundary = true)
    (hi : ∀ new, next = .insertMembers new → pc = .lockMembership new ∧
      ∀ b ∈ membershipBatchIds new, b ∈ locks ∧ ∀ x, s.rowView t b = some x → x.status = .active)
    (hc : ∀ b, next = .completeBatch b → pc = .lockBatchRow b ∧ b ∈ locks ∧
      (s.rowView t b).isSome = true) (hr : next.reopens = false) :
    BatchSpec s t now pc { locks, rows := s.rowView t, next } where
  job h := by cases h
  apart h := by cases h
  born h := by cases h
  row _ hx := ⟨_, hx, fun h => .inl ⟨h, hb⟩⟩
  inserts h := by
    obtain ⟨hp, hall⟩ := hi _ h
    exact ⟨hp, fun b hb => ⟨(hall b hb).1, fun x hx => ⟨hx, (hall b hb).2 x hx⟩⟩⟩
  completes h := by
    obtain ⟨hp, hl, hs⟩ := hc _ h
    obtain ⟨x, hx⟩ := isSome_iff_exists.mp hs
    exact ⟨hp, hl, x, hx, hx⟩
  reopens h := by subst h; cases hr
  reopened hp := by subst hp; cases hb

lemma BatchDb.lockMembership_spec (s : BatchDb) (t : Conn) (new : List NewJob) :
    BatchSpec s t now (.lockMembership new) (s.lockMembership t new) := by
  refine BatchDb.lock_spec rfl ?_ ?_ ?_
  · intro new' h
    split at h
    · cases h
    rename_i hn
    cases h
    refine ⟨rfl, fun b hb => ⟨hb, fun x hx => ?_⟩⟩
    simp only [List.any_eq_true, not_exists, not_and] at hn
    simpa [hx] using hn b hb
  · intro b h
    split at h <;> cases h
  · split <;> rfl

lemma BatchDb.insertMembers_spec (h : s.statement t now (.insertMembers new) = some e) :
    BatchSpec s t now (.insertMembers new) e := by
  simp only [BatchDb.statement, ite_none_right_eq_some, some.injEq,
    Bool.and_eq_true, List.all_eq_true, decide_eq_true_eq] at h
  obtain ⟨⟨-, hnew⟩, rfl⟩ := h
  refine
    { job := fun {k j} hk => ?_
      apart := fun _ => rfl
      born := fun {k} hk => ?_
      row := fun h => by cases h
      inserts := fun h => by cases h
      completes := fun h => by cases h
      reopens := fun h => by cases h
      reopened := fun h => by cases h }
  · obtain ⟨n, hn, rfl⟩ := map_eq_some_iff.mp hk
    have hm := List.mem_of_find?_eq_some hn
    have hid := List.find?_some hn
    obtain rfl := of_decide_eq_true hid
    exact .inserted hm (hnew n hm) (List.mem_map_of_mem hm)
  · obtain ⟨n, hn, rfl⟩ := List.mem_map.mp hk
    exact hnew n hn

lemma BatchDb.retried_spec {id : JobId} (h : s.statement t now (.retried id seen snap) = some e) :
    BatchSpec s t now (.retried id seen snap) e := by
  simp only [BatchDb.statement] at h
  split at h
  · rename_i j hj
    cases h
    refine .jobs_only ?_ (fun _ => ⟨id, seen, _, snap, rfl, rfl⟩) rfl
    intro k j' hk
    obtain ⟨rfl, rfl⟩ := matched hk
    obtain ⟨j1, -, hv⟩ := bind_eq_some_iff.mp hj
    obtain ⟨j0, hj0, hr⟩ := bind_eq_some_iff.mp hv
    obtain ⟨-, rfl⟩ := matched hr
    exact .retried hj0 rfl rfl
  · cases h
    exact .quiet rfl rfl

lemma BatchDb.reopened_spec (h : s.statement t now (.reopened (some b) snap) = some e) :
    BatchSpec s t now (.reopened (some b) snap) e := by
  simp only [BatchDb.statement] at h
  split at h
  · cases h
    refine
      { job := fun h => by cases h
        apart := fun h => by cases h
        born := fun h => by cases h
        row := fun {b' x} _ hx => ?_
        inserts := fun h => by cases h
        completes := fun h => by cases h
        reopens := fun h => by cases h
        reopened := fun hp _ _ => ?_ }
    · obtain ⟨x0, hx0, rfl⟩ := map_eq_some_iff.mp hx
      exact ⟨x0, hx0, fun h => by cases h⟩
    obtain ⟨hb, -⟩ := BatchPc.reopened.inj hp
    cases hb
    refine ⟨List.mem_singleton_self _, fun y hy => ⟨_, map_eq_some_iff.mpr ⟨y, hy, rfl⟩⟩⟩
  · rename_i hn
    cases h
    refine .silent rfl fun b' rows hp x hx => ?_
    obtain ⟨hb, rfl⟩ := BatchPc.reopened.inj hp
    cases hb
    simpa [hx] using hn

lemma BatchDb.statement_spec (h : s.statement t now pc = some e) : BatchSpec s t now pc e := by
  cases pc with
  | idle => cases h
  | job op =>
    cases h
    refine .jobs_only (fun k j hk => ?_) (fun h => by cases h) rfl
    obtain ⟨hp, hb⟩ := ite_none_right_eq_some.mp hk
    obtain ⟨j0, hj0, hop⟩ := bind_eq_some_iff.mp hb
    exact .plain rfl hj0 (Op.memberKept hp hop)
  | lockMembership new =>
    cases h
    exact s.lockMembership_spec t new
  | insertMembers new => exact BatchDb.insertMembers_spec h
  | resetFailures b =>
    simp only [BatchDb.statement] at h
    split at h
    · cases h
      refine BatchDb.updateActive_spec (fun x ha hc => ?_) rfl rfl
      exact absurd (ha.symm.trans hc) (by decide)
    · cases h
      exact .quiet rfl rfl
  | incrementFailures b =>
    cases h
    refine BatchDb.updateActive_spec (fun x ha hc => ?_) (by split <;> rfl) rfl
    exact absurd (ha.symm.trans hc) (by decide)
  | countNonTerminal b =>
    cases h
    exact .quiet (by split <;> rfl) rfl
  | lockBatchRow b =>
    cases h
    refine BatchDb.lock_spec rfl ?_ ?_ (by split <;> rfl)
    · intro new h
      split at h <;> cases h
    · intro b' h
      split at h
      · rename_i hs
        cases h
        exact ⟨rfl, List.mem_singleton_self _, hs⟩
      · cases h
  | completeBatch b =>
    simp only [BatchDb.statement] at h
    split at h
    · rename_i he
      cases h
      exact BatchDb.updateActive_spec (fun _ _ _ => ⟨rfl, List.isEmpty_iff.mp he⟩) rfl rfl
    · cases h
      exact .quiet rfl rfl
  | abortBatchRow b size =>
    cases h
    exact BatchDb.updateActive_spec (fun _ _ h => by cases h) rfl rfl
  | abortWindow | retryJob =>
    cases h
    exact .quiet rfl rfl
  | abortBatchJobs b size ids =>
    cases h
    refine .jobs_only (fun k j hk => ?_) (fun h => ?_) rfl
    · obtain ⟨-, hb⟩ := ite_none_right_eq_some.mp hk
      obtain ⟨j0, hj0, ha⟩ := bind_eq_some_iff.mp hb
      exact .plain rfl hj0 (Row.abortBatch_memberKept ha)
    · split at h
      · split at h <;> cases h
      · cases h
  | retried id seen rows => exact BatchDb.retried_spec h
  | reopened b rows =>
    cases b with
    | none =>
      cases h
      exact .silent rfl fun b rows hp => by cases hp
    | some b => exact BatchDb.reopened_spec h

end TaskQ.Jobs
