import TaskQ.TerminalFence
import TaskQ.Twin

namespace TaskQ.Jobs

open Runs List Option Row Store

/-- The attempt record a statement inserts; `registered` says its worker still has a row. -/
def Stmt.record (registered : Bool) (j : Row) : Stmt → Option Attempt
  | .markAbandoned now _ => some
      { attempt := j.attempt
        startedAt := j.startedAt.getD now, finishedAt := now, outcome := .cancelled
        errorClass := some cancelOriginAbandoned, errorMessage := none, errorTraceback := none
        durationMs := j.startedAt.map fun started => durationMs (now - started)
        workerId := if registered then j.lockedByWorker else none, metadata := []
        dueAt := some j.scheduledAt }
  | .sweepReclaim ts now grace _ => j.startedAt.map fun started =>
      { attempt := j.attempt
        startedAt := started, finishedAt := now, outcome := .crashed
        errorClass := some errorClassWorkerCrashed
        errorMessage := some
          (if j.lockExpired ts grace then lockExpiredMessage else heartbeatTimeoutMessage)
        errorTraceback := none, durationMs := some (Twin.pyDurationMs (now - started))
        workerId := if registered then j.lockedByWorker else none, metadata := []
        dueAt := some j.scheduledAt }
  | .sweepDeadline _ now => some
      { attempt := j.attempt
        startedAt := j.startedAt.getD now, finishedAt := now, outcome := .failed
        errorClass := some errorClassDeadlineExceeded, errorMessage := some deadlineExceededMessage
        errorTraceback := none
        durationMs := j.startedAt.map fun started => Twin.pyDurationMs (now - started)
        workerId := none, metadata := [], dueAt := some j.scheduledAt }
  | .isolate worker now _ => j.startedAt.map fun started =>
      { attempt := j.attempt
        startedAt := started, finishedAt := now, outcome := .crashed
        errorClass := some errorClassHeartbeatLost, errorMessage := none, errorTraceback := none
        durationMs := none, workerId := if registered then some worker else none, metadata := []
        dueAt := some j.scheduledAt }
  | _ => none

def Store.recorded (s : Store) : Bool := s.attempts.any (·.attempt == s.row.attempt)

def Stmt.against (s : Store) : Stmt → Stmt
  | .shutdownRepend worker _ => .shutdownRepend worker s.recorded
  | .reconcileLostClaim worker now grace _ => .reconcileLostClaim worker now grace s.recorded
  | stmt => stmt

def Stmt.refunds : Stmt → Bool
  | .shutdownRepend .. | .reconcileLostClaim .. => true
  | _ => false

def Written.refunds (w : Written) : Bool := w.branch = .snoozed ∧ w.attempt = none

/-- A statement and its record in one transaction; `none` when the server refuses the record. -/
def Store.run (registered : Bool) (s : Store) (stmt : Stmt) (j' : Row) : Option Store :=
  match stmt.record registered s.row with
  | none => some { s with row := j' }
  | some a => if ∀ d ∈ a.durationMs, fitsInt4 d then
      some { row := j', attempts := insertAttempt s.attempts a } else none

def Row.standing (j : Row) : Prop := j.status = .running ∧ j.startedAt.isSome

instance (j : Row) : Decidable j.standing := inferInstanceAs (Decidable (_ ∧ _))

def Row.remaining (j : Row) : Int := j.maxAttempts - j.attempt

structure Taken where
  claim : Claim
  budget : Int

structure Refund where
  (epoch budget : Int)
  deriving DecidableEq

/-- One job and, newest first, its claims, refunds, attempt records and conflicting epochs. -/
structure Account where
  store : Store
  claims : List Taken := []
  refunds : List Refund := []
  entries : List (Int × Int) := []
  swallowed : List Int := []

def Account.opened (n : NewJob) (now : Stamp) : Account := { store := ⟨n.row now, []⟩ }

def Account.claimed (s : Account) (worker : WorkerId) (j : Row) : Account :=
  { s with
    store := { s.store with row := j }
    claims := ⟨⟨worker, j.attempt, j.claimEpoch⟩, s.store.row.remaining⟩ :: s.claims }

def Account.post (s : Account) (store : Store) (inserts refunds : Bool) : Account where
  store := store
  claims := s.claims
  refunds := if refunds then ⟨s.store.row.claimEpoch, store.row.remaining⟩ :: s.refunds
    else s.refunds
  entries := if inserts ∧ s.store.recorded = false then
      (s.store.row.claimEpoch, s.store.row.attempt) :: s.entries else s.entries
  swallowed := if inserts ∧ s.store.recorded ∧ s.store.row.standing then
      s.store.row.claimEpoch :: s.swallowed else s.swallowed

inductive Turn where
  | claim (worker : WorkerId) (now lease : Stamp)
  | write (registered : Bool) (c : Claim) (now : Stamp) (o : OutcomeWrite)
  | run (registered : Bool) (stmt : Stmt)

def Account.step (s : Account) : Turn → Option Account
  | .claim worker now lease => (s.store.row.claim worker now lease).map (s.claimed worker)
  | .write registered c now o =>
    if c ∈ s.claims.map (·.claim) then
      match o.written c.fence now s.store.row with
      | none => some s
      | some w =>
        match s.store.write (if registered then some c.worker else none) now w with
        | none => some s
        | some store => some (s.post store w.attempt.isSome w.refunds)
    else none
  | .run registered stmt =>
    match (stmt.against s.store).apply s.store.row with
    | none => some s
    | some j' =>
      match s.store.run registered stmt j' with
      | none => some s
      | some store => some (s.post store (stmt.record registered s.store.row).isSome stmt.refunds)

structure Charges (stmt : Stmt) (j j' : Row) : Prop where
  attempt : j'.attempt = if stmt.refunds then j.attemptRefund else j.attempt
  running : j'.status = .running →
    j'.maxAttempts = j.maxAttempts ∧ j'.startedAt = if stmt.refunds then none else j.startedAt
  refunded : stmt.refunds → j.standing ∧ j'.maxAttempts = j.maxAttempts ∧ ¬ j'.standing
  ended : ∀ registered, (stmt.record registered j).isSome → j'.status ≠ .running

section
variable {stmt : Stmt} {j j' : Row} {s s' : Store}

lemma Charges.keep (hr : stmt.refunds = false) (ha : j'.attempt = j.attempt)
    (hm : j'.maxAttempts = j.maxAttempts) (hs : j'.startedAt = j.startedAt)
    (he : (∀ registered, stmt.record registered j = none) ∨ j'.status ≠ .running) :
    Charges stmt j j' where
  attempt := by simpa [hr] using ha
  running _ := ⟨hm, by simpa [hr] using hs⟩
  refunded h := by rw [hr] at h; cases h
  ended registered h := by
    rcases he with he | he
    · rw [he registered] at h; cases h
    · exact he

lemma Row.reclaimed_status_ne :
    (j.reclaimed now delay crashClass crashMessage).status ≠ .running := by
  simp only [reclaimed]
  split
  · decide
  · split <;> decide

lemma Stmt.charges (h : stmt.apply j = some j') : Charges stmt j j' := by
  cases stmt with
  | markAbandoned | sweepDeadline =>
    obtain ⟨-, rfl⟩ := matched h
    exact .keep rfl rfl rfl rfl (.inr (by simp))
  | cancelPendingScheduled | cancelRunning | cancelEscalation | abortBatch | deregister
  | heartbeat | sweepPromote | sweepResultTtl | flushProgress | moveBacklog =>
    obtain ⟨-, rfl⟩ := matched h
    exact .keep rfl rfl rfl rfl (.inl fun _ => rfl)
  | cancelRequest now =>
    rcases or_eq_some_iff.mp h with h | ⟨-, h⟩
    · obtain ⟨-, rfl⟩ := matched h
      exact .keep rfl rfl rfl rfl (.inl fun _ => rfl)
    · obtain ⟨-, rfl⟩ := matched h
      exact .keep rfl rfl rfl rfl (.inl fun _ => rfl)
  | sweepReclaim ts now grace delay =>
    obtain ⟨-, _, rfl⟩ := sweepReclaim_some h
    exact .keep rfl rfl rfl rfl (.inr reclaimed_status_ne)
  | isolate worker now delay =>
    obtain ⟨-, rfl⟩ := matched h
    exact .keep rfl rfl rfl rfl (.inr reclaimed_status_ne)
  | shutdownRepend worker recorded =>
    obtain ⟨⟨-, hrun, -, -, hstart⟩, rfl⟩ := matched h
    exact ⟨rfl, by simp, fun _ => ⟨⟨hrun, hstart⟩, rfl, by simp [standing]⟩, by simp [Stmt.record]⟩
  | reconcileLostClaim worker now grace recorded =>
    obtain ⟨⟨-, hrun, -, ⟨t, ht, -⟩, -⟩, rfl⟩ := matched h
    have hstart := isSome_of_mem ht
    exact ⟨rfl, fun _ => ⟨rfl, rfl⟩, fun _ => ⟨⟨hrun, hstart⟩, rfl, by simp [standing]⟩,
      by simp [Stmt.record]⟩
  | retryJob now =>
    obtain ⟨-, rfl⟩ := matched h
    exact ⟨rfl, by simp, by simp [Stmt.refunds], by simp⟩

@[simp] lemma Stmt.against_refunds (stmt : Stmt) (s : Store) :
    (stmt.against s).refunds = stmt.refunds := by
  cases stmt <;> rfl

@[simp] lemma Stmt.against_record (stmt : Stmt) (s : Store) (registered : Bool) :
    (stmt.against s).record registered j = stmt.record registered j := by
  cases stmt <;> rfl

lemma Stmt.record_attempt (h : stmt.record registered j = some a) : a.attempt = j.attempt := by
  cases stmt with
  | markAbandoned | sweepDeadline => cases h; rfl
  | sweepReclaim | isolate =>
    obtain ⟨_, -, rfl⟩ := map_eq_some_iff.mp h
    rfl
  | _ => cases h

lemma attemptRow_attempt (h : attemptRow worker now j v = some a) :
    a.attempt = j.attempt ∧ j.startedAt.isSome := by
  obtain ⟨started, hstart, h⟩ := bind_eq_some_iff.mp h
  obtain ⟨-, rfl⟩ := matched h
  exact ⟨rfl, isSome_of_mem hstart⟩

structure Settles (j : Row) (w : Written) : Prop where
  attempt : w.row.attempt = if w.refunds then j.attemptRefund else j.attempt
  maxAttempts : w.row.maxAttempts = j.maxAttempts

lemma OutcomeWrite.settles (o : OutcomeWrite) (h : o.written f now j = some w) : Settles j w where
  attempt := by
    simp only [Written.refunds, decide_eq_true_eq]
    exact (o.lands h).attempt
  maxAttempts := (o.lands h).maxAttempts

structure Move (s s' : Store) (inserts refunds : Bool) : Prop where
  epoch : s'.row.claimEpoch = s.row.claimEpoch
  attempt : s'.row.attempt = if refunds then s.row.attemptRefund else s.row.attempt
  running : s'.row.status = .running → s.row.status = .running ∧ inserts = false ∧
    s'.row.maxAttempts = s.row.maxAttempts ∧
    s'.row.startedAt = if refunds then none else s.row.startedAt
  refunded : refunds → s.row.standing ∧ ¬ s'.row.standing ∧ inserts = false ∧
    s'.row.maxAttempts = s.row.maxAttempts
  ledger : if inserts then ∃ a, a.attempt = s.row.attempt ∧ s'.attempts = insertAttempt s.attempts a
    else s'.attempts = s.attempts

lemma Store.run_ledger (h : s.run registered stmt j' = some s') :
    s'.row = j' ∧ if (stmt.record registered s.row).isSome then
      ∃ a, a.attempt = s.row.attempt ∧ s'.attempts = insertAttempt s.attempts a
      else s'.attempts = s.attempts := by
  simp only [run] at h
  cases hrec : stmt.record registered s.row with
  | none =>
    rw [hrec] at h
    cases h
    exact ⟨rfl, rfl⟩
  | some a =>
    rw [hrec] at h
    obtain ⟨-, rfl⟩ := matched h
    exact ⟨rfl, a, Stmt.record_attempt hrec, rfl⟩

lemma Store.run_move (ha : (stmt.against s).apply s.row = some j')
    (h : s.run registered stmt j' = some s') :
    Move s s' (stmt.record registered s.row).isSome stmt.refunds := by
  obtain ⟨rfl, hled⟩ := run_ledger h
  have hc := Stmt.charges ha
  have hch := Stmt.changes ha
  have hnone : s'.row.status = .running → (stmt.record registered s.row).isSome = false := by
    intro hrun
    by_contra hins
    rw [Bool.not_eq_false] at hins
    exact hc.ended registered (by simpa using hins) hrun
  refine ⟨hch.epoch, by simpa using hc.attempt, fun hrun => ?_, fun hr => ?_, hled⟩
  · obtain ⟨hmax, hstart⟩ := hc.running hrun
    exact ⟨(hch.running hrun).1, hnone hrun, hmax, by simpa using hstart⟩
  obtain ⟨hst, hmax, hns⟩ := hc.refunded (by simpa using hr)
  refine ⟨hst, hns, ?_, hmax⟩
  cases stmt <;> first | rfl | cases hr

lemma Store.write_ledger (h : s.write worker now w = some s') :
    s'.row = w.row ∧ if w.attempt.isSome then
      ∃ a, a.attempt = s.row.attempt ∧ s'.attempts = insertAttempt s.attempts a
      else s'.attempts = s.attempts := by
  obtain ⟨-, h⟩ := ite_none_right_eq_some.mp h
  cases hw : w.attempt with
  | none =>
    rw [hw] at h
    cases h
    exact ⟨rfl, rfl⟩
  | some v =>
    rw [hw] at h
    obtain ⟨a, ha, rfl⟩ := map_eq_some_iff.mp h
    exact ⟨rfl, a, (attemptRow_attempt ha).1, rfl⟩

lemma Store.write_move {o : OutcomeWrite} (hst : s.row.standing) (hw : o.written f now s.row = some w)
    (h : s.write worker now w = some s') : Move s s' w.attempt.isSome w.refunds := by
  obtain ⟨hrow, hled⟩ := write_ledger h
  have hland := o.landing hw
  have hset := o.settles hw
  rw [← hrow] at hland
  refine ⟨hland.epoch, (congrArg attempt hrow).trans hset.attempt,
    fun hrun => absurd hrun hland.running, fun hr => ?_, hled⟩
  have hnone := (of_decide_eq_true hr).2
  exact ⟨hst, fun h => hland.running h.1, by rw [hnone]; rfl,
    (congrArg maxAttempts hrow).trans hset.maxAttempts⟩

lemma Store.recorded_eq_false :
    s.recorded = false ↔ ∀ a ∈ s.attempts, a.attempt ≠ s.row.attempt := by
  simp [recorded]

lemma insertAttempt_of_recorded (ha : a.attempt = s.row.attempt)
    (h : s.recorded = true) : insertAttempt s.attempts a = s.attempts := by
  rw [insertAttempt, ha, if_pos (by simpa [recorded] using h)]

lemma insertAttempt_of_fresh (ha : a.attempt = s.row.attempt)
    (h : s.recorded = false) : insertAttempt s.attempts a = s.attempts ++ [a] := by
  rw [insertAttempt, ha, if_neg (by simpa [recorded] using h)]

section
variable (hm : Move s s' inserts refunds)
include hm

lemma Move.standing_back (hst : s'.row.standing) :
    s.row.standing ∧ refunds = false ∧ inserts = false := by
  have hr : refunds = false := by
    by_contra hr
    exact (hm.refunded (by simpa using hr)).2.1 hst
  obtain ⟨hrun, hins, -, hstart⟩ := hm.running hst.1
  subst hr
  refine ⟨⟨hrun, ?_⟩, rfl, hins⟩
  simpa only [hstart, Bool.false_eq_true, ↓reduceIte] using hst.2

lemma Move.attempts_cases : s'.attempts = s.attempts ∧ ¬ (inserts ∧ s.recorded = false) ∨
      inserts ∧ s.recorded = false ∧
        ∃ a, a.attempt = s.row.attempt ∧ s'.attempts = s.attempts ++ [a] := by
  have hl := hm.ledger
  cases inserts with
  | false => exact .inl ⟨hl, by simp⟩
  | true =>
    obtain ⟨a, ha, hatts⟩ := hl
    cases hrec : s.recorded with
    | true => exact .inl ⟨hatts.trans (insertAttempt_of_recorded ha hrec), by simp⟩
    | false => exact .inr ⟨rfl, rfl, a, ha, hatts.trans (insertAttempt_of_fresh ha hrec)⟩

end

end

structure Account.Sound (s : Account) : Prop where
  nonneg : 0 ≤ s.store.row.attempt
  claimed : s.store.row.standing → 0 < s.store.row.attempt
  below : ∀ t ∈ s.claims, t.claim.epoch ≤ s.store.row.claimEpoch
  /-- The claim a running row was taken with; a reconciled row is one below it. -/
  held : s.store.row.status = .running → ∀ t ∈ s.claims, t.claim.epoch = s.store.row.claimEpoch →
    t.claim.attempt = if s.store.row.startedAt.isSome then s.store.row.attempt
      else s.store.row.attempt + 1
  ledger : ∀ a ∈ s.store.attempts, a.attempt ≤ s.store.row.attempt
  above : s.store.row.standing → ∀ a ∈ s.store.attempts, a.attempt < s.store.row.attempt
  kept : s.swallowed = []
  numbers : s.entries.map (·.2) = (s.store.attempts.map (·.attempt)).reverse
  ordered : s.entries.Pairwise fun later earlier => earlier.1 < later.1 ∧ earlier.2 < later.2
  entered : ∀ e ∈ s.entries, e.1 ≤ s.store.row.claimEpoch ∧
    (e.1 = s.store.row.claimEpoch → s.store.row.attempt ≤ e.2)

section
variable {s s' : Account} {store : Store}

lemma Account.Sound.entry_le (h : s.Sound) {e : Int × Int} (he : e ∈ s.entries) :
    e.2 ≤ s.store.row.attempt := by
  have hmem : e.2 ∈ s.entries.map (·.2) := mem_map_of_mem he
  rw [h.numbers, mem_reverse] at hmem
  obtain ⟨a, ha, hae⟩ := mem_map.mp hmem
  exact hae ▸ h.ledger a ha

lemma Account.Sound.fresh (h : s.Sound) (hst : s.store.row.standing) : s.store.recorded = false :=
  recorded_eq_false.mpr fun a ha => (h.above hst a ha).ne

lemma Account.Sound.entry_lt (h : s.Sound) (hnew : s.store.recorded = false) {e : Int × Int}
    (he : e ∈ s.entries) : e.1 < s.store.row.claimEpoch ∧ e.2 < s.store.row.attempt := by
  have hne : e.2 ≠ s.store.row.attempt := by
    have hmem : e.2 ∈ s.entries.map (·.2) := mem_map_of_mem he
    rw [h.numbers, mem_reverse] at hmem
    obtain ⟨a, ha, hae⟩ := mem_map.mp hmem
    exact hae ▸ recorded_eq_false.mp hnew a ha
  have hlt := lt_of_le_of_ne (h.entry_le he) hne
  obtain ⟨hepoch, hsame⟩ := h.entered e he
  exact ⟨lt_of_le_of_ne hepoch fun heq => absurd (hsame heq) hlt.not_ge, hlt⟩

section
variable {inserts refunds : Bool} (h : s.Sound) (hm : Move s.store store inserts refunds)
include h hm

namespace Account.Sound

lemma move_attempt :
    store.row.attempt = s.store.row.attempt - if refunds then 1 else 0 := by
  have ha := hm.attempt
  cases refunds with
  | false => simpa using ha
  | true =>
    have hpos := h.claimed (hm.refunded rfl).1
    simp only [↓reduceIte, attemptRefund] at ha ⊢
    omega

lemma move_attempt_le : store.row.attempt ≤ s.store.row.attempt := by
  have ha := h.move_attempt hm
  split at ha <;> omega

lemma move_held (hrun : store.row.status = .running) {t : Taken}
    (ht : t ∈ s.claims) (he : t.claim.epoch = store.row.claimEpoch) :
    t.claim.attempt = if store.row.startedAt.isSome then store.row.attempt
      else store.row.attempt + 1 := by
  obtain ⟨hrun', -, -, hstart⟩ := hm.running hrun
  have hheld := h.held hrun' t ht (he.trans hm.epoch)
  have ha := h.move_attempt hm
  cases refunds with
  | false => simpa [hstart, ha] using hheld
  | true =>
    have hst := (hm.refunded rfl).1
    rw [hstart, hheld, if_pos hst.2, ha]
    simp

lemma move_ledger {a : Attempt} (ha : a ∈ store.attempts) :
    a.attempt ≤ store.row.attempt := by
  have hatt := h.move_attempt hm
  rcases hm.attempts_cases with ⟨heq, -⟩ | ⟨hins, -, b, hb, heq⟩
  · rw [heq] at ha
    cases refunds with
    | false => simpa [hatt] using h.ledger a ha
    | true =>
      have hlt := h.above (hm.refunded rfl).1 a ha
      omega
  · have hr : refunds = false := by
      by_contra hr
      have hno := (hm.refunded (by simpa using hr)).2.2.1
      rw [hins] at hno
      cases hno
    subst hr
    rw [heq, mem_append, mem_singleton] at ha
    rw [hatt, if_neg Bool.false_ne_true, Int.sub_zero]
    rcases ha with ha | rfl
    · exact h.ledger a ha
    · exact hb.le

lemma move : (s.post store inserts refunds).Sound where
  nonneg := by
    change 0 ≤ store.row.attempt
    have ha := h.move_attempt hm
    have hn := h.nonneg
    cases refunds with
    | false => simpa [ha] using hn
    | true =>
      have hpos := h.claimed (hm.refunded rfl).1
      omega
  claimed hst := by
    obtain ⟨hst', hr, -⟩ := hm.standing_back hst
    have ha := h.move_attempt hm
    subst hr
    simpa [Account.post, ha] using h.claimed hst'
  below t ht := (h.below t ht).trans_eq hm.epoch.symm
  held hrun t ht he := h.move_held hm hrun ht he
  ledger a ha := h.move_ledger hm ha
  above hst a ha := by
    obtain ⟨hst', hr, hins⟩ := hm.standing_back hst
    subst hr hins
    have hatt := h.move_attempt hm
    have heq := hm.ledger
    simpa [Account.post, hatt] using h.above hst' a (heq ▸ ha)
  kept := by
    have hno : ¬ (inserts ∧ s.store.recorded ∧ s.store.row.standing) := by
      rintro ⟨-, hrec, hst⟩
      rw [h.fresh hst] at hrec
      cases hrec
    exact (if_neg hno).trans h.kept
  numbers := by
    simp only [Account.post]
    rcases hm.attempts_cases with ⟨heq, hno⟩ | ⟨hins, hrec, a, ha, heq⟩
    · rw [if_neg hno, heq, h.numbers]
    · rw [if_pos ⟨hins, hrec⟩, heq, map_cons, h.numbers]
      simp [ha]
  ordered := by
    simp only [Account.post]
    split
    next hnew => exact pairwise_cons.mpr ⟨fun e he => h.entry_lt hnew.2 he, h.ordered⟩
    · exact h.ordered
  entered e he := by
    have hle := h.move_attempt_le hm
    have hold : ∀ e ∈ s.entries, e.1 ≤ store.row.claimEpoch ∧
        (e.1 = store.row.claimEpoch → store.row.attempt ≤ e.2) := by
      intro e he
      obtain ⟨hepoch, hsame⟩ := h.entered e he
      rw [hm.epoch]
      exact ⟨hepoch, fun heq => hle.trans (hsame heq)⟩
    simp only [Account.post] at he ⊢
    split at he
    · rcases mem_cons.mp he with rfl | he
      · exact ⟨hm.epoch.ge, fun _ => hle⟩
      · exact hold e he
    · exact hold e he

end Account.Sound

end

lemma Row.claim_attempt {j j' : Row} (hc : j.claim worker now lease = some j')
    (hlt : j.attempt < smallintMax) :
    j'.attempt = j.attempt + 1 ∧ j'.maxAttempts = j.maxAttempts ∧ j'.startedAt.isSome := by
  obtain ⟨-, rfl⟩ := matched hc
  exact ⟨min_eq_left hlt, rfl, rfl⟩

lemma Account.Sound.claim {j : Row} (h : s.Sound)
    (hc : s.store.row.claim worker now lease = some j) (hlt : s.store.row.attempt < smallintMax) :
    (s.claimed worker j).Sound := by
  obtain ⟨hatt, -, hstart⟩ := Row.claim_attempt hc hlt
  have hepoch := (Row.claimed hc).epoch
  have hn := h.nonneg
  have habove : ∀ a ∈ s.store.attempts, a.attempt < j.attempt := fun a ha => by
    have hle := h.ledger a ha
    omega
  have hbelow : ∀ t ∈ s.claims, t.claim.epoch < j.claimEpoch := fun t ht => by
    have hle := h.below t ht
    omega
  refine
    { nonneg := ?_, claimed := fun _ => ?_, below := fun t ht => ?_, held := fun _ t ht he => ?_
      ledger := fun a ha => (habove a ha).le, above := fun _ => habove, kept := h.kept
      numbers := h.numbers, ordered := h.ordered, entered := fun e he => ?_ }
  · change 0 ≤ j.attempt
    omega
  · change 0 < j.attempt
    omega
  · rcases mem_cons.mp ht with rfl | ht
    · exact le_rfl
    · exact (hbelow t ht).le
  · change t.claim.attempt = if j.startedAt.isSome then j.attempt else j.attempt + 1
    rw [if_pos hstart]
    rcases mem_cons.mp ht with rfl | ht
    · rfl
    · exact absurd he (hbelow t ht).ne
  · change e.1 ≤ j.claimEpoch ∧ (e.1 = j.claimEpoch → j.attempt ≤ e.2)
    have hle := (h.entered e he).1
    exact ⟨by omega, fun heq => by omega⟩

lemma Account.Sound.fence_standing {c : Claim} (h : s.Sound)
    (hc : c ∈ s.claims.map (·.claim)) (hf : s.store.row.jobFence c.fence) :
    s.store.row.standing := by
  obtain ⟨t, ht, rfl⟩ := mem_map.mp hc
  obtain ⟨hrun, -, hatt, hepoch⟩ := hf
  have hatt := some.inj hatt
  have hheld := h.held hrun t ht (some.inj hepoch)
  refine ⟨hrun, ?_⟩
  by_contra hnone
  rw [if_neg hnone] at hheld
  omega

inductive Account.Turned (s : Account) : Turn → Account → Prop where
  | idle : Turned s a s
  | claim {j : Row} : s.store.row.claim worker now lease = some j →
      Turned s (.claim worker now lease) (s.claimed worker j)
  | write {o : OutcomeWrite} {w : Written} {store : Store} : c ∈ s.claims.map (·.claim) →
      o.written c.fence now s.store.row = some w →
      s.store.write (if registered then some c.worker else none) now w = some store →
      Turned s (.write registered c now o) (s.post store w.attempt.isSome w.refunds)
  | run {stmt : Stmt} {store : Store} : (stmt.against s.store).apply s.store.row = some j' →
      s.store.run registered stmt j' = some store →
      Turned s (.run registered stmt)
        (s.post store (stmt.record registered s.store.row).isSome stmt.refunds)

lemma Account.step_turned (hs : s.step a = some s') : s.Turned a s' := by
  cases a with
  | claim worker now lease =>
    obtain ⟨j, hj, rfl⟩ := map_eq_some_iff.mp hs
    exact .claim hj
  | write registered c now o =>
    obtain ⟨hmem, hs⟩ := ite_none_right_eq_some.mp hs
    split at hs
    · cases hs; exact .idle
    next w hw =>
      split at hs
      · cases hs; exact .idle
      next store hstore => cases hs; exact .write hmem hw hstore
  | run registered stmt =>
    simp only [Account.step] at hs
    split at hs
    · cases hs; exact .idle
    next j' hj =>
      split at hs
      · cases hs; exact .idle
      next store hstore => cases hs; exact .run hj hstore

/-- No claim is taken at the ceiling of the attempt column, where it could not count up. -/
def Unclamped (s : Account) : Turn → Prop
  | .claim .. => s.store.row.attempt < smallintMax
  | _ => True

instance (s : Account) : (a : Turn) → Decidable (Unclamped s a)
  | .claim .. => inferInstanceAs (Decidable (_ < _))
  | .write .. | .run .. => inferInstanceAs (Decidable True)

lemma Account.Sound.step (h : s.Sound) (hok : Unclamped s a) (hs : s.step a = some s') :
    s'.Sound := by
  cases Account.step_turned hs with
  | idle => exact h
  | claim hc => exact h.claim hc hok
  | write hmem hw hstore =>
    exact h.move (write_move (h.fence_standing hmem (OutcomeWrite.landing _ hw).fence) hw hstore)
  | run hj hstore => exact h.move (run_move hj hstore)

lemma Account.opened_idle (n : NewJob) (now : Stamp) :
    (Account.opened n now).store.row.status ≠ .running := by
  intro hrun
  rcases n.row_waiting now with hw | hw <;> rw [Account.opened, hw] at hrun <;> cases hrun

lemma Account.Sound.opened (n : NewJob) (now : Stamp) : (Account.opened n now).Sound := by
  have hidle := Account.opened_idle n now
  exact
    { nonneg := le_rfl
      claimed := fun hst => absurd hst.1 hidle
      below := fun _ hmem => by cases hmem
      held := fun hrun => absurd hrun hidle
      ledger := fun _ hmem => by cases hmem
      above := fun hst => absurd hst.1 hidle
      kept := rfl
      numbers := rfl
      ordered := .nil
      entered := fun _ hmem => by cases hmem }

lemma Account.Sound.of_reach (h : Reach Account.step Unclamped (.opened n now) s) : s.Sound :=
  h.invariant (.opened n now) fun _ _ _ hI hok hs => hI.step hok hs

/-- The attempt ledger matches the executions, in every run below the attempt column's ceiling. -/
theorem attempt_ledger_matches (n : NewJob) (now : Stamp)
    (h : Reach Account.step (fun s _ => s.store.row.attempt < smallintMax) (.opened n now) s) :
    (s.store.row.status = .running → s.store.row.startedAt.isSome →
        ∀ a ∈ s.store.attempts, a.attempt < s.store.row.attempt) ∧
      (s.store.row.status ≠ .running → ∀ a ∈ s.store.attempts, a.attempt ≤ s.store.row.attempt) ∧
      s.swallowed = [] ∧ s.entries.map (·.2) = (s.store.attempts.map (·.attempt)).reverse ∧
      s.entries.Pairwise fun later earlier => earlier.1 < later.1 ∧ earlier.2 < later.2 := by
  have hs : s.Sound := .of_reach (h.mono fun s a hlt => by cases a <;> first | exact hlt | trivial)
  exact ⟨fun hrun hstart => hs.above ⟨hrun, hstart⟩, fun _ => hs.ledger, hs.kept, hs.numbers,
    hs.ordered⟩

def lostThenCrashed : List Turn :=
  [.claim 7 10 60000000, .run true (.reconcileLostClaim 7 90000000 60000000 false),
    .write true ⟨7, 1, 1⟩ 90000001 (.snoozed ⟨1000000, none, .snoozed, {}⟩),
    .run true (.sweepReclaim 200000000 200000000 60000000 1000000), .claim 8 210000000 60000000,
    .write true ⟨8, 1, 2⟩ 211000000 (.retry 1000000 ⟨"ValueError", "bad input", none⟩ {}),
    .run true (.sweepPromote 220000000), .claim 7 230000000 60000000,
    .run false (.sweepReclaim 300000000 300000000 60000000 1000000)]

theorem attempt_ledger_matches_lostThenCrashed :
    (final Account.step (.opened { id := 1, actor := "report" } 0) lostThenCrashed).entries =
        [(3, 2), (2, 1)] ∧
      (final Account.step (.opened { id := 1, actor := "report" } 0) lostThenCrashed).swallowed =
        [] :=
  ⟨by decide +kernel,
    (attempt_ledger_matches _ _ (.of_decide (by decide +kernel) (by decide +kernel))).2.2.1⟩

end

end TaskQ.Jobs
