import TaskQ.NodeStatements

namespace TaskQ.Jobs
open Runs Option

structure LoopWalls where
  budget : Option Stamp
  maxIterations : Option Int

/-- A loop's row with the budget columns and the integer keys of its `metadata`. -/
structure BudgetRow where
  job : Row
  iteration : Option Int := none
  maxIterations : Option Int := none
  budgetDeadline : Option Stamp := none
  budgetPaused : Bool := false
  deriving DecidableEq

def loopErrorCap : String := "IterationLimitExhausted"

def loopErrorBudget : String := "LoopBudgetExhausted"

def iterationStateCapExhausted : String := "iteration_cap_exhausted"

def iterationStateBudgetExhausted : String := "budget_exhausted"

def Row.loopKind (j : Row) : Prop := ("kind", "loop") ∈ j.metadata

instance (j : Row) : Decidable j.loopKind := inferInstanceAs (Decidable (_ ∈ _))

def Row.dropHold (j : Row) : Row :=
  { j with metadata := j.metadata.filter fun kv => kv.1 ≠ "hold" && kv.1 ≠ "held_signal" }

section
variable (r : BudgetRow)

/-- `LOOP_INIT_SQL`, with the document the driver has read before. -/
def BudgetRow.loopInit (walls : LoopWalls) (now : Stamp) (read : Doc) : Option BudgetRow :=
  if r.job.status = .running then
    some { r with
      job := { r.job with metadata := r.job.metadata.merge (read.merge [("kind", "loop")]) }
      iteration := some 0, maxIterations := walls.maxIterations
      budgetDeadline := walls.budget.map fun b => now + b }
  else none

def BudgetRow.loopAdvance (worker : Option WorkerId) (attempt epoch next cap : Int)
    (carry : String) : Option BudgetRow :=
  if r.job.status = .running ∧ (∃ i ∈ r.iteration, i + 1 ≤ cap) ∧
      r.job.lockedByWorker = worker ∧ r.job.attempt = attempt ∧ r.job.claimEpoch = epoch then
    some { r with
      job := { r.job with metadata := r.job.metadata.merge [("carry", carry)] }
      iteration := some next }
  else none

/-- `budget_paused` after a statement of the workflows. -/
def BudgetRow.pausedBy : NodeStmt → Bool
  | .holdNode _ _ => if r.job.loopKind then true else r.budgetPaused
  | .deliverResume _ => false
  | _ => r.budgetPaused

/-- `held` is whether the stamped hold is still held. -/
def BudgetRow.holdStampReconcile (now : Stamp) (held : Bool) : Option BudgetRow :=
  if r.job.marked "hold" ∧ r.job.flowId.isSome ∧ r.job.waiting ∧ held = false then
    some { r with job := { r.job.dropHold with scheduledAt := now }, budgetPaused := false }
  else none

/-- The budget leg of `LOOP_BUDGET_SWEEP_SQL`. -/
def BudgetRow.pastDeadline (now : Stamp) : Prop := ∃ d ∈ r.budgetDeadline, d ≤ now

instance : Decidable (r.pastDeadline now) := inferInstanceAs (Decidable (∃ d ∈ _, _))

def BudgetRow.capHit : Prop := ∃ m ∈ r.maxIterations, m ≤ r.iteration.getD 0

instance : Decidable r.capHit := inferInstanceAs (Decidable (∃ m ∈ _, _))

def BudgetRow.leaseLapsed (now : Stamp) : Prop := ∀ t ∈ r.job.lockExpiresAt, t < now

instance : Decidable (r.leaseLapsed now) := inferInstanceAs (Decidable (∀ t ∈ _, _))

def BudgetRow.sweepable (now : Stamp) : Prop :=
  r.job.loopKind ∧ r.job.status = .running ∧ r.budgetPaused = false ∧
    (r.pastDeadline now ∨ r.leaseLapsed now ∧ r.capHit)

instance : Decidable (r.sweepable now) := inferInstanceAs (Decidable (_ ∧ _ ∧ _ ∧ (_ ∨ _)))

/-- `sweep_loop_budget` on the row: it binds the identity that it has read under its lock. -/
def BudgetRow.sweepLoopBudget (now : Stamp) : Option BudgetRow :=
  if r.sweepable now then
    let state := if r.capHit then iterationStateCapExhausted else iterationStateBudgetExhausted
    (r.job.loopExhaust r.job.lockedByWorker r.job.attempt r.job.claimEpoch now
      (if r.capHit then loopErrorCap else loopErrorBudget)
      ("the loop's " ++ (if r.capHit then "iteration cap" else "budget") ++
        " wall fired (the sweep's arm; the named state: " ++ state ++ ")")
      [("iteration_state", state), ("kind", "loop")]).map fun job => { r with job }
  else none

end

inductive LoopWrite where
  | claim (worker : WorkerId) (lease : Stamp)
  | outcome (f : Fence) (o : OutcomeWrite)
  | job (stmt : Stmt)
  | node (stmt : NodeStmt)
  | loopAdvance (worker : Option WorkerId) (attempt epoch next cap : Int) (carry : String)
  | holdStampReconcile (held : Bool)
  | sweepLoopBudget

def LoopWrite.apply (now : Stamp) (r : BudgetRow) : LoopWrite → Option BudgetRow
  | .claim worker lease => (r.job.claim worker now lease).map fun job => { r with job }
  | .outcome f o => (o.written f now r.job).map fun w => { r with job := w.row }
  | .job stmt => (stmt.apply r.job).map fun job => { r with job }
  | .node stmt => (stmt.apply r.job).map fun job => { r with job, budgetPaused := r.pausedBy stmt }
  | .loopAdvance worker attempt epoch next cap carry =>
    r.loopAdvance worker attempt epoch next cap carry
  | .holdStampReconcile held => r.holdStampReconcile now held
  | .sweepLoopBudget => r.sweepLoopBudget now

/-- The row under the database's clock: its first init and the time it has been held since. -/
structure LoopClock where
  row : BudgetRow
  now : Stamp := 0
  initAt : Option Stamp := none
  held : Stamp := 0
  deriving DecidableEq

inductive LoopEvent where
  | tick (d : Nat)
  | loopInit (read : Doc)
  | write (w : LoopWrite)

def LoopClock.step (walls : LoopWalls) (s : LoopClock) : LoopEvent → Option LoopClock
  | .tick d => some
      { s with
        now := s.now + d
        held := if s.initAt.isSome ∧ s.row.job.marked "hold" then s.held + d else s.held }
  | .loopInit read => (s.row.loopInit walls s.now read).map fun row =>
      { s with row, initAt := s.initAt.or (some s.now) }
  | .write w => (w.apply s.now s.row).map fun row => { s with row }

def LoopClock.active (s : LoopClock) : Stamp := s.now - s.initAt.getD s.now - s.held

def LoopClock.BudgetExhausts (walls : LoopWalls) (s s' : LoopClock) : Prop :=
  s.step walls (.write .sweepLoopBudget) = some s' ∧ s.row.pastDeadline s.now

def LoopClock.Fresh (s : LoopClock) : Prop :=
  s.row.budgetDeadline = none ∧ s.initAt = none ∧ s.held = 0

structure LoopClock.Walled (b : Stamp) (s : LoopClock) : Prop where
  deadline : ∀ d ∈ s.row.budgetDeadline, ∃ t ∈ s.initAt, t + b ≤ d
  fits : ∀ t ∈ s.initAt, t + s.held ≤ s.now
  nonneg : 0 ≤ s.held
  idle : s.initAt = none → s.held = 0

section
variable {walls : LoopWalls} {b : Stamp} {r r' : BudgetRow} {s s0 s' : LoopClock}

lemma LoopWrite.apply_deadline {w : LoopWrite} (h : w.apply now r = some r') :
    r'.budgetDeadline = r.budgetDeadline := by
  cases w with
  | claim | outcome | job | node =>
    obtain ⟨_, -, rfl⟩ := map_eq_some_iff.mp h
    rfl
  | loopAdvance | holdStampReconcile =>
    obtain ⟨-, rfl⟩ := matched h
    rfl
  | sweepLoopBudget =>
    rw [apply, BudgetRow.sweepLoopBudget] at h
    split at h
    · obtain ⟨_, -, rfl⟩ := map_eq_some_iff.mp h
      rfl
    · cases h

lemma BudgetRow.sweepLoopBudget_of_sweepable (h : r.sweepable now) :
    ∃ r', r.sweepLoopBudget now = some r' ∧ r'.job.status = .failed := by
  rw [sweepLoopBudget, if_pos h]
  dsimp only [Row.loopExhaust]
  rw [if_pos ⟨h.2.1, rfl, rfl, rfl⟩]
  exact ⟨_, rfl, rfl⟩

lemma LoopClock.Fresh.walled (h : s.Fresh) : s.Walled b := by
  obtain ⟨hd, hi, hh⟩ := h
  constructor
  · rw [hd]
    nofun
  · rw [hi]
    nofun
  · rw [hh]
  · exact fun _ => hh

lemma LoopClock.Walled.step (hw : s.Walled b) (hb : walls.budget = some b)
    (h : s.step walls a = some s') : s'.Walled b := by
  cases a with
  | tick d =>
    cases h
    refine ⟨hw.deadline, fun t ht => ?_, ?_, fun hi => ?_⟩
    · have := hw.fits t ht
      split <;> grind
    · have := hw.nonneg
      split <;> grind
    · have := hw.idle hi
      rwa [hi, if_neg (by simp)]
  | loopInit read =>
    obtain ⟨r, hr, rfl⟩ := map_eq_some_iff.mp h
    obtain ⟨-, rfl⟩ := matched hr
    have hheld := hw.nonneg
    -- a later init by a driver that has lost the row only moves the deadline on
    cases hi : s.initAt with
    | none =>
      have hidle := hw.idle hi
      refine ⟨fun d hd => ⟨s.now, by simp, ?_⟩, fun t ht => ?_, hheld, fun hn => ?_⟩
      · simp only [hb, map_some, mem_def, some.injEq] at hd
        exact hd.le
      · obtain rfl : s.now = t := by simpa using ht
        grind
      · simp at hn
    | some t0 =>
      have hfits := hw.fits t0 hi
      refine ⟨fun d hd => ⟨t0, by simp, ?_⟩, fun t ht => ?_, hheld, fun hn => ?_⟩
      · simp only [hb, map_some, mem_def, some.injEq] at hd
        grind
      · obtain rfl : t0 = t := by simpa using ht
        exact hfits
      · simp at hn
  | write w =>
    obtain ⟨r, hr, rfl⟩ := map_eq_some_iff.mp h
    refine ⟨?_, hw.fits, hw.nonneg, hw.idle⟩
    rw [LoopWrite.apply_deadline hr]
    exact hw.deadline

lemma LoopClock.Walled.reach (h0 : s0.Fresh) (hb : walls.budget = some b)
    (h : Reach (LoopClock.step walls) (fun _ _ => True) s0 s) : s.Walled b :=
  h.invariant h0.walled fun _ _ _ hw _ hs => hw.step hb hs

lemma LoopClock.Walled.exhausts (hw : s.Walled b) (h : s.BudgetExhausts walls s') :
    b ≤ s.active + s.held := by
  obtain ⟨d, hd, hle⟩ := h.2
  obtain ⟨t, ht, hd⟩ := hw.deadline d hd
  rw [active, mem_def.mp ht, getD_some]
  grind

lemma LoopClock.Walled.active_nonneg (hw : s.Walled b) : 0 ≤ s.active := by
  rw [active]
  cases hi : s.initAt with
  | none =>
    have := hw.idle hi
    grind
  | some t =>
    have := hw.fits t hi
    grind

end

def readyLoop : LoopClock :=
  { row := { job := { id := 1, actor := "review", stepKey := some "loop", flowId := some 0 } } }

def heldRun (b : Stamp) (h : Nat) : List LoopEvent :=
  [.write (.node (.nodeClaim 7 0)), .loopInit [],
    .write (.node (.holdNode [("hold", "1"), ("held_signal", "approve")] none)), .tick h,
    .write (.node (.deliverResume h)), .write (.node (.nodeClaim 7 h)), .tick (b - h).toNat]

def heldEnd (b : Stamp) (h : Nat) (m : Option Int) : LoopClock where
  row :=
    { job :=
        { readyLoop.row.job with
          status := .running, attempt := 2, scheduledAt := h, lockedByWorker := some 7
          lockExpiresAt := some (h + nodeLease), metadata := [("kind", "loop")] }
      iteration := some 0, maxIterations := m, budgetDeadline := some (0 + b) }
  now := 0 + h + (b - h).toNat
  initAt := some 0
  held := 0 + h

lemma heldRun_exec (b : Stamp) (h : Nat) (m : Option Int) :
    exec (LoopClock.step ⟨some b, m⟩) readyLoop (heldRun b h) = some (heldEnd b h m) := by
  rfl

lemma heldEnd_exhausts (b : Stamp) (h : Nat) (m : Option Int) :
    ∃ s', (heldEnd b h m).BudgetExhausts ⟨some b, m⟩ s' := by
  have hpast : (heldEnd b h m).row.pastDeadline (heldEnd b h m).now := by
    refine ⟨0 + b, rfl, ?_⟩
    change 0 + b ≤ 0 + h + (b - h).toNat
    grind
  have hsweep : (heldEnd b h m).row.sweepable (heldEnd b h m).now :=
    ⟨by simp [Row.loopKind, heldEnd], rfl, rfl, .inl hpast⟩
  obtain ⟨r', hr', -⟩ := BudgetRow.sweepLoopBudget_of_sweepable hsweep
  exact ⟨{ heldEnd b h m with row := r' }, congrArg (Option.map _) hr', hpast⟩

/-- The budget leg spends only time outside of holds, just if there is no budget or no held time. -/
theorem budget_counts_holds_iff (m : Option Int) (b : Stamp) (h : Nat) :
    (∀ s0 s s' : LoopClock, s0.Fresh →
      Reach (LoopClock.step ⟨some b, m⟩) (fun _ _ => True) s0 s → s.held = h →
      s.BudgetExhausts ⟨some b, m⟩ s' → b ≤ s.active) ↔ b ≤ 0 ∨ h = 0 := by
  constructor
  · intro hfree
    by_contra hc
    obtain ⟨s', hs'⟩ := heldEnd_exhausts b h m
    have hreach := Reach.of_exec (heldRun_exec b h m) (meets_true _ _)
    have hle := hfree readyLoop _ s' ⟨rfl, rfl, rfl⟩ hreach (Int.zero_add _) hs'
    change b ≤ 0 + h + (b - h).toNat - 0 - (0 + h) at hle
    grind
  · intro hbh s0 s s' h0 hreach hheld hs'
    have hw := LoopClock.Walled.reach h0 rfl hreach
    rcases hbh with hb | rfl
    · exact hb.trans hw.active_nonneg
    · have := hw.exhausts hs'
      grind

/-- A budget of ten seconds, an hour on hold: the sweep exhausts the loop as it resumes. -/
theorem held_hour_exhausts :
    let s := heldEnd 10000000 3600000000 (some 5)
    exec (LoopClock.step ⟨some 10000000, some 5⟩) readyLoop (heldRun 10000000 3600000000) = some s ∧
    s.active = 0 ∧
    (s.step ⟨some 10000000, some 5⟩ (.write .sweepLoopBudget)).map (fun s' =>
      (s'.row.job.status, s'.row.job.errorClass)) = some (.failed, some "LoopBudgetExhausted") := by
  decide +kernel

end TaskQ.Jobs
