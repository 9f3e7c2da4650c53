import Mathlib.Algebra.Order.Field.Rat
import Mathlib.Tactic.Linarith
import Mathlib.Tactic.Ring
import TaskQ.Runs

namespace TaskQ.Heartbeat

open Runs

structure Settings where
  (heartbeatInterval heartbeatCommandTimeout : ℚ)
  maxHeartbeatFailures : Nat
  lockLease : ℚ

def failedTickRetryFraction : ℚ := 1 / 4

namespace Settings
variable (S : Settings)

def worstBeatGap : ℚ := S.heartbeatInterval + S.heartbeatCommandTimeout

def lastBeatTail : ℚ := max S.heartbeatInterval S.heartbeatCommandTimeout

def safetyFloor : ℚ := S.lastBeatTail + (S.maxHeartbeatFailures + 1 : Nat) * S.worstBeatGap

def leaseRenewalThreshold : ℚ := max S.safetyFloor (S.lockLease / 2)

end Settings

/-- One tick by its bounds: the acquire's timeout, one command budget, the wait after it. -/
structure Tick (S : Settings) where
  acquire : ℚ
  /-- From the acquire to the end of the tick: the transaction, its teardown and `run_post_tx`. -/
  commands : ℚ
  renewal : Option ℚ
  (committed failed : Bool)
  /-- A cancel may wake the loop before the wait is over. -/
  wait : ℚ
  acquire_nonneg : 0 ≤ acquire := by decide +kernel
  acquire_le : acquire ≤ S.heartbeatInterval := by decide +kernel
  commands_le : commands ≤ S.heartbeatCommandTimeout := by decide +kernel
  commands_nonneg : 0 ≤ commands := by decide +kernel
  renewal_mem : ∀ x ∈ renewal, 0 ≤ x ∧ x ≤ commands := by decide +kernel
  success : failed = false → renewal.isSome ∧ committed = true := by decide +kernel
  wait_nonneg : 0 ≤ wait := by decide +kernel
  wait_le : wait ≤
    if failed then
      min (max 0 (S.heartbeatInterval - (acquire + commands)))
        (failedTickRetryFraction * S.heartbeatInterval)
    else max 0 (S.heartbeatInterval - (acquire + commands)) := by decide +kernel

/-- The loop and the lease of one row the worker holds, without a heartbeat deadline of its own. -/
structure Loop where
  now : ℚ
  failures : Nat := 0
  lockExpiresAt : ℚ
  /-- When the gate last left the row alone, unless the row was renewed since. -/
  skipped : Option ℚ := none
  isolated : Option ℚ := none

section
variable (S : Settings)

/-- The gated renewal at the time `read`; a tick that is rolled back leaves the row as it was. -/
def Loop.renew (s : Loop) (read : ℚ) (committed : Bool) : Loop :=
  if s.lockExpiresAt ≤ read + S.leaseRenewalThreshold then
    if committed then { s with lockExpiresAt := read + S.lockLease, skipped := none } else s
  else { s with skipped := some read }

def Loop.gated (s : Loop) (t : Tick S) : Loop :=
  match t.renewal with
  | none => s
  | some x => s.renew S (s.now + t.acquire + x) t.committed

/-- `heartbeat_failures` after a tick. -/
def ledger (failures : Nat) (failed : Bool) : Nat := if failed then failures + 1 else 0

def Loop.settle (s : Loop) (finish : ℚ) (failed : Bool) (wait : ℚ) : Loop :=
  if S.maxHeartbeatFailures < ledger s.failures failed then
    { s with failures := ledger s.failures failed, isolated := some finish }
  else { s with failures := ledger s.failures failed, now := finish + wait }

def Loop.tick (s : Loop) (t : Tick S) : Option Loop :=
  if s.isolated.isSome then none
  else some ((s.gated S t).settle S (s.now + t.acquire + t.commands) t.failed t.wait)

end

structure Loop.Paced (S : Settings) (s : Loop) : Prop where
  failures : s.isolated = none → s.failures ≤ S.maxHeartbeatFailures
  lease : ∀ r ∈ s.skipped, r + S.leaseRenewalThreshold < s.lockExpiresAt
  elapsed : s.isolated = none → ∀ r ∈ s.skipped,
    s.now ≤ r + S.lastBeatTail + s.failures * S.worstBeatGap
  decided : ∀ t ∈ s.isolated, ∀ r ∈ s.skipped, t ≤ r + S.safetyFloor

section
variable {S : Settings} {s s' : Loop} (t : Tick S)

lemma Tick.wait_le_cadence : t.wait ≤ max 0 (S.heartbeatInterval - (t.acquire + t.commands)) := by
  have h := t.wait_le
  split at h
  · exact h.trans (min_le_left _ _)
  · exact h

include t in
lemma Tick.worstBeatGap_nonneg : 0 ≤ S.worstBeatGap :=
  add_nonneg (t.acquire_nonneg.trans t.acquire_le) (t.commands_nonneg.trans t.commands_le)

lemma Tick.cycle_le : t.acquire + t.commands + t.wait ≤ S.worstBeatGap := by
  have hwait := t.wait_le_cadence
  have ha := t.acquire_le
  have hc := t.commands_le
  have hn := t.commands_nonneg
  unfold Settings.worstBeatGap
  rcases max_choice 0 (S.heartbeatInterval - (t.acquire + t.commands)) with h | h <;>
    rw [h] at hwait <;> linarith

lemma Tick.tail_le (hx : x ∈ t.renewal) : t.commands + t.wait ≤ x + S.lastBeatTail := by
  have hwait := t.wait_le_cadence
  have ha := t.acquire_nonneg
  have hc := t.commands_le
  have hi : S.heartbeatInterval ≤ S.lastBeatTail := le_max_left _ _
  have ht : S.heartbeatCommandTimeout ≤ S.lastBeatTail := le_max_right _ _
  have hx0 := (t.renewal_mem x hx).1
  rcases max_choice 0 (S.heartbeatInterval - (t.acquire + t.commands)) with h | h <;>
    rw [h] at hwait <;> linarith

lemma Loop.tick_eq_some (h : s.tick S t = some s') : s.isolated = none ∧
      s' = (s.gated S t).settle S (s.now + t.acquire + t.commands) t.failed t.wait := by
  unfold Loop.tick at h
  split at h
  · cases h
  next hi => exact ⟨Option.not_isSome_iff_eq_none.mp hi, (Option.some.inj h).symm⟩

lemma Loop.gated_frame : (s.gated S t).failures = s.failures ∧
    (s.gated S t).isolated = s.isolated := by
  unfold Loop.gated Loop.renew
  repeat' split
  all_goals exact ⟨rfl, rfl⟩

lemma Loop.gated_skipped (hr : r ∈ (s.gated S t).skipped) :
    (∃ x ∈ t.renewal, r = s.now + t.acquire + x ∧
      r + S.leaseRenewalThreshold < (s.gated S t).lockExpiresAt) ∨
    (r ∈ s.skipped ∧ (s.gated S t).lockExpiresAt = s.lockExpiresAt ∧ t.failed = true) := by
  cases hx : t.renewal with
  | none =>
    have hg : s.gated S t = s := by simp only [Loop.gated, hx]
    rw [hg] at hr ⊢
    refine .inr ⟨hr, rfl, ?_⟩
    by_contra hf
    have hsome := (t.success (Bool.eq_false_iff.mpr hf)).1
    rw [hx] at hsome
    cases hsome
  | some x =>
    have hg : s.gated S t = s.renew S (s.now + t.acquire + x) t.committed := by
      simp only [Loop.gated, hx]
    rw [hg, Loop.renew] at hr ⊢
    by_cases hdue : s.lockExpiresAt ≤ s.now + t.acquire + x + S.leaseRenewalThreshold
    · rw [if_pos hdue] at hr ⊢
      by_cases hc : t.committed = true
      · rw [if_pos hc] at hr
        cases hr
      rw [if_neg hc] at hr ⊢
      refine .inr ⟨hr, rfl, ?_⟩
      by_contra hf
      exact hc (t.success (Bool.eq_false_iff.mpr hf)).2
    · rw [if_neg hdue] at hr ⊢
      cases hr
      exact .inl ⟨x, rfl, rfl, not_le.mp hdue⟩

lemma Loop.Paced.lease_gated (h : s.Paced S) :
    ∀ r ∈ (s.gated S t).skipped, r + S.leaseRenewalThreshold < (s.gated S t).lockExpiresAt := by
  intro r hr
  rcases Loop.gated_skipped t hr with ⟨_, _, _, hlt⟩ | ⟨hold, hexp, _⟩
  · exact hlt
  · rw [hexp]
    exact h.lease r hold

lemma Loop.Paced.elapsed_gated (h : s.Paced S) (hi : s.isolated = none) :
    ∀ r ∈ (s.gated S t).skipped, s.now + t.acquire + t.commands + t.wait ≤ r + S.lastBeatTail +
      ledger s.failures t.failed * S.worstBeatGap := by
  intro r hr
  have hgap := t.worstBeatGap_nonneg
  rcases Loop.gated_skipped t hr with ⟨x, hx, rfl, _⟩ | ⟨hold, _, hfail⟩
  · have htail := t.tail_le hx
    have hpos : 0 ≤ (ledger s.failures t.failed : ℚ) * S.worstBeatGap :=
      mul_nonneg (Nat.cast_nonneg _) hgap
    linarith
  · have hnow := h.elapsed hi r hold
    have hcycle := t.cycle_le
    rw [ledger, if_pos hfail]
    push_cast
    linarith

lemma ledger_eq (hle : n ≤ limit) (h : limit < ledger n failed) :
    ledger n failed = limit + 1 := by
  cases failed with
  | false => exact absurd h (Nat.not_lt_zero _)
  | true => exact Nat.le_antisymm (Nat.succ_le_succ hle) h

lemma Loop.Paced.tick (h : s.Paced S) (hs : s.tick S t = some s') : s'.Paced S := by
  obtain ⟨hi, rfl⟩ := Loop.tick_eq_some t hs
  obtain ⟨hfail, hiso⟩ := Loop.gated_frame (s := s) t
  have hlease := h.lease_gated t
  have helapsed := h.elapsed_gated t hi
  have hle := h.failures hi
  unfold Loop.settle
  rw [hfail]
  split
  next hmax =>
    refine ⟨fun hn => ?_, hlease, fun hn => ?_, fun d hd r hr => ?_⟩
    · cases hn
    · cases hn
    cases hd
    have hend := helapsed r hr
    have hwait := t.wait_nonneg
    rw [ledger_eq hle hmax] at hend
    unfold Settings.safetyFloor
    linarith
  next hmax =>
    refine ⟨fun _ => not_lt.mp hmax, hlease, fun _ => helapsed, fun d hd => ?_⟩
    rw [show Loop.isolated _ = s.isolated from hiso, hi] at hd
    cases hd

end

/-- A row that the gate left alone still has lease when the worker decides to isolate. -/
theorem skipped_row_outlives_decision {S : Settings} {now lease decision r : ℚ} {s : Loop}
    (h : Reach (Loop.tick S) (fun _ _ => True) { now := now, lockExpiresAt := lease } s)
    (hd : s.isolated = some decision) (hr : s.skipped = some r) :
    0 < s.lockExpiresAt - decision := by
  have hstart : Loop.Paced S { now := now, lockExpiresAt := lease } :=
    ⟨fun _ => Nat.zero_le _, fun _ h => (by cases h), fun _ _ h => (by cases h),
      fun _ h => (by cases h)⟩
  have hpaced : s.Paced S := h.invariant hstart fun _ t _ hI _ hs => hI.tick t hs
  have hfloor : S.safetyFloor ≤ S.leaseRenewalThreshold := le_max_left _ _
  have hlease := hpaced.lease r hr
  have hdecided := hpaced.decided decision hd r hr
  linarith

def briefSettings : Settings := ⟨2, 2, 1, 10⟩

def goodTick : Tick briefSettings where
  acquire := 0
  commands := 0
  renewal := some 0
  committed := true
  failed := false
  wait := 2

def slowFailure : Tick briefSettings where
  acquire := 2
  commands := 2
  renewal := none
  committed := false
  failed := true
  wait := 0

def isolatedLoop : Loop :=
  final (Loop.tick briefSettings) { now := 0, lockExpiresAt := 102 / 10 }
    [goodTick, slowFailure, slowFailure]

theorem skipped_row_outlives_decision_brief : 0 < isolatedLoop.lockExpiresAt - 10 :=
  skipped_row_outlives_decision (.of_final (by decide +kernel))
    (by decide +kernel) (show isolatedLoop.skipped = some 0 by decide +kernel)

end TaskQ.Heartbeat
