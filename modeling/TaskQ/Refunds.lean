import TaskQ.Ledger

namespace TaskQ.Jobs

open Runs List Row Account

structure Account.Balanced (s : Account) : Prop where
  balance : s.store.row.attempt = s.claims.length - s.refunds.length
  distinct : (s.claims.map (·.claim.epoch)).Nodup
  once : (s.refunds.map (·.epoch)).Nodup
  spent : ∀ r ∈ s.refunds, r.epoch ≤ s.store.row.claimEpoch ∧
    (s.store.row.standing → r.epoch < s.store.row.claimEpoch)
  held : s.store.row.standing → ∃ t ∈ s.claims, t.claim.epoch = s.store.row.claimEpoch ∧
    t.budget = s.store.row.remaining + 1
  free : ∀ r ∈ s.refunds, ∃ t ∈ s.claims, t.claim.epoch = r.epoch ∧ t.budget = r.budget

section
variable {s s' : Account} {store : Store}

namespace Account.Balanced

lemma keep (hb : s.Balanced) (h : s.Sound)
    (hm : Move s.store store inserts false) : (s.post store inserts false).Balanced where
  balance := by
    have ha := h.move_attempt hm
    simpa [post, ha] using hb.balance
  distinct := hb.distinct
  once := hb.once
  spent r hr := by
    obtain ⟨hle, hlt⟩ := hb.spent r hr
    refine ⟨hle.trans_eq hm.epoch.symm, fun hst => ?_⟩
    exact (hlt (hm.standing_back hst).1).trans_eq hm.epoch.symm
  held hst := by
    obtain ⟨t, ht, he, hbud⟩ := hb.held (hm.standing_back hst).1
    have ha := h.move_attempt hm
    obtain ⟨-, -, hmax, -⟩ := hm.running hst.1
    refine ⟨t, ht, he.trans hm.epoch.symm, hbud.trans ?_⟩
    simp [post, remaining, hmax, ha]
  free := hb.free

lemma refund (hb : s.Balanced) (h : s.Sound)
    (hm : Move s.store store inserts true) : (s.post store inserts true).Balanced := by
  obtain ⟨hst, hns, -, hmax⟩ := hm.refunded rfl
  have ha : store.row.attempt = s.store.row.attempt - 1 := h.move_attempt hm
  refine
    { balance := ?_, distinct := hb.distinct, once := ?_, spent := fun r hr => ?_
      held := fun hst' => absurd hst' hns, free := fun r hr => ?_ }
  · have hbal := hb.balance
    simp only [post, ↓reduceIte, length_cons, Nat.cast_add, Nat.cast_one]
    omega
  · -- the claim stands, so no earlier refund was of its epoch
    refine nodup_cons.mpr ⟨fun hmem => ?_, hb.once⟩
    obtain ⟨r, hr, he⟩ := mem_map.mp hmem
    exact absurd he ((hb.spent r hr).2 hst).ne
  · refine ⟨?_, fun hst' => absurd hst' hns⟩
    change r.epoch ≤ store.row.claimEpoch
    rw [hm.epoch]
    rcases mem_cons.mp hr with rfl | hr
    · exact le_rfl
    · exact (hb.spent r hr).1
  · rcases mem_cons.mp hr with rfl | hr
    · obtain ⟨t, ht, he, hbud⟩ := hb.held hst
      refine ⟨t, ht, he, hbud.trans ?_⟩
      simp only [remaining, hmax, ha]
      omega
    · exact hb.free r hr

lemma move {inserts refunds : Bool} (hb : s.Balanced)
    (h : s.Sound) (hm : Move s.store store inserts refunds) :
    (s.post store inserts refunds).Balanced := by
  cases refunds with
  | false => exact hb.keep h hm
  | true => exact hb.refund h hm

lemma claim {j : Row} (hb : s.Balanced) (h : s.Sound)
    (hc : s.store.row.claim worker now lease = some j) (hlt : s.store.row.attempt < smallintMax) :
    (s.claimed worker j).Balanced := by
  obtain ⟨ha, hmax, -⟩ := Row.claim_attempt hc hlt
  have hepoch := (Row.claimed hc).epoch
  have hbelow : ∀ e ≤ s.store.row.claimEpoch, e < j.claimEpoch := fun e he => by omega
  refine
    { balance := ?_, distinct := ?_, once := hb.once, spent := fun r hr => ?_
      held := fun _ => ?_, free := fun r hr => ?_ }
  · have hbal := hb.balance
    simp only [claimed, length_cons, Nat.cast_add, Nat.cast_one]
    omega
  · refine nodup_cons.mpr ⟨fun hmem => ?_, hb.distinct⟩
    obtain ⟨t, ht, he⟩ := mem_map.mp hmem
    exact absurd he (hbelow _ (h.below t ht)).ne
  · have hr' := hbelow _ (hb.spent r hr).1
    exact ⟨hr'.le, fun _ => hr'⟩
  · refine ⟨_, mem_cons_self, rfl, ?_⟩
    simp only [claimed, remaining]
    omega
  · obtain ⟨t, ht, he, hbud⟩ := hb.free r hr
    exact ⟨t, mem_cons_of_mem _ ht, he, hbud⟩

lemma step (hb : s.Balanced) (h : s.Sound) (hok : Unclamped s a)
    (hs : s.step a = some s') : s'.Balanced := by
  cases step_turned hs with
  | idle => exact hb
  | claim hc => exact hb.claim h hc hok
  | write hmem hw hstore =>
    have hst := h.fence_standing hmem (OutcomeWrite.landing _ hw).fence
    exact hb.move h (Store.write_move hst hw hstore)
  | run hj hstore => exact hb.move h (Store.run_move hj hstore)

lemma of_reach (h : Reach Account.step Unclamped (.opened n now) s) :
    s.Balanced := by
  have hinv : s.Sound ∧ s.Balanced := by
    refine h.invariant (I := fun s => s.Sound ∧ s.Balanced) ⟨.opened n now, ?_⟩ ?_
    · have hidle := opened_idle n now
      exact
        { balance := rfl, distinct := .nil, once := .nil, spent := nofun
          held := fun hst => absurd hst.1 hidle, free := nofun }
    · rintro s a s' ⟨hs, hb⟩ hok hstep
      exact ⟨hs.step hok hstep, hb.step hs hok hstep⟩
  exact hinv.2

end Account.Balanced

/-- Below the ceiling of the attempt column, releases that consume nothing are free. -/
theorem nonconsuming_releases_free (n : NewJob) (now : Stamp)
    (h : Reach Account.step Unclamped (.opened n now) s) :
    s.store.row.attempt = s.claims.length - s.refunds.length ∧
      (s.claims.map (·.claim.epoch)).Nodup ∧ (s.refunds.map (·.epoch)).Nodup ∧
      ∀ r ∈ s.refunds, ∃ t ∈ s.claims, t.claim.epoch = r.epoch ∧ t.budget = r.budget := by
  have hb := Account.Balanced.of_reach h
  exact ⟨hb.balance, hb.distinct, hb.once, hb.free⟩

def releasedThrice : List Turn :=
  [.claim 7 10 60000000, .write true ⟨7, 1, 1⟩ 20 (.snoozed ⟨1000000, none, .rateLimitDenied, {}⟩),
    .run true (.sweepPromote 2000000), .claim 7 2000000 60000000,
    .run true (.shutdownRepend 7 false), .claim 8 3000000 60000000,
    .run true (.reconcileLostClaim 8 90000000 60000000 false),
    .run true (.sweepReclaim 200000000 200000000 60000000 1000000), .claim 7 210000000 60000000]

theorem nonconsuming_releases_free_releasedThrice :
    (final Account.step (.opened { id := 1, actor := "report" } 0) releasedThrice).refunds =
        [⟨3, 3⟩, ⟨2, 3⟩, ⟨1, 3⟩] ∧
      (final Account.step (.opened { id := 1, actor := "report" } 0)
        releasedThrice).store.row.attempt =
        (final Account.step (.opened { id := 1, actor := "report" } 0)
          releasedThrice).claims.length -
        (final Account.step (.opened { id := 1, actor := "report" } 0)
          releasedThrice).refunds.length :=
  ⟨by decide +kernel,
    (nonconsuming_releases_free _ _ (.of_decide (by decide +kernel) (by decide +kernel))).1⟩

structure Account.Parked (s : Account) (n : Nat) : Prop where
  status : s.store.row.status = .pending
  deps : s.store.row.depsPending = 0
  deadline : s.store.row.scheduleToClose = none
  phase : s.store.row.cancelPhase = .none
  maxAttempts : s.store.row.maxAttempts = 32767
  attempt : s.store.row.attempt = n
  interrupts : s.store.row.interruptCount = n
  snoozes : s.store.row.snoozeCount = 0
  claims : s.claims.length = n
  refunds : s.refunds = []

def Row.taken (j : Row) (attempt : Int) : Row :=
  { j with
    status := .running, startedAt := some 0, finishedAt := none, lastHeartbeatAt := some 0
    lockedByWorker := some 7, lockExpiresAt := some 60000000, errorClass := none
    errorMessage := none, errorTraceback := none, result := none, resultSizeBytes := none
    attempt := attempt, claimEpoch := j.claimEpoch + 1 }

lemma Account.Parked.claim (h : s.Parked n) : s.step (.claim 7 0 60000000) =
      some (s.claimed 7 (s.store.row.taken (min (n + 1) smallintMax))) := by
  simp [step, Row.claim, h.status, h.deps, h.attempt, taken]

lemma Account.step_write {c : Claim} {o : OutcomeWrite}
    (hmem : c ∈ s.claims.map (·.claim)) (hw : o.written c.fence now s.store.row = some w)
    (hs : s.store.write (if registered then some c.worker else none) now w = some store) :
    s.step (.write registered c now o) = some (s.post store w.attempt.isSome w.refunds) := by
  simp [step, hmem, hw, hs]

def Row.handler (j : Row) (a : Int) : Claim := ⟨7, a, j.claimEpoch + 1⟩

section
variable (h : s.Parked n)
include h

omit h in
lemma Account.handler_mem (a : Int) :
    s.store.row.handler a ∈ (s.claimed 7 (s.store.row.taken a)).claims.map (·.claim) :=
  mem_cons_self

lemma Account.Parked.inTime (t : Stamp) : (s.store.row.taken a).inTime t := by
  intro d hd
  change d ∈ s.store.row.scheduleToClose at hd
  rw [h.deadline] at hd
  cases hd

lemma Account.Parked.interrupt (hn : n < 32767) :
    ∃ s', (s.claimed 7 (s.store.row.taken (n + 1))).step
        (.write true (s.store.row.handler (n + 1)) 0 (.interrupted 0 {})) = some s' ∧
      s'.Parked (n + 1) := by
  have hguard : (s.store.row.taken (n + 1)).jobFence (s.store.row.handler (n + 1)).fence ∧
      (s.store.row.taken (n + 1)).cancelPhase = .none ∧
      (s.store.row.taken (n + 1)).inTime (0 + effectiveHold 0) :=
    ⟨⟨rfl, rfl, rfl, rfl⟩, h.phase, h.inTime _⟩
  have hcount : s.store.row.interruptCount + 1 ≤ int4Max := by
    rw [h.interrupts, int4Max]
    omega
  refine ⟨_, step_write (handler_mem _) (if_pos hguard) (if_pos ?_), ?_⟩
  · exact ⟨.inl rfl, .inl rfl, .inr hcount⟩
  constructor <;> simp [post, claimed, handBack, leaseClear,
    progressMerge, taken, Written.refunds, effectiveHold, h.deps, h.deadline,
    h.maxAttempts, h.interrupts, h.snoozes, h.claims, h.refunds]

lemma Account.Parked.snooze : ∃ s', (s.claimed 7 (s.store.row.taken smallintMax)).step
        (.write true (s.store.row.handler smallintMax) 0 (.snoozed ⟨0, none, .snoozed, {}⟩)) =
          some s' ∧ s'.store.row.attempt = 32766 ∧
      s'.claims = ⟨s.store.row.handler smallintMax, s.store.row.remaining⟩ :: s.claims ∧
      s'.refunds = [⟨s.store.row.claimEpoch + 1, 1⟩] := by
  have hguard : (s.store.row.taken smallintMax).jobFence
        (s.store.row.handler smallintMax).fence ∧
      (s.store.row.taken smallintMax).cancelPhase = .none ∧
      (s.store.row.taken smallintMax).inTime (0 + max 0 minDeferralInterval) :=
    ⟨⟨rfl, rfl, rfl, rfl⟩, h.phase, h.inTime _⟩
  have hcount : s.store.row.snoozeCount + 1 ≤ int4Max := by
    rw [h.snoozes]
    decide
  refine ⟨_, step_write (handler_mem _) (if_pos hguard) (if_pos ?_), rfl, rfl, ?_⟩
  · exact ⟨.inr hcount, .inl rfl, .inl rfl⟩
  simp only [post, Written.refunds, claimed, h.refunds, and_self, decide_true,
    ↓reduceIte, taken, remaining, attemptRefund, handBack, leaseClear,
    progressMerge, h.maxAttempts]
  rfl

end

def ceilingJob : NewJob := { id := 1, actor := "report", maxAttempts := 32767 }

def HandlersOnly (_ : Account) : Turn → Prop
  | .claim .. | .write .. => True
  | .run .. => False

lemma parked_reach (n : Nat) (hn : n ≤ 32767) :
    ∃ s, Reach Account.step HandlersOnly (.opened ceilingJob 0) s ∧ s.Parked n := by
  induction n with
  | zero => exact ⟨_, .start, ⟨rfl, rfl, rfl, rfl, rfl, rfl, rfl, rfl, rfl, rfl⟩⟩
  | succ n ih =>
    obtain ⟨s, hreach, hs⟩ := ih (by omega)
    have hclaim := hs.claim
    rw [min_eq_left (by rw [smallintMax]; omega)] at hclaim
    obtain ⟨s', hstep, hs'⟩ := hs.interrupt (by omega)
    exact ⟨s', (hreach.next (by trivial) hclaim).next (by trivial) hstep,
      hs'⟩

/-- After 32767 claims one more at the ceiling is snoozed, and its refund undercounts the attempts.
-/
theorem refund_at_ceiling_not_free : ∃ s, Reach Account.step HandlersOnly (.opened ceilingJob 0) s ∧
      s.store.row.attempt = 32766 ∧ s.claims.length = 32768 ∧ s.refunds.length = 1 ∧
      ∃ t ∈ s.claims, ∃ r ∈ s.refunds, t.claim.epoch = r.epoch ∧ t.budget = 0 ∧ r.budget = 1 := by
  obtain ⟨s, hreach, hs⟩ := parked_reach 32767 le_rfl
  have hclaim := hs.claim
  obtain ⟨s', hstep, hatt, hclaims, hrefunds⟩ := hs.snooze
  have hbudget : s.store.row.remaining = 0 := by
    rw [remaining, hs.maxAttempts, hs.attempt]
    rfl
  rw [hbudget] at hclaims
  refine ⟨s', (hreach.next (by trivial) hclaim).next (by trivial) hstep,
    hatt, ?_, ?_, ?_⟩
  · rw [hclaims, length_cons, hs.claims]
  · rw [hrefunds]
    rfl
  · rw [hclaims, hrefunds]
    exact ⟨_, mem_cons_self, _, mem_singleton_self _, rfl, rfl, rfl⟩

end

end TaskQ.Jobs
