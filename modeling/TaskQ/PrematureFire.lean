import TaskQ.JoinFire

namespace TaskQ
open RowLocks Countdown Runs Sys

def Sys.unsettled (s : Sys) (j : JobId) : Nat :=
  (s.edgesOf j).countP fun e => !(s.jobs e.parent).base.any fun p => p.status.terminal

structure Wired (j : JobId) (s : Sys) : Prop where
  quiet : s.Quiet
  listed : s.Listed
  row : ∃ r, (s.jobs j).base = some r ∧ r.depsPending = s.unsettled j
  unfired : s.unfired j

def EdgesWritten (j : JobId) (s : Sys) : Event → Prop
  | .exec t env => ∀ x e, s.sessions t = some x →
      execStmt env (s.snapshot t) s.fresh x = some e → ∀ d ∈ e.edges, d.child ≠ j
  | _ => True

/-- No sweep recounts `j` between the two transactions of a parent's finalize. -/
def RecountSettled (j : JobId) (s : Sys) : Event → Prop
  | .exec t env => ∀ batch r, s.sessions t = some (.sweep batch .rederive) →
      (s.snapshot t).jobs j = some r →
      reconciles (s.snapshot t) (rederiveLocked (s.snapshot t) env.now batch) j r = true →
      ∀ e ∈ s.edgesOf j, ¬ s.inFlight e.parent
  | _ => True

def Sys.parentsDone (s : Sys) (j : JobId) : Prop := ∀ e ∈ s.edgesOf j, s.parentDone e

def plainDebt : Debt where
  extra _ _ _ := False
  anti := id

lemma Sys.Quiet.not_inFlight {s : Sys} (h : s.Quiet) (p : JobId) : ¬ s.inFlight p := by
  rintro ⟨t, c, fork, pc, hx, -⟩
  rw [h.sessions] at hx
  cases hx

lemma Sys.Quiet.not_hasFire {s : Sys} (h : s.Quiet) (hu : s.unfired j) : ¬ s.hasFire j := by
  rintro ⟨sl, hm, f, hb | ⟨t, hd⟩, hj⟩
  · exact hu f (List.mem_filterMap.mpr ⟨sl, hm, hb⟩) hj
  · rw [h.fires hm] at hd
    cases hd

lemma Bounded.of_quiet {D : Debt} (hq : s.Quiet) (hj : j ∈ s.ids)
    (hr : ∀ r, (s.jobs j).base = some r →
      Covers ρ r.depsPending (D.owed s (s.edgesOf j))) : Bounded D ρ j (s.edgesOf j) s := by
  have hn : ∀ {sl : Slot Tx Edge} {d}, sl ∈ s.edges → sl.draft ≠ some d := by
    intro sl d hm hd
    rw [hq.edges hm] at hd
    cases hd
  have hx : ∀ {t x}, s.sessions t ≠ some x := by
    intro t x hx
    rw [hq.sessions] at hx
    cases hx
  refine ⟨hj, ?_, ?_, rfl, ?_, fun _ => hr _, ?_, ?_⟩
  · exact fun sl hm d hd => absurd hd (hn hm)
  · intro sl hm d hd
    rw [hq.fires hm] at hd
    cases hd
  · exact fun hm hd => absurd hd (hn hm)
  · intro t r _ hd
    rw [hq.jobs] at hd
    cases hd
  · exact fun h => absurd h hx

lemma Wired.bounded (h : Wired j s) : Bounded plainDebt 0 j (s.edgesOf j) s := by
  obtain ⟨r, hr, hd⟩ := h.row
  refine Bounded.of_quiet h.quiet (h.listed.mem hr) fun r' hr' => ?_
  cases hr.symm.trans hr'
  rw [Covers, Nat.zero_add, hd]
  refine Debt.owed_card_le fun e _ ho => ?_
  rcases ho with ho | ho
  · exact absurd ho (h.quiet.not_inFlight _)
  cases hp : (s.jobs e.parent).base with
  | none => rfl
  | some p =>
    rcases ho p hp with ht | ht
    · simp [ht]
    · exact ht.elim

lemma RecountSettled.respects (hS : Sound s) (hB : Bounded plainDebt 0 j es s)
    (he : EdgesWritten j s a) (hr : RecountSettled j s a) : Respects plainDebt 0 j es s a where
  edges ha hx h := by
    subst ha
    exact he _ _ hx h
  recount := by
    intro t env batch r ha hx hj hrec
    subst ha
    refine hB.recount_covers hS hx hrec ?_ fun _ _ _ _ _ => id
    exact hB.wired ▸ hr batch r hx hj hrec
  commit _ _ _ _ _ _ := id

lemma Sys.hasFire_of_fired {s : Sys} (h : ¬ s.unfired j) : s.hasFire j := by
  simp only [unfired, not_forall, not_not] at h
  obtain ⟨f, hf, hj⟩ := h
  obtain ⟨sl, hm, hb⟩ := List.mem_filterMap.mp hf
  exact ⟨sl, hm, f, .inl hb, hj⟩

structure FiresLate (j : JobId) (es : List Edge) (s : Sys) : Prop where
  sound : Sound s
  bounded : Bounded plainDebt 0 j es s
  fired : s.hasFire j → ∀ e ∈ es, s.parentDone e

lemma Wired.firesLate (h : Wired j s) : FiresLate j (s.edgesOf j) s :=
  ⟨.of_quiet h.quiet h.listed, h.bounded, fun hf => absurd hf (h.quiet.not_hasFire h.unfired)⟩

lemma FiresLate.step (h : FiresLate j es s) (he : EdgesWritten j s a)
    (hr : RecountSettled j s a) (hs : s.step a = some s') : FiresLate j es s' := by
  refine ⟨h.sound.step hs, h.bounded.step h.sound (hr.respects h.sound h.bounded he) hs, ?_⟩
  intro hf e hm
  have hdone : s.parentDone e := by
    rcases hasFire_step hs hf with hf0 | ⟨t, env, x, ef, f, rfl, hx, hex, hfm, hj⟩
    · exact h.fired hf0 e hm
    · exact h.bounded.done_of_fire h.sound hx hex hfm hj e hm
  obtain ⟨p, hp, ht⟩ := hdone
  obtain ⟨p', hp', hst⟩ := h.sound.terminal_step hs hp ht
  exact ⟨p', hp', hst ▸ ht⟩

/-- If recounts of `j` are settled, it counts to zero and fires only over terminal parents. -/
theorem fires_after_parents (hw : Wired j s0)
    (h : Reach Sys.step (fun s a => EdgesWritten j s a ∧ RecountSettled j s a) s0 s) :
    (∀ t r, (s.jobs j).view t = some r → r.depsPending = 0 → s.parentsDone j) ∧
      (s.hasFire j → s.parentsDone j) := by
  have hinv : FiresLate j (s0.edgesOf j) s :=
    h.invariant hw.firesLate fun _ _ _ hI hok hs => hI.step hok.1 hok.2 hs
  have hB := hinv.bounded
  have hfire : s.hasFire j → s.parentsDone j := by
    intro hfj e he
    exact hinv.fired hfj e (hB.wired ▸ he)
  refine ⟨fun t r hr h0 => ?_, hfire⟩
  by_cases hu : s.unfired j
  · intro e he
    exact hB.done_of_zero hinv.sound hu hr h0 e (hB.wired ▸ he)
  · exact hfire (hasFire_of_fired hu)

def rootRow : JobRow := { stepKey := rootStepKey, status := .running }

def claimedRow (stepKey : String) (worker : WorkerId) : JobRow :=
  { stepKey
    status := .running, attempt := 1, lockedByWorker := some worker, claimEpoch := some 0
    metadata := { flowId := some 0 } }

def joinRow (deps : Nat) : JobRow :=
  { stepKey := "join"
    depsPending := deps
    metadata :=
      { flowId := some 0
        blockingReason := some .join
        consumers := [{ stepKey := "use", actor := "use", queue := "default" }] } }

def twoParents : Sys :=
  .ofRows [rootRow, claimedRow "p" 1, claimedRow "q" 2, joinRow 2]
    [{ child := 3, parent := 1, flow := 0 }, { child := 3, parent := 2, flow := 0 }]

def succeed (job : JobId) (stepKey : String) (worker : WorkerId) : FinalizeCall :=
  { job, flow := 0, stepKey, worker, attempt := 1, claimEpoch := some 0
    outcome := ⟨.succeeded, rfl⟩ }

lemma wired_twoParents : Wired 3 twoParents where
  quiet := quiet_ofRows _ _
  listed := listed_ofRows _ _
  row := ⟨joinRow 2, rfl, by decide⟩
  unfired _ h := by cases h

def recountBetween : List Event :=
  [.call 1 (.finalizeNode (succeed 1 "p" 1) none), .exec 1 {}, .exec 1 {}, .commit 1,
    .call 2 (.sweepJoinRederive 10), .exec 2 {}, .exec 2 {}, .commit 2,
    .exec 1 {}, .exec 1 {}, .exec 1 {}, .exec 1 {}, .commit 1]

def edgesWritten (j : JobId) (s : Sys) : Event → Bool
  | .exec t env => ((s.sessions t).bind (execStmt env (s.snapshot t) s.fresh)).all fun e =>
      e.edges.all fun d => d.child ≠ j
  | _ => true

lemma EdgesWritten.of_check (h : edgesWritten j s a = true) : EdgesWritten j s a := by
  cases a with
  | exec t env =>
    intro x e hx he d hd
    simp only [edgesWritten, hx, Option.bind_some, he, Option.all_some, List.all_eq_true,
      decide_eq_true_eq] at h
    exact h d hd
  | call | commit | deadlock | crash | claim | reclaim => trivial

lemma Sys.hasFire_of_any {s : Sys} (h : (committed s.fires).any (fun f => f.joinJob = j) = true) :
    s.hasFire j := by
  apply hasFire_of_fired
  intro hu
  obtain ⟨f, hf, hj⟩ := List.any_eq_true.mp h
  exact hu f hf (of_decide_eq_true hj)

/-- Job 1 is counted by the recount and by its tx2: the join fires while job 2 still runs. -/
theorem fires_before_parent : Wired 3 twoParents ∧
    ∃ s, Reach Sys.step (EdgesWritten 3) twoParents s ∧ s.hasFire 3 ∧ ¬ s.parentsDone 3 := by
  refine ⟨wired_twoParents, final step twoParents recountBetween, ?_, ?_, ?_⟩
  · exact .of_exec (exec_final (by decide))
      (.of_checks (edgesWritten 3) (by decide) fun _ _ => EdgesWritten.of_check)
  · exact hasFire_of_any (by decide)
  · intro hd
    obtain ⟨p, hp, ht⟩ := hd { child := 3, parent := 2, flow := 0 } (by decide)
    have hs : ((final step twoParents recountBetween).jobs 2).base.map JobRow.status =
        some .running := by decide
    rw [hp, Option.map_some, Option.some.injEq] at hs
    rw [hs] at ht
    cases ht

def inTurn : List Event :=
  [.call 1 (.finalizeNode (succeed 1 "p" 1) none), .exec 1 {}, .exec 1 {}, .commit 1,
    .exec 1 {}, .exec 1 {}, .commit 1,
    .call 2 (.sweepJoinRederive 10), .exec 2 {}, .exec 2 {}, .commit 2,
    .call 1 (.finalizeNode (succeed 2 "q" 2) none), .exec 1 {}, .exec 1 {}, .commit 1,
    .exec 1 {}, .exec 1 {}, .exec 1 {}, .exec 1 {}, .commit 1]

def notRecounted (j : JobId) (s : Sys) : Event → Bool
  | .exec t env =>
    match s.sessions t with
    | some (.sweep batch .rederive) => !((s.snapshot t).jobs j).any
        (reconciles (s.snapshot t) (rederiveLocked (s.snapshot t) env.now batch) j)
    | _ => true
  | _ => true

lemma RecountSettled.of_check (h : notRecounted j s a = true) : RecountSettled j s a := by
  cases a with
  | exec t env =>
    intro batch r hx hr hrec
    simp [notRecounted, hx, hr, hrec] at h
  | call | commit | deadlock | crash | claim | reclaim => trivial

theorem fires_after_parents_inTurn : (final Sys.step twoParents inTurn).hasFire 3 ∧
    (final Sys.step twoParents inTurn).parentsDone 3 := by
  have hf : (final step twoParents inTurn).hasFire 3 := hasFire_of_any (by decide)
  refine ⟨hf, (fires_after_parents wired_twoParents ?_).2 hf⟩
  refine .of_exec (exec_final (by decide)) (.of_checks
    (fun s a => edgesWritten 3 s a && notRecounted 3 s a) (by decide) fun s a h => ?_)
  rw [Bool.and_eq_true] at h
  exact ⟨.of_check h.1, .of_check h.2⟩

/-- A finalize in its second transaction has given the node its outcome for good, and any other of
the node carries the same outcome and comes later. -/
theorem finalized_for_good (hq : s0.Quiet) (hl : s0.Listed)
    (h : Reach Sys.step (fun _ _ => True) s0 s) (hx : s.sessions t = some (.finalize c f p))
    (hp : p.inTx2 = true) (h' : Reach Sys.step (fun _ _ => True) s s') :
    (∃ b, (s'.jobs c.job).base = some b ∧ b.status = c.outcome.1) ∧
      ∀ t1 c1 fork1 pc1, s'.sessions t1 = some (.finalize c1 fork1 pc1) → pc1.inTx2 = true →
        c1.job = c.job → c1.outcome.1 = c.outcome.1 ∧
          ∀ t2 c2 fork2 pc2, s'.sessions t2 = some (.finalize c2 fork2 pc2) →
            pc2.inTx2 = true → c2.job = c.job → t2 = t1 := by
  have hS : Sound s := h.invariant (.of_quiet hq hl) fun _ _ _ hI _ hs => hI.step hs
  obtain ⟨hS', b, hb, hst⟩ : Sound s' ∧ ∃ b, (s'.jobs c.job).base = some b ∧
      b.status = c.outcome.1 := by
    refine h'.invariant (I := fun s => Sound s ∧ ∃ b, (s.jobs c.job).base = some b ∧
      b.status = c.outcome.1) ⟨hS, hS.flight hx hp⟩ ?_
    intro u a u' hI _ hs
    obtain ⟨hU, b, hb, hst⟩ := hI
    obtain ⟨b', hb', hst'⟩ := hU.terminal_step hs hb (hst ▸ c.outcome.2)
    exact ⟨hU.step hs, b', hb', hst'.trans hst⟩
  refine ⟨⟨b, hb, hst⟩, fun t1 c1 fork1 pc1 hx1 hp1 hj1 => ⟨?_, ?_⟩⟩
  · obtain ⟨b1, hb1, hst1⟩ := hS'.flight hx1 hp1
    rw [hj1, hb] at hb1
    cases hb1
    exact hst1.symm.trans hst
  · intro t2 c2 fork2 pc2 hx2 hp2 hj2
    exact hS'.single hx1 hp1 hx2 hp2 (hj2.trans hj1.symm)

theorem finalized_for_good_inTurn : ∃ b, ((final Sys.step (final Sys.step twoParents
      (inTurn.take 4)) (inTurn.drop 4)).jobs 1).base = some b ∧ b.status = .succeeded :=
  (finalized_for_good (c := succeed 1 "p" 1) (f := none) (p := .decrement) (t := 1)
    (quiet_ofRows _ _) (listed_ofRows _ _) (.of_final (by decide)) rfl rfl
    (.of_final (by decide))).1

end TaskQ
