import TaskQ.CollectRecord
import TaskQ.PrematureFire

namespace TaskQ
open RowLocks Countdown Runs List Sys

def Sys.failuresCounted (s : Sys) (j : JobId) : Prop :=
  ∀ e ∈ s.edgesOf j, e.failurePolicy.absorbing = true → ∀ p, (s.jobs e.parent).base = some p →
    p.status = .failed → (e.parent, j) ∈ s.counted

/-- No sweep recounts or fires `j` before the tx2 of every failed parent on an absorbing edge. -/
def FailuresHeld (j : JobId) (s : Sys) : Event → Prop
  | .exec t env =>
    match s.sessions t with
    | some (.sweep batch .rederive) => ∀ r, (s.snapshot t).jobs j = some r →
        reconciles (s.snapshot t) (rederiveLocked (s.snapshot t) env.now batch) j r = true →
        s.failuresCounted j
    | some (.sweep batch (.sweepFire _)) =>
        j ∈ sweepFireLocked (s.snapshot t) env.now batch → firable (s.snapshot t) j = true →
        s.failuresCounted j
    | _ => True
  | _ => True

structure Collects (j : JobId) (es : List Edge) (s : Sys) : Prop where
  sound : Sound s
  keyed : (es.map Edge.parent).Nodup
  bounded : Bounded collectDebt 0 j es s
  row : ∃ b, (s.jobs j).base = some b
  waits : s.version j r → r.Waits
  record : s.unfired j → ∃ ps own, Posted j es ps s ∧ Records j es ps own s

lemma Collects.respects (hC : Collects j es s) (he : EdgesWritten j s a)
    (hr : RecountSettled j s a) (hf : FailuresHeld j s a) : Respects collectDebt 0 j es s a where
  edges ha hx h := by
    subst ha
    exact he _ _ hx h
  recount := by
    intro t env batch r ha hx hj hrec
    subst ha
    refine hC.bounded.recount_covers hC.sound hx hrec ?_ ?_
    · exact hC.bounded.wired ▸ hr batch r hx hj hrec
    · intro e hm p hp _ ⟨hfail, hpol, hcnt⟩
      simp only [FailuresHeld, hx] at hf
      refine hcnt ?_
      rw [hC.bounded.child_eq hm]
      exact hf r hj hrec e (hC.bounded.wired ▸ hm) hpol p hp hfail
  commit := by
    intro t c fork hs hit e _ hx hh hj hm hp ⟨_, _, hcnt⟩
    refine hcnt (mem_append_right _ (mem_map.mpr ⟨hit, hh, ?_⟩))
    rw [hj, hp, hC.bounded.child_eq hm]

lemma Collects.waits_step (hC : Collects j es s) (hna : NotAdopted j s a)
    (h : s.step a = some s') (hr : s'.version j r) : r.Waits := by
  rcases version_step h hr with hv | ⟨t, env, x, e, rfl, hx, he, hw⟩ |
    ⟨t, job, worker, now, rfl, hw⟩ | ⟨t, job, now, grace, due, rfl, hw⟩
  · exact hC.waits hv
  · have hborn : j ∉ e.born := by
      intro hb
      have hlt := hC.sound.below j hC.bounded.present
      have hge := ((execStmt_spec he).born j hb).1
      omega
    obtain ⟨r0, hr0, hwt, -⟩ := (execStmt_wrote he hw).kept hborn
      fun c fork children hxa => hna c fork children (hxa ▸ hx)
    exact hwt (hC.waits (version_of_view hr0))
  · obtain ⟨r0, -, -, hd, -, hc, -⟩ := nodeClaim_row hw
    simp only [claimable, Bool.and_eq_true, decide_eq_true_eq] at hc
    exact .inr (.inr (hd.trans hc.1.1.2))
  · obtain ⟨r0, hr0, hs, rfl, -⟩ := sweepReclaim_row hw
    exact .inr (.inr ((hC.waits (version_of_view hr0)).zero hs))

lemma Session.absorbing_start (c : Call) (hs : some c.start = some (.finalize c' fork pc))
    (v : Option JobRow) : Absorbing j es v [] c' pc := by
  cases c with
  | finalizeNode c fork' =>
    cases hs
    exact .tx1 rfl
  | sweepJoinRederive batch => cases hs
  | drainOutbox batch => cases hs

lemma Session.absorbing_afterCommit {x : Session} (h : x.afterCommit = some (x', new))
    (hs : x' = some (.finalize c fork pc)) (v : Option JobRow) : Absorbing j es v [] c pc := by
  rcases Session.afterCommit_cases h with ⟨c', fork', -, rfl, -⟩ | ⟨-, -, -, -, rfl, -⟩ | ⟨rfl, -⟩
  · cases hs
    exact .tx2Start
  · cases hs
  · cases hs

lemma Session.absorbing_restart {x : Session} (h : x.restart = some x')
    (hs : some x' = some (.finalize c fork pc)) (v : Option JobRow) : Absorbing j es v [] c pc := by
  cases x with
  | finalize c' fork' pc' =>
    cases h
    cases hs
    split
    · exact .tx2Start
    · exact .tx1 rfl
  | sweep batch pc' => cases h
  | drain batch pc' => cases h

lemma nodeClaim_failures {db : Snapshot} (h : nodeClaim db now job worker k = some r)
    (hr0 : db.jobs k = some r0) : r.metadata.failures = r0.metadata.failures := by
  obtain ⟨r1, hr1, -, rfl⟩ := update_some.mp h
  cases hr0.symm.trans hr1
  rfl

lemma sweepReclaim_failures {db : Snapshot} (h : sweepReclaim db now grace due job k = some r)
    (hr0 : db.jobs k = some r0) : r.metadata.failures = r0.metadata.failures := by
  obtain ⟨r1, hr1, -, rfl, -⟩ := sweepReclaim_row h
  cases hr0.symm.trans hr1
  rfl

lemma Collects.record_step (hC : Collects j es s) (hna : NotAdopted j s a)
    (h : s.step a = some s') (hu : s'.unfired j) :
    ∃ ps own, Posted j es ps s' ∧ Records j es ps own s' := by
  have hu0 := hC.bounded.unfired_step h hu
  obtain ⟨ps, own, hP, hR⟩ := hC.record hu0
  obtain ⟨b, hb⟩ := hC.row
  have hS := hC.sound
  cases moves_of_step h with
  | call hn =>
    refine ⟨ps, _, hP.kept hS h rfl, hR.release hS (hS.released_call hn _) hb ?_ (.inl ⟨rfl, rfl⟩)⟩
    exact fun c fork pc hs => Session.absorbing_start _ hs
  | @exec t x env e hx he ha =>
    have hP' := hP.kept hS h rfl
    by_cases hap : ∃ c fork item rows, x = .finalize c fork (.fanInAppend ((j, item) :: rows))
    · obtain ⟨c, fork, item, rows, hxa⟩ := hap
      exact ⟨ps, _, hP', hR.exec_append hS hb hx he ha hxa⟩
    refine ⟨ps, own, hP', ?_⟩
    refine hR.exec_other hS hx he ha hC.bounded hu0 hC.keyed (fun _ => hC.waits) ?_ ?_
    · exact fun c fork children hxa => hna c fork children (hxa ▸ hx)
    · exact fun c fork item rows hxa => hap ⟨c, fork, item, rows, hxa⟩
  | @commit t x x' new hx hc =>
    refine ⟨ps ++ own t, Function.update own t [], hP.commit hS hR hx hc, ?_⟩
    refine hR.release hS s.released_commit hb ?_ (.inr ⟨Slot.commit_base, rfl⟩)
    exact fun c fork pc hs => Session.absorbing_afterCommit hc hs
  | @deadlock t x x' hx hr =>
    refine ⟨ps, Function.update own t [], hP.kept hS h rfl, ?_⟩
    refine hR.release hS s.released_rollback hb ?_ (.inl ⟨Slot.rollback_base, rfl⟩)
    exact fun c fork pc hs => Session.absorbing_restart hr hs
  | @crash t x hx =>
    refine ⟨ps, Function.update own t [], hP.kept hS h rfl, ?_⟩
    exact hR.release hS s.released_rollback hb (fun _ _ _ hs => by cases hs)
      (.inl ⟨Slot.rollback_base, rfl⟩)
  | claim hc =>
    refine ⟨ps, own, hP.kept hS h ?_, ?_⟩
    · obtain ⟨-, -, rfl⟩ := autocommit_some hc
      rfl
    · exact hR.autocommit hS (keeps_nodeClaim _) hb (fun _ _ => nodeClaim_failures) hc
  | reclaim hr =>
    refine ⟨ps, own, hP.kept hS h ?_, ?_⟩
    · obtain ⟨-, -, rfl⟩ := autocommit_some hr
      rfl
    · exact hR.autocommit hS (keeps_sweepReclaim _) hb (fun _ _ => sweepReclaim_failures) hr

structure InOrder (j : JobId) (s : Sys) (a : Event) : Prop where
  edges : EdgesWritten j s a
  adopted : NotAdopted j s a
  recount : RecountSettled j s a
  failures : FailuresHeld j s a

lemma Collects.step (hC : Collects j es s) (ho : InOrder j s a) (h : s.step a = some s') :
    Collects j es s' where
  sound := hC.sound.step h
  keyed := hC.keyed
  bounded := hC.bounded.step hC.sound (hC.respects ho.edges ho.recount ho.failures) h
  row := by
    obtain ⟨b, hb⟩ := hC.row
    exact base_step h hb
  waits := hC.waits_step ho.adopted h
  record := hC.record_step ho.adopted h

def Sys.failedParents (s : Sys) (j : JobId) : List JobId :=
  ((s.edgesOf j).filter fun e => e.failurePolicy.absorbing &&
    (s.jobs e.parent).base.any fun p => p.status = .failed).map Edge.parent

lemma Sys.mem_failedParents {s : Sys} : p ∈ s.failedParents j ↔ s.FailedOn (s.edgesOf j) p := by
  simp only [failedParents, Sys.FailedOn, mem_map, mem_filter, Bool.and_eq_true,
    Option.any_eq_true, decide_eq_true_eq]
  constructor
  · rintro ⟨e, ⟨he, ha, b, hb, hs⟩, rfl⟩
    exact ⟨⟨e, he, rfl, ha⟩, b, hb, hs⟩
  · rintro ⟨⟨e, he, rfl, ha⟩, b, hb, hs⟩
    exact ⟨e, ⟨he, ha, b, hb, hs⟩, rfl⟩

lemma Records.accounts (hR : Records j es ps own s) (hP : Posted j es ps s) (hS : Sound s)
    (hk : (es.map Edge.parent).Nodup) (hw : s.edgesOf j = es)
    (hr : (s.jobs j).view t = some r) (hall : ∀ p, s.FailedOn es p → p ∈ ps ++ own t) :
    r.metadata.failures.Accounts j (s.failedParents j) := by
  refine ⟨ps ++ own t, ?_, hR.view hr⟩
  have hn : (s.failedParents j).Nodup := by
    refine List.Nodup.sublist (List.Sublist.map _ filter_sublist) ?_
    rw [hw]
    exact hk
  refine (perm_ext_iff_of_nodup (hP.nodup_append hS hR t) hn).mpr fun p => ?_
  rw [mem_failedParents, hw]
  refine ⟨fun hp => ?_, hall p⟩
  rcases mem_append.mp hp with hp | hp
  · exact (hP.failed hp).1
  · exact (hR.failedOn hS hp).1

lemma Collects.all_of_zero (hC : Collects j es s) (hP : Posted j es ps s)
    (hR : Records j es ps own s) (hu : s.unfired j) (hr : (s.jobs j).view t = some r)
    (h0 : r.depsPending = 0) (hf : s.FailedOn es p) : p ∈ ps ++ own t := by
  obtain ⟨⟨e, he, rfl, ha⟩, b, hb, hs⟩ := hf
  by_cases ho : collectDebt.owes s e
  · obtain ⟨c, fork, pc, hx, hp, h, hh, hj⟩ :=
      mem_discharged.mp ((hC.bounded.clear hu hr h0).2 e he ho)
    obtain ⟨b', hb', hs'⟩ := hC.sound.flight hx (FinalizePc.inTx2_of_hits hh)
    obtain rfl : b = b' := Option.some.inj (hb.symm.trans (hp ▸ hb'))
    have hown := (hR.session hx).hit hh hj ⟨hs'.symm.trans hs, e, he, hp, ha⟩
    rw [hown, hp]
    exact mem_append_right _ (mem_singleton_self _)
  · obtain ⟨b', hb', -, hn⟩ := Debt.done_of_not_owes ho
    cases hb.symm.trans hb'
    have hcnt : (e.parent, j) ∈ s.counted := by
      by_contra hc
      exact hn ⟨hs, ha, by rwa [hC.bounded.child_eq he]⟩
    obtain ⟨b', hb', -, hmem⟩ := hP.counted he ha hcnt
    cases hb.symm.trans hb'
    exact mem_append_left _ (hmem hs)

lemma Collects.accounts_of_fire (hC : Collects j es s) (hh : FailuresHeld j s (.exec t env))
    (hx : s.sessions t = some x) (he : execStmt env (s.snapshot t) s.fresh x = some e)
    (hf : f ∈ e.fires) (hj : f.joinJob = j) :
    ∃ r, (s.jobs j).view t = some r ∧ r.metadata.failures.Accounts j (s.failedParents j) := by
  obtain ⟨hcause, hg⟩ := (execStmt_spec he).fires hf
  subst hj
  have hu := hC.bounded.unfired_of_visible hg
  obtain ⟨ps, own, hP, hR⟩ := hC.record hu
  have hacc := fun {r} => hR.accounts (r := r) (t := t) hP hC.sound hC.keyed hC.bounded.wired
  cases hcause with
  | @zero r hr h0 =>
    exact ⟨r, hr, hacc hr fun p => hC.all_of_zero hP hR hu hr h0⟩
  | firable hs hl hfir =>
    subst hs
    obtain ⟨b, hb⟩ := hC.row
    obtain ⟨r, hr⟩ := Slot.exists_view hb t
    refine ⟨r, hr, hacc hr ?_⟩
    rintro p ⟨⟨e, he, rfl, ha⟩, b, hb, hs⟩
    simp only [FailuresHeld, hx] at hh
    have hcnt := hh hl hfir e (hC.bounded.wired ▸ he) ha b hb hs
    obtain ⟨b', hb', -, hmem⟩ := hP.counted he ha hcnt
    cases hb.symm.trans hb'
    exact mem_append_left _ (hmem hs)

structure WiredCollect (j : JobId) (s : Sys) : Prop extends Wired j s where
  keyed : ((s.edgesOf j).map Edge.parent).Nodup
  pending : (s.jobs j).base = some r → r.status = .pending ∧ r.metadata.failures = .items []
  clean : e ∈ s.edgesOf j → e.failurePolicy.absorbing = true → (s.jobs e.parent).base = some p →
    p.status ≠ .failed
  uncounted : (p, j) ∉ s.counted

lemma WiredCollect.collects (h : WiredCollect j s) : Collects j (s.edgesOf j) s := by
  have hB := h.bounded
  have hq := h.quiet
  have hsub : collectDebt.owed s (s.edgesOf j) ⊆ plainDebt.owed s (s.edgesOf j) := by
    intro p hp
    obtain ⟨e, he, ho, rfl⟩ := Debt.mem_owed.mp hp
    refine Debt.mem_owed.mpr ⟨e, he, ho.imp id fun ho p hp => .inl ?_, rfl⟩
    rcases ho p hp with ht | ⟨hf, ha, -⟩
    · exact ht
    · exact absurd hf (h.clean he ha hp)
  have hd : ∀ {t r}, (s.jobs j).draft ≠ some (t, r) := by
    intro t r hd
    rw [hq.jobs] at hd
    cases hd
  obtain ⟨b, hb, -⟩ := h.row
  refine ⟨.of_quiet hq h.listed, h.keyed, ?_, ⟨b, hb⟩, ?_, fun _ => ⟨[], fun _ => [], ?_, ?_⟩⟩
  · exact Bounded.of_quiet hq hB.present fun r hr =>
      (hB.base h.unfired hr).mono hsub le_rfl
  · rintro r (hr | ⟨t, hr⟩)
    · exact .inl (h.pending hr).1
    · exact absurd hr hd
  · exact ⟨nodup_nil, (fun hp => by cases hp), fun _ _ hc => absurd hc h.uncounted⟩
  · refine ⟨fun hr => ?_, fun hr => absurd hr hd, fun _ => rfl, fun hx => ?_, fun ho => absurd rfl ho⟩
    · rw [(h.pending hr).2]
      exact .nil
    · rw [hq.sessions] at hx
      cases hx

/-- Where the sweeps hold back, the record of `j` accounts for every absorbed failure when it fires.
-/
theorem failures_recorded (hw : WiredCollect j s0) (h : Reach Sys.step (InOrder j) s0 s)
    (ho : InOrder j s a) (hs : s.step a = some s') (hn : ¬ s.hasFire j) (hf : s'.hasFire j) :
    ∃ t env r, a = .exec t env ∧ (s.jobs j).view t = some r ∧
      r.metadata.failures.Accounts j (s.failedParents j) := by
  have hC : Collects j (s0.edgesOf j) s :=
    h.invariant hw.collects fun _ _ _ hI hok hs => hI.step hok hs
  rcases hasFire_step hs hf with hf0 | ⟨t, env, x, e, f, rfl, hx, he, hfm, hj⟩
  · exact absurd hf0 hn
  · obtain ⟨r, hr, hacc⟩ := hC.accounts_of_fire ho.failures hx he hfm hj
    exact ⟨t, env, r, rfl, hr, hacc⟩

def collecting : Sys :=
  .ofRows [rootRow, claimedRow "p" 1, joinRow 1]
    [{ child := 2, parent := 1, flow := 0, failurePolicy := .collect }]

lemma wiredCollect_collecting : WiredCollect 2 collecting where
  quiet := quiet_ofRows _ _
  listed := listed_ofRows _ _
  row := ⟨joinRow 1, rfl, by decide⟩
  unfired _ h := by cases h
  keyed := by decide
  pending hr := by
    cases hr
    exact ⟨rfl, rfl⟩
  clean he _ hp := by
    obtain rfl := mem_singleton.mp he
    cases hp
    decide
  uncounted h := by cases h

def failToFire : List Event :=
  [.call 1 (.finalizeNode { succeed 1 "p" 1 with outcome := failedOutcome } none),
    .exec 1 {}, .exec 1 {}, .commit 1, .exec 1 {}, .exec 1 {}, .exec 1 {}, .exec 1 {}, .exec 1 {}]

def crashToFire : List Event :=
  [.call 1 (.finalizeNode { succeed 1 "p" 1 with outcome := failedOutcome } none),
    .exec 1 {}, .exec 1 {}, .commit 1, .crash 1, .call 2 (.sweepJoinRederive 10), .exec 2 {}]

def Sys.noFire (s : Sys) : Bool := s.fires.isEmpty

lemma Sys.not_hasFire_of_noFire {s : Sys} (h : s.noFire = true) : ¬ s.hasFire j := by
  rintro ⟨sl, hm, -⟩
  rw [isEmpty_iff.mp h] at hm
  cases hm

lemma Sys.hasFire_of_drafted {s : Sys} (h : s.fires.any (fun sl => sl.draft.any fun d =>
    d.2.joinJob = j) = true) : s.hasFire j := by
  obtain ⟨sl, hm, hd⟩ := any_eq_true.mp h
  obtain ⟨⟨t, f⟩, hd, hj⟩ := (Option.any_eq_true ..).mp hd
  exact ⟨sl, hm, f, .inr ⟨t, hd⟩, of_decide_eq_true hj⟩

def unswept (s : Sys) : Event → Bool
  | .exec t _ =>
    match s.sessions t with
    | some (.finalize _ _ (.joinAdopt _ _)) | some (.sweep _ _) => false
    | _ => true
  | _ => true

lemma InOrder.of_check (h : (edgesWritten j s a && unswept s a) = true) : InOrder j s a := by
  rw [Bool.and_eq_true] at h
  cases a with
  | exec t env =>
    obtain ⟨he, hs⟩ := h
    have hsweep : ∀ {batch pc}, s.sessions t ≠ some (.sweep batch pc) := by
      intro batch pc hx
      simp [unswept, hx] at hs
    refine ⟨.of_check he, ?_, fun batch r hx => absurd hx hsweep, ?_⟩
    · intro c fork children hx
      simp [unswept, hx] at hs
    unfold FailuresHeld
    dsimp only
    split
    · rename_i hx
      exact absurd hx hsweep
    · rename_i hx
      exact absurd hx hsweep
    · trivial
  | call | commit | deadlock | crash | claim | reclaim =>
    exact ⟨trivial, trivial, trivial, trivial⟩

theorem failures_recorded_collecting : ∃ t env r, Event.exec 1 {} = .exec t env ∧
    ((final Sys.step collecting failToFire).jobs 2).view t = some r ∧
      r.metadata.failures.Accounts 2 ((final Sys.step collecting failToFire).failedParents 2) := by
  refine failures_recorded wiredCollect_collecting ?_ (.of_check (by decide))
    (step_final (by decide)) (not_hasFire_of_noFire (by decide)) ?_
  · exact .of_exec (exec_final (by decide)) (.of_checks
      (fun s a => edgesWritten 2 s a && unswept s a) (by decide) fun _ _ => InOrder.of_check)
  · exact hasFire_of_drafted (by decide)

/-- Job 1 failed on a collect edge and its tx2 never ran: the join fires with an empty record. -/
theorem failures_lost_to_sweep : WiredCollect 2 collecting ∧
    ∃ s s', Reach Sys.step (EdgesWritten 2) collecting s ∧ s.step (.exec 2 {}) = some s' ∧
      ¬ s.hasFire 2 ∧ s'.hasFire 2 ∧ s.failedParents 2 = [1] ∧ ∃ r, (s.jobs 2).view 2 = some r ∧
        ¬ r.metadata.failures.Accounts 2 (s.failedParents 2) := by
  have hfp : (final step collecting crashToFire).failedParents 2 = [1] := by decide
  refine ⟨wiredCollect_collecting, final step collecting crashToFire,
    final step (final step collecting crashToFire) [.exec 2 {}], ?_, step_final (by decide),
    not_hasFire_of_noFire (by decide), hasFire_of_drafted (by decide), hfp, ?_⟩
  · exact .of_exec (exec_final (by decide))
      (.of_checks (edgesWritten 2) (by decide) fun _ _ => EdgesWritten.of_check)
  obtain ⟨r, hr, hf⟩ := Option.map_eq_some_iff.mp (show (((final step collecting
    crashToFire).jobs 2).view 2).map (fun r => r.metadata.failures) = some (.items []) by decide)
  refine ⟨r, hr, ?_⟩
  rintro ⟨qs, hp, hl⟩
  rw [hf] at hl
  have hlen := hp.length_eq
  rw [forall₂_nil_right_iff.mp hl] at hlen
  cases hlen

end TaskQ
