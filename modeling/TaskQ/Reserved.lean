import TaskQ.Create
import TaskQ.PrematureFire

namespace TaskQ
open RowLocks Countdown Runs List

def NoOrphan (r0 r : JobRow) : Prop :=
  r.metadata.blockingReason = some .orphanParent → r0.metadata.blockingReason = some .orphanParent

variable {db : Snapshot}

lemma failClosedCascade_noOrphan (h : failClosedCascade db c k = some r) :
    ∃ r0, db.jobs k = some r0 ∧ NoOrphan r0 r := by
  obtain ⟨r0, hr0, -, rfl⟩ := update_some.mp h
  refine ⟨r0, hr0, fun ho => ?_⟩
  split at ho
  · cases ho
  · split at ho <;> exact ho

lemma rederiveSweep_orphan (h : rederiveSweep db now batch k = some r) :
    ∃ r0, db.jobs k = some r0 ∧ (NoOrphan r0 r ∨
      k ∈ rederiveLocked db now batch ∧ orphaned db k = true) := by
  rw [rederiveSweep, rederiveArms] at h
  obtain ⟨r0, hr0, -, rfl⟩ := update_some.mp h
  refine ⟨r0, hr0, ?_⟩
  by_cases ho : (decide (k ∈ rederiveLocked db now batch) && orphaned db k) = true
  · rw [Bool.and_eq_true, decide_eq_true_eq] at ho
    exact .inr ho
  refine .inl fun hr => ?_
  rw [if_neg ho] at hr
  split at hr
  · cases hr
  split at hr
  · split at hr <;> cases hr
  · split at hr <;> exact hr

lemma workflowRootMaintain_noOrphan (h : workflowRootMaintain db batch k = some r) :
    ∃ r0, db.jobs k = some r0 ∧ NoOrphan r0 r := by
  obtain ⟨r0, hr0, -, rfl⟩ := update_some.mp h
  refine ⟨r0, hr0, fun ho => ?_⟩
  split at ho <;> exact ho

lemma execStmt_orphan (h : execStmt env db fresh x = some e) (hk : e.jobs k = some r)
    (hr : r.metadata.blockingReason = some .orphanParent) :
    (∃ r0, db.jobs k = some r0 ∧ r0.metadata.blockingReason = some .orphanParent) ∨
      ∃ batch, x = .sweep batch .rederive ∧ k ∈ rederiveLocked db env.now batch ∧
        orphaned db k = true := by
  have hold : ∀ {r0}, db.jobs k = some r0 → NoOrphan r0 r →
      ∃ r0, db.jobs k = some r0 ∧ r0.metadata.blockingReason = some .orphanParent :=
    fun hr0 hn => ⟨_, hr0, hn hr⟩
  cases execStmt_wrote h hk with
  | mark hw | adopt hw | fanIn hw | body hw =>
    obtain ⟨r0, hr0, -, rfl⟩ := update_some.mp hw
    first | exact .inl (hold hr0 id) | cases hr
  | decrement hw =>
    obtain ⟨r0, hr0, -, rfl⟩ := update_some.mp hw
    exact .inl (hold hr0 id)
  | forkChild | forkJoin | consumer => cases hr
  | cascade hw =>
    obtain ⟨r0, hr0, hn⟩ := failClosedCascade_noOrphan hw
    exact .inl (hold hr0 hn)
  | rederive hw =>
    obtain ⟨r0, hr0, hn | ho⟩ := rederiveSweep_orphan hw
    · exact .inl (hold hr0 hn)
    · exact .inr ⟨_, rfl, ho⟩
  | sweepFire hw => exact .inl (hold (sweepFireLocks_row hw) id)
  | rootMaintain hw =>
    obtain ⟨r0, hr0, hn⟩ := workflowRootMaintain_noOrphan hw
    exact .inl (hold hr0 hn)

def SweepPc.locks (db : Snapshot) (now : Time) (batch : Nat) : SweepPc → List JobId
  | .rederive => rederiveLocked db now batch
  | .sweepFire _ => sweepFireLocked db now batch
  | _ => []

/-- The row is stamped for its dead flow. -/
def Fenced (k : JobId) (db : Snapshot) (now : Time) (batch : Nat) : Prop :=
  ∀ r, db.jobs k = some r → flowFenced db (rederiveLocked db now batch) k r = true

/-- A sweep that takes `k` into its batch finds a failed fail-closed parent of it, or its dead flow
first. -/
def SweptOnlyFailed (k : JobId) (s : Sys) : Event → Prop
  | .exec t env => ∀ batch pc, s.sessions t = some (.sweep batch pc) →
      k ∈ pc.locks (s.snapshot t) env.now batch → requiredFailed (s.snapshot t) k = true ∨
        pc = .rederive ∧ Fenced k (s.snapshot t) env.now batch
  | _ => True

lemma Fenced.not_orphaned (h : Fenced k db now batch) (hl : k ∈ rederiveLocked db now batch) :
    orphaned db k = false := by
  obtain ⟨-, r, hr, -⟩ := mem_lockBatch hl
  have hf := h r hr
  simp only [flowFenced, hl, decide_true, Bool.true_and, Bool.and_eq_true, Bool.not_eq_true',
    Bool.or_eq_false_iff] at hf
  exact hf.2.1

lemma counts_of_requiredFailed (h : requiredFailed db k = true) :
    0 < (counts db k).failedRequired ∧ orphaned db k = false := by
  simp only [requiredFailed, Bool.and_eq_true, decide_eq_true_eq] at h
  obtain ⟨⟨hf, hm⟩, he⟩ := h
  refine ⟨hf, ?_⟩
  simp only [orphaned, hm, Nat.lt_irrefl, decide_false, Bool.false_or, decide_eq_false_iff_not]
  omega

structure Reserved (k : JobId) (es : List Edge) (s : Sys) : Prop where
  sound : Sound s
  bounded : Bounded plainDebt 1 k es s
  unfired : ¬ s.hasFire k
  reason : s.version k r → r.metadata.blockingReason ≠ some .orphanParent

lemma SweptOnlyFailed.respects (hs : SweptOnlyFailed k s a) (he : EdgesWritten k s a) :
    Respects plainDebt 1 k es s a where
  edges ha hx h := by
    subst ha
    exact he _ _ hx h
  recount := by
    intro t env batch r ha hx hr hrec
    subst ha
    obtain ⟨hl, -, hf⟩ := counts_of_reconciles hrec
    rcases hs batch .rederive hx hl with hreq | ⟨-, hfenced⟩
    · have hpos := (counts_of_requiredFailed hreq).1
      omega
    · simp [reconciles, hfenced r hr] at hrec
  commit _ _ _ _ _ _ := id

lemma Reserved.not_hasFire (hR : Reserved k es s) (ho : SweptOnlyFailed k s a)
    (hs : s.step a = some s') : ¬ s'.hasFire k := by
  intro hf
  rcases Sys.hasFire_step hs hf with hf0 | ⟨t, env, x, e, f, rfl, hx, hex, hfm, rfl⟩
  · exact hR.unfired hf0
  obtain ⟨hc, hg⟩ := (execStmt_spec hex).fires hfm
  cases hc with
  | zero hr h0 =>
    have hρ := (hR.bounded.clear (hR.bounded.unfired_of_visible hg) hr h0).1
    cases hρ
  | @firable batch n hx' hl hfir =>
    subst hx'
    have hpos := (counts_of_requiredFailed ((ho batch (.sweepFire n) hx hl).resolve_right nofun)).1
    simp only [firable, Bool.and_eq_true, decide_eq_true_eq] at hfir
    omega

lemma Reserved.reason_step (hR : Reserved k es s) (ho : SweptOnlyFailed k s a)
    (hs : s.step a = some s') (hr : s'.version k r) :
    r.metadata.blockingReason ≠ some .orphanParent := by
  intro hor
  rcases Sys.version_step hs hr with hv | ⟨t, env, x, e, rfl, hx, hex, hk⟩ |
    ⟨t, job, worker, now, rfl, hk⟩ | ⟨t, job, now, grace, due, rfl, hk⟩
  · exact hR.reason hv hor
  · rcases execStmt_orphan hex hk hor with ⟨r0, hr0, hor0⟩ | ⟨batch, rfl, hl, horph⟩
    · exact hR.reason (Sys.version_of_view hr0) hor0
    · have hnot : orphaned (s.snapshot t) k = false := by
        rcases ho batch .rederive hx hl with hreq | ⟨-, hfenced⟩
        · exact (counts_of_requiredFailed hreq).2
        · exact hfenced.not_orphaned hl
      rw [hnot] at horph
      cases horph
  · obtain ⟨r0, hr0, -, rfl⟩ := update_some.mp hk
    exact hR.reason (Sys.version_of_view hr0) hor
  · obtain ⟨r0, hr0, -, rfl, -⟩ := sweepReclaim_row hk
    exact hR.reason (Sys.version_of_view hr0) hor

lemma Reserved.step (hR : Reserved k es s) (he : EdgesWritten k s a)
    (ho : SweptOnlyFailed k s a) (hs : s.step a = some s') : Reserved k es s' :=
  ⟨hR.sound.step hs, hR.bounded.step hR.sound (ho.respects he) hs, hR.not_hasFire ho hs,
    hR.reason_step ho hs⟩

structure Sys.Linked (s : Sys) : Prop where
  edges : e ∈ committed s.edges → e.child ∈ s.ids
  fires : f ∈ committed s.fires → f.joinJob ∈ s.ids

variable {s s0 : Sys}

lemma Sys.Quiet.created (h : s.Quiet) (w : Wiring) : (s.created w).Quiet where
  sessions := h.sessions
  jobs {k} := by
    cases hd : ((s.created w).jobs k).draft with
    | none => rfl
    | some d =>
      have hd' := (store_draft_some hd).2
      rw [h.jobs] at hd'
      cases hd'
  edges hm := by
    rcases mem_append.mp hm with hm | hm
    · exact h.edges hm
    · obtain ⟨e, -, rfl⟩ := mem_map.mp hm
      rfl
  fires := h.fires

lemma Sys.Listed.created (h : s.Listed)
    (hw : insertStaticNodes g s.fresh input p = some w) : (s.created w).Listed where
  absent {k} hk := by
    have hk' := fun hm => hk (mem_append.mpr hm)
    cases hr : insertJobs w.rows k with
    | none =>
      exact (congrArg Slot.base (store_of_none hr)).trans (h.absent fun hm => hk' (.inl hm))
    | some r =>
      exact absurd (.inr (mem_map_of_mem (f := Prod.fst) (insertJobs_some hr))) hk'
  below k hk := by
    show k < s.fresh + w.rows.length
    rcases mem_append.mp hk with hk | hk
    · have hlt := h.below k hk
      omega
    · exact (insertStaticNodes_id hw hk).2
  nodup := by
    refine nodup_append.mpr ⟨h.nodup, nodup_insertStaticNodes hw, ?_⟩
    intro k (hk : k ∈ s.ids) k' hk' heq
    subst heq
    have hlt := h.below k hk
    have hge := (insertStaticNodes_id hw hk').1
    omega

lemma Reserved.created (hq : s.Quiet) (hl : s.Listed) (hlink : s.Linked)
    (hw : insertStaticNodes g s.fresh input p = some w) (hs : w.Surplus k 1) :
    Reserved k ((s.created w).edgesOf k) (s.created w) := by
  obtain ⟨r, hr, hd, hb⟩ := hs
  have hkm := mem_map_of_mem (f := Prod.fst) (insertJobs_some hr)
  have hnew : ∀ {k' : Nat}, k' ∈ s.ids → k' ≠ k := by
    intro k' hk' he
    have h1 := hl.below k' hk'
    have h2 := (insertStaticNodes_id hw hkm).1
    omega
  have hbase : ((s.created w).jobs k).base = some r := congrArg Slot.base (store_of_some hr)
  have hedges : ((s.created w).edgesOf k).length = w.edges.countP fun e => e.child = k := by
    have hold : (committed s.edges).filter (fun e => e.child = k) = [] := by
      rw [filter_eq_nil_iff]
      intro e he hk
      exact hnew (hlink.edges he) (of_decide_eq_true hk)
    have hcomm : (s.created w).edgesOf k =
        (committed s.edges ++ w.edges).filter fun e => e.child = k :=
      congrArg (filter _) committed_append_base
    rw [hcomm, filter_append, hold, nil_append, countP_eq_length_filter]
  refine ⟨.of_quiet (hq.created w) (hl.created hw), ?_, ?_, ?_⟩
  · refine Bounded.of_quiet (hq.created w) (mem_append_right _ hkm) fun r' hr' => ?_
    cases hbase.symm.trans hr'
    have hcard := Debt.owed_card_le (D := plainDebt) (s := s.created w) (q := fun _ => true)
      fun e (_ : e ∈ (s.created w).edgesOf k) _ => rfl
    rw [countP_true, hedges] at hcard
    rw [Covers]
    omega
  · exact (hq.created w).not_hasFire fun f hf => hnew (hlink.fires hf)
  · intro r' hv
    rcases hv with hv | ⟨t, hv⟩
    · rwa [← Option.some.inj (hbase.symm.trans hv)]
    · rw [(hq.created w).jobs] at hv
      cases hv

/-- Before the fork a static consumer of a map join stays closed, if swept only over a failed parent
or in a dead flow. -/
theorem reserved_holds {s0 : Sys} (hq : s0.Quiet) (hl : s0.Listed) (hlink : s0.Linked)
    (hw : insertStaticNodes g s0.fresh input p = some w)
    (hn : (key, n) ∈ g.nodes) (hkind : n.kind ≠ .mapJoin) (hm : parentKey ∈ n.parents)
    (hj : (g.node parentKey).any (fun p => p.kind = .mapJoin) = true)
    (hk : w.nodeByStepKey key = some k)
    (h : Reach Sys.step (fun s a => EdgesWritten k s a ∧ SweptOnlyFailed k s a)
      (s0.created w) s) : ¬ s.hasFire k ∧ ∀ t r, (s.jobs k).view t = some r →
      0 < r.depsPending ∧ r.metadata.blockingReason ≠ some .orphanParent ∧
        ∀ now, claimable (s.snapshot t) now r = false := by
  have hR : Reserved k ((s0.created w).edgesOf k) s :=
    h.invariant (.created hq hl hlink hw (insertStaticNodes_reserves hw hn hkind hm hj hk))
      fun _ _ _ hI hok hs => hI.step hok.1 hok.2 hs
  refine ⟨hR.unfired, fun t r hr => ?_⟩
  have hu : s.unfired k := by
    by_contra hu
    exact hR.unfired (Sys.hasFire_of_fired hu)
  have hpos := (hR.bounded.view hu hr).pos Nat.one_pos
  refine ⟨hpos, hR.reason (Sys.version_of_view hr), fun now => ?_⟩
  simp [claimable, Nat.ne_of_gt hpos]

def mapAndStep : CompiledFlow where
  nodes :=
    [("a", { actor := "a", queue := "default" }),
      ("m", { actor := "m", queue := "default", kind := .mapSource }),
      ("m.join", { actor := "m", queue := "default", parents := ["m"], kind := .mapJoin }),
      ("use", { actor := "use", queue := "default", parents := ["a", "m.join"] })]
  keyed := by decide
  joinKey h hk := by
    simp only [List.mem_cons, Prod.mk.injEq, List.not_mem_nil, or_false] at h
    rcases h with ⟨rfl, rfl⟩ | ⟨rfl, rfl⟩ | ⟨rfl, rfl⟩ | ⟨rfl, rfl⟩
    · cases hk
    · cases hk
    · exact ⟨"m", rfl⟩
    · cases hk

def mapAndStepWiring : Wiring :=
  (insertStaticNodes mapAndStep 0 "" none).getD ⟨[], []⟩

lemma insertStaticNodes_mapAndStep :
    insertStaticNodes mapAndStep (Sys.ofRows [] []).fresh "" none = some mapAndStepWiring := by
  rfl

def mapAndStepRun : Sys := (Sys.ofRows [] []).created mapAndStepWiring

def sweepBeforeFork : List Event :=
  [.claim 1 1 7 0,
    .call 1 (.finalizeNode (succeed 1 "a" 7) none), .exec 1 {}, .exec 1 {}, .commit 1,
    .exec 1 {}, .exec 1 {}, .commit 1,
    .call 2 (.sweepJoinRederive 10), .exec 2 {}, .exec 2 {}, .exec 2 {}, .exec 2 {}, .exec 2 {},
    .exec 2 {}, .commit 2]

/-- The sweep counts only the edge from `a`: `use` fires and is claimable before the fork of `m`. -/
theorem reserved_fires_before_fork : mapAndStepWiring.nodeByStepKey "use" = some 3 ∧
    ∃ s, Reach Sys.step (EdgesWritten 3) mapAndStepRun s ∧ s.hasFire 3 ∧
      ∃ r, (s.jobs 3).base = some r ∧ r.depsPending = 0 ∧ claimable (s.snapshot 9) 0 r = true := by
  refine ⟨by decide, final Sys.step mapAndStepRun sweepBeforeFork, ?_, ?_, ?_⟩
  · exact .of_exec (exec_final (by decide))
      (.of_checks (edgesWritten 3) (by decide) fun _ _ => EdgesWritten.of_check)
  · exact Sys.hasFire_of_any (by decide)
  have hc : ((final Sys.step mapAndStepRun sweepBeforeFork).jobs 3).base.any (fun r =>
      r.depsPending = 0 && claimable ((final Sys.step mapAndStepRun sweepBeforeFork).snapshot 9)
        0 r) = true := by decide
  obtain ⟨r, hr, hc⟩ := (Option.any_eq_true ..).mp hc
  rw [Bool.and_eq_true, decide_eq_true_eq] at hc
  exact ⟨r, hr, hc⟩

def sweptOnlyFailed (k : JobId) (s : Sys) : Event → Bool
  | .exec t env =>
    match s.sessions t with
    | some (.sweep batch pc) => !(k ∈ pc.locks (s.snapshot t) env.now batch) ||
        requiredFailed (s.snapshot t) k
    | _ => true
  | _ => true

lemma SweptOnlyFailed.of_check (h : sweptOnlyFailed k s a = true) : SweptOnlyFailed k s a := by
  cases a with
  | exec t env =>
    intro batch pc hx hl
    exact .inl (by simpa [sweptOnlyFailed, hx, hl] using h)
  | call | commit | deadlock | crash | claim | reclaim => trivial

def failBeforeFork : List Event :=
  [.claim 1 1 7 0, .call 1 (.finalizeNode { succeed 1 "a" 7 with outcome := failedOutcome } none),
    .exec 1 {}, .exec 1 {}, .commit 1, .crash 1,
    .call 2 (.sweepJoinRederive 10), .exec 2 {}, .exec 2 {}, .commit 2]

theorem reserved_holds_failBeforeFork : ¬ (final Sys.step mapAndStepRun failBeforeFork).hasFire 3 ∧
    ∀ t r, ((final Sys.step mapAndStepRun failBeforeFork).jobs 3).view t = some r →
      0 < r.depsPending ∧ r.metadata.blockingReason ≠ some .orphanParent ∧
        ∀ now, claimable ((final Sys.step mapAndStepRun failBeforeFork).snapshot t) now r =
          false := by
  refine reserved_holds (Sys.quiet_ofRows [] []) (Sys.listed_ofRows [] []) ⟨nofun, nofun⟩
    insertStaticNodes_mapAndStep
    (mem_cons_of_mem _ (mem_cons_of_mem _ (mem_cons_of_mem _ mem_cons_self)))
    (by decide) (show "m.join" ∈ _ by decide) (by decide) (by decide) ?_
  refine .of_exec (exec_final (by decide)) (.of_checks
    (fun s a => edgesWritten 3 s a && sweptOnlyFailed 3 s a) (by decide) fun s a h => ?_)
  rw [Bool.and_eq_true] at h
  exact ⟨.of_check h.1, .of_check h.2⟩

end TaskQ
