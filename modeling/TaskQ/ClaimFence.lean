import TaskQ.Arbiter
import TaskQ.Release

namespace TaskQ
open Runs RowLocks Option Sys Nat

def Raises (db : Snapshot) (w : Writes) : Prop :=
  ∀ k r, w k = some r → ∃ r0, db.jobs k = some r0 ∧ r0.attempt ≤ r.attempt

lemma raises_nodeClaim (db : Snapshot) : Raises db (nodeClaim db now job worker) := by
  intro k r h
  obtain ⟨r0, hr0, -, rfl⟩ := update_some.mp h
  exact ⟨r0, hr0, le_succ _⟩

lemma raises_sweepReclaim (db : Snapshot) : Raises db (sweepReclaim db now grace due job) := by
  intro k r h
  obtain ⟨r0, hr0, -, rfl, -⟩ := sweepReclaim_row h
  exact ⟨r0, hr0, le_rfl⟩

lemma Sys.versions_step (hS : Sound s) (h : s.step a = some s') (hk : k ∈ s.ids)
    (hr : (s'.jobs k).holds r) : ∃ r0, (s.jobs k).holds r0 ∧ r0.attempt ≤ r.attempt := by
  have hauto : ∀ {t w}, Raises (s.snapshot t) w → s.autocommit t w = some s' →
      ∃ r0, (s.jobs k).holds r0 ∧ r0.attempt ≤ r.attempt := by
    intro t w hw hs
    obtain ⟨-, -, rfl⟩ := autocommit_some hs
    rcases holds_store hr with hr | hk
    · exact ⟨r, hr, le_rfl⟩
    · obtain ⟨r0, hr0, hi⟩ := hw k r hk
      exact ⟨r0, Slot.holds_of_view hr0, hi⟩
  cases moves_of_step h with
  | call hn => exact ⟨r, hr, le_rfl⟩
  | exec hx he ha =>
    rcases holds_apply he hr with ⟨r0, hr0, hc⟩ | ⟨hb, -⟩
    · exact ⟨r0, hr0, le_of_eq hc.attempt.symm⟩
    · have hnew := ((execStmt_spec he).born k hb).1
      exact absurd (hS.below k hk) (not_lt.mpr hnew)
  | commit hx hc => exact ⟨r, Slot.holds_of_commit hr, le_rfl⟩
  | deadlock | crash => exact ⟨r, Slot.holds_of_rollback hr, le_rfl⟩
  | claim hc => exact hauto (raises_nodeClaim _) hc
  | reclaim hc => exact hauto (raises_sweepReclaim _) hc

lemma Sys.mem_ids_step {s : Sys} (h : s.step a = some s') (hk : k ∈ s.ids) : k ∈ s'.ids := by
  cases moves_of_step h with
  | call | commit | deadlock | crash => exact hk
  | exec => exact List.mem_append_left _ hk
  | claim hc | reclaim hc =>
    obtain ⟨-, -, rfl⟩ := autocommit_some hc
    exact hk

structure Ticketed (s : Floor) : Prop where
  sound : Sound s.sys
  known : c ∈ s.granted → c.job ∈ s.sys.ids
  bound : c ∈ s.granted → (s.sys.jobs c.job).holds r → c.attempt ≤ r.attempt
  order : s.granted.Pairwise fun c c' => c.job = c'.job → c'.attempt < c.attempt

lemma Ticketed.mono (hT : Ticketed s) (hS : Sound s'.sys) (hg : s'.granted = s.granted)
    (hids : ∀ k ∈ s.sys.ids, k ∈ s'.sys.ids) (hv : ∀ k r, k ∈ s.sys.ids → (s'.sys.jobs k).holds r →
      ∃ r0, (s.sys.jobs k).holds r0 ∧ r0.attempt ≤ r.attempt) : Ticketed s' where
  sound := hS
  known hc := hids _ (hT.known (hg ▸ hc))
  bound hc hr := by
    rw [hg] at hc
    obtain ⟨r0, hr0, hle⟩ := hv _ _ (hT.known hc) hr
    exact (hT.bound hc hr0).trans hle
  order := hg ▸ hT.order

lemma Ticketed.grant (hT : Ticketed s) (hk : c.job ∈ s.sys.ids)
    (hb : ∀ r, (s.sys.jobs c.job).holds r → c.attempt ≤ r.attempt)
    (hlt : ∀ c' ∈ s.granted, c.job = c'.job → c'.attempt < c.attempt) :
    Ticketed { s with granted := c :: s.granted } where
  sound := hT.sound
  known hc := by
    rcases List.mem_cons.mp hc with rfl | hc
    · exact hk
    · exact hT.known hc
  bound hc hr := by
    rcases List.mem_cons.mp hc with rfl | hc
    · exact hb _ hr
    · exact hT.bound hc hr
  order := List.pairwise_cons.mpr ⟨hlt, hT.order⟩

lemma Ticketed.autocommit (hT : Ticketed s) (hk : Keeps (s.sys.snapshot t) w)
    (hw : Raises (s.sys.snapshot t) w) (h : s.sys.autocommit t w = some sys) (signals late) :
    Ticketed ⟨sys, signals, late, s.granted⟩ := by
  have hS := hT.sound.autocommit (hk.spares hT.sound (autocommit_some h).1) h
  obtain ⟨-, -, rfl⟩ := autocommit_some h
  refine hT.mono hS rfl (fun _ hk => hk) fun k r _ hr => ?_
  rcases holds_store hr with hr | hwk
  · exact ⟨r, hr, le_rfl⟩
  · obtain ⟨r0, hr0, hle⟩ := hw k r hwk
    exact ⟨r0, Slot.holds_of_view hr0, hle⟩

lemma Ticketed.engine (hT : Ticketed s) (h : s.sys.step a = some sys) (signals late) :
    Ticketed ⟨sys, signals, late, s.granted⟩ :=
  hT.mono (hT.sound.step h) rfl (fun _ => mem_ids_step h)
    fun _ _ hk hr => versions_step hT.sound h hk hr

lemma Sys.grants_eq_some {s : Sys} (h : s.grants a = some c) : ∃ t now r,
    a = .claim t c.job c.worker now ∧ nodeClaim (s.snapshot t) now c.job c.worker c.job = some r ∧
      r.attempt = c.attempt := by
  cases a with
  | claim t job worker now =>
    obtain ⟨r, hr, rfl⟩ := map_eq_some_iff.mp h
    exact ⟨t, now, r, rfl, hr, rfl⟩
  | call | exec | commit | deadlock | crash | reclaim => cases h

lemma Ticketed.claimed (hT : Ticketed s) (h : s.sys.step a = some sys)
    (hg : s.sys.grants a = some c) : Ticketed ⟨sys, s.signals, s.late, c :: s.granted⟩ := by
  have hT' := hT.engine h s.signals s.late
  obtain ⟨t, now, r, rfl, hr, hatt⟩ := grants_eq_some hg
  obtain ⟨r0, hr0, -, hrow⟩ := update_some.mp hr
  have hraise : r0.attempt < c.attempt := by
    rw [← hatt, ← hrow]
    exact lt_succ_self _
  have hheld := Slot.holds_of_view hr0
  refine hT'.grant (mem_ids_step h (hT.sound.mem_ids hr0)) (fun r' hr' => ?_) ?_
  · obtain ⟨-, -, rfl⟩ := autocommit_some h
    rw [store_jobs, store_of_some hr] at hr'
    rcases hr' with hb | ⟨u, hd⟩
    · rw [← some.inj hb, hatt]
    · cases hd
  · intro c' hc' hjob
    have hle := hT.bound hc' (hjob ▸ hheld)
    exact lt_of_le_of_lt hle hraise

lemma Sys.record_eq_some {s : Sys} (h : s.record t f = some s') :
    s' = { s with ledger := (rewrite t f s.ledger).map (Slot.commit t) } := by
  simp only [record, ite_none_right_eq_some, some.injEq] at h
  exact h.2.symm

lemma Ticketed.record (hT : Ticketed s) (h : s.sys.record t f = some sys) (signals late) :
    Ticketed ⟨sys, signals, late, s.granted⟩ := by
  obtain rfl := record_eq_some h
  have hS := hT.sound
  exact hT.mono ⟨hS.absent, hS.below, hS.nodup, hS.owner, hS.settled, hS.flight, hS.marked,
    hS.single, hS.sweeping, hS.hits⟩ rfl (fun _ hk => hk) fun _ r _ hr => ⟨r, hr, le_rfl⟩

structure ReleaseWrite (db : Snapshot) (job : JobId) (w : Writes) : Prop where
  row : w k = some r → ∃ r0, db.jobs k = some r0 ∧ k = job ∧ r0.status = .running ∧
    r.attempt = r0.attempt ∧ r.depsPending = r0.depsPending

lemma ReleaseWrite.keeps (h : ReleaseWrite db job w) : Keeps db w := by
  intro k r hw
  obtain ⟨r0, hr0, -, hs, -, hd⟩ := h.row hw
  exact ⟨r0, hr0, by rw [hs]; rfl, hd⟩

lemma ReleaseWrite.raises (h : ReleaseWrite db job w) : Raises db w := by
  intro k r hw
  obtain ⟨r0, hr0, -, -, ha, -⟩ := h.row hw
  exact ⟨r0, hr0, le_of_eq ha.symm⟩

lemma releaseWrite_nodeRepend (db : Snapshot) :
    ReleaseWrite db job (nodeRepend db now job backoff) := ⟨nodeRepend_row⟩

lemma releaseWrite_holdNode (db : Snapshot) : ReleaseWrite db job (holdNode db job hold deadline) :=
  ⟨holdNode_row⟩

lemma Ticketed.runLate (hT : Ticketed s) (h : s.runLate t now l pc = some (s', next)) (late) :
    Ticketed { s' with late } := by
  have hrelease : ∀ {w sys signals}, ReleaseWrite (s.sys.snapshot t) l.claim.job w →
      s.sys.autocommit t w = some sys → Ticketed ⟨sys, signals, late, s.granted⟩ :=
    fun hw hs => hT.autocommit hw.keeps hw.raises hs _ _
  cases pc with
  | ladderCount terms deterministic =>
    cases h
    exact ⟨hT.sound, hT.known, hT.bound, hT.order⟩
  | ladderRecord | reclaimRecord =>
    obtain ⟨sys, hs, he⟩ := map_eq_some_iff.mp h
    cases he
    exact hT.record hs _ _
  | ladderRepend | reclaimRepend =>
    obtain ⟨sys, hs, he⟩ := map_eq_some_iff.mp h
    cases he
    exact hrelease (releaseWrite_nodeRepend _) hs
  | ladderFinalize =>
    obtain ⟨sys, hs, he⟩ := map_eq_some_iff.mp h
    cases he
    exact hT.engine hs _ _
  | registerHold hold row =>
    obtain ⟨signals, -, h⟩ := bind_eq_some_iff.mp h
    obtain ⟨sys, hs, he⟩ := map_eq_some_iff.mp h
    cases he
    exact hrelease (releaseWrite_holdNode _) hs

lemma Ticketed.step (hT : Ticketed s) (h : s.step a = some s') : Ticketed s' := by
  cases a with
  | engine a =>
    obtain ⟨sys, hs, rfl⟩ := map_eq_some_iff.mp h
    cases hg : s.sys.grants a with
    | none => exact hT.engine hs _ _
    | some c => exact hT.claimed hs hg
  | cancelRun t now flow reason =>
    obtain ⟨sys, hs, rfl⟩ := map_eq_some_iff.mp h
    refine hT.autocommit (fun k r hw => ?_) (fun k r hw => ?_) hs _ _
    · obtain ⟨r0, hr0, ht, -, hd, -⟩ := cancelOneRun_row hw
      exact ⟨r0, hr0, ht, hd⟩
    · obtain ⟨r0, hr0, -, ha, -⟩ := cancelOneRun_row hw
      exact ⟨r0, hr0, le_of_eq ha.symm⟩
  | cancelRunning t job =>
    obtain ⟨sys, hs, rfl⟩ := map_eq_some_iff.mp h
    refine hT.autocommit (fun k r hw => ?_) (fun k r hw => ?_) hs _ _
    · obtain ⟨r0, hr0, hr, -, hd⟩ := cancelRunning_row hw
      exact ⟨r0, hr0, by rw [hr]; rfl, hd⟩
    · obtain ⟨r0, hr0, -, ha, -⟩ := cancelRunning_row hw
      exact ⟨r0, hr0, le_of_eq ha.symm⟩
  | enter t l entry =>
    obtain ⟨-, rfl⟩ := matched h
    exact ⟨hT.sound, hT.known, hT.bound, hT.order⟩
  | late t now =>
    obtain ⟨⟨l, pc⟩, -, h⟩ := bind_eq_some_iff.mp h
    obtain ⟨⟨s1, next⟩, hs, rfl⟩ := map_eq_some_iff.mp h
    exact hT.runLate hs _

def LatePc.releases : LatePc → Bool
  | .ladderRepend _ | .reclaimRepend | .registerHold _ _ => true
  | .ladderCount _ _ | .ladderRecord _ _ _ | .ladderFinalize | .reclaimRecord => false

def Session.marks : Session → Option Claim
  | .finalize c _ .terminalMark => some ⟨c.job, c.worker, c.attempt⟩
  | _ => none

def Floor.releases (s : Floor) : Act → Option Claim
  | .late t _ => (s.late t).bind fun p => if p.2.releases then some p.1.claim else none
  | .engine (.exec t _) => (s.sys.sessions t).bind Session.marks
  | _ => none

/-- A re-pend or hold that finds its row running is inside `NODE_DEADLINE_REPEND_SQL`'s fence. -/
def Floor.fenced (s : Floor) : Act → Bool
  | .late t _ => (s.late t).all fun p => !p.2.releases ||
    (s.sys.jobs p.1.claim.job).base.all fun r => r.status ≠ .running || deadlineFence p.1.claim r
  | _ => true

def JobStatus.queued : JobStatus → Bool
  | .pending | .scheduled => true
  | _ => false

lemma JobStatus.not_queued {st : JobStatus} (h : st.terminal = true) : st.queued = false := by
  cases st <;> first | rfl | cases h

structure OwnRelease (s s' : Floor) (c : Claim) : Prop where
  later : [c', c].Sublist s.granted → c'.job = c.job → s'.sys.jobs c.job = s.sys.jobs c.job
  marked : (s.sys.jobs c.job).base = some r → r.cancelMarked = true →
    (s'.sys.jobs c.job).holds r' → r'.status.queued = true → (s.sys.jobs c.job).holds r'

lemma OwnRelease.of_eq (h : s'.sys.jobs c.job = s.sys.jobs c.job) : OwnRelease s s' c where
  later _ _ := h
  marked _ _ hr _ := h ▸ hr

lemma Ticketed.later_attempt (hT : Ticketed s) (hs : [c', c].Sublist s.granted)
    (hj : c'.job = c.job) (hr : (s.sys.jobs c.job).holds r) : c.attempt < r.attempt := by
  have hlt := (List.pairwise_cons.mp (hT.order.sublist hs)).1 c (List.mem_singleton_self c) hj
  have hle := hT.bound (hs.subset List.mem_cons_self) (hj ▸ hr)
  exact lt_of_lt_of_le hlt hle

lemma deadlineFence_eq_true (h : deadlineFence c r = true) :
    r.attempt = c.attempt ∧ r.cancelMarked = false := by
  simp only [deadlineFence, Bool.and_eq_true, decide_eq_true_eq, Bool.not_eq_true'] at h
  obtain ⟨⟨⟨⟨-, ha⟩, -⟩, hp⟩, hm⟩ := h
  exact ⟨ha, by simp [JobRow.cancelMarked, hp, hm]⟩

lemma Floor.runLate_release {s : Floor} (h : s.runLate t now l pc = some (s', next))
    (hp : pc.releases = true) : ∃ w, ReleaseWrite (s.sys.snapshot t) l.claim.job w ∧
      s.sys.autocommit t w = some s'.sys := by
  cases pc with
  | ladderRepend | reclaimRepend =>
    obtain ⟨sys, hs, he⟩ := map_eq_some_iff.mp h
    cases he
    exact ⟨_, releaseWrite_nodeRepend _, hs⟩
  | registerHold hold row =>
    obtain ⟨signals, -, h⟩ := bind_eq_some_iff.mp h
    obtain ⟨sys, hs, he⟩ := map_eq_some_iff.mp h
    cases he
    exact ⟨_, releaseWrite_holdNode _, hs⟩
  | ladderCount | ladderRecord | ladderFinalize | reclaimRecord => cases hp

lemma Ticketed.release (hT : Ticketed s) (hw : ReleaseWrite (s.sys.snapshot t) c.job w)
    (h : s.sys.autocommit t w = some s'.sys)
    (hf : ∀ r, (s.sys.jobs c.job).base = some r → r.status = .running →
      deadlineFence c r = true) : OwnRelease s s' c := by
  obtain ⟨hn, -, hs⟩ := autocommit_some h
  cases hk : w c.job with
  | none =>
    refine .of_eq ?_
    rw [hs]
    exact store_of_none hk
  | some r' =>
    obtain ⟨r0, hr0, -, hrun, -⟩ := hw.row hk
    have hb := (hT.sound.view_eq_base hn _).symm.trans hr0
    obtain ⟨hatt, hclean⟩ := deadlineFence_eq_true (hf r0 hb hrun)
    refine ⟨fun hlt hj => ?_, fun hb' hm => ?_⟩
    · exact absurd (hT.later_attempt hlt hj (.inl hb)) (not_lt.mpr (le_of_eq hatt))
    · rw [← some.inj (hb.symm.trans hb'), hclean] at hm
      cases hm

lemma Ticketed.mark (hT : Ticketed s) (hx : s.sys.sessions t = some x)
    (hm : x.marks = some c) (h : s.sys.step (.exec t env) = some s'.sys) : OwnRelease s s' c := by
  obtain ⟨call, fork, rfl, rfl⟩ : ∃ call fork, x = .finalize call fork .terminalMark ∧
      c = ⟨call.job, call.worker, call.attempt⟩ := by
    unfold Session.marks at hm
    split at hm
    · exact ⟨_, _, rfl, (some.inj hm).symm⟩
    · cases hm
  obtain ⟨x, hx', h⟩ := bind_eq_some_iff.mp h
  cases hx.symm.trans hx'
  obtain ⟨e, he, h⟩ := bind_eq_some_iff.mp h
  simp only [ite_none_right_eq_some, some.injEq] at h
  obtain ⟨-, hs⟩ := h
  cases he
  cases hk : terminalMark (s.sys.snapshot t) call call.job with
  | none =>
    refine .of_eq ?_
    rw [← hs]
    exact put_of_none hk
  | some r' =>
    obtain ⟨r0, hr0, hp, -⟩ := update_some.mp hk
    simp only [holdsClaim, Bool.and_eq_true, decide_eq_true_eq] at hp
    have hatt := hp.2.1.2
    refine ⟨fun hlt hj => ?_, fun _ _ hr hq => ?_⟩
    · have hgt := hT.later_attempt hlt hj (Slot.holds_of_view hr0)
      exact absurd hgt (not_lt.mpr (le_of_eq hatt))
    rw [← hs] at hr
    rcases hr with hb | ⟨u, hd⟩
    · exact .inl (put_base.symm.trans hb)
    rcases put_draft_some.mp hd with ⟨hw, -⟩ | ⟨-, hd'⟩
    · -- the new version is terminal
      have ht := call.outcome.2
      rw [← (terminalMark_row hw).2.1] at ht
      rw [JobStatus.not_queued ht] at hq
      cases hq
    · exact .inr ⟨u, hd'⟩

/-- With re-pends and holds fenced, a release touches no later claim and queues no cancelled row. -/
theorem release_belongs_to_claim {s0 s s' : Floor} {a : Act} {c : Claim}
    (hq : s0.sys.Quiet) (hl : s0.sys.Listed) (hg : s0.granted = [])
    (h : Reach Floor.step (fun s a => s.fenced a = true) s0 s) (ha : s.fenced a = true)
    (hs : s.step a = some s') (hc : s.releases a = some c) : OwnRelease s s' c := by
  have hnil : ∀ {c}, c ∉ s0.granted := fun hm => List.not_mem_nil (hg ▸ hm)
  have hT : Ticketed s := h.invariant
    ⟨.of_quiet hq hl, fun hm => absurd hm hnil, fun hm => absurd hm hnil, hg ▸ .nil⟩
    fun _ _ _ hT _ => hT.step
  cases a with
  | late t now =>
    obtain ⟨⟨l, pc⟩, hlate, hc⟩ := bind_eq_some_iff.mp hc
    obtain ⟨hp, rfl⟩ := matched hc
    simp only [Floor.step, hlate, bind_some, map_eq_some_iff] at hs
    obtain ⟨⟨s1, next⟩, hrun, rfl⟩ := hs
    obtain ⟨w, hw, hsys⟩ := Floor.runLate_release hrun hp
    refine hT.release hw hsys fun r hb hr => ?_
    simpa [Floor.fenced, hlate, hp, hb, hr] using ha
  | engine a =>
    obtain ⟨sys, hsys, rfl⟩ := map_eq_some_iff.mp hs
    cases a with
    | exec t env =>
      obtain ⟨x, hx, hm⟩ := bind_eq_some_iff.mp hc
      exact hT.mark hx hm hsys
    | call | commit | deadlock | crash | claim | reclaim => cases hc
  | cancelRun | cancelRunning | enter => cases hc

def oneNode : Floor :=
  { sys := Sys.ofRows [{ stepKey := rootStepKey, status := .running },
      { stepKey := "n", metadata := { flowId := some 0 } }] [] }

lemma quiet_oneNode : oneNode.sys.Quiet := quiet_ofRows ..

lemma listed_oneNode : oneNode.sys.Listed := listed_ofRows ..

def firstBody : LateCall := { claim := ⟨1, 7, 1⟩, flow := 0, stepKey := "n" }

def zombie (terms : LadderTerms) : List Act :=
  [.engine (.claim 1 1 7 0), .engine (.reclaim 2 1 100000 60000 100000),
    .engine (.claim 3 1 8 100000), .enter 1 firstBody (.ladderOrFail terms false),
    .late 1 100000, .late 1 100000]

def lapsedFinalize : List Act := zombie { maxAttempts := 1 } ++ [.late 1 100000]

def cancelledBody : List Act :=
  [.engine (.claim 1 1 7 0), .cancelRun 2 10 0 "stop", .enter 1 firstBody .reclaimStep, .late 1 20]

def Floor.nodeStatus (s : Floor) : Option JobStatus := (s.sys.jobs 1).base.map JobRow.status

/-- A lapsed claim re-pends its successor's row, and a reclaim queues a cancelled run's row. -/
theorem stale_repend_moves_row : (∃ s s' c c', Reach Floor.step (fun _ _ => True) oneNode s ∧
      s.step (.late 1 100000) = some s' ∧ s.releases (.late 1 100000) = some c ∧
      [c', c].Sublist s.granted ∧ c'.job = c.job ∧ s.nodeStatus = some .running ∧
      s'.nodeStatus = some .scheduled) ∧ ∃ s s' c, Reach Floor.step (fun _ _ => True) oneNode s ∧
      s.step (.late 1 20) = some s' ∧ s.releases (.late 1 20) = some c ∧
      (s.sys.jobs c.job).base.any JobRow.cancelMarked = true ∧ s.nodeStatus = some .running ∧
      s'.nodeStatus = some .scheduled := by
  refine ⟨⟨final Floor.step oneNode (zombie {}),
    final Floor.step oneNode (zombie {} ++ [.late 1 100000]), ⟨1, 7, 1⟩, ⟨1, 8, 2⟩,
    .of_final (by decide), ?_, by decide, by decide, rfl, by decide,
    by decide⟩, ⟨final Floor.step oneNode cancelledBody,
    final Floor.step oneNode (cancelledBody ++ [.late 1 20]), ⟨1, 7, 1⟩,
    .of_final (by decide), ?_, by decide, by decide, by decide,
    by decide⟩⟩
  · rfl
  · rfl

theorem release_belongs_to_claim_zombie : ∃ s s',
    s.releases (.engine (.exec 1 {})) = some ⟨1, 7, 1⟩ ∧
    s.step (.engine (.exec 1 {})) = some s' ∧ s.nodeStatus = some .running ∧
    OwnRelease s s' ⟨1, 7, 1⟩ := by
  refine ⟨final Floor.step oneNode lapsedFinalize,
    final Floor.step oneNode (lapsedFinalize ++ [.engine (.exec 1 {})]), by decide, rfl,
    by decide, ?_⟩
  exact release_belongs_to_claim quiet_oneNode listed_oneNode rfl
    (.of_exec (exec_final (by decide)) (.of_checks Floor.fenced (by decide) fun _ _ h => h))
    (a := .engine (.exec 1 {})) rfl rfl (by decide)

end TaskQ
