import TaskQ.System

namespace TaskQ
open RowLocks

/-- The edge policies a finalize counts down: a failure only counts where it is absorbed. -/
def FinalizeCall.countedPolicy (c : FinalizeCall) : EdgeFailurePolicy → Bool :=
  if c.outcome.1 = .failed then EdgeFailurePolicy.absorbing else fun _ => true

variable {db : Snapshot}

lemma decrement_eq_where {c : FinalizeCall} :
    (if c.outcome.1 = .failed then decrementAbsorbed db c.job c.flow
      else decrement db c.job c.flow) = decrementWhere db c.job c.flow c.countedPolicy := by
  unfold FinalizeCall.countedPolicy
  split <;> rfl

inductive CounterChange (env : Env) (db : Snapshot) (x : Session) (k : JobId) (r0 r : JobRow) :
    Prop where
  | kept : r.depsPending = r0.depsPending → CounterChange env db x k r0 r
  | adopted : x = .finalize c fork (.joinAdopt children k) → r0.depsPending ≤ r.depsPending →
      CounterChange env db x k r0 r
  | counted : x = .finalize c fork .decrement → hasEdge db c.job k c.countedPolicy = true →
      0 < r0.depsPending → r.depsPending = r0.depsPending - 1 → CounterChange env db x k r0 r
  | reconciled : x = .sweep batch .rederive →
      reconciles db (rederiveLocked db env.now batch) k r0 = true →
      r.depsPending = (counts db k).unterminal → CounterChange env db x k r0 r

structure RowChange (env : Env) (db : Snapshot) (x : Session) (k : JobId) (r0 r : JobRow) :
    Prop where
  terminal : r0.status.terminal = true → r.status = r0.status
  sweep : x = .sweep batch pc → pc ≠ .rootMaintain → r.status = r0.status
  counter : CounterChange env db x k r0 r

lemma RowChange.of_same (hs : r.status = r0.status) (hd : r.depsPending = r0.depsPending) :
    RowChange env db x k r0 r :=
  ⟨fun _ => hs, fun _ _ => hs, .kept hd⟩

def FinalizePc.marked : FinalizePc → Bool
  | .terminalMark | .ledgerFence | .tx1Commit false => false
  | pc => !pc.inTx2

inductive Follows (db : Snapshot) (w : Writes) : Session → Session → Prop where
  | finalize : pc'.inTx2 = pc.inTx2 →
      (pc'.hits = pc.hits ∨ pc = .decrement ∧ pc'.hits = hits db w) →
      (pc'.marked = true → pc.marked = true ∨ pc = .terminalMark ∧ (w c.job).isSome = true) →
      Follows db w (.finalize c fork pc) (.finalize c fork pc')
  | sweep : pc ≠ .commit → (pc = .rootMaintain → pc' = .commit) →
      Follows db w (.sweep batch pc) (.sweep batch pc')
  | drain : Follows db w (.drain batch pc) (.drain batch pc')

variable {x y : Session}

lemma Follows.of_finalize (h : Follows db w x y) (hy : y = .finalize c fork pc') :
    ∃ pc, x = .finalize c fork pc ∧ pc'.inTx2 = pc.inTx2 ∧
      (pc'.hits = pc.hits ∨ pc = .decrement ∧ pc'.hits = TaskQ.hits db w) ∧
      (pc'.marked = true → pc.marked = true ∨ pc = .terminalMark ∧ (w c.job).isSome = true) := by
  subst hy
  cases h with
  | finalize hp hh hm => exact ⟨_, rfl, hp, hh, hm⟩

lemma Follows.to_finalize (h : Follows db w (.finalize c fork pc) y) :
    ∃ pc', y = .finalize c fork pc' ∧ pc'.inTx2 = pc.inTx2 ∧
      (pc'.hits = pc.hits ∨ pc = .decrement ∧ pc'.hits = TaskQ.hits db w) ∧
      (pc'.marked = true → pc.marked = true ∨ pc = .terminalMark ∧ (w c.job).isSome = true) := by
  cases h with
  | finalize hp hh hm => exact ⟨_, rfl, hp, hh, hm⟩

lemma Follows.of_sweep (h : Follows db w x y) (hy : y = .sweep batch pc') :
    ∃ pc, x = .sweep batch pc ∧ pc ≠ .commit ∧ (pc = .rootMaintain → pc' = .commit) := by
  subst hy
  cases h with
  | sweep hp hr => exact ⟨_, rfl, hp, hr⟩

inductive FireCause (env : Env) (db : Snapshot) (x : Session) (f : JoinFire) : Prop where
  | zero : db.jobs f.joinJob = some r → r.depsPending = 0 → FireCause env db x f
  | firable : x = .sweep batch (.sweepFire n) → f.joinJob ∈ sweepFireLocked db env.now batch →
      firable db f.joinJob = true → FireCause env db x f

inductive Wrote (env : Env) (db : Snapshot) (born : List JobId) :
    Session → JobId → JobRow → Prop where
  | mark : terminalMark db c k = some r → Wrote env db born (.finalize c fork .terminalMark) k r
  | forkChild : k ∈ born → spec ∈ f.children →
      Wrote env db born (.finalize c (some f) .forkChildren) k (forkChildRow env.now c f spec)
  | forkJoin : k ∈ born → Wrote env db born (.finalize c (some f) (.joinInsert children)) k
      (forkJoinRow env.now c f j)
  | adopt : adoptJoin db f j join k = some r →
      Wrote env db born (.finalize c (some f) (.joinAdopt children join)) k r
  | cascade : failClosedCascade db c k = some r → Wrote env db born (.finalize c fork .cascade) k r
  | fanIn : collectFanInAppend db env.bytes join item k = some r →
      Wrote env db born (.finalize c fork (.fanInAppend ((join, item) :: rows))) k r
  | decrement : decrementWhere db c.job c.flow c.countedPolicy k = some r →
      Wrote env db born (.finalize c fork .decrement) k r
  | rederive : rederiveSweep db env.now batch k = some r →
      Wrote env db born (.sweep batch .rederive) k r
  | sweepFire : sweepFireLocks db env.now batch k = some r →
      Wrote env db born (.sweep batch (.sweepFire n)) k r
  | body : joinBodyUnavailable db w.fire.joinJob k = some r →
      Wrote env db born (.sweep batch (.bodies ws (w :: todo))) k r
  | rootMaintain : workflowRootMaintain db batch k = some r →
      Wrote env db born (.sweep batch .rootMaintain) k r
  | consumer : k ∈ born → o ∈ rows →
      Wrote env db born (.drain batch (.consumers rows)) k (consumerRow env.now (runPriority db o) o)

lemma Wrote.row (h : Wrote env db born x k r) :
    (∃ r0, db.jobs k = some r0 ∧ RowChange env db x k r0 r) ∨ k ∈ born := by
  cases h with
  | mark hw =>
    obtain ⟨-, -, r0, hr0, hs, hd⟩ := terminalMark_row hw
    have hn : r0.status.terminal ≠ true := by rw [hs]; decide
    exact .inl ⟨r0, hr0, fun ht => absurd ht hn, nofun, .kept hd⟩
  | forkChild hb | forkJoin hb | consumer hb => exact .inr hb
  | adopt hw =>
    obtain ⟨rfl, r0, hr0, hs, hd⟩ := adoptJoin_row hw
    exact .inl ⟨r0, hr0, fun _ => hs, nofun, .adopted rfl hd⟩
  | cascade hw =>
    obtain ⟨r0, hr0, hd, hs⟩ := failClosedCascade_row hw
    refine .inl ⟨r0, hr0, fun ht => ?_, nofun, .kept hd⟩
    rcases hs with hs | hs
    · exact hs
    · rw [hs] at ht
      cases ht
  | fanIn hw =>
    obtain ⟨r0, hr0, hd, hs⟩ := collectFanInAppend_row hw
    exact .inl ⟨r0, hr0, .of_same hs hd⟩
  | decrement hw =>
    obtain ⟨r0, hr0, hs, hp, hd, he⟩ := decrementWhere_row hw
    exact .inl ⟨r0, hr0, fun _ => hs, nofun, .counted rfl he hp hd⟩
  | rederive hw =>
    obtain ⟨r0, hr0, hs, hd | ⟨hc, hd⟩⟩ := rederiveSweep_row hw
    · exact .inl ⟨r0, hr0, .of_same hs hd⟩
    · exact .inl ⟨r0, hr0, fun _ => hs, fun _ _ => hs, .reconciled rfl hc hd⟩
  | sweepFire hw => exact .inl ⟨_, sweepFireLocks_row hw, .of_same rfl rfl⟩
  | body hw =>
    obtain ⟨r0, hr0, hs, hd⟩ := joinBodyUnavailable_row hw
    exact .inl ⟨r0, hr0, .of_same hs hd⟩
  | rootMaintain hw =>
    obtain ⟨r0, hr0, hd, hs⟩ := workflowRootMaintain_row hw
    have hn : r0.status.terminal ≠ true := by rw [hs]; decide
    refine .inl ⟨r0, hr0, fun ht => absurd ht hn, fun hx hp => ?_, .kept hd⟩
    cases hx
    exact absurd rfl hp

def JobRow.identity (r : JobRow) : Option (String × String) × Nat × Option JobId × String :=
  (r.idempotency, r.attempt, r.metadata.flowId, r.stepKey)

lemma Wrote.identity (h : Wrote env db born x k r) :
    (∃ r0, db.jobs k = some r0 ∧ r.identity = r0.identity) ∨ k ∈ born := by
  cases h with
  | forkChild hb | forkJoin hb | consumer hb => exact .inr hb
  | mark hw | adopt hw | fanIn hw | decrement hw | sweepFire hw | body hw =>
    obtain ⟨r0, hr0, -, rfl⟩ := update_some.mp hw
    exact .inl ⟨r0, hr0, rfl⟩
  | cascade hw =>
    obtain ⟨r0, hr0, -, rfl⟩ := update_some.mp hw
    refine .inl ⟨r0, hr0, ?_⟩
    split
    · rfl
    · split <;> rfl
  | rederive hw =>
    rw [rederiveSweep, rederiveArms] at hw
    obtain ⟨r0, hr0, -, rfl⟩ := update_some.mp hw
    refine .inl ⟨r0, hr0, ?_⟩
    split
    · rfl
    split
    · rfl
    split
    · rfl
    · split <;> rfl
  | rootMaintain hw =>
    obtain ⟨r0, hr0, -, rfl⟩ := update_some.mp hw
    refine .inl ⟨r0, hr0, ?_⟩
    split <;> rfl

inductive Tx1Runs (env : Env) (db : Snapshot) (fresh : Nat) (c : FinalizeCall) :
    Option ForkSpec → FinalizePc → Effect → Prop where
  | mark : next.inTx2 = false → (next.marked = true → (terminalMark db c c.job).isSome = true) →
      Tx1Runs env db fresh c fork .terminalMark
        { jobs := terminalMark db c, next := .finalize c fork next }
  | children : rows = forkChildRows env.now fresh c f →
      (∀ p ∈ rows, p.2.idempotency.any (idempotencyTaken db) = false) →
      (rows.map fun p => p.2.idempotency).Nodup →
      Tx1Runs env db fresh c (some f) .forkChildren
        { jobs := insertJobs rows, born := rows.map Prod.fst, minted := rows.length
          next := .finalize c (some f) (.forkEdges (rows.map Prod.fst)) }
  | adopt : Tx1Runs env db fresh c (some f) (.joinAdopt children join)
      { jobs := adoptJoin db f j join, next := .finalize c (some f) (.joinEdges children join) }
  | join : (forkJoinRow env.now c f j).idempotency.any (idempotencyTaken db) = false →
      Tx1Runs env db fresh c (some f) (.joinInsert children)
        { jobs := insertJobs [(fresh, forkJoinRow env.now c f j)], born := [fresh], minted := 1
          next := .finalize c (some f) (.joinEdges children fresh) }
  | bornZero : Tx1Runs env db fresh c fork (.bornZero join)
      { fires := ((fire db join c.flow fresh .bornZero).map Winner.fire).toList, minted := 1
        next := .finalize c fork (.tx1Commit true) }
  | plain : pc.inTx2 = false → next.inTx2 = false → (next.marked = true → pc.marked = true) →
      Tx1Runs env db fresh c fork pc
        { edges := edges, ledgerWrites := ledger, next := .finalize c fork next }

lemma execTx1_runs (h : execTx1 env db fresh c fork pc = some e) :
    Tx1Runs env db fresh c fork pc e := by
  cases pc with
  | terminalMark =>
    cases h
    cases hw : (terminalMark db c c.job).isSome with
    | true => exact .mark rfl fun _ => hw
    | false => exact .mark rfl (fun hm => by cases hm)
  | ledgerFence =>
    cases h
    exact .plain rfl rfl (fun hm => by cases hm)
  | ledgerTerminal =>
    cases h
    exact .plain rfl (by cases fork <;> rfl) fun _ => rfl
  | forkChildren =>
    obtain ⟨f, rfl, h⟩ := Option.bind_eq_some_iff.mp h
    simp only [Option.ite_none_right_eq_some, Option.some.injEq, Bool.and_eq_true,
      Bool.not_eq_true', List.any_eq_false, decide_eq_true_eq] at h
    obtain ⟨⟨⟨-, hfree⟩, hnd⟩, rfl⟩ := h
    exact .children rfl (fun p hp => by simpa using hfree p hp) hnd
  | forkEdges children =>
    obtain ⟨f, rfl, h⟩ := Option.bind_eq_some_iff.mp h
    simp only [Option.ite_none_left_eq_some, Option.some.injEq] at h
    obtain ⟨-, rfl⟩ := h
    exact .plain rfl (by cases f.join <;> rfl) fun _ => rfl
  | joinProbe children =>
    obtain ⟨f, rfl, h⟩ := Option.bind_eq_some_iff.mp h
    obtain ⟨j, -, h⟩ := Option.bind_eq_some_iff.mp h
    dsimp only at h
    split at h
    · cases h
      exact .plain rfl rfl fun _ => rfl
    · cases h
      exact .plain rfl rfl fun _ => rfl
  | joinAdopt children join =>
    obtain ⟨f, rfl, h⟩ := Option.bind_eq_some_iff.mp h
    obtain ⟨j, -, h⟩ := Option.bind_eq_some_iff.mp h
    cases h
    exact .adopt
  | joinInsert children =>
    obtain ⟨f, rfl, h⟩ := Option.bind_eq_some_iff.mp h
    obtain ⟨j, -, h⟩ := Option.bind_eq_some_iff.mp h
    simp only [Option.ite_none_left_eq_some, Option.some.injEq] at h
    obtain ⟨hfree, rfl⟩ := h
    exact .join (Bool.eq_false_iff.mpr hfree)
  | joinEdges children join | consumerEdges children join =>
    obtain ⟨f, rfl, h⟩ := Option.bind_eq_some_iff.mp h
    obtain ⟨j, -, h⟩ := Option.bind_eq_some_iff.mp h
    simp only [Option.ite_none_left_eq_some, Option.some.injEq] at h
    obtain ⟨-, rfl⟩ := h
    exact .plain rfl (by cases children <;> rfl) fun _ => rfl
  | bornZero join =>
    cases h
    exact .bornZero
  | tx1Commit | cascade | fanIn | fanInAppend | decrement | fire | deliver => cases h

lemma execTx1_wrote (h : execTx1 env db fresh c fork pc = some e)
    (hk : e.jobs k = some r) : Wrote env db e.born (.finalize c fork pc) k r := by
  cases execTx1_runs h with
  | mark => exact .mark hk
  | children hrows =>
    subst hrows
    have hm := insertJobs_some hk
    obtain ⟨-, -, spec, hs, rfl⟩ := mem_forkChildRows hm
    exact .forkChild (List.mem_map_of_mem (f := Prod.fst) hm) hs
  | adopt => exact .adopt hk
  | join =>
    cases List.mem_singleton.mp (insertJobs_some hk)
    exact .forkJoin (List.mem_singleton_self _)
  | bornZero | plain => cases hk

inductive Tx2Reads (db : Snapshot) (c : FinalizeCall) : FinalizePc → FinalizePc → Prop where
  | fanIn : Tx2Reads db c .fanIn (.fanInAppend (collectFanIn db c))
  | appended : Tx2Reads db c (.fanInAppend []) .decrement
  | unfired : Tx2Reads db c (.fire hs (hit :: rest)) (.fire hs rest)
  | delivered : Tx2Reads db c (.deliver hs rest []) (.fire hs rest)

inductive Tx2Runs (env : Env) (db : Snapshot) (fresh : Nat) (c : FinalizeCall)
    (fork : Option ForkSpec) : FinalizePc → Effect → Prop where
  | cascade : Tx2Runs env db fresh c fork .cascade
      { jobs := failClosedCascade db c, next := .finalize c fork .fanIn }
  | append : Tx2Runs env db fresh c fork (.fanInAppend ((join, item) :: rows))
      { jobs := collectFanInAppend db env.bytes join item
        next := .finalize c fork (.fanInAppend rows) }
  | decrement : w = decrementWhere db c.job c.flow c.countedPolicy →
      Tx2Runs env db fresh c fork .decrement
        { jobs := w, next := .finalize c fork (.fire (hits db w) (hits db w)) }
  | fire : fire db hit.joinJob c.flow fresh .finalize = some w → Tx2Runs env db fresh c fork
      (.fire hs (hit :: rest))
      { fires := [w.fire]
        fired := [⟨hit.joinJob, w.consumers⟩], minted := 1 + (finalizeOutbox (fresh + 1) w).length
        next := .finalize c fork (.deliver hs rest (finalizeOutbox (fresh + 1) w)) }
  | deliver : Tx2Runs env db fresh c fork (.deliver hs rest (o :: rows))
      { outbox := [o], next := .finalize c fork (.deliver hs rest rows) }
  | plain : Tx2Reads db c pc next →
      Tx2Runs env db fresh c fork pc { minted, next := .finalize c fork next }

lemma execTx2_runs (h : execTx2 env db fresh c fork pc = some e) :
    Tx2Runs env db fresh c fork pc e := by
  cases pc with
  | cascade =>
    cases h
    exact .cascade
  | fanIn =>
    cases h
    exact .plain .fanIn
  | fanInAppend rows =>
    cases rows with
    | nil =>
      cases h
      exact .plain .appended
    | cons p rows =>
      cases h
      exact .append
  | decrement =>
    cases h
    exact .decrement decrement_eq_where
  | fire hs rest =>
    cases rest with
    | nil => cases h
    | cons hit rest =>
      simp only [execTx2] at h
      split at h
      · cases h
        exact .plain .unfired
      split at h
      · cases h
        exact .plain .unfired
      next w hw =>
        cases h
        exact .fire hw
  | deliver hs rest rows =>
    cases rows with
    | nil =>
      cases h
      exact .plain .delivered
    | cons o rows =>
      cases h
      exact .deliver
  | terminalMark | ledgerTerminal | ledgerFence | forkChildren | forkEdges | joinProbe
  | joinAdopt | joinInsert | joinEdges | consumerEdges | bornZero | tx1Commit => cases h

lemma execTx2_wrote (h : execTx2 env db fresh c fork pc = some e)
    (hk : e.jobs k = some r) : Wrote env db e.born (.finalize c fork pc) k r := by
  cases execTx2_runs h with
  | cascade => exact .cascade hk
  | append => exact .fanIn hk
  | decrement hw =>
    subst hw
    exact .decrement hk
  | fire | deliver | plain => cases hk

lemma execSweep_wrote (h : execSweep env db fresh batch pc = some e)
    (hk : e.jobs k = some r) : Wrote env db e.born (.sweep batch pc) k r := by
  cases pc with
  | rederive =>
    cases h
    exact .rederive hk
  | sweepFire n =>
    cases h
    exact .sweepFire hk
  | bodies ws todo =>
    cases todo with
    | nil =>
      cases h
      cases hk
    | cons w todo =>
      cases h
      split at hk
      · exact .body hk
      · cases hk
  | outbox rows =>
    cases rows with
    | nil | cons o rows =>
      cases h
      cases hk
  | rootMaintain =>
    cases h
    exact .rootMaintain hk
  | commit => cases h

lemma execStmt_wrote (h : execStmt env db fresh x = some e)
    (hk : e.jobs k = some r) : Wrote env db e.born x k r := by
  cases x with
  | finalize c fork pc =>
    simp only [execStmt] at h
    split at h
    · exact execTx2_wrote h hk
    · exact execTx1_wrote h hk
  | sweep batch pc => exact execSweep_wrote h hk
  | drain batch pc =>
    cases pc with
    | fetch | flip =>
      cases h
      cases hk
    | consumers rows =>
      cases h
      have hm := insertJobs_some hk
      obtain ⟨-, -, o, ho, rfl, -⟩ := mem_drainConsumers hm
      exact .consumer (List.mem_map_of_mem (f := Prod.fst) hm) ho
    | commit => cases h

structure EffectShape (env : Env) (db : Snapshot) (fresh : Nat) (x : Session) (e : Effect) :
    Prop where
  born : ∀ k : Nat, k ∈ e.born → fresh ≤ k ∧ k < fresh + e.minted
  nodup : e.born.Nodup
  fires : f ∈ e.fires → FireCause env db x f ∧ ∀ g ∈ db.fires, g.joinJob ≠ f.joinJob
  next : Follows db e.jobs x e.next

lemma EffectShape.quiet (hb : e.born = []) (hf : e.fires = [])
    (hn : Follows db e.jobs x e.next) : EffectShape env db fresh x e where
  born k h := by rw [hb] at h; cases h
  nodup := by rw [hb]; exact List.nodup_nil
  fires h := by rw [hf] at h; cases h
  next := hn

lemma Follows.tx1 {pc pc' : FinalizePc} (h : pc.inTx2 = false) (h' : pc'.inTx2 = false)
    (hm : pc'.marked = true → pc.marked = true ∨ pc = .terminalMark ∧ (w c.job).isSome = true) :
    Follows db w (.finalize c fork pc) (.finalize c fork pc') := by
  have hits_nil : ∀ q : FinalizePc, q.inTx2 = false → q.hits = [] := by
    intro q hq
    cases q <;> first | rfl | cases hq
  exact .finalize (h'.trans h.symm) (.inl (by rw [hits_nil _ h, hits_nil _ h'])) hm

lemma fires_of_fire (hw : fire db join flow fireId by' = some w) :
    FireCause env db x w.fire ∧ ∀ g ∈ db.fires, g.joinJob ≠ w.fire.joinJob := by
  obtain ⟨hj, -, hf, r, hr, hd, -, -⟩ := fire_some hw
  exact ⟨.zero (hj ▸ hr) hd, fun g hg => hj ▸ hf g hg⟩

lemma execTx1_shape (h : execTx1 env db fresh c fork pc = some e) :
    EffectShape env db fresh (.finalize c fork pc) e := by
  cases execTx1_runs h with
  | mark hn hm => exact .quiet rfl rfl (.tx1 rfl hn fun h => .inr ⟨rfl, hm h⟩)
  | children hrows =>
    subst hrows
    refine ⟨fun k hk => ?_, nodup_forkChildRows, (fun hf => by cases hf),
      .tx1 rfl rfl fun _ => .inl rfl⟩
    obtain ⟨⟨_, r⟩, hp, rfl⟩ := List.mem_map.mp hk
    obtain ⟨hl, hu, -⟩ := mem_forkChildRows hp
    exact ⟨hl, by simpa only [forkChildRows, List.length_mapIdx] using hu⟩
  | adopt => exact .quiet rfl rfl (.tx1 rfl rfl fun _ => .inl rfl)
  | join =>
    refine ⟨fun k hk => ?_, List.nodup_singleton _, (fun hf => by cases hf),
      .tx1 rfl rfl fun _ => .inl rfl⟩
    obtain rfl := List.mem_singleton.mp hk
    exact ⟨le_rfl, Nat.lt_succ_self _⟩
  | bornZero =>
    refine ⟨(fun _ hk => by cases hk), List.nodup_nil, fun hf => ?_, .tx1 rfl rfl fun _ => .inl rfl⟩
    obtain ⟨w, hw, rfl⟩ := Option.map_eq_some_iff.mp (Option.mem_toList.mp hf)
    exact fires_of_fire hw
  | plain hp hn hm => exact .quiet rfl rfl (.tx1 hp hn fun h => .inl (hm h))

lemma Follows.tx2 {pc pc' : FinalizePc} (h : pc.inTx2 = true) (h' : pc'.inTx2 = true)
    (hh : pc'.hits = pc.hits ∨ pc = .decrement ∧ pc'.hits = TaskQ.hits db w) :
    Follows db w (.finalize c fork pc) (.finalize c fork pc') := by
  refine .finalize (h'.trans h.symm) hh fun hm => ?_
  have hn : pc'.marked = false := by
    cases pc' <;> first | rfl | cases h'
  rw [hn] at hm
  cases hm

lemma execTx2_shape (h : execTx2 env db fresh c fork pc = some e) :
    EffectShape env db fresh (.finalize c fork pc) e := by
  cases execTx2_runs h with
  | cascade | append | deliver => exact .quiet rfl rfl (.tx2 rfl rfl (.inl rfl))
  | decrement => exact .quiet rfl rfl (.tx2 rfl rfl (.inr ⟨rfl, rfl⟩))
  | fire hw =>
    refine ⟨nofun, List.nodup_nil, fun hf => ?_, .tx2 rfl rfl (.inl rfl)⟩
    obtain rfl := List.mem_singleton.mp hf
    exact fires_of_fire hw
  | plain hread => cases hread <;> exact .quiet rfl rfl (.tx2 rfl rfl (.inl rfl))

lemma mem_sweepFire (h : w ∈ sweepFire db now batch fresh minted) :
    w.fire.joinJob ∈ sweepFireLocked db now batch ∧ firable db w.fire.joinJob = true ∧
      w.fire.firedBy = .sweep ∧ (∀ g ∈ db.fires, g.joinJob ≠ w.fire.joinJob) ∧
      ∃ r, db.jobs w.fire.joinJob = some r ∧ w.consumers = r.metadata.consumers := by
  simp only [sweepFire, List.mem_filterMap, List.mem_filter, Bool.and_eq_true,
    Bool.not_eq_true', List.any_eq_false, decide_eq_true_eq, Option.bind_eq_some_iff,
    Option.map_eq_some_iff] at h
  obtain ⟨⟨k, i⟩, ⟨hm, -, hf⟩, r, hr, flow, -, rfl⟩ := h
  have hk := List.mem_filter.mp (List.mem_of_mem_take (List.fst_mem_of_mem_zipIdx hm))
  exact ⟨hk.1, hk.2, rfl, hf, r, hr, rfl⟩

lemma execSweep_shape (h : execSweep env db fresh batch pc = some e) :
    EffectShape env db fresh (.sweep batch pc) e := by
  cases pc with
  | rederive =>
    cases h
    exact .quiet rfl rfl (.sweep nofun nofun)
  | sweepFire n =>
    cases h
    refine ⟨nofun, List.nodup_nil, fun hf => ?_, .sweep nofun nofun⟩
    obtain ⟨w, hw, rfl⟩ := List.mem_map.mp hf
    obtain ⟨hl, hfir, -, hg, -⟩ := mem_sweepFire hw
    exact ⟨.firable rfl hl hfir, hg⟩
  | bodies ws todo =>
    cases todo with
    | nil | cons =>
      cases h
      exact .quiet rfl rfl (.sweep nofun nofun)
  | outbox rows =>
    cases rows with
    | nil | cons =>
      cases h
      exact .quiet rfl rfl (.sweep nofun nofun)
  | rootMaintain =>
    cases h
    exact .quiet rfl rfl (.sweep nofun fun _ => rfl)
  | commit => cases h

lemma execDrain_shape (h : execDrain env db fresh batch pc = some e) :
    EffectShape env db fresh (.drain batch pc) e := by
  cases pc with
  | fetch | flip =>
    cases h
    exact .quiet rfl rfl .drain
  | consumers rows =>
    cases h
    refine ⟨fun k hk => ?_, nodup_drainConsumers, nofun, .drain⟩
    obtain ⟨⟨_, r⟩, hp, rfl⟩ := List.mem_map.mp hk
    obtain ⟨hl, hu, -⟩ := mem_drainConsumers hp
    exact ⟨hl, hu⟩
  | commit => cases h

lemma execStmt_shape (h : execStmt env db fresh x = some e) : EffectShape env db fresh x e := by
  cases x with
  | finalize c fork pc =>
    simp only [execStmt] at h
    split at h
    · exact execTx2_shape h
    · exact execTx1_shape h
  | sweep batch pc => exact execSweep_shape h
  | drain batch pc => exact execDrain_shape h

structure EffectSpec (env : Env) (db : Snapshot) (fresh : Nat) (x : Session) (e : Effect) :
    Prop extends EffectShape env db fresh x e where
  row : e.jobs k = some r → (∃ r0, db.jobs k = some r0 ∧ RowChange env db x k r0 r) ∨ k ∈ e.born

lemma execStmt_spec (h : execStmt env db fresh x = some e) : EffectSpec env db fresh x e :=
  ⟨execStmt_shape h, fun hk => (execStmt_wrote h hk).row⟩

end TaskQ
