import TaskQ.Create
import TaskQ.Retry
import TaskQ.Sound
import TaskQ.Worklist

namespace TaskQ
open RowLocks Runs List Function Option

section
variable {g : CompiledFlow}

namespace CompiledFlow

def childrenOf (g : CompiledFlow) (key : String) : List String :=
  g.nodes.flatMap fun p => (p.2.parents.filter (· = key)).map fun _ => p.1

def descendantsOf (g : CompiledFlow) (key : String) : Finset String :=
  Worklist.walk g.childrenOf (g.nodes.length + 1) ∅ [key]

def Child (g : CompiledFlow) (parent child : String) : Prop :=
  ∃ n, (child, n) ∈ g.nodes ∧ parent ∈ n.parents

lemma mem_childrenOf : child ∈ g.childrenOf parent ↔ g.Child parent child := by
  simp only [childrenOf, Child, mem_flatMap, List.mem_map, mem_filter, decide_eq_true_eq]
  constructor
  · rintro ⟨⟨key, n⟩, hn, p, ⟨hp, rfl⟩, rfl⟩
    exact ⟨n, hn, hp⟩
  · rintro ⟨n, hn, hp⟩
    exact ⟨(child, n), hn, parent, ⟨hp, rfl⟩, rfl⟩

lemma mem_descendantsOf :
    child ∈ g.descendantsOf key ↔ Relation.TransGen g.Child key child := by
  have hkeys : ∀ x, ∀ y ∈ g.childrenOf x, y ∈ (g.nodes.map Prod.fst).toFinset := by
    intro x y hy
    obtain ⟨n, hn, -⟩ := mem_childrenOf.mp hy
    exact mem_toFinset.mpr (mem_map_of_mem (f := Prod.fst) hn)
  have hcard : (g.nodes.map Prod.fst).toFinset.card + 1 ≤ g.nodes.length + 1 := by
    have hle := toFinset_card_le (g.nodes.map Prod.fst)
    rw [length_map] at hle
    omega
  have hchild : (fun x y => y ∈ g.childrenOf x) = g.Child := by
    funext x y
    exact propext mem_childrenOf
  rw [descendantsOf, Worklist.mem_walk hkeys hcard, hchild]

end CompiledFlow

end

structure ExitCall where
  (flow job : JobId)
  stepKey : String
  mapIndex : Option Nat := none
  worker : WorkerId
  attempt : Nat
  claimEpoch : Nat := 0
  payload : String
  deriving DecidableEq

def ExitCall.finalizeCall (x : ExitCall) : FinalizeCall where
  job := x.job
  flow := x.flow
  stepKey := x.stepKey
  mapIndex := x.mapIndex
  worker := x.worker
  attempt := x.attempt
  claimEpoch := some x.claimEpoch
  outcome := succeededOutcome
  result := some (.doc ("\x7b\"value\": " ++ x.payload ++ ", \"exit\": true\x7d"))

def exitSkip (db : Snapshot) (flow : JobId) (keys : Finset String) : Writes :=
  update db (fun _ r => r.inFlow flow && !r.status.terminal && r.stepKey ∈ keys) fun _ r =>
    { r with status := .succeeded, result := some .skipped }

structure ExitDriver where
  call : ExitCall
  /-- The terminal mark of its `finalize_node` has committed. -/
  applied : Bool := false
  deriving DecidableEq

structure ExitSys where
  sys : Sys
  exits : Tx → Option ExitDriver

inductive ExitEvent where
  | engine (a : Event)
  | finalizeExit (t : Tx) (x : ExitCall)
  | skip (t : Tx)
  | die (t : Tx)

def Event.opens : Event → Option Tx
  | .call t _ | .claim t _ _ _ | .reclaim t _ _ _ _ => some t
  | .exec _ _ | .commit _ | .deadlock _ | .crash _ => none

def Session.commitsMark : Session → Bool
  | .finalize _ _ (.tx1Commit true) => true
  | _ => false

def ExitSys.advance (s : ExitSys) : Event → Tx → Option ExitDriver
  | .commit t =>
    if (s.sys.sessions t).any Session.commitsMark then
      Function.update s.exits t ((s.exits t).map fun d => { d with applied := true })
    else s.exits
  | .crash t => Function.update s.exits t none
  | _ => s.exits

section
variable (compiled : JobId → CompiledFlow)

def ExitCall.downstream (x : ExitCall) : Finset String :=
  (compiled x.flow).descendantsOf x.stepKey

/-- The result of `finalize_node` is not looked at: the skip follows a refused mark as well. -/
def ExitSys.step (s : ExitSys) : ExitEvent → Option ExitSys
  | .engine a =>
    if (a.opens.bind s.exits).isSome then none
    else (s.sys.step a).map fun sys => ⟨sys, s.advance a⟩
  | .finalizeExit t x =>
    if (s.exits t).isSome then none
    else (s.sys.step (.call t (.finalizeNode x.finalizeCall none))).map fun sys =>
      ⟨sys, Function.update s.exits t (some { call := x })⟩
  | .skip t => (s.exits t).bind fun d =>
    (s.sys.autocommit t (exitSkip (s.sys.snapshot t) d.call.flow (d.call.downstream compiled))).map
      fun sys => ⟨sys, Function.update s.exits t none⟩
  | .die t =>
    if (s.exits t).isSome && (s.sys.sessions t).isNone then
      some { s with exits := Function.update s.exits t none }
    else none

def ExitSys.start (sys : Sys) : ExitSys := ⟨sys, fun _ => none⟩

def ExitCall.Reaches (x : ExitCall) (r : JobRow) : Prop :=
  r.inFlow x.flow = true ∧ Relation.TransGen (compiled x.flow).Child x.stepKey r.stepKey

def ExitSys.Awaits (s : ExitSys) (k : JobId) : Prop :=
  ∃ t d, s.exits t = some d ∧ d.applied = true ∧
    ∃ r, (s.sys.jobs k).base = some r ∧ d.call.Reaches compiled r

def Sys.firing (s : Sys) (t : Tx) (env : Env) : List JoinFire :=
  ((s.sessions t).bind (execStmt env (s.snapshot t) s.fresh)).elim [] Effect.fires

/-- Between an exit's terminal mark and its skip no descendant moves and the worker lives. -/
def Undisturbed (s : ExitSys) : ExitEvent → Prop
  | .engine (.claim _ job _ _) => ¬ s.Awaits compiled job
  | .engine (.exec t env) => ∀ f ∈ s.sys.firing t env, ¬ s.Awaits compiled f.joinJob
  | .engine (.crash t) | .die t => ∀ d, s.exits t = some d → d.applied = false
  | _ => True

end

def ExitSys.Claims (s : ExitSys) (a : ExitEvent) (k : JobId) : Prop :=
  ∃ t job worker now, a = .engine (.claim t job worker now) ∧
    (nodeClaim (s.sys.snapshot t) now job worker k).isSome = true

def ExitSys.Fires (s : ExitSys) (a : ExitEvent) (k : JobId) : Prop :=
  ∃ t env, a = .engine (.exec t env) ∧ ∃ f ∈ s.sys.firing t env, f.joinJob = k

section
variable {s s' : Sys}

def JobRow.place (r : JobRow) : Option JobId × String := (r.metadata.flowId, r.stepKey)

def Sys.Placed (s : Sys) : Prop :=
  ∀ ⦃k t r b⦄, (s.jobs k).draft = some (t, r) → (s.jobs k).base = some b → r.place = b.place

def Sys.Stays (s s' : Sys) : Prop :=
  ∀ ⦃k b⦄, (s.jobs k).base = some b → ∃ b', (s'.jobs k).base = some b' ∧ b'.place = b.place

lemma Sys.Placed.view (h : s.Placed) (hr : (s.jobs k).view t = some r)
    (hb : (s.jobs k).base = some b) : r.place = b.place := by
  rcases Slot.draft_or_base hr with hd | ⟨-, hb'⟩
  · exact h hd hb
  · rw [some.inj (hb'.symm.trans hb)]

lemma Sys.Placed.released (h : s.Placed) (hrel : Released t s s' x) : s'.Placed ∧ s.Stays s' := by
  constructor
  · intro k u r b hd hb
    obtain ⟨hd, hu⟩ := hrel.draft.mp hd
    exact h hd ((hrel.base_of_draft hd hu).symm.trans hb)
  · intro k b hb
    rcases hrel.base (k := k) with hview | hbase
    · obtain ⟨r, hr⟩ := Slot.exists_view hb t
      exact ⟨r, hview.trans hr, h.view hr hb⟩
    · exact ⟨b, hbase.trans hb, rfl⟩

lemma Sys.Placed.apply (h : s.Placed) (hS : Sound s)
    (he : execStmt env (s.snapshot t) s.fresh x = some e) :
    (s.apply t e).Placed ∧ s.Stays (s.apply t e) := by
  refine ⟨fun k u r b hd hb => ?_, fun k b hb => ⟨b, put_base.trans hb, rfl⟩⟩
  have hb' := put_base.symm.trans hb
  rcases put_draft_some.mp hd with ⟨hw, -⟩ | ⟨-, hd⟩
  · rcases (execStmt_wrote he hw).identity with ⟨r0, hr0, hi⟩ | hborn
    · exact Eq.trans (congrArg (·.2.2) hi) (h.view hr0 hb')
    · rw [hS.born (execStmt_spec he) hborn] at hb'
      cases hb'
  · exact h hd hb'

lemma Sys.Placed.autocommit (h : s.Placed) (hS : Sound s)
    (hw : ∀ k r, w k = some r → ∃ r0, (s.snapshot t).jobs k = some r0 ∧ r.place = r0.place)
    (hs : s.autocommit t w = some s') : s'.Placed ∧ s.Stays s' := by
  obtain ⟨hn, -, rfl⟩ := Sys.autocommit_some hs
  constructor
  · intro k u r b hd hb
    obtain ⟨hk, hd⟩ := store_draft_some hd
    exact h hd ((congrArg Slot.base (store_of_none hk)).symm.trans hb)
  · intro k b hb
    cases hk : w k with
    | none => exact ⟨b, (congrArg Slot.base (store_of_none hk)).trans hb, rfl⟩
    | some r =>
      obtain ⟨r0, hr0, hplace⟩ := hw k r hk
      refine ⟨r, congrArg Slot.base (store_of_some hk), hplace.trans ?_⟩
      rw [some.inj (((hS.view_eq_base hn k).trans hb).symm.trans hr0)]

lemma Sys.Placed.step (h : s.Placed) (hS : Sound s) (hs : s.step a = some s') :
    s'.Placed ∧ s.Stays s' := by
  cases Sys.moves_of_step hs with
  | call hn => exact ⟨h, fun k b hb => ⟨b, hb, rfl⟩⟩
  | exec hx he ha => exact h.apply hS he
  | commit hx hc => exact h.released s.released_commit
  | deadlock | crash => exact h.released s.released_rollback
  | claim hc =>
    refine h.autocommit hS (fun k r hw => ?_) hc
    obtain ⟨r0, hr0, -, rfl⟩ := update_some.mp hw
    exact ⟨r0, hr0, rfl⟩
  | reclaim hr =>
    refine h.autocommit hS (fun k r hw => ?_) hr
    obtain ⟨r0, hr0, -, rfl⟩ := update_some.mp hw
    exact ⟨r0, hr0, rfl⟩

end

section
variable {db : Snapshot}

lemma execTx1_fires (h : execTx1 env db fresh c fork pc = some e) (hf : f ∈ e.fires) :
    ∃ join w, fire db join c.flow fresh .bornZero = some w ∧ w.fire = f := by
  cases execTx1_runs h with
  | bornZero =>
    obtain ⟨w, hw, rfl⟩ := map_eq_some_iff.mp (mem_toList.mp hf)
    exact ⟨_, w, hw, rfl⟩
  | mark | children | adopt | join | plain => cases hf

lemma execTx2_fires (h : execTx2 env db fresh c fork pc = some e) (hf : f ∈ e.fires) :
    ∃ join w, fire db join c.flow fresh .finalize = some w ∧ w.fire = f := by
  cases execTx2_runs h with
  | fire hw => exact ⟨_, _, hw, (mem_singleton.mp hf).symm⟩
  | cascade | append | decrement | deliver | plain => cases hf

lemma execSweep_fires (h : execSweep env db fresh batch pc = some e) (hf : f ∈ e.fires) :
    ∃ n, ∃ w ∈ sweepFire db env.now batch fresh n, w.fire = f := by
  cases pc with
  | sweepFire n =>
    cases h
    exact ⟨n, mem_map.mp hf⟩
  | rederive | rootMaintain =>
    cases h
    cases hf
  | bodies ws rows | outbox rows =>
    cases rows with
    | nil | cons row rows =>
      cases h
      cases hf
  | commit => cases h

lemma pending_of_fires (h : execStmt env db fresh x = some e) (hf : f ∈ e.fires) :
    ∃ r, db.jobs f.joinJob = some r ∧ r.status = .pending := by
  have hfire : ∀ {join flow by' w}, fire db join flow fresh by' = some w → w.fire = f →
      ∃ r, db.jobs f.joinJob = some r ∧ r.status = .pending := by
    rintro join flow by' w hw rfl
    obtain ⟨rfl, -, -, r, hr, -, hpend, -⟩ := fire_some hw
    exact ⟨r, hr, hpend⟩
  cases x with
  | finalize c fork pc =>
    rw [execStmt] at h
    split at h
    · obtain ⟨join, w, hw, hfw⟩ := execTx2_fires h hf
      exact hfire hw hfw
    · obtain ⟨join, w, hw, hfw⟩ := execTx1_fires h hf
      exact hfire hw hfw
  | sweep batch pc =>
    obtain ⟨n, w, hw, rfl⟩ := execSweep_fires h hf
    obtain ⟨-, r, hr, hp⟩ := mem_lockBatch (mem_sweepFire hw).1
    simp only [Bool.and_eq_true, decide_eq_true_eq] at hp
    exact ⟨r, hr, hp.1.1⟩
  | drain batch pc =>
    cases pc with
    | fetch | consumers rows | flip rows =>
      cases h
      cases hf
    | commit => cases h

end

lemma exitSkip_of_live {db : Snapshot} {keys : Finset String} (hr : db.jobs k = some r)
    (hflow : r.inFlow flow = true) (hlive : r.status.terminal = false) (hkey : r.stepKey ∈ keys) :
    exitSkip db flow keys k = some { r with status := .succeeded, result := some .skipped } := by
  refine update_some.mpr ⟨r, hr, ?_, rfl⟩
  rw [hflow, hlive, decide_eq_true hkey]
  rfl

lemma keeps_exitSkip {keys : Finset String} (db : Snapshot) :
    Keeps db (exitSkip db flow keys) := by
  intro k r hw
  obtain ⟨r0, hr0, hp, rfl⟩ := update_some.mp hw
  simp only [Bool.and_eq_true, Bool.not_eq_true'] at hp
  exact ⟨r0, hr0, hp.1.2, rfl⟩

section
variable {compiled : JobId → CompiledFlow} {s s' : ExitSys}

structure ExitSys.Sound (s : ExitSys) : Prop where
  sys : TaskQ.Sound s.sys
  placed : s.sys.Placed

lemma ExitSys.Sound.start {s0 : Sys} (hq : s0.Quiet) (hl : s0.Listed) :
    (ExitSys.start s0).Sound := by
  refine ⟨.of_quiet hq hl, fun k t r b hd => ?_⟩
  rw [ExitSys.start, hq.jobs] at hd
  cases hd

lemma ExitSys.Sound.step (h : s.Sound) (hs : s.step compiled a = some s') :
    s'.Sound ∧ s.sys.Stays s'.sys := by
  have hengine : ∀ {a sys exits}, s.sys.step a = some sys →
      ExitSys.Sound ⟨sys, exits⟩ ∧ s.sys.Stays sys := by
    intro a sys exits hstep
    obtain ⟨hpl, hstays⟩ := h.placed.step h.sys hstep
    exact ⟨⟨h.sys.step hstep, hpl⟩, hstays⟩
  cases a with
  | engine | finalizeExit =>
    obtain ⟨-, hs⟩ := ite_none_left_eq_some.mp hs
    obtain ⟨sys, hstep, rfl⟩ := map_eq_some_iff.mp hs
    exact hengine hstep
  | skip t =>
    obtain ⟨d, -, hs⟩ := bind_eq_some_iff.mp hs
    obtain ⟨sys, hauto, rfl⟩ := map_eq_some_iff.mp hs
    have hn := (Sys.autocommit_some hauto).1
    obtain ⟨hpl, hstays⟩ := h.placed.autocommit h.sys (fun k r hw => by
      obtain ⟨r0, hr0, -, rfl⟩ := update_some.mp hw
      exact ⟨r0, hr0, rfl⟩) hauto
    exact ⟨⟨h.sys.autocommit ((keeps_exitSkip _).spares h.sys hn) hauto, hpl⟩, hstays⟩
  | die t =>
    obtain ⟨-, rfl⟩ := matched hs
    exact ⟨⟨h.sys, h.placed⟩, fun k b hb => ⟨b, hb, rfl⟩⟩

lemma ExitCall.Reaches.of_place {x : ExitCall} (h : x.Reaches compiled r)
    (hp : r'.place = r.place) : x.Reaches compiled r' := by
  obtain ⟨hflow, hkey⟩ := Prod.mk.inj hp
  rw [ExitCall.Reaches, JobRow.inFlow, hflow, hkey]
  exact h

namespace ExitSys

lemma advance_of_applied (hd : s.exits t = some d) (happ : d.applied = true)
    (hok : Undisturbed compiled s (.engine a)) : s.advance a t = some d := by
  cases a with
  | commit u =>
    rw [ExitSys.advance]
    split
    · by_cases hu : t = u
      · subst hu
        rw [update_self, hd, map_some, ← happ]
      · rw [update_of_ne hu, hd]
    · exact hd
  | crash u =>
    rw [ExitSys.advance, update_of_ne, hd]
    rintro rfl
    rw [hok d hd] at happ
    cases happ
  | call | exec | deadlock | claim | reclaim => exact hd

def Stopped (compiled : JobId → CompiledFlow) (s : ExitSys) (k : JobId) : Prop :=
  s.Awaits compiled k ∨ ∃ b, (s.sys.jobs k).base = some b ∧ b.status.terminal = true

lemma Sound.awaits (h : s.Sound) (hs : s.step compiled a = some s')
    (hd' : s'.exits t = some d) (happ : d.applied = true)
    (hr : (s.sys.jobs k).base = some r) (hreach : d.call.Reaches compiled r) :
    s'.Stopped compiled k := by
  obtain ⟨r', hr', hplace⟩ := (h.step hs).2 hr
  exact .inl ⟨t, d, hd', happ, r', hr', hreach.of_place hplace⟩

lemma Stopped.terminal {b : JobRow} (ht : b.status.terminal = true)
    (h : ∃ b', (s.sys.jobs k).base = some b' ∧ b'.status = b.status) : s.Stopped compiled k := by
  obtain ⟨b', hb', hst⟩ := h
  exact .inr ⟨b', hb', hst ▸ ht⟩

lemma Stopped.engine (h : s.Stopped compiled k) (hS : s.Sound)
    (hok : Undisturbed compiled s (.engine a))
    (hs : s.step compiled (.engine a) = some s') : s'.Stopped compiled k := by
  have hs0 := hs
  obtain ⟨-, hs⟩ := ite_none_left_eq_some.mp hs
  obtain ⟨sys, hstep, rfl⟩ := map_eq_some_iff.mp hs
  rcases h with ⟨t, d, hd, happ, r, hr, hreach⟩ | ⟨b, hb, ht⟩
  · exact hS.awaits hs0 (advance_of_applied hd happ hok) happ hr hreach
  · exact .terminal ht (hS.sys.terminal_step hstep hb ht)

lemma Stopped.skip (h : s.Stopped compiled k) (hS : s.Sound)
    (hs : s.step compiled (.skip u) = some s') : s'.Stopped compiled k := by
  have hs0 := hs
  obtain ⟨e, he, hs⟩ := bind_eq_some_iff.mp hs
  obtain ⟨sys, hauto, rfl⟩ := map_eq_some_iff.mp hs
  have hover : ∀ {b}, (s.sys.jobs k).base = some b → b.status.terminal = true →
      ExitSys.Stopped compiled ⟨sys, Function.update s.exits u none⟩ k := fun hb ht =>
    .terminal ht (hS.sys.terminal_autocommit (keeps_exitSkip _) hauto hb ht)
  rcases h with ⟨t, d, hd, happ, r, hr, hreach⟩ | ⟨b, hb, ht⟩
  · by_cases htu : t = u
    · subst htu
      obtain rfl := some.inj (hd.symm.trans he)
      cases ht : r.status.terminal with
      | true => exact hover hr ht
      | false =>
        obtain ⟨hn, -, rfl⟩ := Sys.autocommit_some hauto
        have hview : (s.sys.snapshot t).jobs k = some r := (hS.sys.view_eq_base hn k).trans hr
        have hkey : r.stepKey ∈ d.call.downstream compiled :=
          CompiledFlow.mem_descendantsOf.mpr hreach.2
        have hskip := exitSkip_of_live hview hreach.1 ht hkey
        exact .inr ⟨_, congrArg Slot.base (store_of_some hskip), rfl⟩
    · exact hS.awaits hs0 ((update_of_ne htu ..).trans hd) happ hr hreach
  · exact hover hb ht

lemma Stopped.step (h : s.Stopped compiled k) (hS : s.Sound)
    (hok : Undisturbed compiled s a) (hs : s.step compiled a = some s') :
    s'.Stopped compiled k := by
  cases a with
  | engine a => exact h.engine hS hok hs
  | skip u => exact h.skip hS hs
  | finalizeExit u x =>
    have hs0 := hs
    obtain ⟨hfree, hs⟩ := ite_none_left_eq_some.mp hs
    obtain ⟨sys, hstep, rfl⟩ := map_eq_some_iff.mp hs
    rcases h with ⟨t, d, hd, happ, r, hr, hreach⟩ | ⟨b, hb, ht⟩
    · have htu : t ≠ u := by
        rintro rfl
        exact hfree (isSome_iff_exists.mpr ⟨d, hd⟩)
      exact hS.awaits hs0 ((update_of_ne htu ..).trans hd) happ hr hreach
    · exact .terminal ht (hS.sys.terminal_step hstep hb ht)
  | die u =>
    have hs0 := hs
    obtain ⟨-, hs⟩ := ite_none_right_eq_some.mp hs
    cases hs
    rcases h with ⟨t, d, hd, happ, r, hr, hreach⟩ | ⟨b, hb, ht⟩
    · have htu : t ≠ u := by
        rintro rfl
        rw [hok d hd] at happ
        cases happ
      exact hS.awaits hs0 ((update_of_ne htu ..).trans hd) happ hr hreach
    · exact .inr ⟨b, hb, ht⟩

lemma Stopped.not_claimed (h : s.Stopped compiled k) (hS : s.Sound)
    (hok : Undisturbed compiled s a) : ¬ s.Claims a k := by
  rintro ⟨t, job, worker, now, rfl, hclaim⟩
  obtain ⟨r, hr⟩ := isSome_iff_exists.mp hclaim
  obtain ⟨r0, hr0, hlive, -, rfl, -⟩ := nodeClaim_row hr
  rcases h with hawaits | ⟨b, hb, ht⟩
  · exact hok hawaits
  · rw [hS.sys.view_status hr0 hb ht, ht] at hlive
    cases hlive

lemma Stopped.not_fired (h : s.Stopped compiled k) (hS : s.Sound)
    (hok : Undisturbed compiled s a) : ¬ s.Fires a k := by
  rintro ⟨t, env, rfl, f, hf, rfl⟩
  rcases h with hawaits | ⟨b, hb, ht⟩
  · exact hok f hf hawaits
  rw [Sys.firing] at hf
  cases he : (s.sys.sessions t).bind (execStmt env (s.sys.snapshot t) s.sys.fresh) with
  | none =>
    rw [he] at hf
    cases hf
  | some e =>
    rw [he] at hf
    obtain ⟨x, -, hstmt⟩ := bind_eq_some_iff.mp he
    obtain ⟨r, hr, hpend⟩ := pending_of_fires hstmt hf
    rw [← hS.sys.view_status hr hb ht, hpend] at ht
    cases ht

def Finalizes (compiled : JobId → CompiledFlow) (s : ExitSys) (t : Tx) (d : ExitDriver)
    (s' : ExitSys) : Prop :=
  s.exits t = some d ∧ (s.sys.sessions t).any Session.commitsMark = true ∧
    s.step compiled (.engine (.commit t)) = some s'

lemma Finalizes.awaits (h : s.Finalizes compiled t d s')
    (hr : (s'.sys.jobs k).base = some r) (hreach : d.call.Reaches compiled r) :
    s'.Awaits compiled k := by
  obtain ⟨hd, hmarks, hs⟩ := h
  obtain ⟨sys, hstep, rfl⟩ := map_eq_some_iff.mp hs
  refine ⟨t, { d with applied := true }, ?_, rfl, r, hr, hreach⟩
  dsimp only
  rw [ExitSys.advance, if_pos hmarks, update_self, hd, map_some]

end ExitSys

/-- Once an exit has finalized, no descendant is claimed or fired, if none was until the skip. -/
theorem exit_stops_downstream {s0 : Sys} (hq : s0.Quiet) (hl : s0.Listed)
    (hbefore : Reach (ExitSys.step compiled) (Undisturbed compiled) (ExitSys.start s0) s1)
    (hexit : s1.Finalizes compiled t d s2) (hr : (s2.sys.jobs k).base = some r)
    (hreaches : d.call.Reaches compiled r)
    (hafter : Reach (ExitSys.step compiled) (Undisturbed compiled) s2 s3)
    (hok : Undisturbed compiled s3 a) : ¬ s3.Claims a k ∧ ¬ s3.Fires a k := by
  have hsound1 : s1.Sound := hbefore.invariant (ExitSys.Sound.start hq hl)
    fun _ _ _ h _ hs => (h.step hs).1
  have hsound2 := (hsound1.step hexit.2.2).1
  have hall : s3.Sound ∧ s3.Stopped compiled k := by
    refine hafter.invariant (I := fun s => s.Sound ∧ s.Stopped compiled k)
      ⟨hsound2, .inl (hexit.awaits hr hreaches)⟩ ?_
    rintro s b s' ⟨hS, hstopped⟩ hok hs
    exact ⟨(hS.step hs).1, hstopped.step hS hok hs⟩
  exact ⟨hall.2.not_claimed hall.1 hok, hall.2.not_fired hall.1 hok⟩

end

def stepDecl (parents : List String) : NodeDecl := { actor := "step", queue := "default", parents }

def exitNodes (parents : List String) : List (String × NodeDecl) :=
  [("a", stepDecl []), ("b", stepDecl []), ("c", stepDecl parents)]

lemma exitNodes_keyed : ((exitNodes parents).map Prod.fst).Nodup := by
  change ["a", "b", "c"].Nodup
  decide

lemma exitNodes_kind (h : (key, n) ∈ exitNodes parents) : n.kind = .step := by
  simp only [exitNodes, mem_cons, not_mem_nil, or_false, Prod.mk.injEq] at h
  rcases h with ⟨-, rfl⟩ | ⟨-, rfl⟩ | ⟨-, rfl⟩
  all_goals rfl

lemma exitNodes_joinKey (h : (key, n) ∈ exitNodes parents) (hkind : n.kind = .mapJoin) :
    ∃ source, key = source ++ ".join" := by
  rw [exitNodes_kind h] at hkind
  cases hkind

def exitFlow (parents : List String) : CompiledFlow :=
  ⟨exitNodes parents, exitNodes_keyed, exitNodes_joinKey⟩

def rowC (parents : List String) : JobRow :=
  parents.foldl (fun r _ => incrementDeps r) (staticRow 0 "" none "c" (stepDecl parents))

def runningRow (key : String) (worker : WorkerId) : JobRow :=
  { staticRow 0 "" none key (stepDecl []) with
    status := .running, attempt := 1, lockedByWorker := some worker, claimEpoch := some 0 }

def exitRun (parents : List String) : Sys :=
  .ofRows [flowRootRow 0 none, runningRow "a" 7, runningRow "b" 8, rowC parents]
    (parents.map fun p => { child := 3, parent := if p = "a" then 1 else 2, flow := 0 })

def exitA : ExitCall :=
  { flow := 0, job := 1, stepKey := "a", worker := 7, attempt := 1, payload := "done" }

lemma reaches_exitA {r : JobRow} (ha : "a" ∈ parents) (hflow : r.inFlow 0 = true)
    (hkey : r.stepKey = "c") : exitA.Reaches (fun _ => exitFlow parents) r := by
  refine ⟨hflow, .single ⟨stepDecl parents, ?_, ha⟩⟩
  rw [hkey]
  exact mem_cons_of_mem _ (mem_cons_of_mem _ mem_cons_self)

def exitTx1 : List ExitEvent := [.finalizeExit 1 exitA, .engine (.exec 1 {}), .engine (.exec 1 {})]

/-- `c` waits for `a` only: the exit itself fires it, and it is claimed before the skip. -/
theorem released_descendant_claimed : ∃ s1 s2 s3 : ExitSys, ∃ d r a,
      Reach (ExitSys.step fun _ => exitFlow ["a"]) (fun _ _ => True) (.start (exitRun ["a"])) s1 ∧
      s1.Finalizes (fun _ => exitFlow ["a"]) 1 d s2 ∧ (s2.sys.jobs 3).base = some r ∧
      r.status.terminal = false ∧ d.call.Reaches (fun _ => exitFlow ["a"]) r ∧
      Reach (ExitSys.step fun _ => exitFlow ["a"]) (fun _ _ => True) s2 s3 ∧
      s3.sys.sessions 1 = none ∧ s3.Claims a 3 ∧
      (s3.step (fun _ => exitFlow ["a"]) a).isSome = true := by
  let compiled : JobId → CompiledFlow := fun _ => exitFlow ["a"]
  let s1 := final (ExitSys.step compiled) (.start (exitRun ["a"])) exitTx1
  let s2 := final (ExitSys.step compiled) s1 [.engine (.commit 1)]
  let tx2 : List ExitEvent :=
    [.engine (.exec 1 {}), .engine (.exec 1 {}), .engine (.exec 1 {}), .engine (.commit 1)]
  let s3 := final (ExitSys.step compiled) s2 tx2
  have hbefore : Reach (ExitSys.step compiled) (fun _ _ => True) (.start _) s1 :=
    .of_final (by decide +kernel)
  have hexit : s1.Finalizes compiled 1 ⟨exitA, false⟩ s2 :=
    ⟨by decide +kernel, by decide +kernel, step_final (by decide +kernel)⟩
  have hrow : (s2.sys.jobs 3).base = some (rowC ["a"]) := by decide +kernel
  have hafter : Reach (ExitSys.step compiled) (fun _ _ => True) s2 s3 :=
    .of_final (by decide +kernel)
  have hreturned : (s3.sys.sessions 1).isNone = true := by decide +kernel
  have hreaches : exitA.Reaches compiled (rowC ["a"]) :=
    reaches_exitA mem_cons_self (by decide +kernel) (by decide +kernel)
  have hclaims : s3.Claims (.engine (.claim 2 3 8 0)) 3 := ⟨2, 3, 8, 0, rfl, by decide +kernel⟩
  have hstep : (s3.step compiled (.engine (.claim 2 3 8 0))).isSome = true := by decide +kernel
  exact ⟨s1, s2, s3, _, _, _, hbefore, hexit, hrow, by decide +kernel, hreaches, hafter,
    isNone_iff_eq_none.mp hreturned, hclaims, hstep⟩

def leavesAlone (s : ExitSys) : ExitEvent → Bool
  | .engine (.claim ..) => false
  | .engine (.exec t env) => (s.sys.firing t env).isEmpty
  | .engine (.crash t) | .die t => (s.exits t).all fun d => !d.applied
  | _ => true

lemma undisturbed_of_leavesAlone (h : leavesAlone s a = true) : Undisturbed compiled s a := by
  have hdies : ∀ {t}, ((s.exits t).all fun d => !d.applied) = true →
      ∀ d, s.exits t = some d → d.applied = false := by
    intro t hall d hd
    simpa [hd] using hall
  cases a with
  | engine a =>
    cases a with
    | claim => cases h
    | exec t env =>
      intro f hf
      rw [isEmpty_iff.mp h] at hf
      cases hf
    | crash t => exact hdies h
    | call | commit | deadlock | reclaim => trivial
  | die t => exact hdies h
  | finalizeExit | skip => trivial

def finalizeB : FinalizeCall :=
  { job := 2, flow := 0, stepKey := "b", worker := 8, attempt := 1, claimEpoch := some 0
    outcome := succeededOutcome }

theorem waiting_descendant_skipped :
    ∃ s3 : ExitSys, (s3.sys.jobs 3).base.any (fun r => r.status = .succeeded) = true ∧
      (s3.step (fun _ => exitFlow ["a", "b"]) (.engine (.exec 2 {}))).isSome = true ∧
      ¬ s3.Claims (.engine (.exec 2 {})) 3 ∧ ¬ s3.Fires (.engine (.exec 2 {})) 3 := by
  let compiled : JobId → CompiledFlow := fun _ => exitFlow ["a", "b"]
  let s1 := final (ExitSys.step compiled) (.start (exitRun ["a", "b"])) exitTx1
  let s2 := final (ExitSys.step compiled) s1 [.engine (.commit 1)]
  let rest : List ExitEvent :=
    [.engine (.exec 1 {}), .engine (.exec 1 {}), .engine (.commit 1), .skip 1,
      .engine (.call 2 (.finalizeNode finalizeB none)), .engine (.exec 2 {}), .engine (.exec 2 {}),
      .engine (.commit 2)]
  let s3 := final (ExitSys.step compiled) s2 rest
  have hbefore : Reach (ExitSys.step compiled) (Undisturbed compiled) (.start _) s1 :=
    .of_exec (exec_final (by decide +kernel)) (.of_checks leavesAlone (by decide +kernel)
      fun _ _ => undisturbed_of_leavesAlone)
  have hexit : s1.Finalizes compiled 1 ⟨exitA, false⟩ s2 :=
    ⟨by decide +kernel, by decide +kernel, step_final (by decide +kernel)⟩
  have hrow : (s2.sys.jobs 3).base = some (rowC ["a", "b"]) := by decide +kernel
  have hreaches : exitA.Reaches compiled (rowC ["a", "b"]) :=
    reaches_exitA mem_cons_self (by decide +kernel) (by decide +kernel)
  have hafter : Reach (ExitSys.step compiled) (Undisturbed compiled) s2 s3 :=
    .of_exec (exec_final (by decide +kernel)) (.of_checks leavesAlone (by decide +kernel)
      fun _ _ => undisturbed_of_leavesAlone)
  have hok : Undisturbed compiled s3 (.engine (.exec 2 {})) :=
    undisturbed_of_leavesAlone (by decide +kernel)
  exact ⟨s3, by decide +kernel, by decide +kernel, exit_stops_downstream (Sys.quiet_ofRows _ _)
    (Sys.listed_ofRows _ _) hbefore hexit hrow hreaches hafter hok⟩

end TaskQ
