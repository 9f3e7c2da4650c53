import TaskQ.EarlyExit
import TaskQ.LoopEscalation
import TaskQ.Release

namespace TaskQ
open JobStatus Bool List

structure StateChange where
  job : JobId
  (fromState toState : JobStatus)
  workerId : Option WorkerId := none
  errorClass : Option String := none
  reason : Option String := none

inductive TerminalStmt where
  | terminalMark (c : FinalizeCall)
  | loopExhaust (x : LoopExhaust)
  | exitSkip (flow : JobId) (keys : Finset String)
  | failClosedCascade (c : FinalizeCall)
  | cancelRoot (flow : JobId) (reason : String)
  | cancelNodes (flow : JobId)
  | workflowRootMaintain (batch : Nat)

def TerminalStmt.writes (db : Snapshot) : TerminalStmt → Writes
  | .terminalMark c => TaskQ.terminalMark db c
  | .loopExhaust x => TaskQ.loopExhaust db x
  | .exitSkip flow stepKeys => TaskQ.exitSkip db flow stepKeys
  | .failClosedCascade c => TaskQ.failClosedCascade db c
  | .cancelRoot flow reason => TaskQ.cancelRoot db flow reason
  | .cancelNodes flow => TaskQ.cancelNodes db flow
  | .workflowRootMaintain batch => TaskQ.workflowRootMaintain db batch

/-- The `evt` arm of a statement: the event of a row that its `UPDATE` returns. -/
def TerminalStmt.evt (k : JobId) (r : JobRow) : TerminalStmt → Option StateChange
  | .terminalMark c => some
      { job := k, fromState := .running, toState := c.outcome.1, workerId := some c.worker
        errorClass := c.errorClass }
  | .cancelRoot .. => some
      { job := k, fromState := .running, toState := r.status
        errorClass := some workflowCancelledClass }
  | .cancelNodes _ =>
    if r.status = .cancelled then some
      { job := k, fromState := .pending, toState := r.status
        errorClass := some workflowCancelledClass }
    else none
  -- the roots that the statement only locks are not among its `maintained` rows
  | .workflowRootMaintain _ =>
    if r.status.terminal then some
      { job := k, fromState := .running, toState := r.status
        reason := some "workflow-maintained" }
    else none
  | .loopExhaust _ | .exitSkip .. | .failClosedCascade _ => none

def TerminalStmt.events (db : Snapshot) (s : TerminalStmt) : List StateChange :=
  db.ids.filterMap fun k => (s.writes db k).bind fun r => s.evt k r

def terminalized (db : Snapshot) (w : Writes) (k : JobId) : Option (JobStatus × JobStatus) :=
  (db.jobs k).bind fun r => (w k).bind fun r' =>
    if r'.status.terminal ∧ r.status ≠ r'.status then some (r.status, r'.status) else none

def StateChange.states (e : StateChange) : JobStatus × JobStatus := (e.fromState, e.toState)

/-- Just the rows a statement moves to a terminal status have an event, with both statuses. -/
def OnTrail (db : Snapshot) (s : TerminalStmt) : Prop :=
  ∀ k, ((s.events db).filter fun e => e.job = k).map StateChange.states =
    (terminalized db (s.writes db) k).toList

def TerminalStmt.Recorded (db : Snapshot) : TerminalStmt → Prop
  | .terminalMark _ | .workflowRootMaintain _ => True
  | .cancelRoot flow _ => ∀ r, db.jobs flow = some r → r.status ≠ .pending ∧ r.status ≠ .scheduled
  | .cancelNodes flow => ∀ k r, db.jobs k = some r → r.inFlow flow = true → r.status ≠ .scheduled
  | .loopExhaust x => ∀ r, db.jobs x.job = some r → x.hits x.job r = false
  | .exitSkip flow stepKeys => ∀ k r, db.jobs k = some r → r.inFlow flow = true →
      r.stepKey ∈ stepKeys → r.status.terminal = true
  | .failClosedCascade c => ∀ k r, db.jobs k = some r → cascadeBlocks db c.job k r = false →
      cascadePeer db c.job k r = false ∧ cascadeRoot db c.job c.flow k r = false

section
variable {db : Snapshot} {s : TerminalStmt}

lemma TerminalStmt.writes_row (h : s.writes db k = some r) : ∃ r0, db.jobs k = some r0 := by
  cases s with
  | terminalMark | loopExhaust | exitSkip | failClosedCascade | cancelRoot | cancelNodes
  | workflowRootMaintain =>
    simp only [writes, TaskQ.terminalMark, TaskQ.loopExhaust, TaskQ.exitSkip,
      TaskQ.failClosedCascade, TaskQ.cancelRoot, TaskQ.cancelNodes, TaskQ.workflowRootMaintain] at h
    obtain ⟨r0, hr0, -⟩ := update_some.mp h
    exact ⟨r0, hr0⟩

lemma TerminalStmt.evt_job (h : s.evt k r = some e) : e.job = k := by
  cases s with
  | terminalMark | cancelRoot => exact Option.some.inj h ▸ rfl
  | cancelNodes | workflowRootMaintain =>
    rw [evt] at h
    split at h
    · exact Option.some.inj h ▸ rfl
    · cases h
  | loopExhaust | exitSkip | failClosedCascade => cases h

lemma filter_filterMap {ids : List JobId} {f : JobId → Option StateChange} (h : ids.Nodup)
    (hf : ∀ k e, f k = some e → e.job = k) :
    (ids.filterMap f).filter (fun e => e.job = k) = if k ∈ ids then (f k).toList else [] := by
  induction ids with
  | nil => rfl
  | cons i ids ih =>
    obtain ⟨hi, hids⟩ := nodup_cons.mp h
    rw [filterMap_cons]
    by_cases hk : k = i
    · subst hk
      have hrest : (ids.filterMap f).filter (fun e => e.job = k) = [] := by
        rw [ih hids, if_neg hi]
      rw [if_pos mem_cons_self]
      cases he : f k with
      | none => exact hrest
      | some e =>
        rw [filter_cons_of_pos (by simpa using hf k e he), hrest]
        rfl
    · have hmem : k ∈ i :: ids ↔ k ∈ ids := by simp [hk]
      simp only [hmem]
      cases he : f i with
      | none => exact ih hids
      | some e =>
        rw [filter_cons_of_neg, ih hids]
        simpa [hf i e he] using fun h => hk h.symm

lemma toList_inj {a b : Option α} (h : a.toList = b.toList) : a = b := by
  cases a <;> cases b <;> simp_all

section
variable (hids : db.ids.Nodup) (hall : ∀ k r, db.jobs k = some r → k ∈ db.ids)
include hids hall

lemma onTrail_iff : OnTrail db s ↔ ∀ k r r', db.jobs k = some r → s.writes db k = some r' →
      (s.evt k r').map StateChange.states =
        if r'.status.terminal ∧ r.status ≠ r'.status then some (r.status, r'.status) else none := by
  have hfilt : ∀ k, (s.events db).filter (fun e => e.job = k) =
      ((s.writes db k).bind fun r => s.evt k r).toList := by
    intro k
    rw [TerminalStmt.events, filter_filterMap hids]
    · split
      · rfl
      next hk =>
        cases hw : s.writes db k with
        | none => rfl
        | some r =>
          obtain ⟨r0, hr0⟩ := TerminalStmt.writes_row hw
          exact absurd (hall k r0 hr0) hk
    · intro k e he
      obtain ⟨r, -, he⟩ := Option.bind_eq_some_iff.mp he
      exact TerminalStmt.evt_job he
  have hstates : ∀ o : Option StateChange, o.toList.map StateChange.states =
      (o.map StateChange.states).toList := by
    intro o
    cases o <;> rfl
  constructor
  · intro h k r r' hr hr'
    have hk := h k
    rw [hfilt, hstates, hr', terminalized, hr, hr'] at hk
    exact toList_inj hk
  · intro h k
    rw [hfilt, hstates, terminalized]
    cases hw : s.writes db k with
    | none => cases db.jobs k <;> rfl
    | some r' =>
      obtain ⟨r, hr⟩ := TerminalStmt.writes_row hw
      rw [hr]
      exact congrArg Option.toList (h k r r' hr hw)

lemma silent_iff (hs : ∀ k r, s.evt k r = none) :
    OnTrail db s ↔ ∀ k r r', db.jobs k = some r → s.writes db k = some r' →
      ¬ (r'.status.terminal = true ∧ r.status ≠ r'.status) := by
  rw [onTrail_iff hids hall]
  constructor
  · intro h k r r' hr hr' hc
    have := h k r r' hr hr'
    rw [hs, if_pos hc] at this
    cases this
  · intro h k r r' hr hr'
    rw [hs, if_neg (h k r r' hr hr')]
    rfl

lemma terminalMark_onTrail : OnTrail db (.terminalMark c) := by
  rw [onTrail_iff hids hall]
  intro k r r' hr hw
  obtain ⟨-, hs', r0, hr0, hs, -⟩ := terminalMark_row hw
  cases hr.symm.trans hr0
  have hne : r.status ≠ r'.status := by
    intro he
    have hterm := c.outcome.2
    rw [← hs', ← he, hs] at hterm
    cases hterm
  rw [if_pos ⟨hs' ▸ c.outcome.2, hne⟩, hs, hs']
  rfl

lemma workflowRootMaintain_onTrail : OnTrail db (.workflowRootMaintain batch) := by
  rw [onTrail_iff hids hall]
  intro k r r' hr hw
  obtain ⟨r0, hr0, -, hs⟩ := workflowRootMaintain_row hw
  cases hr.symm.trans hr0
  rw [TerminalStmt.evt]
  by_cases hterm : r'.status.terminal = true
  · have hne : r.status ≠ r'.status := by
      intro he
      rw [← he, hs] at hterm
      cases hterm
    rw [if_pos hterm, if_pos ⟨hterm, hne⟩, hs]
    rfl
  · rw [if_neg hterm, if_neg fun hc => hterm hc.1]
    rfl

lemma cancelRoot_onTrail_iff : OnTrail db (.cancelRoot flow reason) ↔
      ∀ r, db.jobs flow = some r → r.status ≠ .pending ∧ r.status ≠ .scheduled := by
  rw [onTrail_iff hids hall]
  constructor
  · intro h r hr
    by_cases hterm : r.status.terminal = true
    · constructor <;> intro hs <;> rw [hs] at hterm <;> cases hterm
    have hw : cancelRoot db flow reason flow = some _ :=
      update_some.mpr ⟨r, hr, by simpa using hterm, rfl⟩
    have := h flow r _ hr hw
    rw [if_pos ⟨rfl, fun he => hterm (by rw [he]; rfl)⟩] at this
    have hs : running = r.status := congrArg Prod.fst (Option.some.inj this)
    rw [← hs]
    exact ⟨nofun, nofun⟩
  · intro h k r r' hr hw
    change cancelRoot db flow reason k = some r' at hw
    obtain ⟨r0, hr0, hp, rfl⟩ := update_some.mp hw
    cases hr.symm.trans hr0
    have hs : r.status = .running := by
      cases hs : r.status <;> simp_all [terminal]
    rw [if_pos ⟨rfl, by rw [hs]; nofun⟩, hs]
    rfl

lemma cancelNodes_onTrail_iff : OnTrail db (.cancelNodes flow) ↔
      ∀ k r, db.jobs k = some r → r.inFlow flow = true → r.status ≠ .scheduled := by
  rw [onTrail_iff hids hall]
  constructor
  · intro h k r hr hflow hs
    have hw : cancelNodes db flow k = some _ :=
      update_some.mpr ⟨r, hr, by simp [hflow, hs, terminal], rfl⟩
    have := h k r _ hr hw
    simp [TerminalStmt.evt, hs, terminal, StateChange.states] at this
  · intro h k r r' hr hw
    change cancelNodes db flow k = some r' at hw
    obtain ⟨r0, hr0, hp, rfl⟩ := update_some.mp hw
    cases hr.symm.trans hr0
    simp only [and_eq_true, not_eq_true'] at hp
    have hscheduled := h k r hr hp.1
    cases hs : r.status with
    | pending => simp [TerminalStmt.evt, terminal, StateChange.states]
    | running => simp [TerminalStmt.evt, terminal]
    | scheduled => exact absurd hs hscheduled
    | succeeded | failed | cancelled | crashed | abandoned =>
      rw [hs] at hp
      cases hp.2

lemma loopExhaust_onTrail_iff :
    OnTrail db (.loopExhaust x) ↔ ∀ r, db.jobs x.job = some r → x.hits x.job r = false := by
  rw [silent_iff hids hall fun _ _ => rfl]
  constructor
  · intro h r hr
    rw [eq_false_iff]
    intro hhits
    have hw : loopExhaust db x x.job = some _ :=
      update_some.mpr ⟨r, hr, by rw [hhits]; rfl, rfl⟩
    apply h x.job r _ hr hw
    rw [if_pos hhits]
    refine ⟨rfl, ?_⟩
    intro hs
    simp [LoopExhaust.hits, hs] at hhits
  · intro h k r r' hr hw
    exfalso
    change loopExhaust db x k = some r' at hw
    obtain ⟨r0, hr0, hp, -⟩ := update_some.mp hw
    have hflow : x.flow? db = none := by
      rw [LoopExhaust.flow?]
      cases hj : db.jobs x.job with
      | none => rfl
      | some j => simp [h j hj]
    rw [hflow] at hp
    have hhits : x.hits k r0 = true := by simpa using hp
    obtain rfl : k = x.job := by
      simp only [LoopExhaust.hits, and_eq_true, decide_eq_true_eq] at hhits
      exact hhits.1.1.1.1
    rw [h r0 hr0] at hhits
    cases hhits

end

lemma exitSkip_onTrail_iff {stepKeys : Finset String} (hids : db.ids.Nodup)
    (hall : ∀ k r, db.jobs k = some r → k ∈ db.ids) :
    OnTrail db (.exitSkip flow stepKeys) ↔ ∀ k r, db.jobs k = some r → r.inFlow flow = true →
      r.stepKey ∈ stepKeys → r.status.terminal = true := by
  rw [silent_iff hids hall fun _ _ => rfl]
  constructor
  · intro h k r hr hflow hkey
    by_contra hterm
    have hw : exitSkip db flow stepKeys k = some _ :=
      update_some.mpr ⟨r, hr, by simp [hflow, hkey, hterm], rfl⟩
    apply h k r _ hr hw
    refine ⟨rfl, ?_⟩
    intro hs
    exact hterm (by rw [hs]; rfl)
  · intro h k r r' hr hw
    exfalso
    change exitSkip db flow stepKeys k = some r' at hw
    obtain ⟨r0, hr0, hp, -⟩ := update_some.mp hw
    simp only [and_eq_true, not_eq_true', decide_eq_true_eq] at hp
    rw [h k r0 hr0 hp.1.1 hp.2] at hp
    cases hp.1.2

lemma failClosedCascade_onTrail_iff (hids : db.ids.Nodup)
    (hall : ∀ k r, db.jobs k = some r → k ∈ db.ids) :
    OnTrail db (.failClosedCascade c) ↔ ∀ k r, db.jobs k = some r →
      cascadeBlocks db c.job k r = false →
        cascadePeer db c.job k r = false ∧ cascadeRoot db c.job c.flow k r = false := by
  rw [silent_iff hids hall fun _ _ => rfl]
  constructor
  · intro h k r hr hblocks
    by_contra hc
    have hsome : cascadePeer db c.job k r = true ∨ cascadeRoot db c.job c.flow k r = true := by
      cases hp : cascadePeer db c.job k r <;> cases hq : cascadeRoot db c.job c.flow k r <;>
        simp_all
    have hterm : r.status.terminal = false := by
      rcases hsome with hp | hp
      · simp only [cascadePeer, and_eq_true, not_eq_true'] at hp
        exact hp.1.2
      · simp only [cascadeRoot, and_eq_true, not_eq_true'] at hp
        exact hp.1.2
    have hw : failClosedCascade db c k = some _ :=
      update_some.mpr ⟨r, hr, by rcases hsome with hp | hp <;> simp [hp], rfl⟩
    apply h k r _ hr hw
    rw [if_neg (by rw [hblocks]; exact false_ne_true)]
    split
    · refine ⟨rfl, fun hs => ?_⟩
      rw [hs] at hterm
      cases hterm
    · refine ⟨rfl, fun hs => ?_⟩
      rw [hs] at hterm
      cases hterm
  · intro h k r r' hr hw hc
    change failClosedCascade db c k = some r' at hw
    obtain ⟨r0, hr0, hp, rfl⟩ := update_some.mp hw
    cases hr.symm.trans hr0
    cases hb : cascadeBlocks db c.job k r with
    | true =>
      rw [if_pos hb] at hc
      exact hc.2 rfl
    | false =>
      obtain ⟨hpeer, hroot⟩ := h k r hr hb
      rw [hb, hpeer, hroot] at hp
      cases hp

/-- The trail of a statement is true exactly if the rows are recorded. -/
theorem event_trail_iff (db : Snapshot) (s : TerminalStmt) (hids : db.ids.Nodup)
    (hall : ∀ k r, db.jobs k = some r → k ∈ db.ids) : OnTrail db s ↔ s.Recorded db := by
  cases s with
  | terminalMark => exact iff_of_true (terminalMark_onTrail hids hall) trivial
  | workflowRootMaintain => exact iff_of_true (workflowRootMaintain_onTrail hids hall) trivial
  | cancelRoot => exact cancelRoot_onTrail_iff hids hall
  | cancelNodes => exact cancelNodes_onTrail_iff hids hall
  | loopExhaust => exact loopExhaust_onTrail_iff hids hall
  | exitSkip => exact exitSkip_onTrail_iff hids hall
  | failClosedCascade => exact failClosedCascade_onTrail_iff hids hall

def rowsOf (rows : List JobRow) (edges : List Edge) : Snapshot where
  ids := range rows.length
  jobs k := rows[k]?
  jobLocked _ := false
  edges
  fires := []
  outbox := []
  outboxLocked _ := false
  ledger := []

lemma rowsOf_listed (h : (rowsOf rows edges).jobs k = some r) : k ∈ (rowsOf rows edges).ids :=
  List.mem_range.mpr (List.getElem?_eq_some_iff.mp h).1

def trailRow (stepKey : String) (status : JobStatus) : JobRow :=
  { stepKey, status, metadata := { flowId := some 0 } }

/-- A pending root and a scheduled node are mislabelled, and three statements write no event. -/
theorem trail_untrue :
    let started := rowsOf [trailRow rootStepKey .pending, trailRow "a" .scheduled] []
    let joined : JobRow := { trailRow "j" .pending with
      depsPending := 2, metadata := { flowId := some 0, blockingReason := some .join } }
    let running := rowsOf [trailRow rootStepKey .running, trailRow "a" .running,
      trailRow "b" .failed, joined]
      [{ child := 3, parent := 1, flow := 0 }, { child := 3, parent := 2, flow := 0 }]
    let failing : FinalizeCall :=
      { job := 2, flow := 0, stepKey := "b", worker := 1, attempt := 1, claimEpoch := none
        outcome := ⟨.failed, rfl⟩ }
    let exhaust : LoopExhaust := ⟨1, "IterationLimitExhausted", "", none, 0, none⟩
    (TerminalStmt.events started (.cancelRoot 0 "")).map StateChange.states =
      [(.running, .cancelled)] ∧
    terminalized started (cancelRoot started 0 "") 0 = some (.pending, .cancelled) ∧
    ((TerminalStmt.events started (.cancelNodes 0)).filter (fun e => e.job = 1)).map
      StateChange.states = [(.pending, .cancelled)] ∧
    terminalized started (cancelNodes started 0) 1 = some (.scheduled, .cancelled) ∧
    TerminalStmt.events running (.exitSkip 0 {"a"}) = [] ∧
    terminalized running (exitSkip running 0 {"a"}) 1 = some (.running, .succeeded) ∧
    TerminalStmt.events running (.loopExhaust exhaust) = [] ∧
    terminalized running (loopExhaust running exhaust) 1 = some (.running, .failed) ∧
    TerminalStmt.events running (.failClosedCascade failing) = [] ∧
    terminalized running (failClosedCascade running failing) 1 = some (.running, .cancelled) ∧
    terminalized running (failClosedCascade running failing) 0 = some (.running, .failed) := by
  decide +kernel

theorem event_trail_pendingNodes : OnTrail
      (rowsOf [trailRow rootStepKey .running, trailRow "a" .running, trailRow "b" .pending] [])
      (.cancelNodes 0) := by
  apply (event_trail_iff _ _ nodup_range fun k r => rowsOf_listed).mpr
  intro k r hr _ hs
  have hall : ∀ r ∈ [trailRow rootStepKey .running, trailRow "a" .running, trailRow "b" .pending],
      r.status ≠ .scheduled := by decide
  exact hall r (mem_of_getElem? hr) hs

end

end TaskQ
