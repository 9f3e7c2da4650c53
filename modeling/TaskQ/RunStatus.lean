import TaskQ.Claims
import TaskQ.Dict
import TaskQ.Sweep

namespace TaskQ
open List Function JobStatus Bool

inductive WorkflowStatus where
  | running | failed | blocked | complete | cancelled | pending
  deriving DecidableEq

structure NodeView where
  status : JobStatus
  depsPending : Nat := 0
  blockingReason : Option BlockingReason := none
  held : Bool := false
  absorbed : Bool := false
  cancelInFlight : Bool := false

namespace NodeView

def isBlockedRow (n : NodeView) : Bool :=
  n.status = .pending && (n.held || n.depsPending > 0 ||
    n.blockingReason.any fun reason => reason ≠ .join && reason ≠ .bodyUnavailable)

def countsFailed (n : NodeView) : Bool := n.status = .failed && !n.absorbed

def folded (n : NodeView) : NodeView := if n.status.crashClass then { n with status := .failed } else n

end NodeView

/-- `derive_workflow_status`. No job has the status `skipped` that its fourth row also names. -/
def deriveWorkflowStatus (views : List NodeView) : WorkflowStatus :=
  let nodes := views.map NodeView.folded
  if nodes.any (fun n => n.status = .running) || nodes.any NodeView.cancelInFlight then .running
  else if nodes.any NodeView.countsFailed then .failed
  else if nodes.any NodeView.isBlockedRow then .blocked
  else if !nodes.isEmpty &&
      nodes.all (fun n => n.status = .succeeded || n.status = .failed || n.absorbed) then .complete
  else if nodes.any (fun n => n.status = .cancelled) then .cancelled
  else .pending

section
variable (db : Snapshot) (flow : JobId)

/-- `_LEDGER_TERMINALS_SQL`, which has no `ORDER BY`. -/
def ledgerTerminals : List (String × JobStatus) :=
  db.ledger.filterMap fun l =>
    if l.flow = flow then
      match l.status with
      | .done .succeeded => some (l.stepKey, .succeeded)
      | .done .failed => some (l.stepKey, .failed)
      | _ => none
    else none

def absorbedKeys : List String :=
  ((nodesOf db flow).filter fun n => absorbed db n.1 && n.2.status.terminal).map fun n => n.2.stepKey

def ledgerByKey (arrived : List (String × JobStatus)) : List (String × JobStatus) :=
  arrived.foldl (fun d r => Dict.set r.1 r.2 d) []

variable (arrived : List (String × JobStatus))

def reconstructedStatus (r : JobRow) : JobStatus :=
  if r.status = .pending then ((ledgerByKey arrived).lookup r.stepKey).getD r.status else r.status

def rowView (r : JobRow) : NodeView where
  status := reconstructedStatus arrived r
  depsPending := r.depsPending
  blockingReason := r.metadata.blockingReason
  absorbed := r.stepKey ∈ absorbedKeys db flow

def neverGranted : List (JobId × JobRow) :=
  (nodesOf db flow).filter fun n => n.2.status = .cancelled || n.2.status.crashClass

def reconstructedViews : List NodeView :=
  (nodesOf db flow).map (fun n => rowView db flow arrived n.2) ++
    (neverGranted db flow).map fun n => { status := n.2.status }

def reconstructWorkflowStatus : WorkflowStatus :=
  deriveWorkflowStatus (reconstructedViews db flow arrived)

def Failing (n : JobId × JobRow) : Prop :=
  n.2.status.crashClass = true ∨
    (n.2.status = .failed ∨
      n.2.status = .pending ∧ (ledgerByKey arrived).lookup n.2.stepKey = some .failed) ∧
    n.2.stepKey ∉ absorbedKeys db flow

end

def reported : JobStatus → WorkflowStatus
  | .succeeded => .complete
  | .failed => .failed
  | .cancelled => .cancelled
  | .running => .running
  | .crashed | .abandoned => .failed
  | .pending | .scheduled => .pending

section
variable {db : Snapshot} {flow : JobId} {arrived : List (String × JobStatus)}

structure Moved (db : Snapshot) (batch : Nat) (flow : JobId) (r : JobRow) : Prop where
  root : flow ∈ maintainedRoots db batch
  nodes : nodesOf db flow ≠ []
  verdict : hasFailed db flow = true ∧ hasUnresolved db flow = false ∨ hasLive db flow = false
  status : r.status = if hasFailed db flow then .failed
    else if hasCancelled db flow then .cancelled else .succeeded

lemma workflowRootMaintain_moved (h : workflowRootMaintain db batch flow = some r)
    (hr : r.status.terminal = true) : Moved db batch flow r := by
  obtain ⟨r0, hr0, -, hrun⟩ := workflowRootMaintain_row h
  obtain ⟨r1, hr1, hp, rfl⟩ := update_some.mp h
  cases hr0.symm.trans hr1
  by_cases hc : (nodesOf db flow).length ≠ 0 ∧
      ((hasFailed db flow && !hasUnresolved db flow) || !hasLive db flow) = true
  · have hverd := hc.2
    simp only [or_eq_true, and_eq_true, not_eq_true'] at hverd
    exact ⟨of_decide_eq_true hp, fun hnil => hc.1 (by rw [hnil]; rfl), hverd, by rw [if_pos hc]⟩
  · rw [if_neg hc, hrun] at hr
    cases hr

lemma workflowRootMaintain_moves (hroot : flow ∈ maintainedRoots db batch)
    (hnodes : nodesOf db flow ≠ [])
    (hverd : hasFailed db flow = true ∧ hasUnresolved db flow = false ∨
      hasLive db flow = false) :
    ∃ r, workflowRootMaintain db batch flow = some r ∧ r.status.terminal = true := by
  obtain ⟨-, r0, hr0, -⟩ := mem_lockBatch hroot
  refine ⟨_, update_some.mpr ⟨r0, hr0, decide_eq_true hroot, rfl⟩, ?_⟩
  have hc : (nodesOf db flow).length ≠ 0 ∧
      ((hasFailed db flow && !hasUnresolved db flow) || !hasLive db flow) = true := by
    refine ⟨fun hlen => hnodes (length_eq_zero_iff.mp hlen), ?_⟩
    simpa only [or_eq_true, and_eq_true, not_eq_true'] using hverd
  rw [if_pos hc]
  split
  · rfl
  · split <;> rfl

lemma Moved.not_running (h : Moved db batch flow r) (hn : n ∈ nodesOf db flow) :
    n.2.status ≠ .running := by
  intro hs
  rcases h.verdict with ⟨-, hv⟩ | hv
  · have := any_eq_false.mp hv n hn
    simp [hs] at this
  · have := any_eq_false.mp hv n hn
    simp [hs, terminal] at this

lemma mem_ledgerTerminals (h : p ∈ ledgerTerminals db flow) :
    p.2 = .succeeded ∨ p.2 = .failed := by
  obtain ⟨l, -, hl⟩ := mem_filterMap.mp h
  split at hl
  · split at hl
    · exact .inl (Option.some.inj hl ▸ rfl)
    · exact .inr (Option.some.inj hl ▸ rfl)
    · cases hl
  · cases hl

lemma ledgerByKey_status (h : arrived.Perm (ledgerTerminals db flow))
    (hl : (ledgerByKey arrived).lookup key = some st) : st = .succeeded ∨ st = .failed := by
  refine Dict.lookup_foldl_set (P := fun st => st = .succeeded ∨ st = .failed) (d := []) ?_
    (fun p hp => mem_ledgerTerminals (h.mem_iff.mp hp)) hl
  intro k v hk
  cases hk

lemma reconstructedStatus_cases (h : arrived.Perm (ledgerTerminals db flow)) (r : JobRow) :
    reconstructedStatus arrived r = r.status ∨
      r.status = .pending ∧ (ledgerByKey arrived).lookup r.stepKey =
        some (reconstructedStatus arrived r) ∧
        (reconstructedStatus arrived r = .succeeded ∨ reconstructedStatus arrived r = .failed) := by
  rw [reconstructedStatus]
  split
  next hp =>
    cases hl : (ledgerByKey arrived).lookup r.stepKey with
    | none => exact .inl rfl
    | some st => exact .inr ⟨hp, rfl, ledgerByKey_status h hl⟩
  · exact .inl rfl

lemma mem_reconstructedViews : v ∈ reconstructedViews db flow arrived ↔
    (∃ n ∈ nodesOf db flow, v = rowView db flow arrived n.2) ∨
      ∃ n ∈ nodesOf db flow, (n.2.status = .cancelled ∨ n.2.status.crashClass = true) ∧
        v = { status := n.2.status } := by
  rw [reconstructedViews, mem_append]
  apply or_congr
  · simp [eq_comm]
  simp only [neverGranted, mem_map, mem_filter, or_eq_true, decide_eq_true_eq]
  constructor
  · rintro ⟨n, ⟨hn, hs⟩, rfl⟩
    exact ⟨n, hn, hs, rfl⟩
  · rintro ⟨n, hn, hs, rfl⟩
    exact ⟨n, ⟨hn, hs⟩, rfl⟩

lemma folded_status_running {v : NodeView} : v.folded.status = .running ↔ v.status = .running := by
  rw [NodeView.folded]
  cases hs : v.status <;> simp [hs, crashClass]

lemma folded_countsFailed {v : NodeView} :
    v.folded.countsFailed = true ↔ v.status.failedClass = true ∧ v.absorbed = false := by
  rw [NodeView.folded]
  cases hs : v.status <;> simp [hs, crashClass, failedClass, NodeView.countsFailed]

lemma any_countsFailed (h : arrived.Perm (ledgerTerminals db flow)) :
    ((reconstructedViews db flow arrived).map NodeView.folded).any NodeView.countsFailed = true ↔
      ∃ n ∈ nodesOf db flow, Failing db flow arrived n := by
  rw [any_map, any_eq_true]
  constructor
  · rintro ⟨v, hv, hfail⟩
    obtain ⟨hclass, habs⟩ := folded_countsFailed.mp hfail
    rcases mem_reconstructedViews.mp hv with ⟨n, hn, rfl⟩ | ⟨n, hn, hs, rfl⟩
    · refine ⟨n, hn, ?_⟩
      have hkey := of_decide_eq_false habs
      rcases reconstructedStatus_cases h n.2 with he | ⟨hp, hl, hst⟩
      · rw [rowView, he] at hclass
        rcases failedClass_iff.mp hclass with hs | hs
        · exact .inr ⟨.inl hs, hkey⟩
        · exact .inl hs
      · rcases hst with hst | hst
        · rw [rowView, hst] at hclass
          cases hclass
        · exact .inr ⟨.inr ⟨hp, hst ▸ hl⟩, hkey⟩
    · refine ⟨n, hn, .inl ?_⟩
      rcases hs with hs | hs
      · rw [hs] at hclass
        cases hclass
      · exact hs
  · rintro ⟨n, hn, hcrash | ⟨hs, hkey⟩⟩
    · refine ⟨_, mem_reconstructedViews.mpr (.inr ⟨n, hn, .inr hcrash, rfl⟩), ?_⟩
      exact folded_countsFailed.mpr ⟨failedClass_iff.mpr (.inr hcrash), rfl⟩
    refine ⟨_, mem_reconstructedViews.mpr (.inl ⟨n, hn, rfl⟩), ?_⟩
    apply folded_countsFailed.mpr
    refine ⟨?_, decide_eq_false hkey⟩
    have hst : reconstructedStatus arrived n.2 = .failed := by
      rcases hs with hs | ⟨hs, hl⟩
      · rw [reconstructedStatus, if_neg (by rw [hs]; nofun), hs]
      · rw [reconstructedStatus, if_pos hs, hl, Option.getD_some]
    rw [rowView, hst]
    rfl

section
variable (h : Moved db batch flow r)
include h

lemma Moved.views_not_running (ha : arrived.Perm (ledgerTerminals db flow)) :
    (((reconstructedViews db flow arrived).map NodeView.folded).any (fun n => n.status = .running) ||
      ((reconstructedViews db flow arrived).map NodeView.folded).any NodeView.cancelInFlight) =
        false := by
  rw [or_eq_false_iff, any_map, any_map, any_eq_false, any_eq_false]
  constructor
  · intro v hv hrun
    have hs := folded_status_running.mp (of_decide_eq_true hrun)
    rcases mem_reconstructedViews.mp hv with ⟨n, hn, rfl⟩ | ⟨n, hn, hst, rfl⟩
    · rcases reconstructedStatus_cases ha n.2 with he | ⟨-, -, hst⟩
      · exact h.not_running hn (he ▸ hs)
      have hs' : reconstructedStatus arrived n.2 = .running := hs
      rw [hs'] at hst
      rcases hst with hst | hst <;> cases hst
    · exact h.not_running hn hs
  · intro v hv
    have hplain : v.cancelInFlight = false := by
      rcases mem_reconstructedViews.mp hv with ⟨n, -, rfl⟩ | ⟨n, -, -, rfl⟩ <;> rfl
    rw [comp_apply, NodeView.folded]
    split <;> simp [hplain]

lemma Moved.reconstruct_failed_iff (ha : arrived.Perm (ledgerTerminals db flow)) :
    reconstructWorkflowStatus db flow arrived = .failed ↔
      ∃ n ∈ nodesOf db flow, Failing db flow arrived n := by
  rw [← any_countsFailed ha, reconstructWorkflowStatus, deriveWorkflowStatus,
    h.views_not_running ha, if_neg Bool.false_ne_true]
  constructor
  · intro hfail
    by_contra hc
    rw [if_neg hc] at hfail
    split at hfail
    · cases hfail
    split at hfail
    · cases hfail
    · split at hfail <;> cases hfail
  · intro hc
    rw [if_pos hc]

section
variable (hf : hasFailed db flow = false)
include hf

lemma Moved.settled (hn : n ∈ nodesOf db flow) : n.2.status.terminal = true ∧
      (n.2.status.failedClass = true → n.2.stepKey ∈ absorbedKeys db flow) := by
  have hlive : hasLive db flow = false := by
    rcases h.verdict with ⟨hv, -⟩ | hv
    · rw [hf] at hv
      cases hv
    · exact hv
  have hterm : n.2.status.terminal = true := by
    simpa using any_eq_false.mp hlive n hn
  refine ⟨hterm, ?_⟩
  intro hclass
  have habs : absorbed db n.1 = true := by
    simpa [hclass] using any_eq_false.mp hf n hn
  exact mem_map.mpr ⟨n, mem_filter.mpr ⟨hn, by rw [habs, hterm]; rfl⟩, rfl⟩

lemma Moved.failing_iff : (∃ n ∈ nodesOf db flow, Failing db flow arrived n) ↔
      ∃ n ∈ nodesOf db flow, n.2.status.crashClass = true := by
  constructor
  · rintro ⟨n, hn, hcrash | ⟨hs, hkey⟩⟩
    · exact ⟨n, hn, hcrash⟩
    obtain ⟨hterm, habs⟩ := h.settled hf hn
    rcases hs with hs | ⟨hs, -⟩
    · exact absurd (habs (by rw [hs]; rfl)) hkey
    · rw [hs] at hterm
      cases hterm
  · rintro ⟨n, hn, hcrash⟩
    exact ⟨n, hn, .inl hcrash⟩

lemma Moved.settled_status
    (hn : n ∈ nodesOf db flow) : reconstructedStatus arrived n.2 = n.2.status := by
  rw [reconstructedStatus, if_neg]
  intro hp
  have hterm := (h.settled hf hn).1
  rw [hp] at hterm
  cases hterm

lemma Moved.settled_view (hcrash : ∀ n ∈ nodesOf db flow, n.2.status.crashClass = false)
    (hv : v ∈ reconstructedViews db flow arrived) :
    v.folded = v ∧ (v.status = .succeeded ∨ v.status = .cancelled ∨
      v.status = .failed ∧ v.absorbed = true) := by
  rcases mem_reconstructedViews.mp hv with ⟨n, hn, rfl⟩ | ⟨n, hn, hs, rfl⟩
  · obtain ⟨hterm, habs⟩ := h.settled hf hn
    have hc := hcrash n hn
    rw [NodeView.folded, rowView, h.settled_status hf hn, hc]
    refine ⟨rfl, ?_⟩
    cases hs : n.2.status with
    | succeeded => exact .inl rfl
    | cancelled => exact .inr (.inl rfl)
    | failed => exact .inr (.inr ⟨rfl, decide_eq_true (habs (by rw [hs]; rfl))⟩)
    | pending | scheduled | running =>
      rw [hs] at hterm
      cases hterm
    | crashed | abandoned =>
      rw [hs] at hc
      cases hc
  · rcases hs with hs | hs
    · rw [NodeView.folded, hs]
      exact ⟨rfl, .inr (.inl rfl)⟩
    · rw [hcrash n hn] at hs
      cases hs

lemma Moved.reconstruct_settled (ha : arrived.Perm (ledgerTerminals db flow))
    (hcrash : ∀ n ∈ nodesOf db flow, n.2.status.crashClass = false) :
    reconstructWorkflowStatus db flow arrived =
      if hasCancelled db flow then .cancelled else .complete := by
  have hcases : ∀ v ∈ reconstructedViews db flow arrived, _ :=
    fun v hv => h.settled_view hf hcrash hv
  have hfolded := (map_congr_left fun v hv => (hcases v hv).1).trans (map_id _)
  have hrun := h.views_not_running ha
  have hfail : ¬ ((reconstructedViews db flow arrived).map NodeView.folded).any
      NodeView.countsFailed = true := by
    rw [any_countsFailed ha, h.failing_iff hf]
    rintro ⟨n, hn, hc⟩
    rw [hcrash n hn] at hc
    cases hc
  have hblocked : ¬ (reconstructedViews db flow arrived).any NodeView.isBlockedRow = true := by
    rw [any_eq_true]
    rintro ⟨v, hv, hb⟩
    rcases (hcases v hv).2 with hs | hs | ⟨hs, -⟩ <;> simp [NodeView.isBlockedRow, hs] at hb
  rw [reconstructWorkflowStatus, deriveWorkflowStatus, hrun, if_neg Bool.false_ne_true,
    if_neg hfail, hfolded, if_neg hblocked]
  by_cases hcanc : hasCancelled db flow = true
  · obtain ⟨n, hn, hs⟩ := any_eq_true.mp hcanc
    have hs := of_decide_eq_true hs
    have hv : ({ status := .cancelled } : NodeView) ∈ reconstructedViews db flow arrived :=
      mem_reconstructedViews.mpr (.inr ⟨n, hn, .inl hs, by rw [hs]⟩)
    rw [if_pos hcanc, if_neg, if_pos]
    · exact any_eq_true.mpr ⟨_, hv, rfl⟩
    · intro hall
      cases all_eq_true.mp (Bool.and_eq_true_iff.mp hall).2 _ hv
  · rw [if_neg hcanc, if_pos]
    rw [Bool.and_eq_true_iff, all_eq_true]
    constructor
    · obtain ⟨n, hn⟩ := exists_mem_of_ne_nil _ h.nodes
      have hv : rowView db flow arrived n.2 ∈ reconstructedViews db flow arrived :=
        mem_reconstructedViews.mpr (.inl ⟨n, hn, rfl⟩)
      simpa using ne_nil_of_mem hv
    · intro v hv
      rcases (hcases v hv).2 with hs | hs | ⟨hs, habs⟩
      · simp [hs]
      · exfalso
        apply hcanc
        rcases mem_reconstructedViews.mp hv with ⟨n, hn, rfl⟩ | ⟨n, hn, -, rfl⟩
        · exact any_eq_true.mpr ⟨n, hn, decide_eq_true ((h.settled_status hf hn).symm.trans hs)⟩
        · exact any_eq_true.mpr ⟨n, hn, decide_eq_true hs⟩
      · simp [habs]

end

end

/-- The statuses agree just if a failed root has a failing row, and any other none crashed. -/
theorem maintained_status_agrees_iff (h : workflowRootMaintain db batch flow = some r)
    (hr : r.status.terminal = true) (ha : arrived.Perm (ledgerTerminals db flow)) :
    reconstructWorkflowStatus db flow arrived = reported r.status ↔
      if hasFailed db flow then ∃ n ∈ nodesOf db flow, Failing db flow arrived n
      else ∀ n ∈ nodesOf db flow, n.2.status.crashClass = false := by
  have hm := workflowRootMaintain_moved h hr
  cases hf : hasFailed db flow with
  | true =>
    have hs : r.status = .failed := by rw [hm.status, hf, if_pos rfl]
    rw [if_pos rfl, hs, reported, hm.reconstruct_failed_iff ha]
  | false =>
    have hs : r.status = if hasCancelled db flow then .cancelled else .succeeded := by
      rw [hm.status, hf, if_neg Bool.false_ne_true]
    have hreported : reported r.status = if hasCancelled db flow then .cancelled else .complete := by
      rw [hs]
      split <;> rfl
    constructor
    · intro hagree n hn
      cases hc : n.2.status.crashClass with
      | false => rfl
      | true =>
        have hfailed := (hm.reconstruct_failed_iff ha).mpr ((hm.failing_iff hf).mpr ⟨n, hn, hc⟩)
        rw [hagree, hreported] at hfailed
        split at hfailed <;> cases hfailed
    · intro hcrash
      rw [hm.reconstruct_settled hf ha hcrash, hreported]

def statusRun (nodes : List JobRow) (edges : List Edge) : Snapshot where
  ids := List.range (nodes.length + 1)
  jobs k := match k with
    | 0 => some { stepKey := rootStepKey, status := .running, metadata := { flowId := some 0 } }
    | k + 1 => nodes[k]?
  jobLocked _ := false
  edges
  fires := []
  outbox := []
  outboxLocked _ := false
  ledger := []

def statusNode (stepKey : String) (status : JobStatus) : JobRow :=
  { stepKey, status, metadata := { flowId := some 0 } }

/-- An absorbed crash counts in one alone, and an absorbed map child hides its sibling's failure. -/
theorem maintained_status_differs :
    let crash := statusRun [statusNode "m" .crashed, statusNode "m.join" .succeeded]
      [{ child := 2, parent := 1, flow := 0, failurePolicy := .collect }]
    let children := statusRun
      [statusNode "m" .failed, statusNode "m" .failed, statusNode "m.join" .succeeded]
      [{ child := 3, parent := 1, flow := 0, failurePolicy := .collect }]
    (workflowRootMaintain crash 10 0).map JobRow.status = some .succeeded ∧
    reconstructWorkflowStatus crash 0 [] = .failed ∧
    (workflowRootMaintain children 10 0).map JobRow.status = some .failed ∧
    reconstructWorkflowStatus children 0 [] = .complete := by
  decide +kernel

theorem maintained_status_agrees_mapChildren :
    reconstructWorkflowStatus (statusRun [statusNode "m" .succeeded, statusNode "m" .failed] []) 0
      [] = .failed := by
  have h : workflowRootMaintain (statusRun [statusNode "m" .succeeded, statusNode "m" .failed] [])
      10 0 = some { statusNode rootStepKey .failed with
        errorClass := some "UnabsorbedNodeFailure" } := by decide +kernel
  exact (maintained_status_agrees_iff h rfl (.refl [])).mpr
    ⟨(2, statusNode "m" .failed), by decide +kernel, .inr ⟨.inl rfl, by decide +kernel⟩⟩

/-- A root is kept open just if, with an unabsorbed failure, no stamped row left is claimable. -/
theorem live_work_holds_root_iff (db : Snapshot) (now : Time) (batch : Nat) (flow : JobId) :
    (∀ r, workflowRootMaintain db batch flow = some r → r.status.terminal = true →
      ∀ n ∈ nodesOf db flow, n.2.status ≠ .running ∧ claimable db now n.2 = false) ↔
    (flow ∈ maintainedRoots db batch → hasFailed db flow = true → hasUnresolved db flow = false →
      ∀ n ∈ nodesOf db flow, n.2.metadata.blockingReason.isSome = true →
        claimable db now n.2 = false) := by
  constructor
  · intro h hroot hf hu n hn _
    obtain ⟨m, hm, -⟩ := any_eq_true.mp hf
    obtain ⟨r, hr, hterminal⟩ :=
      workflowRootMaintain_moves hroot (ne_nil_of_mem hm) (.inl ⟨hf, hu⟩)
    exact (h r hr hterminal n hn).2
  · intro h r hr hterminal n hn
    have hm := workflowRootMaintain_moved hr hterminal
    refine ⟨hm.not_running hn, ?_⟩
    by_contra hc
    rw [not_eq_false] at hc
    have hopen : n.2.status = .pending ∨ n.2.status = .scheduled := by
      simp only [claimable, and_eq_true, or_eq_true, decide_eq_true_eq] at hc
      rcases hc.1.1.1 with hs | ⟨hs, -⟩
      · exact .inl hs
      · exact .inr hs
    rcases hm.verdict with ⟨hf, hu⟩ | hlive
    · cases hreason : n.2.metadata.blockingReason with
      | none =>
        have := any_eq_false.mp hu n hn
        rcases hopen with hs | hs <;> simp [hs, hreason] at this
      | some reason =>
        have hfalse := h hm.root hf hu n hn (by rw [hreason]; rfl)
        rw [hfalse] at hc
        cases hc
    · have := any_eq_false.mp hlive n hn
      rcases hopen with hs | hs <;> simp [hs, terminal] at this

/-- A fired join keeps its stamp: the root fails while the join can be claimed. -/
theorem live_work_stranded : let fired : JobRow := { stepKey := "c", metadata :=
      { flowId := some 0, blockingReason := some .join } }
    let db := statusRun [statusNode "a" .failed, statusNode "b" .succeeded, fired]
      [{ child := 3, parent := 2, flow := 0 }]
    (3, fired) ∈ nodesOf db 0 ∧ claimable db 0 fired = true ∧
      (workflowRootMaintain db 10 0).map JobRow.status = some .failed := by
  decide +kernel

end

end TaskQ
