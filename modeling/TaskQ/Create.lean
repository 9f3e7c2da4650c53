import TaskQ.System

namespace TaskQ
open RowLocks Runs List Function

inductive NodeKind where
  | step | mapSource | gather | mapJoin | chainSource | loop
  deriving DecidableEq

structure NodeDecl where
  (actor queue : String)
  parents : List String := []
  onFailure : EdgeFailurePolicy := .failClosed
  maxAttempts : Nat := 3
  priority : Option Int := none
  startToClose : Option Nat := none
  kind : NodeKind := .step

structure CompiledFlow where
  nodes : List (String × NodeDecl)
  keyed : (nodes.map Prod.fst).Nodup
  joinKey : (key, n) ∈ nodes → n.kind = .mapJoin → ∃ source, key = source ++ ".join"

def CompiledFlow.node (g : CompiledFlow) (key : String) : Option NodeDecl :=
  (g.nodes.find? fun p => p.1 = key).map Prod.snd

/-- The root row, as `insert_flow_run` writes it and `ROOT_START_SQL` starts it. -/
def flowRootRow (flow : JobId) (runPriority : Option Int) : JobRow :=
  { stepKey := rootStepKey
    status := .running, metadata := { flowId := some flow, wfPriority := runPriority } }

/-- `NODE_INSERT_SQL`: a static row, born without a dependency. -/
def staticRow (flow : JobId) (input : String) (runPriority : Option Int) (key : String)
    (n : NodeDecl) : JobRow :=
  { actor := n.actor
    queue := n.queue, payload := if n.parents.isEmpty then some input else none, stepKey := key
    maxAttempts := n.maxAttempts
    idempotency := some (idempotencyScope flow, stepIdempotencyKey key none)
    priority := (runPriority.orElse fun _ => n.priority).getD 0, startToClose := n.startToClose
    fairnessKey := some flow, metadata := { flowId := some flow } }

structure Wiring where
  rows : List (JobId × JobRow)
  edges : List Edge

/-- `NODE_BY_STEP_KEY_SQL` over the new run's rows. -/
def Wiring.nodeByStepKey (w : Wiring) (key : String) : Option JobId :=
  (w.rows.find? fun p => p.2.stepKey = key).map Prod.fst

def incrementDeps (r : JobRow) : JobRow :=
  { r with
    depsPending := r.depsPending + 1, metadata := { r.metadata with blockingReason := some .join } }

def Wiring.increment (w : Wiring) (child : JobId) : Wiring :=
  { w with rows := w.rows.map fun p => if p.1 = child then (p.1, incrementDeps p.2) else p }

/-- The first pass of `_insert_static_nodes`: a row for every node but the map joins. -/
def staticRows (g : CompiledFlow) (flow : JobId) (input : String) (runPriority : Option Int) :
    List (JobId × JobRow) :=
  (g.nodes.filter fun p => p.2.kind ≠ .mapJoin).mapIdx fun i p =>
    (flow + 1 + i, staticRow flow input runPriority p.1 p.2)

def CompiledFlow.unwired (g : CompiledFlow) (flow : JobId) (input : String)
    (runPriority : Option Int) : Wiring :=
  ⟨(flow, flowRootRow flow runPriority) :: staticRows g flow input runPriority, []⟩

def wireParent (g : CompiledFlow) (flow : JobId) (key : String) (n : NodeDecl) (w : Wiring)
    (parentKey : String) : Option Wiring :=
  match w.nodeByStepKey key, w.nodeByStepKey parentKey with
  | none, _ => some w
  | some child, none =>
    if (g.node parentKey).any fun p => p.kind = .mapJoin then some (w.increment child) else some w
  | some child, some parent =>
    -- the primary key of `wf_edge` aborts the create
    if w.edges.any fun e => e.child = child && e.parent = parent then none
    else some { w.increment child with
      edges := w.edges ++ [{ child, parent, flow, failurePolicy := n.onFailure }] }

def wireNode (g : CompiledFlow) (flow : JobId) (w : Wiring) (p : String × NodeDecl) :
    Option Wiring :=
  if p.2.kind = .mapJoin then some w else exec (wireParent g flow p.1 p.2) w p.2.parents

def insertStaticNodes (g : CompiledFlow) (flow : JobId) (input : String)
    (runPriority : Option Int) : Option Wiring :=
  exec (wireNode g flow) (g.unwired flow input runPriority) g.nodes

def Sys.created (s : Sys) (w : Wiring) : Sys :=
  { s with
    ids := s.ids ++ w.rows.map Prod.fst, jobs := RowLocks.store (insertJobs w.rows) s.jobs
    edges := s.edges ++ w.edges.map fun e => ⟨some e, none⟩, fresh := s.fresh + w.rows.length }

def Sys.createRun (s : Sys) (g : CompiledFlow) (input : String) (runPriority : Option Int) :
    Option Sys :=
  (insertStaticNodes g s.fresh input runPriority).map s.created

@[simp] lemma Wiring.increment_fst (w : Wiring) (child : JobId) :
    (w.increment child).rows.map Prod.fst = w.rows.map Prod.fst := by
  simp only [Wiring.increment, map_map]
  refine map_congr_left fun p _ => ?_
  simp only [comp]
  split <;> rfl

@[simp] lemma Wiring.increment_nodeByStepKey (w : Wiring) (child : JobId) (key : String) :
    (w.increment child).nodeByStepKey key = w.nodeByStepKey key := by
  have hfind : (fun p : JobId × JobRow => decide (p.2.stepKey = key)) ∘
      (fun p => if p.1 = child then (p.1, incrementDeps p.2) else p) =
      fun p => decide (p.2.stepKey = key) := by
    funext p
    simp only [comp]
    split <;> rfl
  simp only [Wiring.nodeByStepKey, Wiring.increment, find?_map, hfind, Option.map_map]
  congr 1
  funext p
  simp only [comp]
  split <;> rfl

lemma Wiring.increment_row (w : Wiring) (child k : JobId) :
    insertJobs (w.increment child).rows k =
      (insertJobs w.rows k).map fun r => if k = child then incrementDeps r else r := by
  have hfind : (fun p : JobId × JobRow => decide (p.1 = k)) ∘
      (fun p => if p.1 = child then (p.1, incrementDeps p.2) else p) =
      fun p => decide (p.1 = k) := by
    funext p
    simp only [comp]
    split <;> rfl
  simp only [insertJobs, Wiring.increment, find?_map, hfind, Option.map_map]
  cases hp : w.rows.find? fun p => decide (p.1 = k) with
  | none => rfl
  | some p =>
    have hk : p.1 = k := by simpa using find?_some hp
    simp only [Option.map_some, comp, hk]
    split <;> rfl

def Wiring.Surplus (w : Wiring) (k : JobId) (c : Nat) : Prop :=
  ∃ r, insertJobs w.rows k = some r ∧ w.edges.countP (fun e => e.child = k) + c ≤ r.depsPending ∧
    r.metadata.blockingReason ≠ some .orphanParent

variable {w : Wiring}

lemma Wiring.Surplus.increment (h : w.Surplus k c) (child : JobId) :
    (w.increment child).Surplus k (if k = child then c + 1 else c) := by
  obtain ⟨r, hr, hd, hb⟩ := h
  refine ⟨_, by rw [w.increment_row, hr, Option.map_some], ?_, ?_⟩
  · show w.edges.countP _ + _ ≤ _
    split
    · simp only [incrementDeps]
      omega
    · exact hd
  · split
    · simp [incrementDeps]
    · exact hb

structure Wiring.Keeps (w w' : Wiring) : Prop where
  ids : w'.rows.map Prod.fst = w.rows.map Prod.fst
  keys : ∀ key, w'.nodeByStepKey key = w.nodeByStepKey key

lemma Wiring.Keeps.refl (w : Wiring) : w.Keeps w := ⟨rfl, fun _ => rfl⟩

lemma Wiring.Keeps.trans (h : Keeps w w') (h' : Keeps w' w'') : Keeps w w'' :=
  ⟨h'.ids.trans h.ids, fun key => (h'.keys key).trans (h.keys key)⟩

lemma wireParent_keeps (h : wireParent g flow key n w parentKey = some w') : w.Keeps w' := by
  unfold wireParent at h
  split at h
  · cases h
    exact .refl w
  · split at h
    · cases h
      exact ⟨w.increment_fst _, w.increment_nodeByStepKey _⟩
    · cases h
      exact .refl w
  · split at h
    · cases h
    · cases h
      exact ⟨w.increment_fst _, w.increment_nodeByStepKey _⟩

lemma Wiring.Surplus.mono (h : w.Surplus k c) (hc : c' ≤ c) : w.Surplus k c' := by
  obtain ⟨r, hr, hd, hb⟩ := h
  exact ⟨r, hr, by omega, hb⟩

lemma Wiring.Surplus.edge (h : w.Surplus k (if k = e.child then c + 1 else c)) :
    ({ w with edges := w.edges ++ [e] } : Wiring).Surplus k c := by
  obtain ⟨r, hr, hd, hb⟩ := h
  refine ⟨r, hr, ?_, hb⟩
  simp only [countP_append, countP_singleton, decide_eq_true_eq]
  split at hd
  · rename_i hk
    rw [if_pos hk.symm]
    omega
  · rename_i hk
    rw [if_neg fun hk' => hk hk'.symm]
    omega

lemma wireParent_surplus (h : wireParent g flow key n w parentKey = some w')
    (hs : w.Surplus k c) : w'.Surplus k c := by
  have hinc : ∀ child, (w.increment child).Surplus k c := by
    intro child
    refine (hs.increment child).mono ?_
    split <;> omega
  unfold wireParent at h
  split at h
  · cases h
    exact hs
  · split at h
    · cases h
      exact hinc _
    · cases h
      exact hs
  · split at h
    · cases h
    rename_i child parent _ _ _
    cases h
    exact (hs.increment child).edge (e := ⟨child, parent, flow, n.onFailure⟩)

lemma wireParent_reserves (h : wireParent g flow key n w parentKey = some w')
    (hk : w.nodeByStepKey key = some k) (hp : w.nodeByStepKey parentKey = none)
    (hj : (g.node parentKey).any (fun p => p.kind = .mapJoin) = true) (hs : w.Surplus k c) :
    w'.Surplus k (c + 1) := by
  simp only [wireParent, hk, hp, hj, if_true, Option.some.injEq] at h
  subst h
  simpa using hs.increment k

section
variable {step : Wiring → β → Option Wiring} (hkeeps : ∀ v b v', step v b = some v' → v.Keeps v')
  (h : exec step w l = some w')
include hkeeps h

lemma exec_keeps : w.Keeps w' :=
  exec_invariant (I := w.Keeps) h (.refl w) fun _ _ _ _ hv hs => hv.trans (hkeeps _ _ _ hs)

lemma exec_reserves (hsurplus : ∀ v b v' c, step v b = some v' → v.Surplus k c → v'.Surplus k c)
    (hb : b ∈ l) (hk : w.nodeByStepKey key = some k) (hp : w.nodeByStepKey parentKey = none)
    (hs : w.Surplus k c)
    (hitem : ∀ v v', v.nodeByStepKey key = some k → v.nodeByStepKey parentKey = none →
      v.Surplus k c → step v b = some v' → v'.Surplus k (c + 1)) : w'.Surplus k (c + 1) := by
  refine exec_turn (I := fun v => w.Keeps v ∧ v.Surplus k c) (J := fun v => v.Surplus k (c + 1)) h
    hb ⟨.refl w, hs⟩ (fun v b v' _ hv hw => ?_) (fun v b v' _ hv hw => hsurplus v b v' _ hw hv) ?_
  · exact ⟨hv.1.trans (hkeeps v b v' hw), hsurplus v b v' c hw hv.2⟩
  · intro v v' hv hw
    exact hitem v v' ((hv.1.keys key).trans hk) ((hv.1.keys parentKey).trans hp) hv.2 hw

end

lemma wireNode_surplus (h : wireNode g flow w p = some w') (hs : w.Surplus k c) :
    w'.Surplus k c := by
  unfold wireNode at h
  split at h
  · cases h
    exact hs
  · exact exec_invariant (I := fun v => v.Surplus k c) h hs
      fun _ _ _ _ hI hw => wireParent_surplus hw hI

lemma wireNode_keeps (h : wireNode g flow w p = some w') : w.Keeps w' := by
  unfold wireNode at h
  split at h
  · cases h
    exact .refl w
  · exact exec_keeps (fun _ _ _ => wireParent_keeps) h

lemma insertStaticNodes_keeps (h : insertStaticNodes g flow input p = some w) :
    (g.unwired flow input p).Keeps w :=
  exec_keeps (fun _ _ _ => wireNode_keeps) h

lemma wireNode_reserves (h : wireNode g flow w (key, n) = some w') (hn : n.kind ≠ .mapJoin)
    (hm : parentKey ∈ n.parents) (hk : w.nodeByStepKey key = some k)
    (hp : w.nodeByStepKey parentKey = none)
    (hj : (g.node parentKey).any (fun p => p.kind = .mapJoin) = true) (hs : w.Surplus k c) :
    w'.Surplus k (c + 1) := by
  simp only [wireNode, hn, if_false] at h
  exact exec_reserves (fun _ _ _ => wireParent_keeps) h (fun _ _ _ _ => wireParent_surplus) hm hk hp
    hs fun _ _ hk hp hs hw => wireParent_reserves hw hk hp hj hs

variable {k flow : Nat}

lemma mem_unwired (h : (k, r) ∈ (CompiledFlow.unwired g flow input p).rows) :
    flow ≤ k ∧ k < flow + (g.unwired flow input p).rows.length ∧ r.depsPending = 0 ∧
      r.metadata.blockingReason = none ∧
      (r.stepKey = rootStepKey ∨ ∃ n, (r.stepKey, n) ∈ g.nodes ∧ n.kind ≠ .mapJoin) := by
  rcases mem_cons.mp h with h | h
  · cases h
    refine ⟨le_rfl, ?_, rfl, rfl, .inl rfl⟩
    simp [CompiledFlow.unwired]
  · obtain ⟨i, hi, he⟩ := mem_mapIdx.mp h
    cases he
    obtain ⟨hm, hk⟩ := mem_filter.mp (getElem_mem hi)
    refine ⟨by omega, ?_, rfl, rfl, .inr ⟨_, hm, of_decide_eq_true hk⟩⟩
    simp only [CompiledFlow.unwired, staticRows, length_cons, length_mapIdx]
    omega

lemma ne_rootStepKey (source : String) : source ++ ".join" ≠ rootStepKey := by
  intro h
  have hl := congrArg (fun s : String => s.toList.getLast?) h
  simp [rootStepKey, String.toList_append] at hl

lemma unwired_mapJoin (hj : (CompiledFlow.node g parentKey).any (fun p => p.kind = .mapJoin) = true) :
    (g.unwired flow input p).nodeByStepKey parentKey = none := by
  obtain ⟨pn, hpn, hkind⟩ := (Option.any_eq_true ..).mp hj
  obtain ⟨⟨key, pn'⟩, hfind, rfl⟩ := Option.map_eq_some_iff.mp hpn
  have hmem := mem_of_find?_eq_some hfind
  obtain rfl : key = parentKey := by simpa using find?_some hfind
  have hkind := of_decide_eq_true hkind
  rw [Wiring.nodeByStepKey, Option.map_eq_none_iff, find?_eq_none]
  rintro ⟨k, r⟩ hr hkey
  have hkey := of_decide_eq_true hkey
  obtain ⟨-, -, -, -, hroot | ⟨n, hn, hnk⟩⟩ := mem_unwired hr
  · obtain ⟨source, hs⟩ := g.joinKey hmem hkind
    exact ne_rootStepKey source (hs.symm.trans (hkey.symm.trans hroot))
  rw [hkey] at hn
  have heq := inj_on_of_nodup_map g.keyed hn hmem rfl
  exact hnk ((congrArg (fun q => q.2.kind) heq).trans hkind)

lemma unwired_surplus (h : (CompiledFlow.unwired g flow input p).nodeByStepKey key = some k) :
    (g.unwired flow input p).Surplus k 0 := by
  obtain ⟨⟨_, r⟩, hfind, rfl⟩ := Option.map_eq_some_iff.mp h
  obtain ⟨r', hr'⟩ := exists_insertJobs (mem_of_find?_eq_some hfind)
  obtain ⟨-, -, hd, hb, -⟩ := mem_unwired (insertJobs_some hr')
  refine ⟨r', hr', Nat.zero_le _, ?_⟩
  rw [hb]
  nofun

section
variable (h : insertStaticNodes g flow input p = some w)
include h

lemma insertStaticNodes_reserves
    (hn : (key, n) ∈ g.nodes) (hkind : n.kind ≠ .mapJoin) (hm : parentKey ∈ n.parents)
    (hj : (g.node parentKey).any (fun p => p.kind = .mapJoin) = true)
    (hk : w.nodeByStepKey key = some k) : w.Surplus k 1 := by
  have hk0 := ((insertStaticNodes_keeps h).keys key).symm.trans hk
  exact exec_reserves (fun _ _ _ => wireNode_keeps) h (fun _ _ _ _ => wireNode_surplus) hn hk0
    (unwired_mapJoin hj) (unwired_surplus hk0)
    fun _ _ hk hp hs hw => wireNode_reserves hw hkind hm hk hp hj hs

lemma insertStaticNodes_id
    (hk : k ∈ w.rows.map Prod.fst) : flow ≤ k ∧ k < flow + w.rows.length := by
  have hlen := congrArg length (insertStaticNodes_keeps h).ids
  rw [length_map, length_map] at hlen
  rw [(insertStaticNodes_keeps h).ids] at hk
  obtain ⟨⟨_, r⟩, hr, rfl⟩ := mem_map.mp hk
  obtain ⟨hl, hu, -⟩ := mem_unwired hr
  rw [hlen]
  exact ⟨hl, hu⟩

lemma nodup_insertStaticNodes : (w.rows.map Prod.fst).Nodup := by
  rw [(insertStaticNodes_keeps h).ids, CompiledFlow.unwired, map_cons, nodup_cons]
  refine ⟨fun hm => ?_, ?_⟩
  · obtain ⟨⟨k, r⟩, hr, hk⟩ := mem_map.mp hm
    obtain ⟨i, hi, he⟩ := mem_mapIdx.mp hr
    cases he
    have hne : flow + 1 + i = flow := hk
    omega
  · rw [List.Nodup, pairwise_iff_getElem]
    intro i j hi hj hij he
    simp only [staticRows, getElem_map, getElem_mapIdx] at he
    exact Nat.ne_of_lt hij (Nat.add_left_cancel he)

end

end TaskQ
