import TaskQ.Chain
import TaskQ.Create
import TaskQ.Joined

namespace TaskQ.RowKeys
open Runs Joined

inductive Origin where
  | emitted (flow source : JobId) (c : EmitChild)
  | forked (c : FinalizeCall) (f : ForkSpec) (child : ChildSpec)
  | joined (c : FinalizeCall) (f : ForkSpec) (j : JoinSpec)
  | drained (priority : Int) (o : OutboxRow)

def Origin.row (now : Time) : Origin → JobRow
  | .emitted flow source c => emitChildRow now flow source c
  | .forked c f child => forkChildRow now c f child
  | .joined c f j => forkJoinRow now c f j
  | .drained priority o => consumerRow now priority o

def identity (r : JobRow) : Option JobId × String × Option Nat :=
  (r.parentId, r.stepKey, r.mapIndex)

inductive Site where
  | emit (mapIndex : Nat) (step : String)
  | fork (parentStep step : String) (mapIndex : Option Nat)
  | drain (step : String) (mapIndex : Option Nat)
  deriving DecidableEq

def Origin.flow : Origin → JobId
  | .emitted flow _ _ => flow
  | .forked c _ _ | .joined c _ _ => c.flow
  | .drained _ o => o.flow

def Origin.parent : Origin → JobId
  | .emitted _ source _ => source
  | .forked c _ _ | .joined c _ _ => c.job
  | .drained _ o => o.joinJob

def Origin.site : Origin → Site
  | .emitted _ _ c => .emit c.mapIndex c.stepKey
  | .forked c _ child => .fork c.stepKey child.stepKey child.mapIndex
  | .joined c _ j => .fork c.stepKey j.stepKey none
  | .drained _ o => .drain o.consumerStepKey o.mapIndex

def indexLeg (mapIndex : Option Nat) : List String := mapIndex.toList.map toString

def Site.names (flow : JobId) : Site → List String
  | .emit mapIndex step => ["wf", toString flow, "emit", toString mapIndex, step]
  | .fork parentStep step mapIndex =>
    "wf" :: toString flow :: parentStep :: step :: indexLeg mapIndex
  | .drain step mapIndex => "wf" :: step :: indexLeg mapIndex

def Site.key (flow : JobId) (site : Site) : String := Joined.join ':' (site.names flow)

/-- No text of the key has a colon, and no fork is by a step called `emit`. -/
def Site.Plain : Site → Prop
  | .emit _ step => ':' ∉ step.toList
  | .fork parentStep step _ => ':' ∉ parentStep.toList ∧ ':' ∉ step.toList ∧ parentStep ≠ "emit"
  | .drain step _ => ':' ∉ step.toList

lemma toList_indexLeg (step : String) (mapIndex : Option Nat) :
    (Joined.join ':' (step :: indexLeg mapIndex)).toList =
      step.toList ++ (mapIndexLeg mapIndex).toList := by
  cases mapIndex with
  | none | some => simp [indexLeg, join, mapIndexLeg]

lemma emitIdempotencyKey_eq (flow : JobId) (mapIndex : Nat) (step : String) :
    emitIdempotencyKey flow mapIndex step = Site.key flow (.emit mapIndex step) := by
  rw [← String.toList_inj]
  simp [emitIdempotencyKey, Site.key, Site.names, join]

lemma forkIdempotencyKey_eq (flow : JobId) (parentStep step : String) (mapIndex : Option Nat) :
    forkIdempotencyKey flow parentStep step mapIndex =
      Site.key flow (.fork parentStep step mapIndex) := by
  rw [← String.toList_inj]
  simp [forkIdempotencyKey, Site.key, Site.names, join, toList_indexLeg]

lemma stepIdempotencyKey_eq (flow : JobId) (step : String) (mapIndex : Option Nat) :
    stepIdempotencyKey step mapIndex = Site.key flow (.drain step mapIndex) := by
  rw [← String.toList_inj]
  simp [stepIdempotencyKey, Site.key, Site.names, join, toList_indexLeg]

lemma Origin.row_idempotency (now : Time) (o : Origin) :
    (o.row now).idempotency = some (idempotencyScope o.flow, o.site.key o.flow) := by
  cases o with
  | emitted flow source c =>
    rw [Origin.row, emitChildRow, emitIdempotencyKey_eq]
    rfl
  | forked c f child =>
    rw [Origin.row, forkChildRow, forkIdempotencyKey_eq]
    rfl
  | joined c f j =>
    rw [Origin.row, forkJoinRow, forkIdempotencyKey_eq]
    rfl
  | drained priority o =>
    rw [Origin.row, consumerRow, stepIdempotencyKey_eq o.flow]
    rfl

def Site.step : Site → String
  | .emit _ step | .fork _ step _ | .drain step _ => step

def Site.mapIndex : Site → Option Nat
  | .emit mapIndex _ => some mapIndex
  | .fork _ _ mapIndex | .drain _ mapIndex => mapIndex

lemma Origin.row_identity (now : Time) (o : Origin) :
    identity (o.row now) = (some o.parent, o.site.step, o.site.mapIndex) := by
  cases o <;> rfl

lemma not_mem_indexLeg (mapIndex : Option Nat) : ∀ a ∈ indexLeg mapIndex, ':' ∉ a.toList := by
  intro a ha
  obtain ⟨i, -, rfl⟩ := List.mem_map.mp ha
  exact not_mem_toString (by decide) i

lemma Site.Plain.not_mem_names (h : Site.Plain site) (flow : JobId) :
    ∀ a ∈ site.names flow, ':' ∉ a.toList := by
  have hdig := not_mem_toString (c := ':') (by decide)
  have hwf : ':' ∉ "wf".toList := by decide
  cases site with
  | emit mapIndex step =>
    have hemit : ':' ∉ "emit".toList := by decide
    simp only [Site.names, List.forall_mem_cons]
    exact ⟨hwf, hdig flow, hemit, hdig mapIndex, h, fun _ ha => absurd ha List.not_mem_nil⟩
  | fork parentStep step mapIndex =>
    simp only [Site.names, List.forall_mem_cons]
    exact ⟨hwf, hdig flow, h.1, h.2.1, not_mem_indexLeg mapIndex⟩
  | drain step mapIndex =>
    simp only [Site.names, List.forall_mem_cons]
    exact ⟨hwf, h, not_mem_indexLeg mapIndex⟩

lemma indexLeg_inj : indexLeg i = indexLeg j ↔ i = j := by
  refine ⟨fun h => ?_, fun h => h ▸ rfl⟩
  cases i <;> cases j
  · rfl
  · cases h
  · cases h
  · rw [toString_inj.mp (List.cons.inj h).1]

lemma length_indexLeg (mapIndex : Option Nat) : (indexLeg mapIndex).length ≤ 1 := by
  cases mapIndex with
  | none => exact Nat.zero_le 1
  | some i => exact Nat.le_refl 1

lemma Site.Plain.names_inj (h : Site.Plain site) (h' : Site.Plain site')
    (heq : site.names flow = site'.names flow) : site = site' := by
  have hlen := congrArg List.length heq
  cases site with
  | emit i step =>
    cases site' with
    | emit j step' =>
      simp only [Site.names, List.cons.injEq, toString_inj, true_and, and_true] at heq
      rw [heq.1, heq.2]
    | fork parentStep step' j =>
      simp only [Site.names, List.cons.injEq, true_and] at heq
      exact absurd heq.1.symm h'.2.2
    | drain step' j =>
      have := length_indexLeg j
      simp only [Site.names, List.length_cons, List.length_nil] at hlen
      omega
  | fork parentStep step i =>
    cases site' with
    | emit j step' =>
      simp only [Site.names, List.cons.injEq, true_and] at heq
      exact absurd heq.1 h.2.2
    | fork parentStep' step' j =>
      simp only [Site.names, List.cons.injEq, true_and, indexLeg_inj] at heq
      rw [heq.1, heq.2.1, heq.2.2]
    | drain step' j =>
      have := length_indexLeg j
      simp only [Site.names, List.length_cons] at hlen
      omega
  | drain step i =>
    have := length_indexLeg i
    cases site' with
    | emit j step' =>
      simp only [Site.names, List.length_cons, List.length_nil] at hlen
      omega
    | fork parentStep' step' j =>
      simp only [Site.names, List.length_cons] at hlen
      omega
    | drain step' j =>
      simp only [Site.names, List.cons.injEq, true_and, indexLeg_inj] at heq
      rw [heq.1, heq.2]

lemma Site.Plain.key_inj (h : Site.Plain site) (h' : Site.Plain site')
    (heq : site.key flow = site'.key flow) : site = site' := by
  have hne : ∀ site : Site, site.names flow ≠ [] := by
    intro site
    cases site <;> exact List.cons_ne_nil _ _
  exact h.names_inj h' ((join_inj_of_not_mem (hne site) (hne site')
    (h.not_mem_names flow) (h'.not_mem_names flow)).mp heq)

/-- The rows of a run and what made them, with the keys as the calls send them. -/
structure Run where
  rows : List (JobId × JobRow)
  created : List Origin

inductive Event where
  | emitBatch (source : JobId) (children : List EmitChild)
  | insertFork (c : FinalizeCall) (f : ForkSpec)
  | drain (priority : Int) (o : OutboxRow)

def Event.makes (flow : JobId) (s : Run) : Event → Option (List Origin)
  | .emitBatch source children =>
    if (s.rows.lookup source).isSome then
      (TaskQ.emitBatch children).map fun valid => valid.map (.emitted flow source)
    else none
  | .insertFork c f =>
    match s.rows.lookup c.job with
    | none => none
    | some parent =>
      if c.flow = flow && c.stepKey = parent.stepKey && validateFork f then
        let join := f.join.filter fun j => !s.rows.any fun p => p.2.stepKey = j.stepKey
        some (f.children.map (.forked c f) ++ join.toList.map (.joined c f))
      else none
  | .drain priority o => if o.flow = flow then some [.drained priority o] else none

def step (flow : JobId) (now : Time) (s : Run) (ev : Event) : Option Run :=
  (ev.makes flow s).map fun made =>
    { rows := s.rows ++ made.mapIdx fun i o => (flow + 1 + s.rows.length + i, o.row now)
      created := s.created ++ made }

def Run.start (g : CompiledFlow) (flow : JobId) (input : String) : Run :=
  ⟨staticRows g flow input none, []⟩

/-- What the new rows' keys say is plain, and was said only of rows with the same parent. -/
def Distinctive (flow : JobId) (s : Run) (ev : Event) : Prop :=
  ∀ made, ev.makes flow s = some made → ∀ o ∈ made, o.site.Plain ∧
    ∀ o' ∈ s.created, o'.site = o.site → o'.parent = o.parent

lemma Event.makes_parent (h : Event.makes flow s ev = some made) :
    ∃ parent, ∀ o ∈ made, o.flow = flow ∧ o.parent = parent := by
  cases ev with
  | emitBatch source children =>
    obtain ⟨-, h⟩ := Option.ite_none_right_eq_some.mp h
    obtain ⟨valid, -, rfl⟩ := Option.map_eq_some_iff.mp h
    refine ⟨source, fun o ho => ?_⟩
    obtain ⟨c, -, rfl⟩ := List.mem_map.mp ho
    exact ⟨rfl, rfl⟩
  | insertFork c f =>
    rw [Event.makes] at h
    split at h
    · cases h
    obtain ⟨hguard, h⟩ := Option.ite_none_right_eq_some.mp h
    simp only [Bool.and_eq_true, decide_eq_true_eq] at hguard
    cases h
    refine ⟨c.job, fun o ho => ?_⟩
    rcases List.mem_append.mp ho with ho | ho
    · obtain ⟨child, -, rfl⟩ := List.mem_map.mp ho
      exact ⟨hguard.1.1, rfl⟩
    · obtain ⟨j, -, rfl⟩ := List.mem_map.mp ho
      exact ⟨hguard.1.1, rfl⟩
  | drain priority o =>
    obtain ⟨hflow, rfl⟩ := matched h
    refine ⟨o.joinJob, fun o' ho' => ?_⟩
    obtain rfl := List.mem_singleton.mp ho'
    exact ⟨hflow, rfl⟩

structure Told (flow : JobId) (s : Run) : Prop where
  flow : ∀ o ∈ s.created, o.flow = flow
  plain : ∀ o ∈ s.created, o.site.Plain
  parent : ∀ o ∈ s.created, ∀ o' ∈ s.created, o'.site = o.site → o'.parent = o.parent

lemma told_of_reach (h : Reach (step flow now) (Distinctive flow) (Run.start g flow input) s) :
    Told flow s := by
  have hnone : ∀ o, o ∉ (Run.start g flow input).created := fun o => List.not_mem_nil
  refine h.invariant ⟨fun o ho => absurd ho (hnone o), fun o ho => absurd ho (hnone o),
    fun o ho => absurd ho (hnone o)⟩ fun s ev s' hs hok hstep => ?_
  obtain ⟨made, hmade, rfl⟩ := Option.map_eq_some_iff.mp hstep
  obtain ⟨parent, hpar⟩ := Event.makes_parent hmade
  have hnew := hok made hmade
  constructor
  case flow =>
    intro o ho
    rcases List.mem_append.mp ho with ho | ho
    · exact hs.flow o ho
    · exact (hpar o ho).1
  case plain =>
    intro o ho
    rcases List.mem_append.mp ho with ho | ho
    · exact hs.plain o ho
    · exact (hnew o ho).1
  case parent =>
    intro o ho o' ho' hsite
    rcases List.mem_append.mp ho with ho | ho <;> rcases List.mem_append.mp ho' with ho' | ho'
    · exact hs.parent o ho o' ho' hsite
    · exact ((hnew o' ho').2 o ho hsite.symm).symm
    · exact (hnew o ho).2 o' ho' hsite
    · rw [(hpar o' ho').2, (hpar o ho).2]

/-- In a distinctive run rows with another parent, step or record have another key. -/
theorem keys_separate (h : Reach (step flow now) (Distinctive flow) (Run.start g flow input) s)
    (ha : a ∈ s.created) (hb : b ∈ s.created) (hne : identity (a.row now) ≠ identity (b.row now)) :
    (a.row now).idempotency ≠ (b.row now).idempotency := by
  have htold := told_of_reach h
  intro heq
  rw [a.row_idempotency, b.row_idempotency, htold.flow a ha, htold.flow b hb] at heq
  have hsite := (htold.plain a ha).key_inj (htold.plain b hb)
    (Prod.mk.inj (Option.some.inj heq)).2
  have hparent := htold.parent b hb a ha hsite
  rw [a.row_identity, b.row_identity, hsite, hparent] at hne
  exact hne rfl

section
variable (flow : JobId) (chains : List Chain)

inductive Driven (s : Run) : Event → Prop where
  | start (hc : c ∈ chains) : Driven s (.emitBatch source [c.chainStart item i trace])
  | next (hc : c ∈ chains) (hrow : s.rows.lookup job = some row)
      (h : c.finalizeChainStep encodeResult refusal flow job row worker attempt claimEpoch outcome =
        .ok (call, some f)) : Driven s (.insertFork call f)

def Accepted (g : CompiledFlow) : Prop :=
  (∀ c ∈ chains, c.postInit = .ok ()) ∧ ∀ p ∈ g.nodes, checkNodeKey p.1 = .ok ()

def Collides (g : CompiledFlow) : Prop :=
  Accepted chains g ∧
    ∃ s a b, Reach (step flow 0) (Driven flow chains) (Run.start g flow "") s ∧ a ∈ s.created ∧
      b ∈ s.created ∧ identity (a.row 0) ≠ identity (b.row 0) ∧
      (a.row 0).idempotency = (b.row 0).idempotency

end

def sourceNodes (keys : List String) : List (String × NodeDecl) :=
  keys.map fun key => (key, { actor := "wf", queue := "default", kind := .chainSource })

lemma sourceNodes_joinKey (h : (key, n) ∈ sourceNodes keys) (hkind : n.kind = .mapJoin) :
    ∃ source, key = source ++ ".join" := by
  obtain ⟨k, -, heq⟩ := List.mem_map.mp h
  cases heq
  cases hkind

lemma nodup_two : ((sourceNodes ["s", "t"]).map Prod.fst).Nodup := by decide

lemma nodup_one : ((sourceNodes ["s"]).map Prod.fst).Nodup := by decide

def twoSources : CompiledFlow := ⟨sourceNodes ["s", "t"], nodup_two, sourceNodes_joinKey⟩

def oneSource : CompiledFlow := ⟨sourceNodes ["s"], nodup_one, sourceNodes_joinKey⟩

def leads (target : Option String) : Chain.Step :=
  { outcomes := ["go"], route := some ⟨[("go", target)]⟩ }

def cyclic : Chain :=
  { name := "cyclic", start := "a", steps := [("a", leads (some "b")), ("b", leads (some "a"))] }

def coloned : Chain :=
  { name := "coloned", start := "a"
    steps := [("a", leads (some "b:c")), ("b:c", leads (some "a:b")), ("a:b", leads (some "c")),
      ("c", leads none)] }

def route (c : Chain) (s : Run) (job : JobId) : Option Event :=
  match s.rows.lookup job with
  | none => none
  | some row =>
    match c.finalizeChainStep (fun _ => .doc "\"go\"") id 0 job row 0 1 none (.literal "go") with
    | .ok (call, some f) => some (.insertFork call f)
    | _ => none

lemma driven_of_route (hc : c ∈ chains) (h : route c s job = some ev) : Driven 0 chains s ev := by
  unfold route at h
  split at h
  · cases h
  next row hrow =>
    split at h
    next call f hf =>
      cases h
      exact .next hc hrow hf
    · cases h

inductive Move where
  | emit (source : JobId)
  | route (job : JobId)

def Move.event (c : Chain) (s : Run) : Move → Option Event
  | .emit source => some (.emitBatch source [c.chainStart "0" 0 "trace"])
  | .route job => RowKeys.route c s job

def drive (c : Chain) (s : Run) (m : Move) : Option Run := (m.event c s).bind (step 0 0 s)

lemma reach_of_drive (h : exec (drive c) s0 moves = some s) (hc : c ∈ chains) :
    Reach (step 0 0) (Driven 0 chains) s0 s := by
  refine exec_invariant h .start fun s m s' _ hs hm => ?_
  obtain ⟨ev, hev, hstep⟩ := Option.bind_eq_some_iff.mp hm
  refine .next hs ?_ hstep
  cases m with
  | emit source =>
    cases hev
    exact .start hc
  | route job => exact driven_of_route hc hev

def collision (s : Run) : Bool :=
  s.created.any fun a => s.created.any fun b =>
    identity (a.row 0) ≠ identity (b.row 0) && (a.row 0).idempotency = (b.row 0).idempotency

lemma collides_of_drive (moves : List Move)
    (h : (exec (drive c) (Run.start g 0 "") moves).any collision = true)
    (hc : c.postInit = .ok ()) (hg : ∀ p ∈ g.nodes, checkNodeKey p.1 = .ok ()) :
    Collides 0 [c] g := by
  obtain ⟨s, hs, hcoll⟩ := Option.any_eq_true _ _ |>.mp h
  simp only [collision, List.any_eq_true, Bool.and_eq_true, decide_eq_true_eq] at hcoll
  obtain ⟨a, ha, b, hb, hne, heq⟩ := hcoll
  refine ⟨⟨?_, hg⟩, s, a, b, reach_of_drive hs (List.mem_singleton_self c), ha, hb, hne, heq⟩
  intro c' hc'
  rw [List.mem_singleton.mp hc']
  exact hc

/-- A chain back to a step, two sources with a first record each, and step keys with colons. -/
theorem keys_collide : Collides 0 [cyclic] oneSource ∧ Collides 0 [cyclic] twoSources ∧
      Collides 0 [coloned] oneSource := by
  have hone : ∀ p ∈ oneSource.nodes, checkNodeKey p.1 = .ok () := by decide +kernel
  have htwo : ∀ p ∈ twoSources.nodes, checkNodeKey p.1 = .ok () := by decide +kernel
  have hcyclic : cyclic.postInit = .ok () := rfl
  have hcoloned : coloned.postInit = .ok () := rfl
  refine ⟨collides_of_drive [.emit 1, .route 2, .route 3, .route 4] ?_ hcyclic hone,
    collides_of_drive [.emit 1, .emit 2] ?_ hcyclic htwo,
    collides_of_drive [.emit 1, .route 2, .route 3, .route 4] ?_ hcoloned hone⟩
  all_goals decide +kernel

def Site.plain : Site → Bool
  | .emit _ step => !step.toList.contains ':'
  | .fork parentStep step _ =>
    !parentStep.toList.contains ':' && !step.toList.contains ':' && parentStep != "emit"
  | .drain step _ => !step.toList.contains ':'

lemma Site.plain_iff : Site.plain site = true ↔ site.Plain := by
  cases site <;> simp [Site.plain, Site.Plain, and_assoc]

def distinctive (flow : JobId) (s : Run) (ev : Event) : Bool :=
  (ev.makes flow s).all fun made => made.all fun o =>
    o.site.plain && s.created.all fun o' => o'.site != o.site || o'.parent == o.parent

lemma Distinctive.of_check (h : distinctive flow s ev = true) : Distinctive flow s ev := by
  intro made hmade o ho
  rw [distinctive, hmade, Option.all_some, List.all_eq_true] at h
  obtain ⟨hplain, hpar⟩ := Bool.and_eq_true_iff.mp (h o ho)
  refine ⟨Site.plain_iff.mp hplain, fun o' ho' hsite => ?_⟩
  have hor := List.all_eq_true.mp hpar o' ho'
  rw [hsite, bne_self_eq_false, Bool.false_or] at hor
  exact beq_iff_eq.mp hor

theorem records_separate :
    ∃ s a b, Reach (step 0 0) (Distinctive 0) (Run.start oneSource 0 "") s ∧ a ∈ s.created ∧
      b ∈ s.created ∧ a.site = .emit 1 "a" ∧ b.site = .fork "a" "b" (some 0) ∧
      (a.row 0).idempotency ≠ (b.row 0).idempotency := by
  let call : FinalizeCall :=
    { job := 2, flow := 0, stepKey := "a", worker := 0, attempt := 1, claimEpoch := none,
      outcome := ⟨.succeeded, rfl⟩ }
  let child : ChildSpec := { stepKey := "b", actor := "wf", queue := "default", mapIndex := some 0 }
  let f : ForkSpec := { children := [child] }
  let record : Nat → EmitChild := fun i => cyclic.chainStart "0" i "trace"
  let events : List Event := [.emitBatch 1 [record 0, record 1], .insertFork call f]
  let s := final (step 0 0) (Run.start oneSource 0 "") events
  have hreach : Reach (step 0 0) (Distinctive 0) (Run.start oneSource 0 "") s :=
    .of_exec (exec_final (by decide +kernel))
      (.of_checks (distinctive 0) (by decide +kernel) fun _ _ => Distinctive.of_check)
  have hcreated : s.created =
      [.emitted 0 1 (record 0), .emitted 0 1 (record 1), .forked call f child] := rfl
  have hrecord : .emitted 0 1 (record 1) ∈ s.created := by simp [hcreated]
  have hchild : .forked call f child ∈ s.created := by simp [hcreated]
  exact ⟨s, _, _, hreach, hrecord, hchild, rfl, rfl,
    keys_separate hreach hrecord hchild (by decide)⟩

end TaskQ.RowKeys
