import TaskQ.FirePaths
import TaskQ.LoopDriver
import TaskQ.Retry

namespace TaskQ
open Runs List Function Option Snapshot

structure LoopExhaust where
  job : JobId
  (errorClass message : String)
  worker : Option WorkerId
  attempt : Nat
  epoch : Option Nat

def LoopExhaust.hits (x : LoopExhaust) (k : JobId) (r : JobRow) : Bool :=
  k = x.job && r.status = .running && r.lockedByWorker = x.worker && r.attempt = x.attempt &&
    r.claimEpoch = x.epoch

def LoopExhaust.flow? (x : LoopExhaust) (db : Snapshot) : Option JobId :=
  (db.jobs x.job).bind fun r => if x.hits x.job r then r.metadata.flowId else none

def loopExhaust (db : Snapshot) (x : LoopExhaust) : Writes :=
  update db (fun k r => x.hits k r || (x.flow? db = some k && !r.status.terminal)) fun k r =>
    if x.hits k r then
      { r with
        status := .failed, errorClass := some x.errorClass, errorMessage := some x.message
        metadata := { r.metadata with loopKind := true } }
    else { r with status := .failed, errorClass := some x.errorClass }

section

inductive ExhaustionPolicy where
  | escalate | fail
  deriving DecidableEq

/-- A registered definition: its placement, escalation body and declared loop policies. -/
structure WorkflowDefinition where
  (actor queue : String)
  escalation : Bool
  loopPolicies : List (String × ExhaustionPolicy)

variable (registry : String → Option WorkflowDefinition)

def registeredLoopPolicy (workflow : Option String) (loopKey : String) : ExhaustionPolicy :=
  match (workflow.filter (· ≠ "")).bind registry with
  | none => .fail
  | some d => (d.loopPolicies.lookup loopKey).getD (if d.escalation then .escalate else .fail)

structure EscalationInfo where
  loop : String
  flow : JobId
  errorClass : String
  message : Option String

variable (render : EscalationInfo → String)

/-- `render` gives the text of `{"wf_args": [info]}`. -/
def escalationBindings (workflow : Option String) (info : EscalationInfo) : Option BindingsDoc :=
  (((workflow.filter (· ≠ "")).bind registry).filter WorkflowDefinition.escalation).map fun d =>
    { actor := some d.actor, queue := some d.queue, payload := some (render info), traceId := none }

/-- Who sends the exhaustion: the driver with the loop's policy, or the sweep with the root's name.
-/
inductive ExhaustedBy where
  | driver (workflow : String) (policy : ExhaustionPolicy) (errorClass message : Option String)
  | sweep (workflow : Option String) (capHit : Bool)

namespace ExhaustedBy

def workflow : ExhaustedBy → Option String
  | .driver workflow .. => some workflow
  | .sweep workflow _ => workflow

def errorClass : ExhaustedBy → String
  | .driver _ _ errorClass _ => Loops.orDefault errorClass Loops.loopErrorCap
  | .sweep _ capHit => if capHit then Loops.loopErrorCap else "LoopBudgetExhausted"

def rowMessage : ExhaustedBy → String
  | by'@(.driver _ _ _ message) => Loops.orDefault message
      ("the loop's wall fired (the named state: " ++ Loops.stateName by'.errorClass ++ ")")
  | .sweep _ capHit => "the loop's " ++ (if capHit then "iteration cap" else "budget") ++
      " wall fired (the sweep's arm; the named state: " ++
      (if capHit then "iteration_cap_exhausted" else "budget_exhausted") ++ ")"

def message : ExhaustedBy → Option String
  | .driver _ _ _ message => message
  | .sweep .. => none

def policy (loopKey : String) : ExhaustedBy → ExhaustionPolicy
  | .driver _ policy .. => policy
  | .sweep workflow _ => registeredLoopPolicy registry workflow loopKey

end ExhaustedBy

end

section

def Snapshot.insertJob (db : Snapshot) (k : JobId) (r : JobRow) : Snapshot :=
  { db with ids := db.ids ++ [k], jobs := Function.update db.jobs k (some r) }

/-- One row of `OUTBOX_DRAIN_CONSUMERS_SQL` with its `ON CONFLICT DO NOTHING`. -/
def drainDoc (now : Time) (priority : OutboxDoc → Int) (db : Snapshot) (p : JobId × OutboxDoc) :
    Snapshot :=
  if idempotencyTaken db p.2.key then db else db.insertJob p.1 (drainedRow now (priority p.2) p.2)

structure Escalation where
  (loop flow : JobId)
  payload : String
  deriving DecidableEq

structure EscState where
  db : Snapshot
  outbox : List OutboxDoc
  escalated : List Escalation := []

inductive EscEvent where
  /-- `_exhaust_loop`, or the loop sweep for one loop. -/
  | exhaust (sender : ExhaustedBy) (job : JobId) (worker : Option WorkerId) (attempt : Nat)
      (epoch : Option Nat) (outboxId : Nat)
  /-- `drain_outbox` with the rows it fetched and the ids it minted for their consumers. -/
  | drain (now : Time) (priority : OutboxDoc → Int) (fetched : List (JobId × OutboxDoc))
  | enqueue (o : OutboxDoc)
  | write (k : JobId) (r : JobRow)

def JobRow.sameBirth (r r' : JobRow) : Bool :=
  r'.parentId = r.parentId && r'.stepKey = r.stepKey && r'.payload = r.payload &&
    r'.idempotency = r.idempotency

def ExhaustedBy.statement (sender : ExhaustedBy) (job : JobId) (worker : Option WorkerId)
    (attempt : Nat) (epoch : Option Nat) : LoopExhaust :=
  { job, errorClass := sender.errorClass, message := sender.rowMessage, worker, attempt, epoch }

variable (registry : String → Option WorkflowDefinition) (render : EscalationInfo → String)

def ExhaustedBy.enqueues (sender : ExhaustedBy) (flow : JobId) (r : JobRow) : Option BindingsDoc :=
  if sender.policy registry r.stepKey = .escalate then
    escalationBindings registry render sender.workflow
      ⟨r.stepKey, flow, sender.errorClass, sender.message⟩
  else none

def ExhaustedBy.payload (sender : ExhaustedBy) (flow : JobId) (r : JobRow) : String :=
  render ⟨r.stepKey, flow, sender.errorClass, sender.message⟩

def escalationDoc (id : Nat) (job flow : JobId) (doc : BindingsDoc) : OutboxDoc :=
  { id, joinJob := job, flow, consumerStepKey := loopEscalationStepKey, mapIndex := none, doc }

/-- A drain has fetched undelivered rows, each once, and minted unused ids. -/
def Fetches (s : EscState) (fetched : List (JobId × OutboxDoc)) : Prop :=
  (fetched.map Prod.fst).Nodup ∧ (fetched.map Prod.snd).Nodup ∧
    ∀ p ∈ fetched, p.2 ∈ s.outbox ∧ p.2.delivered = false ∧ s.db.jobs p.1 = none

instance (s : EscState) (fetched : List (JobId × OutboxDoc)) : Decidable (Fetches s fetched) :=
  inferInstanceAs (Decidable (_ ∧ _ ∧ _))

def EscState.step (s : EscState) : EscEvent → Option EscState
  | .exhaust sender job worker attempt epoch outboxId =>
    let x := sender.statement job worker attempt epoch
    match s.db.jobs job with
    | none => some s
    | some r =>
      if x.hits job r then
        let s' := { s with db := s.db.write (loopExhaust s.db x) }
        r.metadata.flowId.bind fun flow =>
          match sender.enqueues registry render flow r with
          | none => some s'
          | some doc =>
            if s.outbox.any fun o => o.id = outboxId then none
            else some { s' with
              outbox := s.outbox ++ [escalationDoc outboxId job flow doc]
              escalated := s.escalated ++ [⟨job, flow, sender.payload render flow r⟩] }
      else some s
  | .drain now priority fetched =>
    if Fetches s fetched then
      some { s with
        db := fetched.foldl (drainDoc now priority) s.db
        outbox := s.outbox.map fun o =>
          if o.id ∈ fetched.map fun p => p.2.id then { o with delivered := true } else o }
    else none
  | .enqueue o =>
    if (s.outbox.any fun o' => o'.id = o.id) || o.delivered then none
    else some { s with outbox := s.outbox ++ [o] }
  | .write k r =>
    match s.db.jobs k with
    | some r0 =>
      if r0.sameBirth r then
        some { s with db := s.db.write fun k' => if k' = k then some r else none }
      else none
    | none => some { s with db := s.db.insertJob k r }

def escalationKey (flow : JobId) : String × String :=
  (idempotencyScope flow, stepIdempotencyKey loopEscalationStepKey none)

def EscState.Free (s : EscState) (key : String × String) : Prop :=
  idempotencyTaken s.db key = false ∧ ∀ o ∈ s.outbox, o.key ≠ key

/-- A run's escalation is enqueued under a free pair, and nothing else is written there. -/
def OneEscalation (s : EscState) : EscEvent → Prop
  | .exhaust sender job worker attempt epoch _ => ∀ r flow doc, s.db.jobs job = some r →
      (sender.statement job worker attempt epoch).hits job r = true → r.metadata.flowId = some flow →
        sender.enqueues registry render flow r = some doc → s.Free (escalationKey flow)
  | .drain .. => True
  | .enqueue o => ∀ flow, o.key ≠ escalationKey flow
  | .write k r => s.db.jobs k = none → ∀ flow, r.idempotency ≠ some (escalationKey flow)

def EscState.Delivered (s : EscState) (e : Escalation) : Prop :=
  ∃ k r, s.db.jobs k = some r ∧ r.parentId = some e.loop ∧ r.stepKey = loopEscalationStepKey ∧
    r.payload = some e.payload

end

section
variable {registry : String → Option WorkflowDefinition} {render : EscalationInfo → String}
  {s s' : EscState} {db : Snapshot}

def EscState.Waits (s : EscState) (e : Escalation) : Prop :=
  ∃ o ∈ s.outbox, o.delivered = false ∧ o.joinJob = e.loop ∧
    o.consumerStepKey = loopEscalationStepKey ∧ o.doc.payload = some e.payload ∧
    o.key = escalationKey e.flow ∧ idempotencyTaken s.db o.key = false

structure EscState.Sound (s : EscState) : Prop where
  ids : (s.outbox.map OutboxDoc.id).Nodup
  kept : ∀ e ∈ s.escalated, s.Waits e ∨ s.Delivered e
  single : ∀ o ∈ s.outbox, ∀ o' ∈ s.outbox, ∀ flow, o.key = escalationKey flow →
    o'.key = escalationKey flow → o = o'

lemma JobRow.sameBirth_iff {r r' : JobRow} : r.sameBirth r' = true ↔
    r'.parentId = r.parentId ∧ r'.stepKey = r.stepKey ∧ r'.payload = r.payload ∧
      r'.idempotency = r.idempotency := by
  simp [JobRow.sameBirth, and_assoc]

lemma EscState.Delivered.mono {s' : EscState} (h : s.Delivered e)
    (hrows : ∀ k r, s.db.jobs k = some r → ∃ r', s'.db.jobs k = some r' ∧ r.sameBirth r' = true) :
    s'.Delivered e := by
  obtain ⟨k, r, hr, hpar, hstep, hpay⟩ := h
  obtain ⟨r', hr', hb⟩ := hrows k r hr
  obtain ⟨hp, hs, hl, -⟩ := JobRow.sameBirth_iff.mp hb
  exact ⟨k, r', hr', hp.trans hpar, hs.trans hstep, hl.trans hpay⟩

variable {w : Writes}

section
variable (h : ∀ k r, w k = some r → ∃ r0, db.jobs k = some r0 ∧ r0.sameBirth r = true)
include h

lemma write_sameBirth
    (hr : db.jobs k = some r) : ∃ r', (db.write w).jobs k = some r' ∧ r.sameBirth r' = true := by
  cases hw : w k with
  | none => exact ⟨r, by simp [write, hw, hr], by simp [JobRow.sameBirth]⟩
  | some r' =>
    obtain ⟨r0, hr0, hb⟩ := h k r' hw
    cases hr.symm.trans hr0
    exact ⟨r', by simp [write, hw], hb⟩

lemma idempotencyTaken_write : idempotencyTaken (db.write w) key = idempotencyTaken db key := by
  rw [idempotencyTaken, idempotencyTaken]
  congr 1
  funext k
  cases hw : w k with
  | none => simp [write, hw]
  | some r =>
    obtain ⟨r0, hr0, hb⟩ := h k r hw
    simp [write, hw, hr0, (JobRow.sameBirth_iff.mp hb).2.2.2]

end

lemma loopExhaust_sameBirth (h : loopExhaust db x k = some r) :
    ∃ r0, db.jobs k = some r0 ∧ r0.sameBirth r = true := by
  obtain ⟨r0, hr0, -, rfl⟩ := update_some.mp h
  refine ⟨r0, hr0, ?_⟩
  split <;> simp [JobRow.sameBirth]

lemma idempotencyTaken_insertJob (hk : db.jobs k = none) :
    idempotencyTaken (db.insertJob k r) key = true ↔
      idempotencyTaken db key = true ∨ r.idempotency = some key := by
  have hold : ∀ k' ∈ db.ids, ((db.insertJob k r).jobs k').any (fun r => r.idempotency = some key) =
      true ↔ (db.jobs k').any (fun r => r.idempotency = some key) = true ∨
        k' = k ∧ r.idempotency = some key := by
    intro k' _
    by_cases he : k' = k
    · subst he
      simp [insertJob, hk]
    · simp [insertJob, he]
  rw [idempotencyTaken, idempotencyTaken]
  simp only [List.any_eq_true, insertJob, mem_append, mem_singleton]
  constructor
  · rintro ⟨k', hk' | rfl, ht⟩
    · rcases (hold k' hk').mp ht with ht | ⟨-, ht⟩
      · exact .inl ⟨k', hk', ht⟩
      · exact .inr ht
    · right
      simpa [insertJob] using ht
  · rintro (⟨k', hk', ht⟩ | ht)
    · exact ⟨k', .inl hk', (hold k' hk').mpr (.inl ht)⟩
    · exact ⟨k, .inr rfl, by simp [ht]⟩

lemma Snapshot.insertJob_jobs :
    (db.insertJob k r).jobs k' = if k' = k then some r else db.jobs k' :=
  update_apply ..

lemma insertJob_kept (hk : db.jobs k = none) (hr : db.jobs k' = some r') :
    (db.insertJob k r).jobs k' = some r' := by
  have hne : k' ≠ k := by
    rintro rfl
    rw [hk] at hr
    cases hr
  rw [insertJob_jobs, if_neg hne, hr]

lemma drainDoc_jobs_none (hk : p.1 ≠ k) (h : db.jobs k = none) :
    (drainDoc now priority db p).jobs k = none := by
  rw [drainDoc]
  split
  · exact h
  · rw [insertJob_jobs, if_neg hk.symm, h]

lemma drainDoc_kept (hp : db.jobs p.1 = none) (hr : db.jobs k = some r) :
    (drainDoc now priority db p).jobs k = some r := by
  rw [drainDoc]
  split
  · exact hr
  · exact insertJob_kept hp hr

lemma drainDoc_taken (hp : db.jobs p.1 = none) (hkey : p.2.key ≠ key)
    (h : idempotencyTaken db key = false) :
    idempotencyTaken (drainDoc now priority db p) key = false := by
  rw [drainDoc]
  split
  · exact h
  rw [Bool.eq_false_iff]
  intro ht
  rcases (idempotencyTaken_insertJob hp).mp ht with ht | ht
  · rw [h] at ht
    cases ht
  · exact hkey (some.inj ht)

section
variable {fetched : List (JobId × OutboxDoc)}

section
variable (hids : (fetched.map Prod.fst).Nodup) (hnone : ∀ p ∈ fetched, db.jobs p.1 = none)
include hids hnone

lemma foldl_drainDoc_kept (hr : db.jobs k = some r) :
    (fetched.foldl (drainDoc now priority) db).jobs k = some r := by
  induction fetched generalizing db with
  | nil => exact hr
  | cons p fetched ih =>
    obtain ⟨hp, hids⟩ := nodup_cons.mp hids
    obtain ⟨hpnone, hnone⟩ := forall_mem_cons.mp hnone
    refine ih hids ?_ (drainDoc_kept hpnone hr)
    intro q hq
    exact drainDoc_jobs_none (fun he => hp (he ▸ mem_map_of_mem hq)) (hnone q hq)

lemma foldl_drainDoc_taken (hkey : ∀ p ∈ fetched, p.2.key ≠ key)
    (h : idempotencyTaken db key = false) :
    idempotencyTaken (fetched.foldl (drainDoc now priority) db) key = false := by
  induction fetched generalizing db with
  | nil => exact h
  | cons p fetched ih =>
    obtain ⟨hp, hids⟩ := nodup_cons.mp hids
    obtain ⟨hpnone, hnone⟩ := forall_mem_cons.mp hnone
    obtain ⟨hpkey, hkey⟩ := forall_mem_cons.mp hkey
    refine ih hids ?_ hkey (drainDoc_taken hpnone hpkey h)
    intro q hq
    exact drainDoc_jobs_none (fun he => hp (he ▸ mem_map_of_mem hq)) (hnone q hq)

lemma foldl_drainDoc_inserts (hmem : (k, o) ∈ fetched)
    (honly : ∀ p ∈ fetched, p.2.key = o.key → p = (k, o)) (h : idempotencyTaken db o.key = false) :
    (fetched.foldl (drainDoc now priority) db).jobs k = some (drainedRow now (priority o) o) := by
  induction fetched generalizing db with
  | nil => cases hmem
  | cons p fetched ih =>
    obtain ⟨hp, hids'⟩ := nodup_cons.mp hids
    obtain ⟨hpnone, hrest⟩ := forall_mem_cons.mp hnone
    obtain ⟨hponly, honly'⟩ := forall_mem_cons.mp honly
    have hnone' : ∀ q ∈ fetched, (drainDoc now priority db p).jobs q.1 = none := by
      intro q hq
      exact drainDoc_jobs_none (fun he => hp (he ▸ mem_map_of_mem hq)) (hrest q hq)
    rcases mem_cons.mp hmem with rfl | hmem'
    · apply foldl_drainDoc_kept hids' hnone'
      rw [drainDoc, if_neg (by rw [h]; nofun), insertJob_jobs, if_pos rfl]
    refine ih hids' hnone' hmem' honly' (drainDoc_taken hpnone ?_ h)
    intro he
    obtain rfl := hponly he
    exact hp (mem_map_of_mem hmem')

end

end

section
variable (h : s.Sound)
include h

namespace EscState.Sound

lemma write_db
    (hw : ∀ k r, w k = some r → ∃ r0, s.db.jobs k = some r0 ∧ r0.sameBirth r = true) :
    EscState.Sound { s with db := s.db.write w } where
  ids := h.ids
  kept e he := by
    rcases h.kept e he with ⟨o, ho, hd, hj, hk, hp, hkey, hfree⟩ | hd
    · exact .inl ⟨o, ho, hd, hj, hk, hp, hkey, (idempotencyTaken_write hw).trans hfree⟩
    · exact .inr (hd.mono fun k r hr => write_sameBirth hw hr)
  single := h.single

lemma drain (hf : Fetches s fetched) : EscState.Sound { s with
      db := fetched.foldl (drainDoc now priority) s.db
      outbox := s.outbox.map fun o =>
        if o.id ∈ fetched.map fun p => p.2.id then { o with delivered := true } else o } := by
  obtain ⟨hids, hdocs, hfetch⟩ := hf
  have hnone : ∀ p ∈ fetched, s.db.jobs p.1 = none := fun p hp => (hfetch p hp).2.2
  have hkey : ∀ o : OutboxDoc, (if o.id ∈ fetched.map fun p => p.2.id then
      { o with delivered := true } else o).key = o.key := by
    intro o
    split <;> rfl
  have hid : ∀ o : OutboxDoc, (if o.id ∈ fetched.map fun p => p.2.id then
      { o with delivered := true } else o).id = o.id := by
    intro o
    split <;> rfl
  constructor
  · rw [List.map_map]
    exact (map_congr_left fun o _ => hid o).symm ▸ h.ids
  · intro e he
    rcases h.kept e he with ⟨o, ho, hd, hj, hk, hp, hkeyo, hfree⟩ | hdelivered
    · by_cases hmem : o ∈ fetched.map Prod.snd
      · obtain ⟨⟨k, _⟩, hko, rfl⟩ := mem_map.mp hmem
        refine .inr ⟨k, _, foldl_drainDoc_inserts hids hnone hko ?_ hfree, ?_, hk, hp⟩
        · intro p hpf hpk
          have heq := h.single p.2 (hfetch p hpf).1 _ ho e.flow (hpk.trans hkeyo) hkeyo
          exact inj_on_of_nodup_map hdocs hpf hko heq
        · exact congrArg some hj
      · have hnot : o.id ∉ fetched.map fun p => p.2.id := by
          intro hin
          obtain ⟨p, hpf, hpid⟩ := mem_map.mp hin
          have heq := inj_on_of_nodup_map h.ids (hfetch p hpf).1 ho hpid
          exact hmem (mem_map.mpr ⟨p, hpf, heq⟩)
        refine .inl ⟨o, mem_map.mpr ⟨o, ho, if_neg hnot⟩, hd, hj, hk, hp, hkeyo, ?_⟩
        apply foldl_drainDoc_taken hids hnone _ hfree
        intro p hpf hpk
        have heq := h.single p.2 (hfetch p hpf).1 o ho e.flow (hpk.trans hkeyo) hkeyo
        exact hmem (mem_map.mpr ⟨p, hpf, heq⟩)
    · refine .inr (hdelivered.mono fun k r hr => ⟨r, foldl_drainDoc_kept hids hnone hr, ?_⟩)
      simp [JobRow.sameBirth]
  · intro o ho o' ho' flow hok ho'k
    obtain ⟨q, hq, rfl⟩ := mem_map.mp ho
    obtain ⟨q', hq', rfl⟩ := mem_map.mp ho'
    rw [hkey] at hok ho'k
    rw [h.single q hq q' hq' flow hok ho'k]

lemma enqueue (hid : ∀ o' ∈ s.outbox, o'.id ≠ o.id)
    (hkey : ∀ flow, o.key = escalationKey flow → ∀ o' ∈ s.outbox, o'.key ≠ o.key) :
    EscState.Sound { s with outbox := s.outbox ++ [o] } where
  ids := by
    rw [map_append, nodup_append]
    refine ⟨h.ids, nodup_singleton _, ?_⟩
    intro i hi i' hi' he
    obtain ⟨o', ho', rfl⟩ := mem_map.mp hi
    exact hid o' ho' (he.trans (mem_singleton.mp hi'))
  kept e he := by
    rcases h.kept e he with ⟨o', ho', hrest⟩ | hd
    · exact .inl ⟨o', mem_append_left _ ho', hrest⟩
    · exact .inr hd
  single o1 h1 o2 h2 flow hk1 hk2 := by
    rcases mem_append.mp h1 with h₁' | h₁' <;> rcases mem_append.mp h2 with h₂' | h₂'
    · exact h.single o1 h₁' o2 h₂' flow hk1 hk2
    · obtain rfl := mem_singleton.mp h₂'
      exact absurd (hk1.trans hk2.symm) (hkey flow hk2 o1 h₁')
    · obtain rfl := mem_singleton.mp h₁'
      exact absurd (hk2.trans hk1.symm) (hkey flow hk1 o2 h₂')
    · exact (mem_singleton.mp h₁').trans (mem_singleton.mp h₂').symm

lemma insertJob (hk : s.db.jobs k = none)
    (hr : ∀ flow, r.idempotency ≠ some (escalationKey flow)) :
    EscState.Sound { s with db := s.db.insertJob k r } where
  ids := h.ids
  kept e he := by
    rcases h.kept e he with ⟨o, ho, hd, hj, hs, hp, hkey, hfree⟩ | hd
    · refine .inl ⟨o, ho, hd, hj, hs, hp, hkey, ?_⟩
      rw [Bool.eq_false_iff]
      intro ht
      rcases (idempotencyTaken_insertJob hk).mp ht with ht | ht
      · rw [hfree] at ht
        cases ht
      · exact hr e.flow (hkey ▸ ht)
    · refine .inr (hd.mono fun k' r' hr' => ⟨r', insertJob_kept hk hr', ?_⟩)
      simp [JobRow.sameBirth]
  single := h.single

lemma exhaust (hid : ∀ o ∈ s.outbox, o.id ≠ outboxId)
    (hfree : s.Free (escalationKey flow)) (hdoc : doc.payload = some payload) :
    EscState.Sound { s with
      outbox := s.outbox ++ [escalationDoc outboxId job flow doc]
      escalated := s.escalated ++ [⟨job, flow, payload⟩] } := by
  have hs := h.enqueue (o := escalationDoc outboxId job flow doc) hid fun _ _ o' ho' =>
    hfree.2 o' ho'
  refine ⟨hs.ids, ?_, hs.single⟩
  intro e he
  rcases mem_append.mp he with he | he
  · exact hs.kept e he
  · obtain rfl := mem_singleton.mp he
    exact .inl ⟨_, mem_append_right _ (mem_singleton_self _), rfl, rfl, rfl, hdoc, rfl, hfree.1⟩

end EscState.Sound

end

lemma ExhaustedBy.enqueues_payload {sender : ExhaustedBy}
    (h : sender.enqueues registry render flow r = some doc) :
    doc.payload = some (sender.payload render flow r) := by
  rw [ExhaustedBy.enqueues] at h
  split at h
  · obtain ⟨d, -, rfl⟩ := map_eq_some_iff.mp h
    rfl
  · cases h

lemma EscState.step_sound (h : s.Sound) (hok : OneEscalation registry render s a)
    (hs : s.step registry render a = some s') : s'.Sound := by
  cases a with
  | exhaust sender job worker attempt epoch outboxId =>
    rw [EscState.step] at hs
    split at hs
    · exact some.inj hs ▸ h
    next r hr =>
      split at hs
      next hhits =>
        obtain ⟨flow, hflow, hs⟩ := bind_eq_some_iff.mp hs
        have hw := h.write_db (w := loopExhaust s.db (sender.statement job worker attempt epoch))
          fun k r => loopExhaust_sameBirth
        split at hs
        · exact some.inj hs ▸ hw
        next doc hdoc =>
          obtain ⟨hid, hs⟩ := ite_none_left_eq_some.mp hs
          cases hs
          obtain ⟨hfree, houtbox⟩ := hok r flow doc hr hhits hflow hdoc
          refine hw.exhaust ?_ ⟨?_, houtbox⟩ (ExhaustedBy.enqueues_payload hdoc)
          · intro o ho he
            exact hid (any_eq_true.mpr ⟨o, ho, decide_eq_true he⟩)
          · exact (idempotencyTaken_write fun k r => loopExhaust_sameBirth).trans hfree
      · exact some.inj hs ▸ h
  | drain now priority fetched =>
    rw [EscState.step] at hs
    split at hs
    next hf => exact some.inj hs ▸ h.drain hf
    · cases hs
  | enqueue o =>
    rw [EscState.step] at hs
    split at hs
    · cases hs
    next hid =>
      cases hs
      refine h.enqueue ?_ fun flow hkey => absurd hkey (hok flow)
      intro o' ho' he
      exact hid (Bool.or_eq_true_iff.mpr (.inl (any_eq_true.mpr ⟨o', ho', decide_eq_true he⟩)))
  | write k r =>
    rw [EscState.step] at hs
    split at hs
    next r0 hr0 =>
      obtain ⟨hb, hs⟩ := ite_none_right_eq_some.mp hs
      cases hs
      apply h.write_db
      intro k' r' hw
      obtain ⟨he, hw⟩ := ite_none_right_eq_some.mp hw
      cases hw
      exact ⟨r0, he ▸ hr0, hb⟩
    next hk => exact some.inj hs ▸ h.insertJob hk (hok hk)

/-- If a run enqueues at most one escalation, each exhausted loop gets a consumer row of its own. -/
theorem escalations_delivered
    (h : Reach (EscState.step registry render) (OneEscalation registry render) s0 s)
    (hids : (s0.outbox.map OutboxDoc.id).Nodup) (hnone : s0.escalated = [])
    (hkeys : ∀ o ∈ s0.outbox, ∀ flow, o.key ≠ escalationKey flow)
    (hdrained : ∀ o ∈ s.outbox, o.delivered = true) : ∀ e ∈ s.escalated, s.Delivered e := by
  have h0 : s0.Sound := by
    refine ⟨hids, ?_, ?_⟩
    · intro e he
      rw [hnone] at he
      cases he
    · intro o ho o' ho' flow hk
      exact absurd hk (hkeys o ho flow)
  have hsound : s.Sound := h.invariant h0 fun s a s' hI hok hs => EscState.step_sound hI hok hs
  intro e he
  rcases hsound.kept e he with ⟨o, ho, hd, -⟩ | hdelivered
  · rw [hdrained o ho] at hd
    cases hd
  · exact hdelivered

def escalating : String → Option WorkflowDefinition :=
  fun _ => some ⟨"flow", "default", true, []⟩

def twoLoops : EscState where
  db :=
    { ids := [0, 1, 2]
      jobs := fun k => match k with
        | 0 => some { stepKey := rootStepKey, status := .running, metadata := { flowId := some 0 } }
        | 1 => some { stepKey := "a", status := .running, metadata := { flowId := some 0 } }
        | 2 => some { stepKey := "b", status := .running, metadata := { flowId := some 0 } }
        | _ => none
      jobLocked := fun _ => false, edges := [], fires := [], outbox := []
      outboxLocked := fun _ => false, ledger := [] }
  outbox := []

def loopExhausted (job : JobId) (outboxId : Nat) : EscEvent :=
  .exhaust (.sweep (some "flow") true) job none 0 none outboxId

def escalationOf (id : Nat) (job : JobId) (stepKey : String) : OutboxDoc :=
  escalationDoc id job 0
    { actor := some "flow", queue := some "default", payload := some stepKey, traceId := none }

def drainOne : List EscEvent :=
  [loopExhausted 1 10, .drain 0 (fun _ => 0) [(3, escalationOf 10 1 "a")]]

theorem escalations_delivered_oneLoop :
    let s := final (EscState.step escalating EscalationInfo.loop) twoLoops drainOne
    s.escalated = [⟨1, 0, "a"⟩] ∧ ∀ e ∈ s.escalated, s.Delivered e := by
  have hexec : exec (EscState.step escalating EscalationInfo.loop) twoLoops drainOne =
      some (final (EscState.step escalating EscalationInfo.loop) twoLoops drainOne) :=
    exec_final (by decide +kernel)
  have hmeets : Meets (EscState.step escalating EscalationInfo.loop)
      (OneEscalation escalating EscalationInfo.loop) twoLoops drainOne := by
    refine ⟨?_, fun s' _ => ⟨trivial, fun _ _ => trivial⟩⟩
    intro r flow doc hr _ hflow _
    cases hr
    cases hflow
    exact ⟨by decide +kernel, fun o ho => nomatch ho⟩
  refine ⟨by decide +kernel, ?_⟩
  exact escalations_delivered (Reach.of_exec hexec hmeets) (by decide) rfl
    (fun o ho => nomatch ho) (by decide +kernel)

def drainBoth : List EscEvent :=
  [loopExhausted 1 10, loopExhausted 2 11,
    .drain 0 (fun _ => 0) [(3, escalationOf 10 1 "a"), (4, escalationOf 11 2 "b")]]

/-- Both loops escalate, and the drain inserts the consumer of the first only. -/
theorem second_escalation_lost :
    ∃ s, exec (EscState.step escalating EscalationInfo.loop) twoLoops drainBoth = some s ∧
      s.escalated = [⟨1, 0, "a"⟩, ⟨2, 0, "b"⟩] ∧ (∀ o ∈ s.outbox, o.delivered = true) ∧
      s.db.ids = [0, 1, 2, 3] ∧ ∀ k ∈ s.db.ids, (s.db.jobs k).all fun r => r.parentId ≠ some 2 := by
  refine ⟨final (EscState.step escalating EscalationInfo.loop) twoLoops drainBoth,
    exec_final (by decide +kernel), by decide +kernel, by decide +kernel, by decide +kernel,
    by decide +kernel⟩

end

end TaskQ
