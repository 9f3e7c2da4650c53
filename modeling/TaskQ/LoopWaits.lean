import TaskQ.Replay

namespace TaskQ
open List Function

def nodeHolds (holds : List (HoldId × SignalRow)) (node : NodeAddr) : List (HoldId × SignalRow) :=
  holds.filter fun p => p.2.addr = node

def WaitCall.site (w : WaitCall) : String × List String := (w.signalName, w.reads)

def JobRow.address (r : JobRow) : Option JobId × String × Option Nat :=
  (r.metadata.flowId, r.stepKey, r.mapIndex)

def NodeAddr.address (node : NodeAddr) : Option JobId × String × Option Nat :=
  (some node.workflow, node.nodeKey, node.mapIndex)

lemma NodeAddr.address_injective {a c : NodeAddr} (h : a.address = c.address) : a = c := by
  cases a
  cases c
  obtain ⟨rfl, rfl, rfl⟩ := h
  rfl

lemma JobRow.address_of_claim {r : JobRow} (h : r.inFlow flow = true) :
    r.address = (⟨flow, r.stepKey, r.mapIndex⟩ : NodeAddr).address := by
  rw [JobRow.inFlow] at h
  cases hf : r.metadata.flowId with
  | none =>
    rw [hf] at h
    cases h
  | some i =>
    rw [hf] at h
    rw [JobRow.address, hf, of_decide_eq_true h]
    rfl

section
variable (job : JobId) (node : NodeAddr) (w0 : WaitCall) (s : Runner)

def Runner.iteration : Nat := ((s.db.jobs job).bind fun r => r.metadata.iteration).getD 0

def Runner.drives (e : Nat) (b : Body) : Bool :=
  ((s.bodies.drop (e + 1)).all fun c => c.claim.job ≠ job) && (s.db.jobs job).any fun r =>
    r.status = .running && r.lockedByWorker = some b.claim.worker && r.attempt = b.claim.attempt

def Runner.reported (b : Body) (w : WaitCall) : Bool :=
  (latestHold s.holds b.node w.reads .abandoned).any fun p => (s.db.jobs b.claim.job).any fun r =>
    r.mark (faceKey b.claim.attempt w.signalName) = some p.2.holdEpoch

def Runner.ofLoop (e : Nat) (p : Body → Bool) : Bool :=
  (s.bodies[e]?).all fun b => b.claim.job ≠ job || s.drives job e b && p b

/-- The waits are of one site, undelivered or expired ones end the loop, and no hold is cancelled.
-/
def Runner.steady : RunnerEvent → Bool
  | .wait e w => s.ofLoop job e fun b => w.site = w0.site && !s.reported b w
  | .exec e _ _ => s.ofLoop job e fun _ => true
  | .advance e next _ => s.ofLoop job e fun _ => next = s.iteration job + 1 &&
      (nodeHolds s.holds node)[s.iteration job]?.any fun p => p.2.status = .delivered
  | .resume _ k => k ≠ job || (nodeHolds s.holds node).all fun p => p.2.status ≠ .held
  | .cancelRun _ flow _ => flow ≠ node.workflow
  | .retryNode _ flow _ => flow ≠ job
  | _ => true

end

structure Counted (w0 : WaitCall) (holds : List (HoldId × SignalRow)) (k : Nat) : Prop where
  lower : k ≤ holds.length
  upper : holds.length ≤ k + 1
  delivered : ∀ p ∈ holds.take k, p.2.status = .delivered
  named : ∀ p ∈ holds, p.2.signalName = w0.signalName
  epochs : holds.Pairwise fun p q => p.2.holdEpoch < q.2.holdEpoch
  ended : ∀ p ∈ holds, p.2.status ≠ .cancelled ∧
    (p.2.status = .abandoned → startsWith timerMark p.2.signalName = false)

section
variable {holds : List (HoldId × SignalRow)} {w w0 : WaitCall} {node : NodeAddr}

lemma Counted.nil : Counted w0 [] 0 where
  lower := Nat.le_refl 0
  upper := Nat.zero_le 1
  delivered _ hp := absurd hp not_mem_nil
  named _ hp := absurd hp not_mem_nil
  epochs := List.Pairwise.nil
  ended _ hp := absurd hp not_mem_nil

lemma Counted.split (h : Counted w0 holds k) : holds.drop k = (holds[k]?).toList := by
  have hl : (holds.drop k).length ≤ 1 := by
    rw [length_drop]
    have := h.upper
    omega
  have hget : holds[k]? = (holds.drop k)[0]? := by rw [getElem?_drop, Nat.add_zero]
  rw [hget]
  match hd : holds.drop k with
  | [] => rfl
  | [p] => rfl
  | _ :: _ :: _ => simp [hd] at hl

lemma Counted.last (h : Counted w0 holds k) (hp : p ∈ holds) (hs : p.2.status ≠ .delivered) :
    holds[k]? = some p := by
  rw [← take_append_drop k holds] at hp
  rcases mem_append.mp hp with hp | hp
  · exact absurd (h.delivered p hp) hs
  · rw [h.split, Option.mem_toList] at hp
    exact hp

lemma holdsOf_eq (hn : ∀ p ∈ nodeHolds holds node, p.2.signalName = w0.signalName)
    (hw : w.site = w0.site) (st : SignalStatus) :
    holdsOf holds node w.reads st = (nodeHolds holds node).filter fun p => p.2.status = st := by
  rw [holdsOf, nodeHolds, filter_filter]
  apply filter_congr
  intro p hp
  by_cases ha : p.2.addr = node
  · have hname := hn p (mem_filter.mpr ⟨hp, by simpa using ha⟩)
    have hmem : p.2.signalName ∈ w.reads := by
      rw [hname, ← (Prod.mk.inj hw).1]
      exact w.signalName_mem_reads
    simp [ha, hmem]
  · simp [ha]

lemma Counted.answerQueue (h : Counted w0 (nodeHolds holds node) k) (hw : w.site = w0.site) :
    answerQueue holds node w.reads =
      (nodeHolds holds node).filter fun p => p.2.status = .delivered := by
  rw [TaskQ.answerQueue, holdsOf_eq h.named hw]
  apply List.Pairwise.insertionSort_eq
  exact (h.epochs.imp fun hlt => hlt.le).filter _

lemma Counted.filter (h : Counted w0 holds k) : (holds.filter fun p => p.2.status = .delivered) =
      holds.take k ++ ((holds[k]?).filter fun p => p.2.status = .delivered).toList := by
  conv_lhs => rw [← take_append_drop k holds]
  rw [filter_append, h.split, filter_eq_self.mpr (by simpa using h.delivered)]
  cases holds[k]? with
  | none => rfl
  | some p => by_cases hp : p.2.status = .delivered <;> simp [hp, Option.filter]

lemma Counted.afterQueue (h : Counted w0 (nodeHolds holds node) k) (hw : w.site = w0.site) :
    afterQueue (TaskQ.answerQueue holds node w.reads) w true k =
      match (nodeHolds holds node)[k]?.filter fun p => p.2.status = .delivered with
      | some p => .answered w true k p
      | none => .readHeld w := by
  have hlen : ((nodeHolds holds node).take k).length = k := by
    rw [length_take]
    exact Nat.min_eq_left h.lower
  rw [h.answerQueue hw, h.filter, TaskQ.afterQueue, if_neg, getElem?_append_right hlen.le,
    hlen, Nat.sub_self]
  · cases (nodeHolds holds node)[k]?.filter fun p => p.2.status = .delivered <;> rfl
  · simp only [Bool.true_and, decide_eq_true_eq, length_append, hlen]
    omega

lemma mem_of_latestHold (h : latestHold holds node names st = some p) :
    p ∈ holdsOf holds node names st :=
  (mem_insertionSort _).mp (mem_of_mem_head? h)

lemma latestHold_eq_none (h : latestHold holds node names st = none) :
    holdsOf holds node names st = [] := by
  have := head?_eq_none_iff.mp h
  rw [← length_eq_zero_iff, length_insertionSort, length_eq_zero_iff] at this
  exact this

lemma nodeHolds_concat {r : SignalRow} (h : r.addr = node) :
    nodeHolds (holds ++ [(hold, r)]) node = nodeHolds holds node ++ [(hold, r)] := by
  simp [nodeHolds, h]

lemma nodeHolds_concat_of_ne {r : SignalRow} (h : r.addr ≠ node) :
    nodeHolds (holds ++ [(hold, r)]) node = nodeHolds holds node := by
  simp [nodeHolds, h]

lemma holdInsert_eq_some (h : holdInsert rows hold r = some rows') :
    rows' = rows ++ [(hold, r)] := by
  unfold holdInsert at h
  split at h
  · cases h
  · exact (Option.some.inj h).symm

lemma lt_nextEpoch {holds : List (HoldId × SignalRow)} (hp : p ∈ nodeHolds holds node) :
    p.2.holdEpoch < nextEpoch holds node := by
  have hle : ∀ l : List Nat, ∀ n ∈ l, n ≤ l.foldr max 0 := by
    intro l n hn
    induction l with
    | nil => cases hn
    | cons m l ih =>
      rcases mem_cons.mp hn with rfl | hn
      · exact le_max_left _ _
      · exact (ih hn).trans (le_max_right _ _)
  exact Nat.lt_succ_of_le (hle _ _ (mem_map_of_mem hp))

lemma Counted.concat (h : Counted w0 hs k) (hlen : hs.length = k)
    (hs' : q.2.status = .held) (hname : q.2.signalName = w0.signalName)
    (hepoch : ∀ p ∈ hs, p.2.holdEpoch < q.2.holdEpoch) : Counted w0 (hs ++ [q]) k := by
  refine ⟨by simp [hlen], by simp [hlen], fun p hp => ?_, fun p hp => ?_, ?_, fun p hp => ?_⟩
  · rw [← hlen, take_left] at hp
    apply h.delivered
    rwa [← hlen, take_length]
  · rcases mem_append.mp hp with hp | hp
    · exact h.named p hp
    · rw [mem_singleton.mp hp]
      exact hname
  · rw [pairwise_append]
    refine ⟨h.epochs, pairwise_singleton _ _, fun p hp q' hq => ?_⟩
    rw [mem_singleton.mp hq]
    exact hepoch p hp
  · rcases mem_append.mp hp with hp | hp
    · exact h.ended p hp
    · rw [mem_singleton.mp hp, hs']
      exact ⟨nofun, nofun⟩

lemma Counted.advance (h : Counted w0 hs k) (hp : hs[k]? = some p)
    (hd : p.2.status = .delivered) : Counted w0 hs (k + 1) := by
  have hlen := (List.getElem?_eq_some_iff.mp hp).1
  refine ⟨hlen, h.upper.trans (Nat.le_succ _), fun q hq => ?_, h.named, h.epochs, h.ended⟩
  rw [take_add_one, hp] at hq
  rcases mem_append.mp hq with hq | hq
  · exact h.delivered q hq
  · rw [mem_singleton.mp hq]
    exact hd

variable {s : Runner} {f : Resolution}

lemma Resolution.Guarded.keeps (hf : f.Guarded) (p : HoldId × SignalRow) :
    ((f p.1 p.2).getD p.2).identity = p.2.identity ∧
      (p.2.status ≠ .held → (f p.1 p.2).getD p.2 = p.2) := by
  cases hr : f p.1 p.2 with
  | none => exact ⟨rfl, fun _ => rfl⟩
  | some r =>
    obtain ⟨hheld, -, hid⟩ := hf _ _ _ hr
    exact ⟨hid, fun hp => absurd hheld hp⟩

lemma nodeHolds_settle (hf : f.Guarded) : nodeHolds (s.settle f).holds node =
    (nodeHolds s.holds node).map fun p => (p.1, (f p.1 p.2).getD p.2) := by
  rw [nodeHolds, Runner.settle]
  rw [filter_map, nodeHolds]
  congr 1
  apply filter_congr
  intro p _
  simp only [comp_apply, SignalRow.addr_of_identity (hf.keeps p).1]

lemma Counted.settle (h : Counted w0 holds k) (hf : f.Guarded)
    (hend : ∀ p ∈ holds, ∀ r, f p.1 p.2 = some r → r.status ≠ .cancelled ∧
      (r.status = .abandoned → startsWith timerMark r.signalName = false)) :
    Counted w0 (holds.map fun p => (p.1, (f p.1 p.2).getD p.2)) k := by
  refine ⟨by rw [length_map]; exact h.lower, by rw [length_map]; exact h.upper,
    fun p hp => ?_, fun p hp => ?_, ?_, fun p hp => ?_⟩
  · rw [← map_take] at hp
    obtain ⟨q, hq, rfl⟩ := mem_map.mp hp
    have hdel := h.delivered q hq
    rw [(hf.keeps q).2 (by rw [hdel]; nofun)]
    exact hdel
  · obtain ⟨q, hq, rfl⟩ := mem_map.mp hp
    exact (SignalRow.signalName_of_identity (hf.keeps q).1).trans (h.named q hq)
  · refine pairwise_map.mpr (h.epochs.imp fun {p q} hlt => ?_)
    have hp := (hf.keeps p).1
    have hq := (hf.keeps q).1
    simp only [SignalRow.identity, Prod.mk.injEq] at hp hq
    rw [hp.2.2.2.2, hq.2.2.2.2]
    exact hlt
  · obtain ⟨q, hq, rfl⟩ := mem_map.mp hp
    cases hr : f q.1 q.2 with
    | none => simpa [hr] using h.ended q hq
    | some r => simpa [hr] using hend q hq r hr

end

structure Quiet (r r' : JobRow) : Prop where
  loop : r'.metadata.loopKind = r.metadata.loopKind
  iteration : r'.metadata.iteration = r.metadata.iteration
  marks : r'.metadata.waitMarks = r.metadata.waitMarks
  hold : r'.metadata.hold = r.metadata.hold
  lock : r'.lockedByWorker = none ∨ r'.lockedByWorker = r.lockedByWorker ∧
    r'.attempt = r.attempt ∧ (r'.status = .running → r.status = .running)

lemma Quiet.refl (r : JobRow) : Quiet r r := ⟨rfl, rfl, rfl, rfl, .inr ⟨rfl, rfl, id⟩⟩

lemma Quiet.trans (h : Quiet r0 r1) (h' : Quiet r1 r2) : Quiet r0 r2 := by
  refine ⟨h'.loop.trans h.loop, h'.iteration.trans h.iteration, h'.marks.trans h.marks,
    h'.hold.trans h.hold, ?_⟩
  rcases h'.lock with hn | ⟨hl', ha', hs'⟩
  · exact .inl hn
  rcases h.lock with hn | ⟨hl, ha, hs⟩
  · exact .inl (hl'.trans hn)
  · exact .inr ⟨hl'.trans hl, ha'.trans ha, hs ∘ hs'⟩

def QuietAt (job : JobId) (db : Snapshot) (w : Writes) : Prop :=
  ∀ k r', w k = some r' → ∃ r, db.jobs k = some r ∧ r'.address = r.address ∧ (k = job → Quiet r r')

section
variable {job : JobId} {db : Snapshot}

lemma quietAt_update (hf : ∀ k r, p k r = true → (f k r).address = r.address ∧
    (k = job → Quiet r (f k r))) : QuietAt job db (update db p f) := by
  intro k r' h
  obtain ⟨r, hr, hp, rfl⟩ := update_some.mp h
  exact ⟨r, hr, hf k r hp⟩

lemma quietAt_none : QuietAt job db fun _ => none := by
  intro k r h
  cases h

lemma QuietAt.andThen (h : QuietAt job db w) (h' : QuietAt job (db.write w) w') :
    QuietAt job db (w.andThen w') := by
  intro k r' hr'
  rcases Option.or_eq_some_iff.mp hr' with hr' | ⟨-, hr'⟩
  · obtain ⟨r1, hr1, hp1, hq1⟩ := h' k r' hr'
    rcases Option.or_eq_some_iff.mp hr1 with hw | ⟨-, hd⟩
    · obtain ⟨r0, hr0, hp0, hq0⟩ := h k r1 hw
      exact ⟨r0, hr0, hp1.trans hp0, fun hk => (hq0 hk).trans (hq1 hk)⟩
    · exact ⟨r1, hd, hp1, hq1⟩
  · exact h k r' hr'

lemma quiet_of_unlocked {r r' : JobRow} (hm : r'.metadata = r.metadata)
    (hl : r'.lockedByWorker = none) : Quiet r r' :=
  ⟨by rw [hm], by rw [hm], by rw [hm], by rw [hm], .inl hl⟩

lemma quietAt_nodeDefer : QuietAt job db (nodeDefer db now c delay d) :=
  quietAt_update fun _ _ _ => ⟨rfl, fun _ => quiet_of_unlocked rfl rfl⟩

lemma quietAt_nodeRepend : QuietAt job db (nodeRepend db now k backoff) :=
  quietAt_update fun _ _ _ => ⟨rfl, fun _ => quiet_of_unlocked rfl rfl⟩

lemma quietAt_sweepReclaim : QuietAt job db (sweepReclaim db now grace due k) :=
  quietAt_update fun _ _ _ => ⟨rfl, fun _ => quiet_of_unlocked rfl rfl⟩

lemma quietAt_terminalMark : QuietAt job db (terminalMark db c) := by
  refine quietAt_update fun _ _ _ => ⟨rfl, fun _ => ⟨rfl, rfl, rfl, rfl, .inr ⟨rfl, rfl, ?_⟩⟩⟩
  intro hs
  have := c.outcome.2
  rw [show c.outcome.1 = .running from hs] at this
  cases this

lemma quietAt_retryWorkflowNode (h : flow ≠ job) :
    QuietAt job db (retryWorkflowNode db now flow key) := by
  unfold retryWorkflowNode
  dsimp only
  split
  · exact quietAt_none
  refine QuietAt.andThen (QuietAt.andThen (QuietAt.andThen ?_ ?_) ?_) ?_
  · exact quietAt_update fun _ _ _ => ⟨rfl, fun _ => quiet_of_unlocked rfl rfl⟩
  · exact quietAt_update fun _ r _ =>
      ⟨rfl, fun _ => ⟨rfl, rfl, rfl, rfl, .inr ⟨rfl, rfl, id⟩⟩⟩
  · rw [← Snapshot.write_andThen]
    exact quietAt_update fun _ _ _ => ⟨rfl, fun _ => quiet_of_unlocked rfl rfl⟩
  rw [← Snapshot.write_andThen, ← Snapshot.write_andThen]
  refine quietAt_update fun k r hp => ⟨rfl, fun hk => ?_⟩
  simp only [Bool.and_eq_true, decide_eq_true_eq] at hp
  exact absurd (hp.1.symm.trans hk) h

lemma quietAt_cancelOneRun : QuietAt job db (cancelOneRun db flow reason) := by
  unfold cancelOneRun
  dsimp only
  split
  · exact quietAt_none
  refine QuietAt.andThen ?_ ?_
  · exact quietAt_update fun _ _ _ => ⟨rfl, fun _ => ⟨rfl, rfl, rfl, rfl, .inr ⟨rfl, rfl, nofun⟩⟩⟩
  refine quietAt_update fun _ r _ => ?_
  split
  next hs => exact ⟨rfl, fun _ => ⟨rfl, rfl, rfl, rfl, .inr ⟨rfl, rfl, fun _ => hs⟩⟩⟩
  · exact ⟨rfl, fun _ => ⟨rfl, rfl, rfl, rfl, .inr ⟨rfl, rfl, nofun⟩⟩⟩

lemma quietAt_other (hk : ∀ k r, p k r = true → k ≠ job)
    (hf : ∀ k r, (f k r).address = r.address) : QuietAt job db (update db p f) :=
  quietAt_update fun k r hp => ⟨hf k r, fun he => absurd he (hk k r hp)⟩

lemma quietAt_setMark {db : Snapshot} (hj : k ≠ job) : QuietAt job db (setMark db k key n) :=
  quietAt_other (fun _ _ hp he => hj ((of_decide_eq_true hp).symm.trans he)) fun _ _ => rfl

end

end TaskQ
