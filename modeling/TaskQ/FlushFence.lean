import TaskQ.CancelKept

namespace TaskQ.Jobs
open Runs List Option

structure Buffered where
  id : JobId
  worker : WorkerId
  (attempt epoch : Int)
  deriving DecidableEq

/-- `buffers` are those not dropped yet and those with a flush statement still to run. -/
structure FlushState where
  table : Table := fun _ => none
  buffers : List Buffered := []

inductive FlushEvent where
  | op (a : Op)
  | flush (b : Buffered) (seqDelta : Int) (delta : Doc)
  | settle (b : Buffered)

def Table.seeded (t : Table) : Op → List Buffered
  | .claim ids worker now lease => ids.filterMap fun id =>
    ((t id).bind (·.claim worker now lease)).map fun j => ⟨id, worker, j.attempt, j.claimEpoch⟩
  | _ => []

def FlushState.step (s : FlushState) : FlushEvent → Option FlushState
  | .op a => (s.table.step a).map fun t => ⟨t, s.table.seeded a ++ s.buffers⟩
  | .flush b seqDelta delta =>
    if b ∈ s.buffers then
      some { s with table := s.table.update [b.id] (·.flushProgress b.worker b.attempt seqDelta delta) }
    else none
  | .settle b => some { s with buffers := s.buffers.erase b }

/-- While a job has a buffer its attempt is not refunded, and a claim of it counts. -/
def Counted (s : FlushState) : FlushEvent → Prop
  | .op a => ∀ b ∈ s.buffers, ∀ t ∈ s.table.step a, ∀ j ∈ s.table b.id, ∀ j' ∈ t b.id,
      j.attempt ≤ j'.attempt ∧ (j.claimEpoch < j'.claimEpoch → j.attempt < j'.attempt)
  | _ => True

instance (s : FlushState) : ∀ e, Decidable (Counted s e)
  | .op a => inferInstanceAs (Decidable (∀ b ∈ s.buffers, ∀ t ∈ s.table.step a, ∀ j ∈ _, ∀ j' ∈ _, _))
  | .flush .. | .settle _ => .isTrue trivial

structure Buffered.Behind (b : Buffered) (j : Row) : Prop where
  epoch : b.epoch ≤ j.claimEpoch
  attempt : b.attempt ≤ j.attempt
  later : b.epoch < j.claimEpoch → j.status = .running → b.attempt < j.attempt

variable {s s' : FlushState} {t t' : Table} {b : Buffered} {j j' : Row} {id : JobId}

lemma Table.step_epoch (h : t.step a = some t') (hj : t id = some j) :
    ∃ j', t' id = some j' ∧ (j.claimEpoch < j'.claimEpoch ∨
      j'.claimEpoch = j.claimEpoch ∧ (j'.status = .running → j.status = .running)) := by
  have hsome : (t id).isSome := by rw [hj]; rfl
  obtain ⟨j', hj'⟩ := isSome_iff_exists.mp (Table.step_isSome h hsome)
  refine ⟨j', hj', ?_⟩
  rcases Table.step_row h hj' with hsame | ⟨n, now, rfl, rfl, -⟩ | ⟨i, hi, hwrite⟩
  · cases hj.symm.trans hsame
    exact .inr ⟨rfl, fun hrun => hrun⟩
  · obtain ⟨hn, -⟩ := matched h
    cases hn.symm.trans hj
  cases hj.symm.trans hi
  rcases hwrite with ⟨_, _, _, _, -, -, hclaim⟩ | ⟨_, _, o, w, -, hw, rfl⟩ |
    ⟨stmt, ids, rfl, -, happly⟩
  · rw [(Row.claimed hclaim).epoch]
    exact .inl (Int.lt_succ _)
  · have hland := o.landing hw
    exact .inr ⟨hland.epoch, fun hrun => absurd hrun hland.running⟩
  · have hch := Stmt.changes happly
    exact .inr ⟨hch.epoch, fun hrun => (hch.running hrun).1⟩

lemma Buffered.Behind.step (h : b.Behind j) (ha : j.attempt ≤ j'.attempt)
    (hclaim : j.claimEpoch < j'.claimEpoch → j.attempt < j'.attempt)
    (he : j.claimEpoch < j'.claimEpoch ∨
      j'.claimEpoch = j.claimEpoch ∧ (j'.status = .running → j.status = .running)) :
    b.Behind j' := by
  rcases he with hlt | ⟨heq, hrun⟩
  · exact ⟨h.epoch.trans hlt.le, h.attempt.trans ha,
      fun _ _ => h.attempt.trans_lt (hclaim hlt)⟩
  · refine ⟨heq ▸ h.epoch, h.attempt.trans ha, fun hlt hj' => ?_⟩
    exact (h.later (heq ▸ hlt) (hrun hj')).trans_le ha

lemma Table.seeded_behind (hb : b ∈ t.seeded a) (h : t.step a = some t') :
    ∃ j, t' b.id = some j ∧ b.Behind j := by
  cases a with
  | claim ids worker now lease =>
    cases h
    obtain ⟨id, hid, hb⟩ := mem_filterMap.mp hb
    obtain ⟨j', hj', rfl⟩ := map_eq_some_iff.mp hb
    obtain ⟨j, hj, hclaim⟩ := bind_eq_some_iff.mp hj'
    refine ⟨j', ?_, le_rfl, le_rfl, fun h => absurd h (lt_irrefl _)⟩
    simp [Table.update, if_pos hid, hj, hclaim]
  | enqueue | write | run => cases hb

def FlushState.Behind (s : FlushState) : Prop :=
  ∀ b ∈ s.buffers, ∃ j, s.table b.id = some j ∧ b.Behind j

lemma FlushState.Behind.step (h : s.Behind) (hok : Counted s e) (hs : s.step e = some s') :
    s'.Behind := by
  intro b hb
  cases e with
  | op a =>
    obtain ⟨t, ht, rfl⟩ := map_eq_some_iff.mp hs
    rcases mem_append.mp hb with hb | hb
    · exact Table.seeded_behind hb ht
    obtain ⟨j, hj, hbeh⟩ := h b hb
    obtain ⟨j', hj', he⟩ := Table.step_epoch ht hj
    obtain ⟨ha, hclaim⟩ := hok b hb t ht j hj j' hj'
    exact ⟨j', hj', hbeh.step ha hclaim he⟩
  | flush c seqDelta delta =>
    obtain ⟨-, rfl⟩ := matched hs
    obtain ⟨j, hj, hbeh⟩ := h b hb
    simp only [Table.update, hj, map_some]
    split
    · refine ⟨_, rfl, ?_⟩
      cases hf : j.flushProgress c.worker c.attempt seqDelta delta with
      | none => exact hbeh
      | some j' =>
        obtain ⟨-, rfl⟩ := matched hf
        exact ⟨hbeh.epoch, hbeh.attempt, hbeh.later⟩
    · exact ⟨j, rfl, hbeh⟩
  | settle c =>
    cases hs
    exact h b (mem_of_mem_erase hb)

/-- If no attempt with a buffer is refunded, a flush for an earlier claim leaves a later one alone.
-/
theorem flush_belongs_to_claim (h : Reach FlushState.step Counted {} s) (hb : b ∈ s.buffers)
    (hj : s.table b.id = some j) (hlater : b.epoch < j.claimEpoch)
    (hs : s.step (.flush b seqDelta delta) = some s') : s'.table b.id = some j := by
  have hbehind : s.Behind :=
    h.invariant (forall_mem_nil _) fun _ _ _ hI hok hs => hI.step hok hs
  obtain ⟨j', hj', hle⟩ := hbehind b hb
  cases hj.symm.trans hj'
  obtain ⟨-, rfl⟩ := matched hs
  have hnone : j.flushProgress b.worker b.attempt seqDelta delta = none := by
    refine if_neg fun hmatch => ?_
    exact (hle.later hlater hmatch.1).ne hmatch.2.2.symm
  simp [Table.update, if_pos mem_cons_self, hj, hnone]

def buffer : Buffered := ⟨1, 7, 1, 1⟩

def reclaimedAfter (o : OutcomeWrite) : List FlushEvent :=
  [.op (.enqueue { id := 1, actor := "report" } 0), .op (.claim [1] 7 10 60000000),
    .op (.write 1 ⟨7, some 1, some 1⟩ 20 o), .op (.run (.sweepPromote 9000000) [1]),
    .op (.claim [1] 7 9000000 60000000)]

/-- A snooze refunds the attempt, so the same worker's next claim repeats it. -/
theorem snoozed_claim_flushed :
    ∃ s s' j j', Reach FlushState.step (fun _ _ => True) {} s ∧ buffer ∈ s.buffers ∧
      s.table 1 = some j ∧ buffer.epoch < j.claimEpoch ∧
      s.step (.flush buffer 3 []) = some s' ∧ s'.table 1 = some j' ∧
      j.progressSeq = 0 ∧ j'.progressSeq = 3 :=
  ⟨_, _, _, _, .of_final (l := reclaimedAfter (.snoozed ⟨1000000, none, .snoozed, {}⟩)) rfl,
    by decide, rfl, by decide, rfl, rfl, rfl, rfl⟩

def retried : OutcomeWrite := .retry 1000000 ⟨"ValueError", "bad input", none⟩ {}

theorem retried_claim_kept :
    ∃ s j, Reach FlushState.step Counted {} s ∧ buffer ∈ s.buffers ∧ s.table 1 = some j ∧
      buffer.epoch < j.claimEpoch ∧ ∀ s', s.step (.flush buffer 3 []) = some s' →
        s'.table 1 = some j :=
  have h : Reach FlushState.step Counted {} _ :=
    .of_decide (l := reclaimedAfter retried) (by decide) (by decide)
  ⟨_, _, h, by decide, rfl, by decide, fun _ hs =>
    flush_belongs_to_claim (b := buffer) h (by decide) rfl (by decide) hs⟩

end TaskQ.Jobs
