import TaskQ.JobTable

namespace TaskQ.Jobs

open Runs Table Option

structure Claim where
  worker : WorkerId
  (attempt epoch : Int)
  deriving DecidableEq

instance : LawfulBEq (JobId × Claim) := inferInstance

def Claim.fence (c : Claim) : Fence := ⟨c.worker, some c.attempt, some c.epoch⟩

structure History where
  rows : Table := fun _ => none
  claims : List (JobId × Claim) := []
  landed : List (JobId × Claim) := []

inductive Act where
  | enqueue (n : NewJob) (now : Stamp)
  | claim (id : JobId) (worker : WorkerId) (now lease : Stamp)
  | write (id : JobId) (c : Claim) (now : Stamp) (o : OutcomeWrite)
  | run (stmt : Stmt) (ids : List JobId)

def Table.set (t : Table) (id : JobId) (j : Row) : Table := fun k => if k = id then some j else t k

def History.step (s : History) : Act → Option History
  | .enqueue n now => if s.rows n.id = none then some { s with rows := s.rows.set n.id (n.row now) }
    else none
  | .claim id worker now lease =>
    ((s.rows id).bind fun j => j.claim worker now lease).map fun j =>
      { s with
        rows := s.rows.set id j, claims := (id, ⟨worker, j.attempt, j.claimEpoch⟩) :: s.claims }
  | .write id c now o =>
    if (id, c) ∈ s.claims then
      match (s.rows id).bind fun j => o.written c.fence now j with
      | none => some s
      | some w => some { s with rows := s.rows.set id w.row, landed := (id, c) :: s.landed }
    else none
  | .run stmt ids => some { s with rows := s.rows.update ids fun j => stmt.apply j }

/-- The `claim_epoch` of a job; of one not yet enqueued the column's default. -/
def Table.epoch (t : Table) (id : JobId) : Int := ((t id).map (·.claimEpoch)).getD 0

section
variable {t : Table} {id : JobId} {j : Row}

lemma Table.epoch_eq (h : t id = some j) : t.epoch id = j.claimEpoch := by
  simp [epoch, h]

lemma Table.set_some (h : t.set id j k = some j') :
    k = id ∧ j' = j ∨ k ≠ id ∧ t k = some j' := by
  unfold set at h
  split at h
  next hk => exact .inl ⟨hk, (some.inj h).symm⟩
  next hk => exact .inr ⟨hk, h⟩

lemma Table.epoch_set (k : JobId) :
    (t.set id j).epoch k = if k = id then j.claimEpoch else t.epoch k := by
  simp only [epoch, set]
  split <;> rfl

lemma Table.epoch_update {g : Row → Option Row}
    (hg : ∀ j j', g j = some j' → j'.claimEpoch = j.claimEpoch) :
    (t.update ids g).epoch id = t.epoch id := by
  simp only [epoch, update]
  split
  · cases t id with
    | none => rfl
    | some j =>
      cases h : g j with
      | none => simp [h]
      | some j' => simp [h, hg j j' h]
  · rfl

end

structure History.Fenced (s : History) : Prop where
  ordered : s.claims.Pairwise fun c d => c.1 = d.1 → d.2.epoch < c.2.epoch
  claimed : ∀ id c, (id, c) ∈ s.claims → c.epoch ≤ s.rows.epoch id
  once : s.landed.Nodup
  known : s.landed ⊆ s.claims
  spent : ∀ id c, (id, c) ∈ s.landed → ∀ j, s.rows id = some j → j.status = .running →
    c.epoch < j.claimEpoch

section
variable {s s' : History} {id : JobId} {c : Claim}

namespace History

lemma Fenced.of_rows (h : s.Fenced) {t : Table} (he : ∀ id, t.epoch id = s.rows.epoch id)
    (hr : ∀ id j', t id = some j' → j'.status = .running →
      ∃ j, s.rows id = some j ∧ j.status = .running) : History.Fenced { s with rows := t } where
  ordered := h.ordered
  claimed id c hc := (h.claimed id c hc).trans_eq (he id).symm
  once := h.once
  known := h.known
  spent id c hc j' hj' hrun := by
    obtain ⟨j, hj, hjr⟩ := hr id j' hj' hrun
    have hlt := h.spent id c hc j hj hjr
    rwa [← epoch_eq hj, ← he id, epoch_eq hj'] at hlt

lemma Fenced.enqueue {n : NewJob} (h : s.Fenced) (hn : s.rows n.id = none) :
    History.Fenced { s with rows := s.rows.set n.id (n.row now) } := by
  refine h.of_rows (fun id => ?_) fun id j' hj' hrun => ?_
  · rw [epoch_set]
    split
    next hid =>
      subst hid
      simp [epoch, hn, NewJob.row]
    · rfl
  · rcases set_some hj' with ⟨-, rfl⟩ | ⟨-, hj⟩
    · rcases n.row_waiting now with hw | hw <;> rw [hw] at hrun <;> cases hrun
    · exact ⟨j', hj, hrun⟩

lemma Fenced.run (h : s.Fenced) (stmt : Stmt) (ids : List JobId) :
    History.Fenced { s with rows := s.rows.update ids fun j => stmt.apply j } := by
  refine h.of_rows (fun id => Table.epoch_update fun _ _ h => (Stmt.changes h).epoch)
    fun id j' hj' hrun => ?_
  rcases Table.update_some hj' with hj | ⟨-, j, hj, hs⟩
  · exact ⟨j', hj, hrun⟩
  · exact ⟨j, hj, ((Stmt.changes hs).running hrun).1⟩

lemma Fenced.claim {j j' : Row} (h : s.Fenced) (hj : s.rows id = some j)
    (hc : j.claim worker now lease = some j') : History.Fenced { s with
        rows := s.rows.set id j'
        claims := (id, ⟨worker, j'.attempt, j'.claimEpoch⟩) :: s.claims } := by
  have hbelow : ∀ c, (id, c) ∈ s.claims → c.epoch < j'.claimEpoch := by
    intro c hmem
    rw [(Row.claimed hc).epoch]
    exact Int.lt_add_one_of_le ((h.claimed id c hmem).trans_eq (epoch_eq hj))
  refine ⟨List.pairwise_cons.mpr ⟨?_, h.ordered⟩, ?_, h.once,
    fun c hc => List.mem_cons_of_mem _ (h.known hc), ?_⟩
  · rintro ⟨k, d⟩ hd rfl
    exact hbelow d hd
  · intro k c hmem
    rw [epoch_set]
    rcases List.mem_cons.mp hmem with heq | hmem
    · cases heq
      rw [if_pos rfl]
    split
    next hk => exact (hbelow c (hk ▸ hmem)).le
    · exact h.claimed k c hmem
  · intro k c hmem i hi hrun
    rcases set_some hi with ⟨rfl, rfl⟩ | ⟨-, hi⟩
    · exact hbelow c (h.known hmem)
    · exact h.spent k c hmem i hi hrun

lemma Fenced.land {j : Row} (h : s.Fenced) (hj : s.rows id = some j)
    (hmem : (id, c) ∈ s.claims) (hl : Landing c.fence j j') :
    History.Fenced { s with rows := s.rows.set id j', landed := (id, c) :: s.landed } := by
  have hepoch : j.claimEpoch = c.epoch := (some.inj hl.fence.2.2.2).symm
  have hfresh : (id, c) ∉ s.landed := fun hc =>
    absurd hepoch (h.spent id c hc j hj hl.fence.1).ne'
  refine ⟨h.ordered, fun k d hd => ?_, List.nodup_cons.mpr ⟨hfresh, h.once⟩,
    List.cons_subset.mpr ⟨hmem, h.known⟩, fun k d hd i hi hrun => ?_⟩
  · rw [epoch_set]
    split
    next hk =>
      subst hk
      rw [hl.epoch, ← epoch_eq hj]
      exact h.claimed k d hd
    · exact h.claimed k d hd
  · rcases set_some hi with ⟨rfl, rfl⟩ | ⟨hk, hi⟩
    · exact absurd hrun hl.running
    rcases List.mem_cons.mp hd with heq | hd
    · exact absurd (Prod.mk.inj heq).1 hk
    · exact h.spent k d hd i hi hrun

lemma write_cases (hs : s.step (.write id c now o) = some s') :
    (id, c) ∈ s.claims ∧ (s' = s ∨ ∃ j w, s.rows id = some j ∧ o.written c.fence now j = some w ∧
      s' = { s with rows := s.rows.set id w.row, landed := (id, c) :: s.landed }) := by
  simp only [History.step] at hs
  split at hs
  next hmem =>
    refine ⟨hmem, ?_⟩
    split at hs
    · exact .inl (some.inj hs).symm
    next w hw =>
      obtain ⟨j, hj, hw⟩ := bind_eq_some_iff.mp hw
      exact .inr ⟨j, w, hj, hw, (some.inj hs).symm⟩
  · cases hs

lemma Fenced.step (h : s.Fenced) (hs : s.step a = some s') : s'.Fenced := by
  cases a with
  | enqueue n now =>
    obtain ⟨hn, rfl⟩ := matched hs
    exact h.enqueue hn
  | claim id worker now lease =>
    obtain ⟨j', hj', rfl⟩ := map_eq_some_iff.mp hs
    obtain ⟨j, hj, hc⟩ := bind_eq_some_iff.mp hj'
    exact h.claim hj hc
  | write id c now o =>
    obtain ⟨hmem, rfl | ⟨j, w, hj, hw, rfl⟩⟩ := History.write_cases hs
    · exact h
    · exact h.land hj hmem (o.landing hw)
  | run stmt ids =>
    cases hs
    exact h.run stmt ids

lemma Fenced.of_reach (h : Reach History.step (fun _ _ => True) {} s) : s.Fenced :=
  h.invariant ⟨.nil, nofun, .nil, List.Subset.refl _, nofun⟩ fun _ _ _ hI _ hs => hI.step hs

end History

/-- Claims have rising epochs, land at most once, and write only the running row they newly hold. -/
theorem terminal_write_fence (h : Reach History.step (fun _ _ => True) {} s) :
    (s.claims.Pairwise fun c d => c.1 = d.1 → d.2.epoch < c.2.epoch) ∧ s.landed.Nodup ∧
      ∀ id c now o s', s.step (.write id c now o) = some s' → s'.rows ≠ s.rows →
        ∃ j, s.rows id = some j ∧ j.status = .running ∧ j.lockedByWorker = some c.worker ∧
          j.attempt = c.attempt ∧ j.claimEpoch = c.epoch ∧
          (∀ d, (id, d) ∈ s.claims → d.epoch ≤ c.epoch) ∧ (id, c) ∉ s.landed := by
  have hI := History.Fenced.of_reach h
  refine ⟨hI.ordered, hI.once, fun id c now o s' hs hne => ?_⟩
  obtain ⟨hmem, rfl | ⟨j, w, hj, hw, rfl⟩⟩ := History.write_cases hs
  · exact absurd rfl hne
  obtain ⟨hrun, hworker, hattempt, hepoch⟩ := (o.landing hw).fence
  have hepoch : j.claimEpoch = c.epoch := (some.inj hepoch).symm
  refine ⟨j, hj, hrun, hworker, (some.inj hattempt).symm, hepoch, fun d hd => ?_,
    fun hc => ?_⟩
  · rw [← hepoch, ← epoch_eq hj]
    exact hI.claimed id d hd
  · exact absurd hepoch (hI.spent id c hc j hj hrun).ne'

def staleHandler : List Act :=
  [.enqueue { id := 1, actor := "report" } 0, .claim 1 7 10 1000000,
    .run (.sweepReclaim 2000000 2000000 60000000 1000000) [1], .claim 1 8 3000000 1000000,
    .write 1 ⟨7, 1, 1⟩ 3100000 (.failed ⟨"ValueError", "bad input", none⟩ {}),
    .write 1 ⟨8, 2, 2⟩ 3200000 (.retry 1000000 ⟨"ValueError", "bad input", none⟩ {}),
    .write 1 ⟨8, 2, 2⟩ 3300000 (.cancelled {})]

theorem terminal_write_fence_staleHandler :
    (final History.step {} staleHandler).landed = [(1, ⟨8, 2, 2⟩)] ∧
      (final History.step {} staleHandler).landed.Nodup :=
  ⟨by decide, (terminal_write_fence (.of_final (by decide))).2.1⟩

end

end TaskQ.Jobs
