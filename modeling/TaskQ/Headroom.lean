import TaskQ.Admission

namespace TaskQ.Dispatch

open Jobs Query List World

section
variable {w : World} {r : Round} {actor : String}

namespace World

lemma of_candidates (h : x ∈ w.candidates r) : ∃ actor ac, w.config actor = some ac ∧
    0 < (w.capacity r actor ac).residual ∧
      ((∃ q ∈ r.queues, x ∈ w.labelLateral r (w.capacity r actor ac) q) ∨
        x ∈ w.rependedLateral r (w.capacity r actor ac)) := by
  rcases mem_append.mp h with h | h
  · obtain ⟨c, hc, hx⟩ := mem_flatMap.mp h
    obtain ⟨hc, hpos⟩ := mem_filter.mp hc
    obtain ⟨a, -, hcap⟩ := mem_filterMap.mp hc
    split at hcap
    · obtain ⟨ac, hac, rfl⟩ := Option.map_eq_some_iff.mp hcap
      exact ⟨a, ac, hac, of_decide_eq_true hpos, .inl (mem_flatMap.mp hx)⟩
    · cases hcap
  · obtain ⟨c, hc, hx⟩ := mem_flatMap.mp h
    obtain ⟨hc, hpos⟩ := mem_filter.mp hc
    obtain ⟨a, -, hcap⟩ := mem_filterMap.mp hc
    obtain ⟨ac, hac, rfl⟩ := Option.map_eq_some_iff.mp hcap
    obtain ⟨hac, -⟩ := Option.filter_eq_some_iff.mp hac
    exact ⟨a, ac, hac, of_decide_eq_true hpos, .inr hx⟩

def Found (w : World) (r : Round) (x : Candidate) : Prop :=
  ∃ j ∈ w.jobs, ∃ ac rank, w.claimable r j = true ∧ r.due j = true ∧
    w.config j.actor = some ac ∧ 0 < (w.capacity r j.actor ac).residual ∧
      (r.mode ≠ .roundRobin → rank = none) ∧ x = (w.capacity r j.actor ac).candidate rank j

lemma candidates_found (h : x ∈ w.candidates r) : w.Found r x := by
  obtain ⟨a, ac, hac, hpos, ⟨q, -, hx⟩ | hx⟩ := of_candidates h
  · obtain ⟨j, hj, hp, -, hclaim, hdue, rank, hrank, rfl⟩ := of_labelLateral hx
    obtain rfl : j.actor = a := by simp_all [labelRouted, capacity]
    exact ⟨j, hj, ac, rank, hclaim, hdue, hac, hpos, hrank, rfl⟩
  · obtain ⟨j, hj, hp, hclaim, hdue, rank, hrank, rfl⟩ := of_rependedLateral hx
    obtain rfl : j.actor = a := by simp_all [assignmentRouted, capacity]
    exact ⟨j, hj, ac, rank, hclaim, hdue, hac, hpos, hrank, rfl⟩

lemma identityDedup_subset : w.identityDedup r ⊆ w.candidates r := by
  intro x hx
  rcases mem_append.mp hx with hx | hx
  · exact (mem_filter.mp (r.sorter.mem_sort.mp (distinctOn_sublist.subset hx))).1
  · exact (mem_filter.mp hx).1

lemma ranked_found (h : x ∈ w.ranked r) : w.Found r x.candidate := by
  obtain ⟨y, hy, rfl⟩ := mem_map.mp h
  exact candidates_found (identityDedup_subset (r.sorter.mem_sort.mp (fst_mem_of_mem_rowNumber hy)))

lemma lock_eq {x : Ranked} (hx : x ∈ w.ranked r) (hj : j ∈ w.lockable r x) :
    x.lock j = x := by
  obtain ⟨k, hk, ac, rank, -, -, -, -, -, hx⟩ := ranked_found hx
  obtain ⟨hj, hid⟩ := mem_filter.mp hj
  simp only [hx, Capacity.candidate, Bool.and_eq_true, beq_iff_eq] at hid
  obtain rfl := row_eq hj hk hid.1
  cases x with
  | mk c n =>
    obtain rfl := hx
    rfl

lemma claimed_subset : w.claimed r ⊆ w.ranked r := by
  intro x hx
  rcases mem_append.mp hx with hx | hx
  · obtain ⟨y, hy, hx⟩ := mem_flatMap.mp hx
    obtain ⟨j, hj, rfl⟩ := mem_map.mp hx
    have hy := (mem_filter.mp (r.sorter.mem_sort.mp (mem_of_mem_take hy))).1
    rwa [lock_eq hy hj]
  · obtain ⟨a, ha, rfl⟩ := mem_map.mp hx
    obtain ⟨y, hy, ha⟩ := mem_flatMap.mp (r.sorter.mem_sort.mp (mem_of_mem_take ha))
    obtain ⟨j, hj, rfl⟩ := mem_map.mp ha
    have hy := (mem_filter.mp hy).1
    rwa [lock_eq hy hj]

lemma claimed_headroom (h : x ∈ w.claimed r) :
    w.reservationHeadroom r x.candidate.actor ≠ some 0 := by
  obtain ⟨j, -, ac, rank, -, -, -, hpos, -, hx⟩ := ranked_found (claimed_subset h)
  intro hzero
  rw [hx] at hzero
  change w.reservationHeadroom r j.actor = some 0 at hzero
  simp only [capacity, hzero, least] at hpos
  omega

def room (w : World) (r : Round) (actor : String) (ac : ActorConfig) : Nat :=
  match ac.maxConcurrent with
  | none => r.limit
  | some cap => (cap - w.running actor).toNat

def claimableRows (w : World) (r : Round) (actor : String) : List Row :=
  w.jobs.filter fun j => j.actor = actor ∧ w.claimable r j ∧ r.due j

end World

end

def halfFree : World where
  jobs := [{ id := 1, actor := "send", status := .running }, { id := 2, actor := "send" },
    { id := 3, actor := "send" }]
  nodup := by decide
  config actor := if actor = "send" then some {} else none
  slots := [⟨"api", some 1, false, some 100⟩, ⟨"api", none, false, none⟩]
  workflowExecution _ := none

def strictRound (limit : Nat) : Round where
  mode := .strictFifo
  queues := ["default"]
  limit := limit
  worker := 7
  lockLease := 60
  oversample := 2
  ts := 10
  now := 11
  sorter := .stable

end TaskQ.Dispatch
