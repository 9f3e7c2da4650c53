import TaskQ.Dispatch

namespace TaskQ.Dispatch

open Jobs Query List Function World

def World.picked (w : World) (r : Round) : List Row := w.jobs.filter (w.claims r)

def World.returning (w : World) (r : Round) : List Row := (w.picked r).map (w.claimRow r)

def World.rounds (w : World) (rs : List Round) : World := rs.foldl World.dispatch w

section
variable {w : World} {r : Round}

lemma World.row_eq (hj : j ∈ w.jobs) (hk : k ∈ w.jobs) (h : j.id = k.id) : j = k :=
  inj_on_of_nodup_map w.nodup hj hk h

def World.Counted (w : World) (r : Round) (actor : String) : Prop :=
  actor ∈ w.paActors r ∨ actor ∈ w.tailActors

structure World.Backed (w : World) (r : Round) (c : Candidate) : Prop where
  counted : w.Counted r c.actor
  row : ∃ j ∈ w.jobs, j.id = c.id ∧ j.actor = c.actor ∧ r.due j = true

lemma World.mem_probe (h : j ∈ w.probe r p headroom) :
    j ∈ w.jobs ∧ p j = true ∧ w.claimable r j = true ∧ r.due j = true := by
  have hmem := r.sorter.mem_sort.mp (mem_of_mem_take (mem_of_mem_take h))
  simpa only [mem_filter, Bool.and_eq_true, and_assoc] using hmem

lemma Round.mem_fairnessRanks (h : x ∈ r.fairnessRanks rows) : x.1 ∈ rows :=
  r.sorter.mem_sort.mp (fst_mem_of_mem_rowNumber h)

namespace World

lemma of_labelLateral (h : x ∈ w.labelLateral r c q) :
    ∃ j ∈ w.jobs, labelRouted c.actor q j = true ∧ r.aboveCursor j = true ∧
      w.claimable r j = true ∧ r.due j = true ∧
        ∃ rank, (r.mode ≠ .roundRobin → rank = none) ∧ x = c.candidate rank j := by
  unfold labelLateral at h
  split at h
  next hmode =>
    obtain ⟨y, hy, rfl⟩ := mem_map.mp h
    obtain ⟨k, -, hk⟩ := mem_flatMap.mp (Round.mem_fairnessRanks hy)
    obtain ⟨hj, hp, hrest⟩ := mem_probe hk
    have habove : r.aboveCursor y.1 = true := by rw [Round.aboveCursor, hmode]
    exact ⟨_, hj, ((Bool.and_eq_true _ _).mp hp).1, habove, hrest.1, hrest.2, _,
      fun h => absurd hmode h, rfl⟩
  · obtain ⟨j, hj, rfl⟩ := mem_map.mp h
    obtain ⟨hj, hp, hrest⟩ := mem_probe hj
    obtain ⟨hp, habove⟩ := (Bool.and_eq_true _ _).mp hp
    exact ⟨_, hj, hp, habove, hrest.1, hrest.2, _, fun _ => rfl, rfl⟩

lemma of_rependedLateral (h : x ∈ w.rependedLateral r c) :
    ∃ j ∈ w.jobs, assignmentRouted c.actor j = true ∧ w.claimable r j = true ∧ r.due j = true ∧
      ∃ rank, (r.mode ≠ .roundRobin → rank = none) ∧ x = c.candidate rank j := by
  have hrow : ∃ j rank, ((r.mode ≠ .roundRobin → rank = none) ∧ x = c.candidate rank j) ∧
      ∃ k, j ∈ w.probe r (fun j => assignmentRouted c.actor j && fkey j == k) c.residual := by
    unfold rependedLateral at h
    split at h
    next hmode =>
      obtain ⟨y, hy, rfl⟩ := mem_map.mp h
      obtain ⟨k, -, hk⟩ := mem_flatMap.mp (Round.mem_fairnessRanks hy)
      exact ⟨_, _, ⟨fun h => absurd hmode h, rfl⟩, _, hk⟩
    · obtain ⟨j, hj, rfl⟩ := mem_map.mp h
      obtain ⟨k, -, hk⟩ := mem_flatMap.mp hj
      exact ⟨_, _, ⟨fun _ => rfl, rfl⟩, _, hk⟩
  obtain ⟨j, rank, hx, k, hk⟩ := hrow
  obtain ⟨hj, hp, hrest⟩ := mem_probe hk
  exact ⟨j, hj, ((Bool.and_eq_true _ _).mp hp).1, hrest.1, hrest.2, rank, hx⟩

lemma perActorCapacity_counted (h : c ∈ w.perActorCapacity r) : w.Counted r c.actor := by
  obtain ⟨actor, hmem, hc⟩ := mem_filterMap.mp h
  split at hc
  · obtain ⟨ac, -, rfl⟩ := Option.map_eq_some_iff.mp hc
    exact .inl hmem
  · cases hc

lemma rependCapacity_counted (h : c ∈ w.rependCapacity r) : w.Counted r c.actor := by
  obtain ⟨actor, hmem, hc⟩ := mem_filterMap.mp h
  obtain ⟨ac, -, rfl⟩ := Option.map_eq_some_iff.mp hc
  exact .inr hmem

lemma candidates_backed (h : x ∈ w.candidates r) : w.Backed r x := by
  rcases mem_append.mp h with h | h
  · obtain ⟨c, hc, hx⟩ := mem_flatMap.mp h
    obtain ⟨q, -, hx⟩ := mem_flatMap.mp hx
    obtain ⟨j, hj, hp, -, -, hdue, rank, -, rfl⟩ := of_labelLateral hx
    have hactor : (c.candidate rank j).actor = c.actor := by
      simp_all [labelRouted, Capacity.candidate]
    exact ⟨hactor ▸ perActorCapacity_counted (mem_filter.mp hc).1, j, hj, rfl, rfl, hdue⟩
  · obtain ⟨c, hc, hx⟩ := mem_flatMap.mp h
    obtain ⟨j, hj, hp, -, hdue, rank, -, rfl⟩ := of_rependedLateral hx
    have hactor : (c.candidate rank j).actor = c.actor := by
      simp_all [assignmentRouted, Capacity.candidate]
    exact ⟨hactor ▸ rependCapacity_counted (mem_filter.mp hc).1, j, hj, rfl, rfl, hdue⟩

lemma identityDedup_backed (h : x ∈ w.identityDedup r) : w.Backed r x := by
  rcases mem_append.mp h with h | h
  · have hsort := distinctOn_sublist.subset h
    exact candidates_backed (mem_filter.mp (r.sorter.mem_sort.mp hsort)).1
  · exact candidates_backed (mem_filter.mp h).1

lemma ranked_backed (h : x ∈ w.ranked r) : w.Backed r x.candidate := by
  obtain ⟨y, hy, rfl⟩ := mem_map.mp h
  exact identityDedup_backed (r.sorter.mem_sort.mp (fst_mem_of_mem_rowNumber hy))

lemma Backed.lock {x : Ranked} (h : w.Backed r x.candidate) (hj : j ∈ w.lockable r x) :
    w.Backed r (x.lock j).candidate := by
  simp only [lockable, mem_filter, Bool.and_eq_true, beq_iff_eq] at hj
  obtain ⟨k, hk, hid, hactor, hdue⟩ := h.row
  obtain rfl := row_eq hj.1 hk (hj.2.1.trans hid.symm)
  have hlock : (x.lock j).candidate.actor = x.candidate.actor := hactor
  exact ⟨hlock ▸ h.counted, j, hk, rfl, rfl, hdue⟩

lemma claimed_backed (h : x ∈ w.claimed r) : w.Backed r x.candidate := by
  rcases mem_append.mp h with h | h
  · obtain ⟨y, hy, hx⟩ := mem_flatMap.mp h
    obtain ⟨j, hj, rfl⟩ := mem_map.mp hx
    have hranked := r.sorter.mem_sort.mp (mem_of_mem_take hy)
    exact (ranked_backed (mem_filter.mp hranked).1).lock hj
  · obtain ⟨a, ha, rfl⟩ := mem_map.mp h
    obtain ⟨y, hy, ha⟩ := mem_flatMap.mp (r.sorter.mem_sort.mp (mem_of_mem_take ha))
    obtain ⟨j, hj, rfl⟩ := mem_map.mp ha
    exact (ranked_backed (mem_filter.mp hy).1).lock hj

lemma actorRanks_backed (h : x ∈ w.actorRanks r) : w.Backed r x.1.candidate :=
  claimed_backed (mem_filter.mp (r.sorter.mem_sort.mp (fst_mem_of_mem_rowNumber h))).1

lemma inFlight_eq (h : w.Counted r actor) (hc : w.config actor = some ac)
    (hm : ac.maxConcurrent = some cap) : w.inFlight r actor = w.running actor := by
  have hmem := mem_dedup.mpr (mem_append.mpr h)
  have hrow : (w.cappedRunning r).lookup actor = some (w.running actor : Int) := by
    have hscan := lookup_filterMap (a := actor) (l := (w.paActors r ++ w.tailActors).dedup)
      (f := fun actor => (w.config actor).map fun ac =>
        if ac.maxConcurrent = none then 0 else (w.running actor : Int))
    simp only [Option.map_map, comp_def, if_pos hmem] at hscan
    rw [cappedRunning, hscan]
    simp [hc, hm]
  rw [inFlight, hrow, Option.getD_some]

lemma of_mem_eligible (h : e ∈ w.eligible r) : (e.ranked, e.actorRank) ∈ w.actorRanks r ∧
      ∀ ac cap, w.config e.ranked.candidate.actor = some ac → ac.maxConcurrent = some cap →
        (e.actorRank : Int) ≤ cap - w.running e.ranked.candidate.actor := by
  have hmem := r.sorter.mem_sort.mp (mem_of_mem_take h)
  obtain ⟨hcand, hcap⟩ := mem_filter.mp hmem
  obtain ⟨x, hx, he⟩ := mem_filterMap.mp hcand
  obtain ⟨ac, hac, rfl⟩ := Option.map_eq_some_iff.mp he
  refine ⟨hx, fun ac' cap hac' hm => ?_⟩
  cases hac.symm.trans hac'
  have hin := inFlight_eq (actorRanks_backed hx).counted hac hm
  simpa [Eligible.inCap, hm, hin] using hcap

lemma of_claims (hj : j ∈ w.jobs) (h : w.claims r j = true) :
    (∃ e ∈ w.eligible r, e.ranked.candidate.id = j.id ∧ e.ranked.candidate.actor = j.actor) ∧
      r.due j = true := by
  simp only [claims, Bool.and_eq_true, contains_iff_mem] at h
  obtain ⟨e, he, hid⟩ := mem_map.mp h.1
  obtain ⟨k, hk, hkid, hactor, hdue⟩ := (actorRanks_backed (of_mem_eligible he).1).row
  obtain rfl := row_eq hk hj (hkid.trans hid)
  exact ⟨⟨e, he, hid, hactor.symm⟩, hdue⟩

lemma pending_of_claims (h : w.claims r j = true) :
    j.status = .pending ∧ j.depsPending = 0 := by
  simp only [claims, claimable, Bool.and_eq_true, beq_iff_eq] at h
  exact h.2.1

lemma picked_nodup : ((w.picked r).map (·.id)).Nodup :=
  w.nodup.sublist (filter_sublist.map _)

lemma length_picked_le : (w.picked r).length ≤ r.limit := by
  have hsub : (w.picked r).map (·.id) ⊆ w.eligibleIds r := by
    intro i hi
    obtain ⟨j, hj, rfl⟩ := mem_map.mp hi
    obtain ⟨hmem, hc⟩ := mem_filter.mp hj
    obtain ⟨⟨e, he, hid, -⟩, -⟩ := of_claims hmem hc
    exact mem_map.mpr ⟨e, he, hid⟩
  have hlen := (subperm_of_subset picked_nodup hsub).length_le
  have htake : (w.eligible r).length ≤ r.limit := length_take_le _ _
  simp only [eligibleIds, length_map] at hlen
  omega

lemma countP_picked_le (hc : w.config actor = some ac) (hm : ac.maxConcurrent = some cap) :
    ((w.picked r).filter fun j => j.actor = actor).length ≤ (cap - w.running actor).toNat := by
  let room := (cap - w.running actor).toNat
  let inRoom := (w.actorRanks r).filter fun x => x.1.candidate.actor = actor ∧ x.2 ≤ room
  have hsub : ((w.picked r).filter fun j => j.actor = actor).map (·.id) ⊆
      inRoom.map (·.1.candidate.id) := by
    intro i hi
    obtain ⟨j, hj, rfl⟩ := mem_map.mp hi
    obtain ⟨hpick, hactor⟩ := mem_filter.mp hj
    obtain rfl := of_decide_eq_true hactor
    obtain ⟨hmem, hclm⟩ := mem_filter.mp hpick
    obtain ⟨⟨e, he, hid, hactor⟩, -⟩ := of_claims hmem hclm
    obtain ⟨hrank, hcap⟩ := of_mem_eligible he
    rw [hactor] at hcap
    have hle : e.actorRank ≤ room := by
      have := hcap ac cap hc hm
      omega
    exact mem_map.mpr ⟨_, mem_filter.mpr ⟨hrank, decide_eq_true ⟨hactor, hle⟩⟩, hid⟩
  have hnodup : (((w.picked r).filter fun j => j.actor = actor).map (·.id)).Nodup :=
    picked_nodup.sublist (filter_sublist.map _)
  have hlen := (subperm_of_subset hnodup hsub).length_le
  have hranks : inRoom.length + 0 ≤ max room 0 :=
    length_rowNumber_le (fun x : Ranked => x.candidate.actor) [] _ actor room
  simp only [length_map] at hlen
  omega

lemma claimRow_actor : (w.claimRow r j).actor = j.actor := by
  unfold claimRow Row.claim
  repeat' split
  all_goals rfl

lemma claimRow_of_not (h : w.claims r j = false) : w.claimRow r j = j := by
  simp [claimRow, h]

lemma claimRow_status (h : w.claims r j = true) : (w.claimRow r j).status = .running := by
  simp [claimRow, h, Row.claim, pending_of_claims h]

lemma running_dispatch (actor : String) : (w.dispatch r).running actor =
    w.running actor + ((w.picked r).filter fun j => j.actor = actor).length := by
  have hrows (l : List Row) :
      (l.map (w.claimRow r)).countP (fun j => j.actor == actor && j.status == .running) =
        l.countP (fun j => j.actor == actor && j.status == .running) +
          ((l.filter (w.claims r)).filter fun j => j.actor = actor).length := by
    induction l with
    | nil => rfl
    | cons j l ih =>
      rw [map_cons, countP_cons, countP_cons, filter_cons, ih, claimRow_actor]
      cases hc : w.claims r j with
      | false =>
        rw [claimRow_of_not hc]
        simp only [Bool.false_eq_true, if_false]
        omega
      | true =>
        have hp := (pending_of_claims hc).1
        by_cases ha : j.actor = actor <;> simp [claimRow_status hc, hp, ha]
        omega
  exact hrows w.jobs

lemma config_dispatch (hc : w.config actor = some ac) :
    ∃ ac', (w.dispatch r).config actor = some ac' ∧ ac'.maxConcurrent = ac.maxConcurrent := by
  simp only [dispatch]
  split
  · exact ⟨{ ac with lastClaimedAt := some r.ts }, by rw [hc, Option.map_some], rfl⟩
  · exact ⟨ac, hc, rfl⟩

lemma dispatch_running_le (hc : w.config actor = some ac)
    (hm : ac.maxConcurrent = some cap) :
    ((w.dispatch r).running actor : Int) ≤ max cap (w.running actor) := by
  have hpicked := countP_picked_le (r := r) hc hm
  rw [running_dispatch]
  omega

theorem rounds_running_le (rs : List Round) (hc : w.config actor = some ac)
    (hm : ac.maxConcurrent = some cap) :
    ((w.rounds rs).running actor : Int) ≤ max cap (w.running actor) := by
  induction rs generalizing w ac with
  | nil => exact le_max_right _ _
  | cons r rs ih =>
    have hstep := dispatch_running_le (r := r) hc hm
    have hrest : (((w.dispatch r).rounds rs).running actor : Int) ≤
        max cap ((w.dispatch r).running actor) := by
      obtain ⟨ac', hac, hcap⟩ := config_dispatch (r := r) hc
      exact ih hac (hcap.trans hm)
    exact hrest.trans (max_le (le_max_left _ _) hstep)

end World

end

/-- A round claims distinct rows that may be claimed, within its limit and each actor's cap. -/
theorem dispatch_admission (w : World) (rs : List Round) (r : Round) :
    let before := w.rounds rs
    let after := before.dispatch r
    let claimed := before.returning r
    ((claimed.map (·.id)).Nodup ∧ claimed.length ≤ r.limit) ∧
    (∀ row ∈ after.jobs, row ∈ before.jobs ∨ row ∈ claimed) ∧
    (∀ row ∈ claimed, row ∈ after.jobs ∧ ∃ j ∈ before.jobs, j.id = row.id ∧ j.status = .pending ∧
      j.scheduledAt ≤ r.ts ∧ (∀ t, j.scheduleToClose = some t → r.ts < t) ∧ j.depsPending = 0) ∧
    ∀ actor ac cap, before.config actor = some ac → ac.maxConcurrent = some cap →
      (after.running actor : Int) ≤ max cap (before.running actor) := by
  intro before after claimed
  have hids : claimed.map (·.id) = (before.picked r).map (·.id) := by
    simp [claimed, returning, claimRow_id]
  refine ⟨⟨?distinct, ?limit⟩, ?changed, ?picked, ?cap⟩
  case distinct => exact hids ▸ picked_nodup
  case limit => simpa only [claimed, returning, length_map] using length_picked_le
  case changed =>
    intro row hrow
    obtain ⟨j, hj, rfl⟩ := mem_map.mp hrow
    cases hc : before.claims r j with
    | false => exact .inl (by rwa [claimRow_of_not hc])
    | true => exact .inr (mem_map_of_mem (mem_filter.mpr ⟨hj, hc⟩))
  case picked =>
    intro row hrow
    obtain ⟨j, hj, rfl⟩ := mem_map.mp hrow
    obtain ⟨hmem, hc⟩ := mem_filter.mp hj
    obtain ⟨hpending, hdeps⟩ := pending_of_claims hc
    have hdue := (of_claims hmem hc).2
    simp only [Round.due, Bool.and_eq_true, decide_eq_true_eq] at hdue
    refine ⟨mem_map_of_mem hmem, j, hmem, (claimRow_id before r j).symm, hpending,
      hdue.1, fun t ht => ?_, hdeps⟩
    simpa [ht] using hdue.2
  case cap => exact fun actor ac cap hc hm => dispatch_running_le hc hm

def crowded : World where
  jobs := [{ id := 1, actor := "send", status := .running },
    { id := 2, actor := "send", priority := 5 },
    { id := 3, actor := "send", priority := 9, assignmentRouted := true },
    { id := 4, actor := "send", priority := 9, scheduledAt := 50 },
    { id := 5, actor := "send", priority := 9, depsPending := 1 }, { id := 6, actor := "resize" }]
  nodup := by decide
  config actor :=
    if actor = "send" then some { maxConcurrent := some 2 }
    else if actor = "resize" then some {} else none
  slots := []
  workflowExecution _ := none

def fairRound : Round where
  mode := .roundRobin
  queues := ["default"]
  limit := 10
  worker := 7
  lockLease := 60
  oversample := 2
  ts := 10
  now := 11
  sorter := .stable

theorem dispatch_admission_crowded : ((crowded.rounds []).returning fairRound).map (·.id) = [3, 6] ∧
      (((crowded.rounds []).dispatch fairRound).running "send" : Int) ≤ max 2 1 :=
  ⟨by decide +kernel, (dispatch_admission crowded [] fairRound).2.2.2 "send" _ 2 rfl rfl⟩

theorem rounds_running_le_crowded :
    ((crowded.rounds [fairRound, fairRound, fairRound]).running "send" : Int) ≤ max 2 1 :=
  rounds_running_le [fairRound, fairRound, fairRound] rfl rfl

end TaskQ.Dispatch
