import TaskQ.Rows
import TaskQ.Runs

namespace TaskQ.Disown

open Runs List Function

/-- A job as one worker meets it: whether its row is the worker's, and how often it was claimed. -/
structure Row where
  held : Bool := false
  lockExpiresAt : Time := 0
  claims : Nat := 0
  deriving DecidableEq

/-- How far the heartbeat tick has come, with the snapshot it excludes. -/
inductive Tick where
  | idle
  | started (disowned : List JobId)
  | renewed (disowned : List JobId)
  | reconciled (lost : List (JobId × Nat))
  deriving DecidableEq

def Tick.excluded : Tick → List JobId
  | .started disowned => disowned
  | _ => []

def Tick.lost : Tick → List (JobId × Nat)
  | .reconciled lost => lost
  | _ => []

structure Worker where
  rows : JobId → Row := fun _ => {}
  disownedJobs : List JobId := []
  /-- Claimed by a `dispatch_batch` whose result the producer has not worked off. -/
  arriving : List JobId := []
  tick : Tick := .idle
  disowns : List (JobId × Nat) := []

inductive Act where
  | claim (id : JobId) (now : Time)
  /-- The producer's `disowned_jobs.discard`. -/
  | take (id : JobId)
  /-- The row moves on: an outcome, or the sweep of a lapsed lease. -/
  | leave (id : JobId)
  /-- `_disown_job` by the handler of the claim. -/
  | disown (id : JobId) (claim : Nat)
  | tickStart
  | renew (now : Time)
  | probe
  | reconcile (lost : List JobId)
  | commit
  | fail

section
variable (lockLease threshold : Time)

def Row.renew (excluded : Bool) (now : Time) (r : Row) : Row :=
  if r.held && !excluded && r.lockExpiresAt ≤ now + threshold then
    { r with lockExpiresAt := now + lockLease }
  else r

def step (w : Worker) : Act → Option Worker
  | .claim id now =>
    if (w.rows id).held = false then
      some { w with
        rows := Function.update w.rows id ⟨true, now + lockLease, (w.rows id).claims + 1⟩
        arriving := id :: w.arriving }
    else none
  | .take id =>
    if id ∈ w.arriving then
      some { w with
        disownedJobs := w.disownedJobs.filter (· ≠ id), arriving := w.arriving.filter (· ≠ id) }
    else none
  | .leave id =>
    -- the reconcile's refund holds the row locks of what it has found
    if id ∉ w.tick.lost.map (·.1) then
      some { w with rows := Function.update w.rows id { w.rows id with held := false } }
    else none
  | .disown id claim =>
    if claim ≤ (w.rows id).claims then
      some { w with
        disownedJobs := id :: w.disownedJobs, disowns := (id, claim) :: w.disowns }
    else none
  | .tickStart =>
    if w.tick = .idle then some { w with tick := .started w.disownedJobs } else none
  | .renew now =>
    match w.tick with
    | .started disowned =>
      some { w with
        rows := fun id => (w.rows id).renew lockLease threshold (decide (id ∈ disowned)) now
        tick := .renewed disowned }
    | _ => none
  | .probe =>
    match w.tick with
    | .renewed disowned =>
      -- still held: running and locked here, under whichever claim
      let gone := disowned.filter fun id => !(w.rows id).held
      some { w with disownedJobs := w.disownedJobs.filter (· ∉ gone) }
    | _ => none
  | .reconcile lost =>
    match w.tick with
    | .renewed disowned =>
      if ∀ id ∈ lost, (w.rows id).held = true ∧ id ∉ disowned then
        some { w with tick := .reconciled (lost.map fun id => (id, (w.rows id).claims)) }
      else none
    | _ => none
  | .commit =>
    match w.tick with
    | .reconciled lost =>
      some { w with
        disownedJobs := lost.map (·.1) ++ w.disownedJobs, disowns := lost ++ w.disowns
        tick := .idle }
    | _ => none
  | .fail => some { w with tick := .idle }

end

/-- Only the latest claim is disowned, and no job in a snapshot is re-claimed before its renewal. -/
def Current (w : Worker) : Act → Prop
  | .disown id claim => claim = (w.rows id).claims
  | .tickStart => ∀ id ∈ w.arriving, id ∉ w.disownedJobs
  | .claim id _ => id ∉ w.tick.excluded
  | _ => True

instance (w : Worker) (a : Act) : Decidable (Current w a) :=
  match a with
  | .disown .. => inferInstanceAs (Decidable (_ = _))
  | .tickStart => inferInstanceAs (Decidable (∀ id ∈ w.arriving, _))
  | .claim .. => inferInstanceAs (Decidable (_ ∉ _))
  | .take _ | .leave _ | .renew _ | .probe | .reconcile _ | .commit | .fail =>
    inferInstanceAs (Decidable True)

def Worker.Named (w : Worker) (id : JobId) : Prop :=
  (w.rows id).held = true → (id, (w.rows id).claims) ∈ w.disowns

structure Sound (w : Worker) : Prop where
  disowned : ∀ id ∈ w.disownedJobs, w.Named id ∨ id ∈ w.arriving
  snapshot : ∀ id ∈ w.tick.excluded, w.Named id
  lost : ∀ p ∈ w.tick.lost, (w.rows p.1).held = true ∧ (w.rows p.1).claims = p.2

section
variable {lockLease threshold now : Time} {w w' : Worker} {id : JobId} {n : Nat}

lemma Worker.Named.mono (h : w.Named id) (hrow : (w'.rows id).held = true →
      (w.rows id).held = true ∧ (w'.rows id).claims = (w.rows id).claims)
    (hsub : w.disowns ⊆ w'.disowns) : w'.Named id := by
  intro hheld
  obtain ⟨hheld, hclm⟩ := hrow hheld
  rw [hclm]
  exact hsub (h hheld)

lemma Row.renew_kept (r : Row) : (r.renew lockLease threshold excluded now).held = r.held ∧
    (r.renew lockLease threshold excluded now).claims = r.claims := by
  unfold Row.renew
  split <;> exact ⟨rfl, rfl⟩

section
variable (h : Sound w)
include h

namespace Sound

lemma claim (hfree : (w.rows id).held = false) (hok : Current w (.claim id now)) :
    Sound { w with
      rows := Function.update w.rows id ⟨true, now + lockLease, (w.rows id).claims + 1⟩
      arriving := id :: w.arriving } := by
  have hother : ∀ k, k ≠ id → w.Named k → Worker.Named { w with
      rows := Function.update w.rows id ⟨true, now + lockLease, (w.rows id).claims + 1⟩
      arriving := id :: w.arriving } k := by
    intro k hk hn
    refine hn.mono ?_ (List.Subset.refl _)
    dsimp only
    rw [update_of_ne hk]
    exact fun hheld => ⟨hheld, rfl⟩
  constructor
  · intro k hk
    by_cases hid : k = id
    · exact .inr (hid ▸ mem_cons_self)
    · exact (h.disowned k hk).imp (hother k hid) (mem_cons_of_mem _)
  · intro k hk
    have hid : k ≠ id := fun heq => hok (heq ▸ hk)
    exact hother k hid (h.snapshot k hk)
  · intro p hp
    have hid : p.1 ≠ id := by
      intro heq
      have hheld := (h.lost p hp).1
      rw [heq, hfree] at hheld
      cases hheld
    dsimp only
    rw [update_of_ne hid]
    exact h.lost p hp

lemma take (id : JobId) : Sound { w with
      disownedJobs := w.disownedJobs.filter (· ≠ id)
      arriving := w.arriving.filter (· ≠ id) } where
  disowned := by
    intro k hk
    obtain ⟨hk, hne⟩ := mem_filter.mp hk
    exact (h.disowned k hk).imp_right fun harr => mem_filter.mpr ⟨harr, hne⟩
  snapshot := h.snapshot
  lost := h.lost

lemma leave (hid : id ∉ w.tick.lost.map (·.1)) :
    Sound { w with rows := Function.update w.rows id { w.rows id with held := false } } := by
  have hnamed : ∀ k, w.Named k →
      Worker.Named
        { w with rows := Function.update w.rows id { w.rows id with held := false } } k := by
    intro k hn
    refine hn.mono ?_ (List.Subset.refl _)
    dsimp only
    by_cases hk : k = id
    · rw [hk, update_self]
      intro hheld
      cases hheld
    · rw [update_of_ne hk]
      exact fun hheld => ⟨hheld, rfl⟩
  constructor
  · exact fun k hk => (h.disowned k hk).imp_left (hnamed k)
  · exact fun k hk => hnamed k (h.snapshot k hk)
  · intro p hp
    have hne : p.1 ≠ id := fun heq => hid (heq ▸ mem_map_of_mem hp)
    dsimp only
    rw [update_of_ne hne]
    exact h.lost p hp

lemma disown (hok : Current w (.disown id n)) :
    Sound { w with disownedJobs := id :: w.disownedJobs, disowns := (id, n) :: w.disowns } := by
  have hnamed : ∀ k, w.Named k → Worker.Named { w with
      disownedJobs := id :: w.disownedJobs, disowns := (id, n) :: w.disowns } k := fun k hn =>
    hn.mono (fun hheld => ⟨hheld, rfl⟩) (subset_cons_self ..)
  constructor
  · intro k hk
    rcases mem_cons.mp hk with rfl | hk
    · refine .inl fun _ => ?_
      rw [hok]
      exact mem_cons_self
    · exact (h.disowned k hk).imp_left (hnamed k)
  · exact fun k hk => hnamed k (h.snapshot k hk)
  · exact h.lost

lemma tickStart (hok : Current w .tickStart) :
    Sound { w with tick := .started w.disownedJobs } where
  disowned := h.disowned
  snapshot := fun id hid => (h.disowned id hid).resolve_right fun harr => hok id harr hid
  lost := fun _ hp => (by cases hp)

lemma renew (excluded : JobId → Bool) (ds : List JobId) : Sound { w with
      rows := fun id => (w.rows id).renew lockLease threshold (excluded id) now
      tick := .renewed ds } where
  disowned := by
    intro k hk
    refine (h.disowned k hk).imp_left fun hn => hn.mono ?_ (List.Subset.refl _)
    exact fun hheld => ⟨(w.rows k).renew_kept.1.symm.trans hheld, (w.rows k).renew_kept.2⟩
  snapshot := fun _ hds => (by cases hds)
  lost := fun _ hp => (by cases hp)

lemma commit (htick : w.tick = .reconciled found) : Sound { w with
      disownedJobs := found.map (·.1) ++ w.disownedJobs, disowns := found ++ w.disowns
      tick := .idle } where
  disowned := by
    intro k hk
    rcases mem_append.mp hk with hk | hk
    · obtain ⟨p, hp, rfl⟩ := mem_map.mp hk
      refine .inl fun _ => ?_
      have hclm := (h.lost p (by rw [htick]; exact hp)).2
      rw [hclm]
      exact mem_append_left _ hp
    · exact (h.disowned k hk).imp_left fun hn =>
        hn.mono (fun hheld => ⟨hheld, rfl⟩) (subset_append_right ..)
  snapshot := fun _ hds => (by cases hds)
  lost := fun _ hp => (by cases hp)

lemma step (hok : Current w a)
    (hs : step lockLease threshold w a = some w') : Sound w' := by
  cases a with
  | claim id now =>
    obtain ⟨hfree, rfl⟩ := matched hs
    exact h.claim hfree hok
  | take id =>
    obtain ⟨_, rfl⟩ := matched hs
    exact h.take id
  | leave id =>
    obtain ⟨hid, rfl⟩ := matched hs
    exact h.leave hid
  | disown id claim =>
    obtain ⟨_, rfl⟩ := matched hs
    exact h.disown hok
  | tickStart =>
    obtain ⟨_, rfl⟩ := matched hs
    exact h.tickStart hok
  | renew now =>
    rw [Disown.step] at hs
    split at hs
    · cases hs
      exact h.renew _ _
    · cases hs
  | probe =>
    rw [Disown.step] at hs
    split at hs
    · cases hs
      exact { h with disowned := fun k hk => h.disowned k (mem_of_mem_filter hk) }
    · cases hs
  | reconcile lost =>
    rw [Disown.step] at hs
    split at hs
    · obtain ⟨hlost, rfl⟩ := matched hs
      refine ⟨h.disowned, fun _ hds => (by cases hds), ?_⟩
      intro p hp
      obtain ⟨id, hid, rfl⟩ := mem_map.mp hp
      exact ⟨(hlost id hid).1, rfl⟩
    · cases hs
  | commit =>
    rw [Disown.step] at hs
    split at hs
    next lost htick =>
      cases hs
      exact h.commit htick
    · cases hs
  | fail =>
    cases hs
    exact ⟨h.disowned, fun _ hds => (by cases hds), fun _ hp => (by cases hp)⟩

end Sound

end

/-- A renewal leaves every held row a good lease, but for rows held under a disowned claim. -/
theorem live_claim_renewed (h : Reach (step lockLease threshold) Current {} w)
    (hs : step lockLease threshold w (.renew now) = some w') (hheld : (w.rows id).held = true)
    (hown : (id, (w.rows id).claims) ∉ w.disowns) : (w'.rows id).lockExpiresAt = now + lockLease ∨
      now + threshold < (w'.rows id).lockExpiresAt := by
  have hstart : Sound {} :=
    ⟨fun _ hk => (by cases hk), fun _ hds => (by cases hds), fun _ hp => (by cases hp)⟩
  have hsound : Sound w := h.invariant hstart fun _ _ _ hI hok hs => hI.step hok hs
  rw [Disown.step] at hs
  split at hs
  next ds htick =>
    cases hs
    have hout : id ∉ ds := fun hid => hown (hsound.snapshot id (htick ▸ hid) hheld)
    by_cases hdue : (w.rows id).lockExpiresAt ≤ now + threshold
    · left
      simp [Row.renew, hheld, hout, hdue]
    · right
      simp [Row.renew, hdue, Nat.lt_of_not_le hdue]
  · cases hs

end

def takenBack : List Act :=
  [.claim 5 0, .take 5, .disown 5 1, .leave 5, .claim 5 70, .take 5, .tickStart]

theorem live_claim_renewed_takenBack :
    ((final (step 60 58) {} (takenBack ++ [.renew 80])).rows 5).lockExpiresAt = 80 + 60 ∨
      80 + 58 < ((final (step 60 58) {} (takenBack ++ [.renew 80])).rows 5).lockExpiresAt :=
  live_claim_renewed (w := final (step 60 58) {} takenBack)
    (.of_decide (by decide +kernel) (by decide +kernel))
    rfl (by decide +kernel) (by decide +kernel)

def lateDisown : List Act :=
  [.claim 5 0, .take 5, .leave 5, .claim 5 70, .take 5, .disown 5 1, .tickStart, .renew 80, .probe,
    .reconcile [], .commit, .tickStart, .renew 120]

/-- Two ticks left out the second claim, which nobody disowned; its lease is still the claim's. -/
theorem live_claim_left_out : ∃ w, exec (step 60 58) {} lateDisown = some w ∧
      w.rows 5 = { held := true, lockExpiresAt := 70 + 60, claims := 2 } ∧
      w.disowns = [(5, 1)] :=
  ⟨final (step 60 58) {} lateDisown, exec_final (by decide +kernel), by decide +kernel,
    by decide +kernel⟩

end TaskQ.Disown
