import TaskQ.Dict
import TaskQ.Rows
import TaskQ.Runs

namespace TaskQ.ActiveJobs

open Runs Dict

/-- A claim of a job by this worker; it also names the token and the entry the claim makes. -/
abbrev ClaimId := Nat

structure ActiveJobRegistry where
  byId : List (JobId × ClaimId) := []
  claimIntents : List (JobId × ClaimId) := []
  queued : List JobId := []

namespace ActiveJobRegistry
variable (r : ActiveJobRegistry)

def markEnqueued (job : JobId) : ActiveJobRegistry :=
  { r with queued := if job ∈ r.queued then r.queued else job :: r.queued }

def queuedIds : List JobId := r.queued

def markClaimed (job : JobId) (token : ClaimId) : ActiveJobRegistry :=
  { r with
    claimIntents := Dict.set job token r.claimIntents, queued := r.queued.filter (· ≠ job) }

def resolveClaim (job : JobId) (token : ClaimId) : ActiveJobRegistry :=
  if r.claimIntents.lookup job = some token then
    { r with claimIntents := Dict.erase job r.claimIntents }
  else r

def heldIds : List JobId := r.byId.map Prod.fst ++ r.claimIntents.map Prod.fst

def register (job : JobId) (entry : ClaimId) : ActiveJobRegistry :=
  { r with
    claimIntents := Dict.erase job r.claimIntents, byId := Dict.set job entry r.byId }

def deregister (job : JobId) (entry : ClaimId) : ActiveJobRegistry :=
  if r.byId.lookup job = some entry then { r with byId := Dict.erase job r.byId } else r

end ActiveJobRegistry

inductive Phase where
  | unmarked | enqueued | taken | registered | ended
  deriving DecidableEq

inductive Call where
  | markEnqueued | markClaimed | register | deregister | resolveClaim
  deriving DecidableEq

structure Worker where
  registry : ActiveJobRegistry := {}
  phase : ClaimId → Phase := fun _ => .unmarked
  latest : JobId → Option ClaimId := fun _ => none

def Worker.enter (s : Worker) (c : ClaimId) (p : Phase) (r : ActiveJobRegistry) : Worker :=
  { s with registry := r, phase := Function.update s.phase c p }

def step (job : ClaimId → JobId) (s : Worker) : ClaimId × Call → Option Worker
  | (c, .markEnqueued) =>
    if s.phase c = .unmarked then
      some { s.enter c .enqueued (s.registry.markEnqueued (job c)) with
        latest := Function.update s.latest (job c) (some c) }
    else none
  | (c, .markClaimed) =>
    if s.phase c = .enqueued then
      some (s.enter c .taken (s.registry.markClaimed (job c) c)) else none
  | (c, .register) =>
    if s.phase c = .taken then
      some (s.enter c .registered (s.registry.register (job c) c)) else none
  | (c, .deregister) =>
    if s.phase c = .registered then
      some (s.enter c .ended (s.registry.deregister (job c) c)) else none
  | (c, .resolveClaim) =>
    if s.phase c = .taken then some (s.enter c .ended (s.registry.resolveClaim (job c) c))
    else if s.phase c = .registered ∨ s.phase c = .ended then
      some { s with registry := s.registry.resolveClaim (job c) c }
    else none

def Phase.live : Phase → Bool
  | .enqueued | .taken | .registered => true
  | .unmarked | .ended => false

/-- What stands in the registry for a claim of `j`: the queued mark, then its intent, then its
entry. -/
def Phase.coveredBy (r : ActiveJobRegistry) (j : JobId) (c : ClaimId) : Phase → Prop
  | .enqueued => j ∈ r.queuedIds
  | .taken => r.claimIntents.lookup j = some c
  | .registered => r.byId.lookup j = some c
  | .unmarked | .ended => True

def Worker.Covered (job : ClaimId → JobId) (s : Worker) (c : ClaimId) : Prop :=
  (s.phase c).coveredBy s.registry (job c) c

/-- No claim is taken or registered while a later claim of its job is live. -/
def Unsuperseded (job : ClaimId → JobId) (s : Worker) : ClaimId × Call → Prop
  | (c, .markClaimed) | (c, .register) =>
    ∀ n, s.latest (job c) = some n → n = c ∨ s.phase n = .ended
  | _ => True

def Worker.Covers (job : ClaimId → JobId) (s : Worker) : Prop :=
  ∀ j c, s.latest j = some c → job c = j ∧ s.Covered job c

section
variable {job : ClaimId → JobId} {s s' : Worker} {c n : ClaimId} {r : ActiveJobRegistry}

lemma ActiveJobRegistry.mem_markEnqueued :
    j ∈ (r.markEnqueued i).queuedIds ↔ j = i ∨ j ∈ r.queuedIds := by
  unfold markEnqueued queuedIds
  by_cases h : i ∈ r.queued
  · rw [if_pos h]
    exact ⟨.inr, fun hj => hj.elim (fun e => e ▸ h) id⟩
  · rw [if_neg h, List.mem_cons]

lemma Worker.covered_enter_self (h : p.coveredBy r (job c) c) :
    (s.enter c p r).Covered job c := by
  unfold Covered enter
  simp only [Function.update_self]
  exact h

lemma Phase.coveredBy.mono {p : Phase} (h : p.coveredBy r j c)
    (hq : j ∈ r.queuedIds → j ∈ r'.queuedIds)
    (hi : p = .taken → r.claimIntents.lookup j = some c → r'.claimIntents.lookup j = some c)
    (he : r.byId.lookup j = some c → r'.byId.lookup j = some c) : p.coveredBy r' j c := by
  cases p with
  | enqueued => exact hq h
  | taken => exact hi rfl h
  | registered => exact he h
  | unmarked | ended => trivial

lemma Worker.Covered.enter (h : s.Covered job n) (hne : n ≠ c)
    (hq : job n ∈ s.registry.queuedIds → job n ∈ r.queuedIds)
    (hi : s.registry.claimIntents.lookup (job n) = some n → r.claimIntents.lookup (job n) = some n)
    (he : s.registry.byId.lookup (job n) = some n → r.byId.lookup (job n) = some n) :
    (s.enter c p r).Covered job n := by
  unfold Covered Worker.enter at *
  simp only [Function.update_of_ne hne]
  exact h.mono hq (fun _ => hi) he

namespace ActiveJobRegistry

lemma resolveClaim_keeps (hne : n ≠ c) (h : r.claimIntents.lookup j = some n) :
    (r.resolveClaim i c).claimIntents.lookup j = some n := by
  unfold resolveClaim
  split
  next hc =>
    rw [lookup_erase, if_neg, h]
    rintro rfl
    exact hne (Option.some.inj (h.symm.trans hc))
  · exact h

lemma deregister_keeps (hne : n ≠ c)
    (h : r.byId.lookup j = some n) : (r.deregister i c).byId.lookup j = some n := by
  unfold deregister
  split
  next hc =>
    rw [lookup_erase, if_neg, h]
    rintro rfl
    exact hne (Option.some.inj (h.symm.trans hc))
  · exact h

lemma resolveClaim_other (r : ActiveJobRegistry) :
    (r.resolveClaim i c).byId = r.byId ∧ (r.resolveClaim i c).queuedIds = r.queuedIds := by
  unfold resolveClaim
  split <;> exact ⟨rfl, rfl⟩

lemma deregister_other (r : ActiveJobRegistry) :
    (r.deregister i c).claimIntents = r.claimIntents ∧
      (r.deregister i c).queuedIds = r.queuedIds := by
  unfold deregister
  split <;> exact ⟨rfl, rfl⟩

end ActiveJobRegistry

lemma Worker.covered_of_ended (h : s.phase n = .ended) (hne : n ≠ c) :
    (s.enter c p r).Covered job n := by
  unfold Covered enter
  simp only [Function.update_of_ne hne, h]
  trivial

lemma Worker.Covered.resolve (h : s.Covered job n) (hne : n ≠ c) :
    (s.enter c p (s.registry.resolveClaim (job c) c)).Covered job n := by
  obtain ⟨hent, hqueue⟩ := s.registry.resolveClaim_other (i := job c) (c := c)
  refine h.enter hne ?_ (ActiveJobRegistry.resolveClaim_keeps hne) ?_
  · exact fun hq => hqueue ▸ hq
  · rw [hent]
    exact id

lemma Worker.Covered.move (h : s.Covered job n) (hn : s.latest (job n) = some n)
    (hok : ∀ n, s.latest (job c) = some n → n = c ∨ s.phase n = .ended) (hne : n ≠ c)
    (hkeep : job n ≠ job c → (job n ∈ s.registry.queuedIds → job n ∈ r.queuedIds) ∧
      r.claimIntents.lookup (job n) = s.registry.claimIntents.lookup (job n) ∧
      r.byId.lookup (job n) = s.registry.byId.lookup (job n)) : (s.enter c p r).Covered job n := by
  by_cases hj : job n = job c
  · rcases hok n (hj ▸ hn) with hc | hended
    · exact absurd hc hne
    · exact covered_of_ended hended hne
  · obtain ⟨hq, hi, he⟩ := hkeep hj
    exact h.enter hne hq (fun hl => hi.trans hl) fun hl => he.trans hl

lemma Worker.Covers.step (h : s.Covers job) (hok : Unsuperseded job s a)
    (hs : step job s a = some s') : s'.Covers job := by
  obtain ⟨c, call⟩ := a
  intro j n hn
  cases call with
  | markEnqueued =>
    obtain ⟨_, rfl⟩ := matched hs
    by_cases hj : j = job c
    · subst hj
      obtain rfl : c = n := by simpa using hn
      exact ⟨rfl, covered_enter_self (ActiveJobRegistry.mem_markEnqueued.mpr (.inl rfl))⟩
    · simp only [Function.update_of_ne hj] at hn
      obtain ⟨hjob, hcov⟩ := h j n hn
      refine ⟨hjob, hcov.enter ?_ (fun hq => ActiveJobRegistry.mem_markEnqueued.mpr (.inr hq))
        id id⟩
      rintro rfl
      exact hj hjob.symm
  | markClaimed =>
    obtain ⟨_, rfl⟩ := matched hs
    obtain ⟨hjob, hcov⟩ := h j n hn
    refine ⟨hjob, ?_⟩
    by_cases hne : n = c
    · subst hne
      exact covered_enter_self (lookup_set.trans (if_pos rfl))
    refine hcov.move (hjob ▸ hn) hok hne fun hdiff => ⟨fun hq => ?_, ?_, rfl⟩
    · exact List.mem_filter.mpr ⟨hq, by simpa using hdiff⟩
    · exact lookup_set.trans (if_neg hdiff)
  | register =>
    obtain ⟨_, rfl⟩ := matched hs
    obtain ⟨hjob, hcov⟩ := h j n hn
    refine ⟨hjob, ?_⟩
    by_cases hne : n = c
    · subst hne
      exact covered_enter_self (lookup_set.trans (if_pos rfl))
    refine hcov.move (hjob ▸ hn) hok hne fun hdiff => ⟨id, ?_, ?_⟩
    · exact lookup_erase.trans (if_neg hdiff)
    · exact lookup_set.trans (if_neg hdiff)
  | deregister =>
    obtain ⟨_, rfl⟩ := matched hs
    obtain ⟨hjob, hcov⟩ := h j n hn
    refine ⟨hjob, ?_⟩
    by_cases hne : n = c
    · subst hne
      exact covered_enter_self trivial
    obtain ⟨hintents, hqueue⟩ := s.registry.deregister_other (i := job c) (c := c)
    refine hcov.enter hne (fun hq => hqueue ▸ hq) ?_ (ActiveJobRegistry.deregister_keeps hne)
    rw [hintents]
    exact id
  | resolveClaim =>
    simp only [ActiveJobs.step] at hs
    split at hs
    · cases hs
      obtain ⟨hjob, hcov⟩ := h j n hn
      refine ⟨hjob, ?_⟩
      by_cases hne : n = c
      · subst hne
        exact covered_enter_self trivial
      · exact hcov.resolve hne
    next htaken =>
      obtain ⟨_, rfl⟩ := matched hs
      obtain ⟨hjob, hcov⟩ := h j n hn
      refine ⟨hjob, ?_⟩
      obtain ⟨hent, hqueue⟩ := s.registry.resolveClaim_other (i := job c) (c := c)
      refine Phase.coveredBy.mono hcov (fun hq => hqueue ▸ hq) (fun hp => ?_)
        (fun hl => hent ▸ hl)
      refine ActiveJobRegistry.resolveClaim_keeps ?_
      rintro rfl
      exact htaken hp

lemma Worker.covers_of_reach (h : Reach (ActiveJobs.step job) (Unsuperseded job) {} s) :
    s.Covers job :=
  h.invariant (fun _ _ hn => by cases hn) fun _ _ _ hI hok hs => hI.step hok hs

end

/-- The latest claim of a job is queued until its take and held until its own deregistration. -/
theorem latest_claim_covered {job : ClaimId → JobId} {s : Worker} {c : ClaimId}
    (h : Reach (step job) (Unsuperseded job) {} s) (hc : s.latest (job c) = some c) :
    (s.phase c = .enqueued → job c ∈ s.registry.queuedIds) ∧
      (s.phase c = .taken → s.registry.claimIntents.lookup (job c) = some c) ∧
      (s.phase c = .registered → s.registry.byId.lookup (job c) = some c) ∧
      (s.phase c = .taken ∨ s.phase c = .registered → job c ∈ s.registry.heldIds) := by
  have hcov := (Worker.covers_of_reach h (job c) c hc).2
  unfold Worker.Covered at hcov
  refine ⟨?_, ?_, ?_, ?_⟩
  · intro hp
    rw [hp] at hcov
    exact hcov
  · intro hp
    rw [hp] at hcov
    exact hcov
  · intro hp
    rw [hp] at hcov
    exact hcov
  · rintro (hp | hp) <;> rw [hp] at hcov
    · exact List.mem_append_right _ (mem_keys_of_lookup hcov)
    · exact List.mem_append_left _ (mem_keys_of_lookup hcov)

def handedOver : List (ClaimId × Call) :=
  [(0, .markEnqueued), (0, .markClaimed), (0, .register), (1, .markEnqueued), (1, .markClaimed),
    (0, .resolveClaim), (0, .deregister)]

instance (job : ClaimId → JobId) (s : Worker) (a : ClaimId × Call) :
    Decidable (Unsuperseded job s a) :=
  match a with
  | (_, .markClaimed) | (_, .register) =>
    inferInstanceAs (Decidable (∀ n, s.latest _ = some n → n = _ ∨ s.phase n = .ended))
  | (_, .markEnqueued) | (_, .deregister) | (_, .resolveClaim) => inferInstanceAs (Decidable True)

theorem latest_claim_covered_handedOver :
    5 ∈ (final (step fun _ => 5) {} handedOver).registry.heldIds :=
  (latest_claim_covered (c := 1) (.of_decide (by decide) (by decide))
    (by decide)).2.2.2 (.inl (by decide))

def absorbed : List (ClaimId × Call) :=
  [(0, .markEnqueued), (0, .markClaimed), (1, .markEnqueued), (1, .markClaimed), (0, .register),
    (0, .deregister)]

/-- A queued claim is not held, and a taken one is lost when an earlier one registers and leaves. -/
theorem held_ids_miss_live_claims :
    (∃ s, Reach (step fun _ => 5) (fun _ _ => True) {} s ∧ (s.phase 0).live = true ∧
      5 ∉ s.registry.heldIds) ∧
    ∃ s, Reach (step fun _ => 5) (fun _ _ => True) {} s ∧ s.phase 1 = .taken ∧
      5 ∉ s.registry.heldIds ∧ 5 ∉ s.registry.queuedIds :=
  ⟨⟨final (step fun _ => 5) {} [(0, .markEnqueued)],
      .of_final (by decide), by decide, by decide⟩,
    final (step fun _ => 5) {} absorbed,
    .of_final (by decide), by decide, by decide, by decide⟩

end TaskQ.ActiveJobs
