import Mathlib.Data.List.Pairwise
import TaskQ.CronDeferred

namespace TaskQ.Cron
open Timezone List

/-- What `_DETAIL_KEY_RE` finds in a detail line; an `id` that is no UUID has no value. -/
inductive DetailKey where
  | id (value : Option JobId)
  | actor (value : String)
  | other

structure UniqueViolation where
  constraintName : Option String
  detail : Option DetailKey

/-- A non-transient exception with its chain of `__cause__`. -/
inductive Raised where
  | uniqueViolation (violation : UniqueViolation)
  | raisedFrom (cause : Raised)
  | plain

def attributableViolation : Nat → Raised → Option UniqueViolation
  | 0, _ | _, .plain => none
  | _ + 1, .uniqueViolation violation => some violation
  | n + 1, .raisedFrom cause => attributableViolation n cause

def attributableConstraints : List String := ["jobs_pkey", "jobs_singleton_uniq"]

def FireSuccess.stamped (plan : FireSuccess) : Bool :=
  plan.enqueueArgs.any fun args => args.singleton

def DetailKey.indicts : DetailKey → FireSuccess → Bool
  | .id value, plan => plan.enqueueArgs.any fun args => some args.id = value
  | .actor value, plan => plan.row.actor = value && plan.stamped
  | .other, _ => false

def Raised.key (exc : Raised) : Option (UniqueViolation × DetailKey) := do
  let violation ← attributableViolation 8 exc
  let name ← violation.constraintName
  let key ← violation.detail
  if name ∈ attributableConstraints then some (violation, key) else none

def attributeViolation (pending : List FireSuccess) (exc : Raised) :
    Option (UniqueViolation × List FireSuccess × List FireSuccess) := do
  let (violation, key) ← exc.key
  let offenders := pending.filter key.indicts
  let struckIds := offenders.map fun plan => plan.row.id
  if offenders.isEmpty then none
  else some (violation, offenders, pending.filter fun plan => plan.row.id ∉ struckIds)

/-- What the calls of `enqueue_batch` meet, by their number in the tick. -/
structure Inserts where
  transient : Nat → Bool
  answer : Nat → List FireArgs → Option Raised

structure Enqueued where
  landed : List FireSuccess
  failures : List (FireSuccess × Raised)
  calls : Nat

section
variable (h : attributeViolation pending exc = some (v, struck, rest))
include h

lemma attributeViolation_eq_some :
    ∃ key, exc.key = some (v, key) ∧ struck = pending.filter key.indicts ∧ struck ≠ [] ∧
      rest = pending.filter fun plan => plan.row.id ∉ struck.map fun plan => plan.row.id := by
  obtain ⟨⟨v', key⟩, hkey, h⟩ := Option.bind_eq_some_iff.mp h
  dsimp only at h
  split at h
  · cases h
  next hne =>
    cases h
    exact ⟨key, hkey, rfl, by simpa using hne, rfl⟩

lemma survivors_lt : rest.length < pending.length := by
  obtain ⟨key, -, hstr, hne, rfl⟩ := attributeViolation_eq_some h
  obtain ⟨plan, hplan⟩ := exists_mem_of_ne_nil struck hne
  refine length_filter_lt_length_iff_exists.mpr ⟨plan, ?_, ?_⟩
  · exact mem_of_mem_filter (hstr ▸ hplan)
  · simpa using ⟨plan, hplan, rfl⟩

end

def batchArgs (pending : List FireSuccess) : List FireArgs :=
  pending.flatMap fun plan => plan.enqueueArgs

section
variable (b : Inserts)

def enqueueEach : Nat → List FireSuccess → Option Enqueued
  | n, [] => some ⟨[], [], n⟩
  | n, plan :: plans =>
    if b.transient n then none
    else
      (enqueueEach (n + 1) plans).map fun r =>
        match b.answer n plan.enqueueArgs with
        | none => { r with landed := plan :: r.landed }
        | some exc => { r with failures := (plan, exc) :: r.failures }

/-- `none` when a transient error is raised again. -/
def enqueuePlannedFires (n : Nat) (pending : List FireSuccess) : Option Enqueued :=
  if pending.isEmpty then some ⟨[], [], n⟩
  else if b.transient n then none
  else
    match b.answer n (batchArgs pending) with
    | none => some ⟨pending, [], n + 1⟩
    | some exc =>
      match _h : attributeViolation pending exc with
      | some (violation, offenders, survivors) =>
        (enqueuePlannedFires (n + 1) survivors).map fun r =>
          { r with failures :=
              (offenders.map fun plan => (plan, .uniqueViolation violation)) ++ r.failures }
      | none => enqueueEach b (n + 1) pending
termination_by pending.length
decreasing_by exact survivors_lt _h

end

/-- Plans of two schedules, with job ids of their own, and not both of one singleton actor. -/
structure Separate (p q : FireSuccess) : Prop where
  schedule : p.row.id ≠ q.row.id
  ids : ∀ a ∈ p.enqueueArgs, ∀ a' ∈ q.enqueueArgs, a.id ≠ a'.id
  singleton : p.row.actor = q.row.actor → ¬ (p.stamped = true ∧ q.stamped = true)

/-- A batch raises the error of a plan that cannot be inserted, if any; an attributed one names it.
-/
structure Deterministic (b : Inserts) (error : FireSuccess → Option Raised)
    (plans : List FireSuccess) : Prop where
  done : ∀ n batch, batch ⊆ plans → b.answer n (batchArgs batch) = none →
    ∀ p ∈ batch, error p = none
  raised : ∀ n batch exc, batch ⊆ plans → b.answer n (batchArgs batch) = some exc →
    ∃ p ∈ batch, error p = some exc
  named : ∀ p ∈ plans, ∀ q ∈ plans, ∀ exc v key, error p = some exc → exc.key = some (v, key) →
    key.indicts q = true → key.indicts p = true

section
variable {b : Inserts} {error : FireSuccess → Option Raised} {plans pending : List FireSuccess}

lemma Deterministic.mono (h : Deterministic b error plans) (hsub : pending ⊆ plans) :
    Deterministic b error pending :=
  ⟨fun n batch hb => h.done n batch (List.Subset.trans hb hsub),
    fun n batch exc hb => h.raised n batch exc (List.Subset.trans hb hsub),
    fun p hp q hq => h.named p (hsub hp) q (hsub hq)⟩

instance : Std.Symm Separate :=
  ⟨fun _ _ h => ⟨h.schedule.symm, fun a ha a' ha' => (h.ids a' ha' a ha).symm,
    fun hactor hs => h.singleton hactor.symm hs.symm⟩⟩

lemma Separate.not_indicts {key : DetailKey} (h : Separate p q) (hp : key.indicts p = true) :
    key.indicts q = false := by
  refine Bool.eq_false_iff.mpr fun hq => ?_
  cases key with
  | id value =>
    obtain ⟨a, ha, hav⟩ := any_eq_true.mp hp
    obtain ⟨a', ha', hav'⟩ := any_eq_true.mp hq
    refine h.ids a ha a' ha' (Option.some.inj ?_)
    rw [of_decide_eq_true hav, of_decide_eq_true hav']
  | actor value =>
    obtain ⟨hpa, hps⟩ := Bool.and_eq_true_iff.mp hp
    obtain ⟨hqa, hqs⟩ := Bool.and_eq_true_iff.mp hq
    exact h.singleton (of_decide_eq_true hpa |>.trans (of_decide_eq_true hqa).symm) ⟨hps, hqs⟩
  | other => cases hp

def Settled (b : Inserts) (error : FireSuccess → Option Raised) (n : Nat)
    (plans : List FireSuccess) : Option Enqueued → Prop
  | none => ∃ k, b.transient k = true
  | some r => (∀ k, n ≤ k → k < r.calls → b.transient k = false) ∧
      r.landed = (plans.filter fun p => (error p).isNone) ∧
      (r.failures.map Prod.fst).Perm (plans.filter fun p => (error p).isSome)

lemma settled_nil : Settled b error n [] (some ⟨[], [], n⟩) :=
  ⟨fun _ hk hlt => absurd hk (not_le.mpr hlt), rfl, .nil⟩

lemma Settled.map (h : Settled b error m rest o) (hf : ∀ r, Settled b error m rest (some r) →
    Settled b error n plans (some (f r))) : Settled b error n plans (o.map f) := by
  cases o with
  | none => exact h
  | some r => exact hf r h

lemma calm_of_succ (hcalm : ¬ b.transient n = true)
    (h : ∀ k, n + 1 ≤ k → k < calls → b.transient k = false) (k : Nat) (hk : n ≤ k)
    (hlt : k < calls) : b.transient k = false := by
  rcases Nat.eq_or_lt_of_le hk with rfl | hk
  · exact Bool.eq_false_iff.mpr hcalm
  · exact h k hk hlt

lemma enqueueEach_settled (hdet : Deterministic b error plans) :
    Settled b error n plans (enqueueEach b n plans) := by
  induction plans generalizing n with
  | nil => exact settled_nil
  | cons plan plans ih =>
    rw [enqueueEach]
    split
    next htrans => exact ⟨n, htrans⟩
    next hcalm =>
      have hself : [plan] ⊆ plan :: plans := by simp
      have hargs : batchArgs [plan] = plan.enqueueArgs := flatMap_singleton ..
      refine (ih (hdet.mono (subset_cons_self plan plans))).map fun r hrest => ?_
      obtain ⟨hcalls, hland, hstr⟩ := hrest
      split
      next hans =>
        have herror := hdet.done n [plan] hself (hargs ▸ hans) plan (by simp)
        refine ⟨calm_of_succ hcalm hcalls, ?_, ?_⟩
        · rw [filter_cons_of_pos (by simp [herror]), hland]
        · rwa [filter_cons_of_neg (by simp [herror])]
      next exc hans =>
        obtain ⟨p, hp, herror⟩ := hdet.raised n [plan] exc hself (hargs ▸ hans)
        obtain rfl := mem_singleton.mp hp
        refine ⟨calm_of_succ hcalm hcalls, ?_, ?_⟩
        · rwa [filter_cons_of_neg (by simp [herror])]
        · rw [filter_cons_of_pos (by simp [herror])]
          exact hstr.cons p

lemma Settled.strike (h : Settled b error (n + 1) (pending.filter fun p => !f p) (some r))
    (hcalm : ¬ b.transient n = true) (hf : ∀ p ∈ pending, f p = true → (error p).isSome = true) :
    Settled b error n pending (some
      { r with failures := ((pending.filter f).map fun p => (p, exc)) ++ r.failures }) := by
  obtain ⟨hcalls, hland, hrest⟩ := h
  refine ⟨calm_of_succ hcalm hcalls, hland.trans ?_, ?_⟩
  · rw [filter_filter]
    refine filter_congr fun p hp => ?_
    grind
  · have hstr : pending.filter f = (pending.filter fun p => (error p).isSome).filter f := by
      rw [filter_filter]
      exact filter_congr fun p hp => by cases h : f p <;> simp [hf p hp, h]
    rw [filter_comm] at hrest
    rw [map_append, map_map, show Prod.fst ∘ (fun p => (p, exc)) = id from rfl,
      map_id, hstr]
    exact (hrest.append_left _).trans (filter_append_perm f _)

lemma indicted_fails {key : DetailKey} (hsep : pending.Pairwise Separate)
    (hdet : Deterministic b error pending) (hp : p ∈ pending) (hexc : error p = some exc)
    (hkey : exc.key = some (v, key)) (hq : q ∈ pending) (hi : key.indicts q = true) :
    (error q).isSome = true := by
  by_cases h : p = q
  · rw [← h, hexc, Option.isSome_some]
  have hpq := hsep.forall hp hq h
  rw [hpq.not_indicts (hdet.named p hp q hq exc v key hexc hkey hi)] at hi
  cases hi

lemma survivors_eq (hsep : pending.Pairwise Separate) (f : FireSuccess → Bool) :
    (pending.filter fun plan => plan.row.id ∉ (pending.filter f).map fun plan => plan.row.id) =
      pending.filter fun plan => !f plan := by
  have hnodup := pairwise_map.mpr (hsep.imp Separate.schedule)
  refine filter_congr fun p hp => ?_
  rw [decide_not, Bool.not_inj_iff, Bool.eq_iff_iff, decide_eq_true_iff, mem_map]
  constructor
  · rintro ⟨q, hq, hid⟩
    obtain ⟨hmem, hf⟩ := mem_filter.mp hq
    rwa [inj_on_of_nodup_map hnodup hp hmem hid.symm]
  · exact fun hf => ⟨p, mem_filter.mpr ⟨hp, hf⟩, rfl⟩

theorem only_failing_struck (hsep : pending.Pairwise Separate)
    (hdet : Deterministic b error pending) :
    Settled b error n pending (enqueuePlannedFires b n pending) := by
  fun_induction enqueuePlannedFires b n pending with
  | case1 n pending hempty =>
    rw [isEmpty_iff.mp hempty]
    exact settled_nil
  | case2 n _ _ htransient => exact ⟨n, htransient⟩
  | case3 n pending _ hcalm hanswer =>
    have hall := hdet.done n pending (List.Subset.refl _) hanswer
    refine ⟨calm_of_succ hcalm fun k hk hlt => absurd hk (not_le.mpr hlt), ?_, ?_⟩
    · exact (filter_eq_self.mpr fun p hp => by rw [hall p hp, Option.isNone_none]).symm
    · rw [filter_eq_nil_iff.mpr fun p hp => by simp [hall p hp]]
      exact .nil
  | case4 n pending _ hcalm exc hanswer v struck rest hattr ih =>
    obtain ⟨key, hkey, rfl, -, rfl⟩ := attributeViolation_eq_some hattr
    obtain ⟨p, hp, hexc⟩ := hdet.raised n pending exc (List.Subset.refl _) hanswer
    rw [survivors_eq hsep] at ih ⊢
    refine (ih (hsep.filter _) (hdet.mono (filter_subset_self _))).map fun r hrest => ?_
    exact hrest.strike hcalm fun q hq => indicted_fails hsep hdet hp hexc hkey hq
  | case5 n pending _ hcalm exc hanswer hattr =>
    have heach := (enqueueEach_settled hdet).map (f := id) (n := n)
      fun r hrest => ⟨calm_of_succ hcalm hrest.1, hrest.2⟩
    rwa [Option.map_id] at heach

end

def soloTaken : Raised :=
  .raisedFrom (.uniqueViolation ⟨some "jobs_singleton_uniq", some (.actor "solo")⟩)

def soloPlan : FireSuccess where
  row := { overlapRow with id := 1, actor := "solo" }
  fireAt := -61 * minute
  enqueueArgs := [⟨2, "solo", none, 1, true, none⟩]
  nextFireAt := ⟨0, false⟩

def soloInserts : Inserts where
  transient _ := false
  answer _ args := if args.any fun a => a.singleton then some soloTaken else none

def soloError (plan : FireSuccess) : Option Raised := if plan.stamped then some soloTaken else none

lemma soloInserts_answer (n : Nat) (batch : List FireSuccess) :
    soloInserts.answer n (batchArgs batch) =
      if batch.any FireSuccess.stamped then some soloTaken else none :=
  congrArg (fun x => if x = true then some soloTaken else none) any_flatMap

theorem only_failing_struck_solo : Settled soloInserts soloError 0 [overlapPlan 2, soloPlan]
      (enqueuePlannedFires soloInserts 0 [overlapPlan 2, soloPlan]) := by
  refine only_failing_struck ?_ ⟨?_, ?_, ?_⟩
  · exact pairwise_pair.mpr ⟨by decide, by decide, by decide⟩
  · intro n batch _ h p hp
    rw [soloInserts_answer, ite_eq_right_iff] at h
    exact if_neg fun hs => nomatch h (any_eq_true.mpr ⟨p, hp, hs⟩)
  · intro n batch exc _ h
    rw [soloInserts_answer, Option.ite_none_right_eq_some] at h
    obtain ⟨p, hp, hs⟩ := any_eq_true.mp h.1
    exact ⟨p, hp, (if_pos hs).trans h.2⟩
  · intro p hp q _ exc v key hexc hkey _
    rw [soloError, Option.ite_none_right_eq_some] at hexc
    obtain ⟨hs, hexc⟩ := hexc
    cases hexc
    cases hkey
    rcases mem_cons.mp hp with rfl | hp
    · cases hs
    · rw [mem_singleton.mp hp]
      rfl

end TaskQ.Cron
