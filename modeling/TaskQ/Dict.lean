import Mathlib.Data.List.Nodup

namespace Dict
open List Prod

section
variable [DecidableEq κ] {d : List (κ × ν)}

/-- Assignment to a key of a dictionary that keeps the order of first assignment. -/
def set (k : κ) (v : ν) : List (κ × ν) → List (κ × ν)
  | [] => [(k, v)]
  | (k', v') :: d => if k' = k then (k, v) :: d else (k', v') :: set k v d

lemma keys_set : (set k v d).map fst =
    if k ∈ d.map fst then d.map fst else d.map fst ++ [k] := by
  induction d with
  | nil => rfl
  | cons p d ih =>
    obtain ⟨k0, v0⟩ := p
    rw [set, map_cons]
    by_cases hk : k0 = k
    · subst hk
      rw [if_pos rfl, if_pos mem_cons_self]
      rfl
    · have hk' : k ≠ k0 := fun h => hk h.symm
      rw [if_neg hk, map_cons, ih]
      by_cases hm : k ∈ d.map fst
      · rw [if_pos hm, if_pos (mem_cons_of_mem _ hm)]
      · rw [if_neg hm, if_neg (not_mem_cons_of_ne_of_not_mem hk' hm)]
        rfl

lemma mem_set (h : ∀ q ∈ d, q.1 = k → q.2 = v) : q ∈ set k v d ↔ q = (k, v) ∨ q ∈ d := by
  induction d with
  | nil => rw [set, mem_singleton, or_iff_left not_mem_nil]
  | cons p d ih =>
    obtain ⟨hp, hd⟩ := forall_mem_cons.mp h
    rw [set]
    split
    next hk =>
      have hpv : p = (k, v) := Prod.ext hk (hp hk)
      rw [hpv, mem_cons, ← or_assoc, or_self]
    · rw [mem_cons, ih hd, mem_cons, or_left_comm]

lemma nodup_keys_set (h : (d.map fst).Nodup) : ((set k v d).map fst).Nodup := by
  rw [keys_set]
  split
  · exact h
  next hm =>
    refine nodup_append.mpr ⟨h, nodup_singleton k, ?_⟩
    rintro a ha b hb rfl
    exact hm (mem_singleton.mp hb ▸ ha)

variable [BEq κ] [LawfulBEq κ]

lemma lookup_cons (k k0 : κ) (v0 : ν) :
    ((k0, v0) :: d).lookup k = if k = k0 then some v0 else d.lookup k := by
  rw [List.lookup_cons]
  by_cases h : k = k0
  · rw [if_pos h, beq_iff_eq.mpr h]
  · rw [if_neg h, beq_eq_false_iff_ne.mpr h]

lemma lookup_set : (set k v d).lookup k' = if k' = k then some v else d.lookup k' := by
  induction d with
  | nil => rw [set, lookup_cons, lookup_nil]
  | cons p d ih =>
    obtain ⟨k0, v0⟩ := p
    rw [set]
    by_cases hk : k0 = k
    · subst hk
      rw [if_pos rfl, lookup_cons, lookup_cons]
      split <;> rfl
    · rw [if_neg hk, lookup_cons, lookup_cons, ih]
      by_cases h0 : k' = k0
      · subst h0
        rw [if_pos rfl, if_pos rfl, if_neg hk]
      · rw [if_neg h0, if_neg h0]

/-- `del d[k]`, and nothing when the key is not there. -/
def erase (k : κ) (d : List (κ × ν)) : List (κ × ν) := d.filter fun p => p.1 ≠ k

lemma lookup_erase : (erase k d).lookup k' = if k' = k then none else d.lookup k' := by
  induction d with
  | nil => simp [erase]
  | cons p d ih =>
    obtain ⟨k0, v0⟩ := p
    rw [erase, filter_cons, lookup_cons]
    by_cases hk : k0 = k
    · subst hk
      rw [if_neg (by simp)]
      refine ih.trans ?_
      split <;> rfl
    · rw [if_pos (by simp [hk]), lookup_cons]
      by_cases h0 : k' = k0
      · subst h0
        rw [if_pos rfl, if_neg hk, if_pos rfl]
      · rw [if_neg h0, if_neg h0]
        exact ih

omit [DecidableEq κ] in
lemma mem_keys_of_lookup (h : d.lookup k = some v) : k ∈ d.map fst := by
  induction d with
  | nil => cases h
  | cons p d ih =>
    rw [List.lookup_cons] at h
    split at h
    next hk => exact List.mem_map.mpr ⟨p, List.mem_cons_self, (beq_iff_eq.mp hk).symm⟩
    · exact List.mem_cons_of_mem _ (ih h)

lemma lookup_foldl_set {P : ν → Prop} {entries : List (κ × ν)}
    (hd : ∀ k v, d.lookup k = some v → P v) (h : ∀ p ∈ entries, P p.2)
    (hl : (entries.foldl (fun d p => set p.1 p.2 d) d).lookup k = some v) : P v := by
  induction entries generalizing d with
  | nil => exact hd k v hl
  | cons p entries ih =>
    obtain ⟨hp, hent⟩ := forall_mem_cons.mp h
    refine ih ?_ hent hl
    intro k' v' hk'
    rw [lookup_set] at hk'
    split at hk'
    · exact Option.some.inj hk' ▸ hp
    · exact hd k' v' hk'

lemma mem_iff_lookup (h : (d.map fst).Nodup) : (k, v) ∈ d ↔ d.lookup k = some v := by
  induction d with
  | nil => simp
  | cons p d ih =>
    obtain ⟨k0, v0⟩ := p
    obtain ⟨hk0, hd⟩ := nodup_cons.mp h
    rw [lookup_cons, mem_cons, ih hd]
    by_cases hk : k = k0
    · subst hk
      have hnone : d.lookup k ≠ some v := fun hv =>
        hk0 (mem_map.mpr ⟨(k, v), (ih hd).mpr hv, rfl⟩)
      simp [hnone, eq_comm]
    · simp [hk]

end

end Dict
