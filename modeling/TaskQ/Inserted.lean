import Mathlib.Data.Multiset.MapFold
import TaskQ.RowLocks

namespace RowLocks
open List Function Slot

variable [DecidableEq τ]

def Slot.added (t : τ) (s : Slot τ ρ) : Option ρ := if s.base.isNone then s.view t else none

def inserted (t : τ) (l : List (Slot τ ρ)) : List ρ := l.filterMap (Slot.added t)

def Keyed (key : ρ → κ) (l : List (Slot τ ρ)) : Prop :=
  ∀ sl ∈ l, ∀ b d, sl.base = some b → sl.draft = some d → key d.2 = key b

def keys (key : ρ → κ) (l : List ρ) : Multiset κ := (l.map key : List κ)

@[simp] lemma keys_nil {key : ρ → κ} : keys key [] = 0 := rfl

@[simp] lemma keys_append {key : ρ → κ} : keys key (l ++ l') = keys key l + keys key l' := by
  simp [keys]

variable {key : ρ → κ}

lemma mem_keys : k ∈ keys key l ↔ ∃ r ∈ l, key r = k := by
  simp [keys]

variable {l : List (Slot τ ρ)}

omit [DecidableEq τ] in
lemma InsertOnly.keyed (h : InsertOnly l) (key : ρ → κ) : Keyed key l := by
  intro sl hm b d hb hd
  rw [h sl hm d hd] at hb
  cases hb

lemma Keyed.visible (h : Keyed key l) (t : τ) :
    keys key (visible t l) = keys key (committed l) + keys key (inserted t l) := by
  induction l with
  | nil => rfl
  | cons sl l ih =>
    have ih := ih fun sl' hm => h sl' (mem_cons_of_mem _ hm)
    simp only [RowLocks.visible, committed, inserted, filterMap_cons] at ih ⊢
    cases hb : sl.base with
    | none =>
      have ha : sl.added t = sl.view t := by simp [added, hb]
      rw [ha]
      cases sl.view t with
      | none => exact ih
      | some r =>
        simp only [keys, map_cons, ← Multiset.cons_coe] at ih ⊢
        rw [ih, Multiset.add_cons]
    | some b =>
      have ha : sl.added t = none := by simp [added, hb]
      obtain ⟨r, hr⟩ := exists_view hb t
      have hk : key r = key b := by
        rcases draft_or_base hr with hd | ⟨-, hb'⟩
        · exact h sl mem_cons_self b (t, r) hb hd
        · rw [Option.some.inj (hb.symm.trans hb')]
      rw [ha, hr]
      simp only [keys, map_cons, ← Multiset.cons_coe] at ih ⊢
      rw [ih, hk, Multiset.cons_add]

lemma InsertOnly.visible_perm (h : InsertOnly l) (t : τ) :
    (visible t l).Perm (committed l ++ inserted t l) := by
  have hk := (h.keyed id).visible t
  simpa [keys] using hk

lemma keyed_commit (h : Keyed key l) : Keyed key (l.map (Slot.commit t)) := by
  intro sl' hm b d hb hd
  obtain ⟨sl, hsl, rfl⟩ := mem_map.mp hm
  obtain ⟨hd', hu⟩ := commit_draft_some.mp hd
  rw [commit_base, view_undrafted] at hb
  · exact h sl hsl b d hb hd'
  · intro r hr
    rw [hd', Option.some.injEq] at hr
    exact hu (congrArg Prod.fst hr)

lemma keyed_rollback (h : Keyed key l) : Keyed key (l.map (Slot.rollback t)) := by
  intro sl' hm b d hb hd
  obtain ⟨sl, hsl, rfl⟩ := mem_map.mp hm
  exact h sl hsl b d (rollback_base.symm.trans hb) (rollback_draft_some.mp hd).1

lemma Slot.added_commit {s : Slot τ ρ} :
    (s.commit t).added u = if u = t then none else s.added u := by
  unfold added commit view
  rcases s with ⟨b, _ | ⟨o, r⟩⟩
  · cases b <;> simp
  by_cases ho : o = t
  · subst ho
    cases b <;> simp [eq_comm]
  by_cases hu : u = t
  · subst hu
    cases b <;> simp [ho]
  · cases b <;> simp [ho, hu]

lemma Slot.added_rollback {s : Slot τ ρ} :
    (s.rollback t).added u = if u = t then none else s.added u := by
  unfold added rollback view
  rcases s with ⟨b, _ | ⟨o, r⟩⟩
  · cases b <;> simp
  by_cases ho : o = t
  · subst ho
    cases b <;> simp [eq_comm]
  by_cases hu : u = t
  · subst hu
    cases b <;> simp [ho]
  · cases b <;> simp [ho, hu]

lemma inserted_ended {f : Slot τ ρ → Slot τ ρ}
    (hf : ∀ s, (f s).added u = if u = t then none else s.added u) :
    inserted u (l.map f) = if u = t then [] else inserted u l := by
  simp only [inserted, filterMap_map, comp_def, hf]
  split
  · exact filterMap_none ..
  · rfl

lemma inserted_insertRows :
    inserted u (insertRows t rows l) = inserted u l ++ if u = t then rows else [] := by
  simp only [inserted, insertRows, filterMap_append, filterMap_map]
  congr 1
  by_cases hu : u = t
  · simp [hu, added, view]
  · simp [hu, Ne.symm hu, comp_def, added, view]

omit [DecidableEq τ] in
lemma Keyed.insertRows (h : Keyed key l) : Keyed key (insertRows t rows l) := by
  intro sl hm b d hb hd
  rcases mem_append.mp hm with hm | hm
  · exact h sl hm b d hb hd
  · obtain ⟨r, -, rfl⟩ := mem_map.mp hm
    cases hb

section

variable {l : List (Slot τ ρ)} {key : ρ → κ} {f : ρ → Option ρ}
  (hf : ∀ r r', f r = some r' → key r' = key r)

@[simp] lemma committed_rewrite : committed (rewrite t f l) = committed l := by
  simp only [committed, rewrite, filterMap_map]
  refine filterMap_congr fun sl _ => ?_
  simp only [comp_apply]
  split <;> rfl

include hf in
lemma Keyed.rewrite (h : Keyed key l) : Keyed key (rewrite t f l) := by
  intro sl' hm b d hb hd
  obtain ⟨sl, hsl, rfl⟩ := mem_map.mp hm
  split at hd
  · rename_i r hr
    rw [hr] at hb
    cases hd
    obtain ⟨v, hv, hfv⟩ := Option.bind_eq_some_iff.mp hr
    rw [hf v r hfv]
    rcases draft_or_base hv with hd | ⟨-, hb'⟩
    · exact h sl hsl b (t, v) hb hd
    · rw [Option.some.inj (hb'.symm.trans hb)]
  · rename_i hr
    rw [hr] at hb
    exact h sl hsl b d hb hd

include hf in
lemma keys_inserted_rewrite :
    keys key (inserted u (rewrite t f l)) = keys key (inserted u l) := by
  simp only [keys, inserted, map_filterMap, RowLocks.rewrite, filterMap_map]
  refine congrArg _ (filterMap_congr fun sl _ => ?_)
  simp only [comp_apply]
  split
  · rename_i r hr
    obtain ⟨v, hv, hfv⟩ := Option.bind_eq_some_iff.mp hr
    have hk := hf v r hfv
    cases hb : sl.base with
    | some b => simp [added, hb]
    | none =>
      rcases draft_or_base hv with hd | ⟨-, hb'⟩
      · by_cases hu : t = u
        · simp [added, view, hb, hd, hu, hk]
        · simp [added, view, hb, hd, hu]
      · rw [hb] at hb'
        cases hb'
  · rfl

end

section

omit [DecidableEq τ]

/-- No two rows share a key, whatever becomes of the open transactions. -/
def Distinct (key : ρ → κ) (l : List (Slot τ ρ)) : Prop :=
  l.Pairwise fun s s' => ∀ r r', s.holds r → s'.holds r' → key r ≠ key r'

variable {key : ρ → κ} {l : List (Slot τ ρ)}

lemma Distinct.nodup_committed (h : Distinct key l) : ((committed l).map key).Nodup := by
  rw [List.Nodup, pairwise_map, committed, pairwise_filterMap]
  exact h.imp fun hs r hr r' hr' => hs r r' (.inl hr) (.inl hr')

lemma Distinct.map (h : Distinct key l) {f : Slot τ ρ → Slot τ ρ}
    (hf : ∀ s r, (f s).holds r → s.holds r) : Distinct key (l.map f) :=
  pairwise_map.mpr (h.imp fun hs r r' hr hr' => hs r r' (hf _ r hr) (hf _ r' hr'))

lemma Distinct.insertRows (h : Distinct key l) (hr : (rows.map key).Nodup)
    (hn : ∀ sl ∈ l, ∀ r ∈ rows, ∀ r', sl.holds r' → key r' ≠ key r) :
    Distinct key (insertRows t rows l) := by
  have hnew : ∀ {r r' : ρ}, holds ⟨none, some (t, r)⟩ r' → r' = r := by
    rintro r r' (hb | ⟨u, hd⟩)
    · cases hb
    · exact (Prod.mk.inj (Option.some.inj hd)).2.symm
  refine pairwise_append.mpr ⟨h, pairwise_map.mpr ?_, ?_⟩
  · refine (pairwise_map.mp hr).imp fun hne r r' hs hs' => ?_
    rwa [hnew hs, hnew hs']
  · intro sl hsl sl' hsl' r r' hs hs'
    obtain ⟨r0, hr0, rfl⟩ := mem_map.mp hsl'
    rw [hnew hs']
    exact hn sl hsl r0 hr0 r hs

end

end RowLocks
