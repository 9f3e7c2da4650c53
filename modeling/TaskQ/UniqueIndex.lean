import Mathlib.Data.List.Basic

namespace UniqueIndex
open List

section
variable [DecidableEq κ]

def Unique (key : ρ → Option κ) (rows : List ρ) : Prop :=
  rows.Pairwise fun a b => ∀ k, key a = some k → key b ≠ some k

def holder (key : ρ → Option κ) (rows : List ρ) (k : κ) : Option ρ :=
  rows.find? fun r => key r = some k

def conflicts (key : ρ → Option κ) (rows : List ρ) (r : ρ) : Bool :=
  (key r).any fun k => (holder key rows k).isSome

variable {key : ρ → Option κ} {rows : List ρ}

lemma holder_isSome : (holder key rows k).isSome ↔ ∃ r ∈ rows, key r = some k := by
  simp [holder, find?_isSome]

lemma holder_eq_none : holder key rows k = none ↔ ∀ r ∈ rows, key r ≠ some k := by
  simp [holder, find?_eq_none]

lemma of_holder (h : holder key rows k = some r) : r ∈ rows ∧ key r = some k :=
  ⟨mem_of_find?_eq_some h, by simpa using find?_some h⟩

lemma conflicts_eq_false : conflicts key rows r = false ↔
    ∀ k, key r = some k → holder key rows k = none := by
  cases hk : key r with
  | none => simp [conflicts, hk]
  | some k => simp [conflicts, hk]

lemma conflicts_eq_true : conflicts key rows r = true ↔
    ∃ k h, key r = some k ∧ holder key rows k = some h := by
  cases hk : key r with
  | none => simp [conflicts, hk]
  | some k => simp [conflicts, hk, Option.isSome_iff_exists]

lemma Unique.snoc (hu : Unique key rows) (hr : conflicts key rows r = false) :
    Unique key (rows ++ [r]) := by
  refine pairwise_append.mpr ⟨hu, pairwise_singleton _ _, ?_⟩
  intro a ha b hb k hak hbk
  obtain rfl := mem_singleton.mp hb
  exact holder_eq_none.mp (conflicts_eq_false.mp hr k hbk) a ha hak

omit [DecidableEq κ] in
lemma Unique.eq_of_key (hu : Unique key rows) (ha : a ∈ rows) (hb : b ∈ rows)
    (hak : key a = some k) (hbk : key b = some k) : a = b := by
  induction rows with
  | nil => cases ha
  | cons r rows ih =>
    obtain ⟨hr, hrows⟩ := pairwise_cons.mp hu
    rcases mem_cons.mp ha with rfl | ha' <;> rcases mem_cons.mp hb with rfl | hb'
    · rfl
    · exact absurd hbk (hr b hb' k hak)
    · exact absurd hak (hr a ha' k hbk)
    · exact ih hrows ha' hb'

lemma Unique.holder_of_mem (hu : Unique key rows) (hr : r ∈ rows) (hk : key r = some k) :
    holder key rows k = some r := by
  obtain ⟨h, hh⟩ := Option.isSome_iff_exists.mp (holder_isSome.mpr ⟨r, hr, hk⟩)
  obtain ⟨hmem, hkey⟩ := of_holder hh
  rw [hh, hu.eq_of_key hmem hr hkey hk]

lemma Unique.find?_of_mem {key : ρ → κ} (hu : Unique (fun r => some (key r)) rows)
    (hr : r ∈ rows) : (rows.find? fun x => key x = key r) = some r := by
  rw [← hu.holder_of_mem hr rfl, holder]
  congr 1
  funext x
  exact decide_eq_decide.mpr Option.some_inj.symm

lemma Unique.filter_of_mem {key : ρ → κ} (hu : Unique (fun r => some (key r)) rows)
    (ha : a ∈ rows) (p : ρ → Bool) :
    (rows.filter fun r => decide (key r = key a) && p r) = if p a then [a] else [] := by
  induction rows with
  | nil => cases ha
  | cons r rows ih =>
    obtain ⟨hr, hrows⟩ := pairwise_cons.mp hu
    rcases mem_cons.mp ha with rfl | ha
    · have hrest : (rows.filter fun r => decide (key r = key a) && p r) = [] := by
        rw [filter_eq_nil_iff]
        intro b hb hp
        simp only [Bool.and_eq_true, decide_eq_true_eq] at hp
        exact hr b hb (key a) rfl (congrArg some hp.1)
      rw [filter_cons, hrest]
      simp
    · have hne : key r ≠ key a := fun he => hr a ha (key r) rfl (congrArg some he.symm)
      rw [filter_cons, ← ih hrows ha]
      simp [hne]

lemma holder_append_of_some (h : holder key rows k = some r) :
    holder key (rows ++ l) k = some r := by
  simp only [holder] at h ⊢
  rw [find?_append, h, Option.some_or]

lemma holder_append_of_none (h : holder key rows k = none) :
    holder key (rows ++ l) k = holder key l k := by
  simp only [holder] at h ⊢
  rw [find?_append, h, Option.none_or]

lemma conflicts_snoc : conflicts key (rows ++ [x]) r =
    (conflicts key rows r || (key r).any fun k => key x = some k) := by
  cases hk : key r with
  | none => simp [conflicts, hk]
  | some k =>
    rw [Bool.eq_iff_iff]
    simp [conflicts, hk, holder, find?_append, or_comm]

lemma holder_snoc (h : conflicts key rows x = false) :
    holder key (rows ++ [x]) k = if key x = some k then some x else holder key rows k := by
  split
  next hx =>
    rw [holder_append_of_none (conflicts_eq_false.mp h k hx)]
    simp [holder, hx]
  next hx => simp [holder, find?_append, hx]

end

end UniqueIndex
