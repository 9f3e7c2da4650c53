import Mathlib.Data.List.Dedup
import Mathlib.Data.List.Sort
import Mathlib.Data.List.MinMax
import Mathlib.Data.Prod.Lex

namespace Query

/-- An `ORDER BY` of the executor: rows come out in order, those that tie in any order. -/
structure Sorter where
  sort : {α : Type} → (α → α → Ordering) → List α → List α
  perm : ∀ {α : Type} (cmp : α → α → Ordering) (l : List α), (sort cmp l).Perm l
  sorted : ∀ {α : Type} (cmp : α → α → Ordering) (l : List α), Std.TransCmp cmp →
    (sort cmp l).Pairwise fun a b => (cmp a b).isLE

lemma Sorter.mem_sort (s : Sorter) {c : α → α → Ordering} : a ∈ s.sort c l ↔ a ∈ l :=
  (s.perm c l).mem_iff

def Sorter.stable : Sorter where
  sort cmp l := l.insertionSort fun a b => (cmp a b).isLE = true
  perm _ l := List.perm_insertionSort _ l
  sorted cmp l h := by
    have htrans : IsTrans _ fun a b => (cmp a b).isLE = true :=
      ⟨fun a b c => Std.TransCmp.isLE_trans⟩
    have htotal : Std.Total fun a b => (cmp a b).isLE = true := by
      refine ⟨fun a b => ?_⟩
      have hswap : cmp a b = (cmp b a).swap := Std.OrientedCmp.eq_swap
      cases hc : cmp b a <;> simp_all
    exact List.pairwise_insertionSort _ l

/-- `ROW_NUMBER() OVER (PARTITION BY part)` of rows in window order, `seen` before them. -/
def rowNumber [DecidableEq κ] (part : α → κ) : List κ → List α → List (α × Nat)
  | _, [] => []
  | seen, x :: l => (x, seen.count (part x) + 1) :: rowNumber part (part x :: seen) l

section
variable [DecidableEq κ] {part : α → κ}

@[simp] lemma rowNumber_map_fst : (rowNumber part seen l).map Prod.fst = l := by
  induction l generalizing seen with
  | nil => rfl
  | cons x l ih => rw [rowNumber, List.map_cons, ih]

lemma fst_mem_of_mem_rowNumber (h : x ∈ rowNumber part seen l) : x.1 ∈ l := by
  have hmem := List.mem_map_of_mem (f := Prod.fst) h
  rwa [rowNumber_map_fst] at hmem

lemma length_rowNumber_le (part : α → κ) (seen : List κ) (l : List α) (k : κ) (n : Nat) :
    ((rowNumber part seen l).filter fun x => part x.1 = k ∧ x.2 ≤ n).length + seen.count k ≤
      max n (seen.count k) := by
  induction l generalizing seen with
  | nil => simp [rowNumber]
  | cons x l ih =>
    rw [rowNumber, List.filter_cons]
    by_cases hk : part x = k
    · have hrest := ih (k :: seen)
      rw [List.count_cons_self] at hrest
      by_cases hn : seen.count k + 1 ≤ n
      · simp only [hk, hn, and_self, decide_true, if_true, List.length_cons]
        omega
      · simp only [hk, hn, and_false, decide_false, Bool.false_eq_true, if_false]
        omega
    · have hrest := ih (part x :: seen)
      rw [List.count_cons_of_ne hk] at hrest
      simpa only [hk, false_and, decide_false, Bool.false_eq_true, if_false] using hrest

/-- `DISTINCT ON (key)` of rows in order; `seen` are the keys of the rows before. -/
def distinctOn (key : α → κ) : List κ → List α → List α
  | _, [] => []
  | seen, x :: l =>
    if key x ∈ seen then distinctOn key seen l else x :: distinctOn key (key x :: seen) l

lemma distinctOn_sublist {key : α → κ} : (distinctOn key seen l).Sublist l := by
  induction l generalizing seen with
  | nil => exact .slnil
  | cons x l ih =>
    rw [distinctOn]
    split
    · exact ih.cons x
    · exact ih.cons_cons x

end

lemma lookup_filterMap [DecidableEq α] {l : List α} {f : α → Option β} :
    (l.filterMap fun x => (f x).map fun b => (x, b)).lookup a = if a ∈ l then f a else none := by
  induction l with
  | nil => rfl
  | cons x l ih =>
    by_cases hx : a = x
    · subst hx
      cases hf : f a with
      | none => simp [hf, ih]
      | some b => simp [hf]
    · cases hf : f x with
      | none => simp [hf, ih, hx]
      | some b => simp [hf, ih, hx, List.lookup_cons, beq_false_of_ne hx]

def looseScan [LinearOrder κ] (keys : List κ) : Nat → Option κ → List κ
  | 0, _ => []
  | n + 1, cur =>
    match (keys.filter fun k => cur.all (· < k)).argmin id with
    | none => []
    | some k => k :: looseScan keys n (some k)

end Query
