import Mathlib.Data.List.Sort

namespace Keyset
open List

/-- The pages of a reader who asks at most `k` times, each time after the last row it got. -/
def pages (next : Option α → List α) : Nat → Option α → List (List α)
  | 0, _ => []
  | k + 1, c =>
    match (next c).getLast? with
    | none => []
    | some r => next c :: pages next k (some r)

section
variable {lt : α → α → Prop} [DecidableRel lt]

lemma filter_after {l1 l2 : List α} (hs : (l1 ++ l2).Pairwise lt)
    (hlt : ∀ a b, lt a b → ¬ lt b a) (hr : l1.getLast? = some r) :
    (l1 ++ l2).filter (fun x => decide (lt r x)) = l2 := by
  obtain ⟨l, rfl⟩ := getLast?_eq_some_iff.mp hr
  obtain ⟨h1, _, h12⟩ := pairwise_append.mp hs
  have hbef : ∀ x ∈ l ++ [r], ¬ lt r x := by
    intro x hx
    rcases mem_append.mp hx with hx | hx
    · exact hlt x r ((pairwise_append.mp h1).2.2 x hx r mem_cons_self)
    · obtain rfl := mem_singleton.mp hx
      exact fun h => hlt x x h h
  have hafter : ∀ x ∈ l2, lt r x := fun x hx => h12 r (by simp) x hx
  rw [filter_append, filter_eq_nil_iff.mpr (by simpa using hbef),
    filter_eq_self.mpr (by simpa using hafter), nil_append]

lemma flatten_pages_from {l1 l2 : List α} (next : Option α → List α) (n k : Nat)
    (hs : (l1 ++ l2).Pairwise lt) (hlt : ∀ a b, lt a b → ¬ lt b a) (hnext : ∀ r ∈ l1 ++ l2,
      next (some r) = ((l1 ++ l2).filter fun x => decide (lt r x)).take n)
    (hc : next c = l2.take n) : (pages next k c).flatten = l2.take (n * k) := by
  -- the rows already given are `l1`, those still to come are `l2`
  induction k generalizing l1 l2 c with
  | zero => simp [pages]
  | succ k ih =>
    rw [pages, hc]
    cases hr : (l2.take n).getLast? with
    | none =>
      rw [getLast?_eq_none_iff, take_eq_nil_iff] at hr
      rcases hr with rfl | rfl <;> simp
    | some r =>
      have hsplit : (l1 ++ l2.take n) ++ l2.drop n = l1 ++ l2 := by
        rw [append_assoc, take_append_drop]
      have hlast : (l1 ++ l2.take n).getLast? = some r := by
        rw [getLast?_append, hr, Option.some_or]
      have hmem : r ∈ l1 ++ l2 := by
        rw [← hsplit]
        exact mem_append_left _ (mem_of_getLast? hlast)
      rw [← hsplit] at hs hnext hmem
      have hnext' : next (some r) = (l2.drop n).take n := by
        rw [hnext r hmem, filter_after hs hlt hlast]
      rw [flatten_cons, ih hs hnext hnext', Nat.mul_succ, Nat.add_comm, take_add]

lemma flatten_pages {sorted : List α} (next : Option α → List α) (n k : Nat)
    (hs : sorted.Pairwise lt) (hlt : ∀ a b, lt a b → ¬ lt b a) (hfirst : next none = sorted.take n)
    (hnext : ∀ r ∈ sorted, next (some r) = (sorted.filter fun x => decide (lt r x)).take n) :
    (pages next k none).flatten = sorted.take (n * k) :=
  @flatten_pages_from _ _ _ none [] sorted next n k hs hlt hnext hfirst

lemma flatten_pages_after {l1 l2 : List α} (next : Option α → List α) (n k : Nat)
    (hs : (l1 ++ l2).Pairwise lt) (hlt : ∀ a b, lt a b → ¬ lt b a) (hr : l1.getLast? = some r)
    (hnext : ∀ r ∈ l1 ++ l2,
      next (some r) = ((l1 ++ l2).filter fun x => decide (lt r x)).take n) :
    (pages next k (some r)).flatten = l2.take (n * k) := by
  apply flatten_pages_from next n k hs hlt hnext
  rw [hnext r (mem_append_left _ (mem_of_getLast? hr)), filter_after hs hlt hr]

end

lemma insertionSort_eq {r lt : α → α → Prop} [DecidableRel r] {l l' : List α}
    (hp : l'.Perm l) (hs : l'.Pairwise lt) (hlt : ∀ a b, lt a b → ¬ lt b a)
    (hr : ∀ a ∈ l, ∀ b ∈ l, r a b ↔ a = b ∨ lt a b)
    (hsort : (l.insertionSort r).Pairwise r) : l.insertionSort r = l' := by
  have hperm := (perm_insertionSort r l).trans hp.symm
  refine List.Perm.eq_of_pairwise ?antisymm hsort ?sorted hperm
  case sorted =>
    refine hs.imp_of_mem fun ha hb h => ?_
    exact (hr _ (hp.subset ha) _ (hp.subset hb)).mpr (.inr h)
  case antisymm =>
    intro a b ha hb hab hba
    have ha' := (mem_insertionSort r).mp ha
    have hb' := hp.subset hb
    rcases (hr a ha' b hb').mp hab with h | h
    · exact h
    rcases (hr b hb' a ha').mp hba with h' | h'
    · exact h'.symm
    · exact absurd h' (hlt a b h)

end Keyset
