import Mathlib.Data.Finset.Card
import Mathlib.Logic.Relation

namespace Worklist
open List

section
variable [DecidableEq α]

def push (p : Finset α × List α) (x : α) : Finset α × List α :=
  if x ∈ p.1 then p else (insert x p.1, x :: p.2)

def walk (next : α → List α) : Nat → Finset α → List α → Finset α
  | 0, seen, _ => seen
  | _ + 1, seen, [] => seen
  | fuel + 1, seen, current :: stack =>
    let p := (next current).foldl push (seen, stack)
    walk next fuel p.1 p.2

variable {l : List α}

lemma mem_foldl_push_fst : x ∈ (l.foldl push p).1 ↔ x ∈ p.1 ∨ x ∈ l := by
  induction l generalizing p with
  | nil => simp
  | cons y l ih =>
    rw [foldl_cons, ih, push]
    split
    next hy =>
      rw [mem_cons]
      constructor
      · exact Or.imp_right .inr
      · rintro (hx | rfl | hx)
        · exact .inl hx
        · exact .inl hy
        · exact .inr hx
    · rw [Finset.mem_insert, mem_cons, or_comm (a := x = y), or_assoc]

lemma mem_foldl_push_snd : x ∈ (l.foldl push p).2 ↔ x ∈ p.2 ∨ x ∈ l ∧ x ∉ p.1 := by
  induction l generalizing p with
  | nil => simp
  | cons y l ih =>
    rw [foldl_cons, ih, push]
    split
    next hy =>
      constructor
      · exact Or.imp_right fun h => ⟨mem_cons_of_mem _ h.1, h.2⟩
      · rintro (hx | ⟨hx, hn⟩)
        · exact .inl hx
        rcases mem_cons.mp hx with rfl | hx
        · exact absurd hy hn
        · exact .inr ⟨hx, hn⟩
    next hy =>
      by_cases hxy : x = y
      · subst hxy
        simp [hy]
      · simp [hxy]

lemma length_foldl_push :
    (l.foldl push p).2.length + p.1.card = p.2.length + (l.foldl push p).1.card := by
  induction l generalizing p with
  | nil => rfl
  | cons y l ih =>
    rw [foldl_cons]
    have hfold := ih (p := push p y)
    have hpush : (push p y).2.length + p.1.card = p.2.length + (push p y).1.card := by
      rw [push]
      split
      · rfl
      next hy =>
        rw [length_cons, Finset.card_insert_of_notMem hy]
        omega
    omega

variable {next : α → List α} {a : α}

structure Walked (next : α → List α) (a : α) (seen : Finset α) (stack : List α) : Prop where
  sound : ∀ x ∈ seen, Relation.TransGen (fun x y => y ∈ next x) a x
  stacked : ∀ x ∈ stack, x = a ∨ x ∈ seen
  closed : ∀ x, x = a ∨ x ∈ seen → x ∈ stack ∨ ∀ y ∈ next x, y ∈ seen

omit [DecidableEq α] in
lemma Walked.start : Walked next a ∅ [a] where
  sound _ hx := absurd hx (Finset.notMem_empty _)
  stacked _ hx := .inl (mem_singleton.mp hx)
  closed x hx := by
    rcases hx with rfl | hx
    · exact .inl (mem_singleton_self _)
    · exact absurd hx (Finset.notMem_empty _)

lemma Walked.visit (h : Walked next a seen (current :: stack)) :
    Walked next a ((next current).foldl push (seen, stack)).1
      ((next current).foldl push (seen, stack)).2 := by
  have hcurrent : Relation.ReflTransGen (fun x y => y ∈ next x) a current := by
    rcases h.stacked current mem_cons_self with rfl | hx
    · exact .refl
    · exact (h.sound current hx).to_reflTransGen
  constructor
  case sound =>
    intro x hx
    rcases mem_foldl_push_fst.mp hx with hx | hx
    · exact h.sound x hx
    · exact Relation.TransGen.tail' hcurrent hx
  case stacked =>
    intro x hx
    rcases mem_foldl_push_snd.mp hx with hx | ⟨hx, -⟩
    · exact (h.stacked x (mem_cons_of_mem _ hx)).imp_right
        fun hx => mem_foldl_push_fst.mpr (.inl hx)
    · exact .inr (mem_foldl_push_fst.mpr (.inr hx))
  case closed =>
    intro x hx
    by_cases hold : x = a ∨ x ∈ seen
    · rcases h.closed x hold with hmem | hall
      · rcases mem_cons.mp hmem with rfl | hmem
        · exact .inr fun y hy => mem_foldl_push_fst.mpr (.inr hy)
        · exact .inl (mem_foldl_push_snd.mpr (.inl hmem))
      · exact .inr fun y hy => mem_foldl_push_fst.mpr (.inl (hall y hy))
    · -- a new element was just stacked
      obtain ⟨hne, hnew⟩ := not_or.mp hold
      rcases hx with hx | hx
      · exact absurd hx hne
      rcases mem_foldl_push_fst.mp hx with hx | hx
      · exact absurd hx hnew
      · exact .inl (mem_foldl_push_snd.mpr (.inr ⟨hx, hnew⟩))

lemma Walked.walk {univ : Finset α} (hnext : ∀ x, ∀ y ∈ next x, y ∈ univ)
    (h : Walked next a seen stack) (hseen : seen ⊆ univ)
    (hfuel : stack.length + univ.card ≤ fuel + seen.card) :
    Walked next a (Worklist.walk next fuel seen stack) [] := by
  induction fuel generalizing seen stack with
  | zero =>
    have hcard := Finset.card_le_card hseen
    have hempty : stack = [] := eq_nil_of_length_eq_zero (by omega)
    rw [Worklist.walk, ← hempty]
    exact h
  | succ fuel ih =>
    cases stack with
    | nil => exact h
    | cons current stack =>
      refine ih h.visit ?_ ?_
      · intro x hx
        rcases mem_foldl_push_fst.mp hx with hx | hx
        · exact hseen hx
        · exact hnext current x hx
      · have hlen := length_foldl_push (l := next current) (p := (seen, stack))
        rw [length_cons] at hfuel
        dsimp only at hlen
        omega

lemma mem_walk {univ : Finset α} (hnext : ∀ x, ∀ y ∈ next x, y ∈ univ)
    (hfuel : univ.card + 1 ≤ fuel) :
    x ∈ walk next fuel ∅ [a] ↔ Relation.TransGen (fun x y => y ∈ next x) a x := by
  have h : Walked next a (walk next fuel ∅ [a]) [] := by
    refine Walked.start.walk hnext (Finset.empty_subset _) ?_
    rw [length_singleton, Finset.card_empty]
    omega
  have hcl : ∀ x, x = a ∨ x ∈ walk next fuel ∅ [a] →
      ∀ y ∈ next x, y ∈ walk next fuel ∅ [a] :=
    fun x hx => (h.closed x hx).resolve_left not_mem_nil
  refine ⟨h.sound x, fun hx => ?_⟩
  induction hx with
  | single hx => exact hcl a (.inl rfl) _ hx
  | tail _ hx ih => exact hcl _ (.inr ih) _ hx

end

end Worklist
