import Mathlib.Data.List.Basic

namespace Joined
open List

def join (c : Char) : List String → String
  | [] => ""
  | [a] => a
  | a :: b :: as => a ++ c.toString ++ join c (b :: as)

def segments (c : Char) (a : String) : List (List Char) := a.toList.splitOn c

variable {c : Char}

lemma segments_inj {a b : String} : segments c a = segments c b ↔ a = b := by
  refine ⟨fun h => String.toList_inj.mp ?_, fun h => h ▸ rfl⟩
  calc a.toList = [c].intercalate (segments c a) := (intercalate_splitOn c).symm
    _ = [c].intercalate (segments c b) := by rw [h]
    _ = b.toList := intercalate_splitOn c

lemma segments_of_not_mem {a : String} (h : c ∉ a.toList) : segments c a = [a.toList] :=
  splitOn_eq_singleton h

variable {as bs : List String}

lemma segments_join (c : Char) (h : as ≠ []) :
    segments c (join c as) = as.flatMap (segments c) := by
  induction as with
  | nil => exact absurd rfl h
  | cons a as ih =>
    cases as with
    | nil => rw [join, flatMap_cons, flatMap_nil, append_nil]
    | cons b as =>
      have htext : (a ++ c.toString ++ join c (b :: as)).toList =
          a.toList ++ c :: (join c (b :: as)).toList := by
        rw [String.toList_append, String.toList_append, Char.toString, String.toList_singleton,
          append_assoc, singleton_append]
      rw [join, segments, htext, splitOn_append_cons_self, flatMap_cons, ← ih (cons_ne_nil _ _)]
      rfl

lemma join_inj (ha : as ≠ []) (hb : bs ≠ []) :
    join c as = join c bs ↔ as.flatMap (segments c) = bs.flatMap (segments c) := by
  rw [← segments_inj (c := c), segments_join c ha, segments_join c hb]

lemma join_inj_of_not_mem (ha : as ≠ []) (hb : bs ≠ [])
    (has : ∀ a ∈ as, c ∉ a.toList) (hbs : ∀ b ∈ bs, c ∉ b.toList) :
    join c as = join c bs ↔ as = bs := by
  have hsingle : ∀ ts : List String, (∀ t ∈ ts, c ∉ t.toList) →
      ts.flatMap (segments c) = ts.map String.toList := by
    intro ts hts
    rw [map_eq_flatMap]
    exact flatMap_congr fun t ht => segments_of_not_mem (hts t ht)
  rw [join_inj ha hb, hsingle as has, hsingle bs hbs]
  exact map_inj_right fun _ _ => String.toList_inj.mp

lemma not_mem_toString (hc : c.isDigit = false) (n : Nat) : c ∉ (toString n).toList := by
  intro hmem
  rw [Nat.toString_eq_ofList_toDigits, String.toList_ofList] at hmem
  rw [Nat.isDigit_of_mem_toDigits (by decide) (by decide) hmem] at hc
  cases hc

lemma segments_toString (hc : c.isDigit = false) (n : Nat) :
    segments c (toString n) = [(toString n).toList] :=
  segments_of_not_mem (not_mem_toString hc n)

lemma toString_inj {m n : Nat} : toString m = toString n ↔ m = n := by
  refine ⟨fun h => ?_, fun h => h ▸ rfl⟩
  rw [Nat.toString_eq_ofList_toDigits, Nat.toString_eq_ofList_toDigits, String.ofList_inj] at h
  rw [← @Nat.ofDigitChars_ten_toDigits m, h, Nat.ofDigitChars_ten_toDigits]

end Joined
