import Mathlib.Order.Nat

namespace TaskQ.BoundedCollect
open List

abbrev Value := { text : List UInt8 // text ≠ [] }

def ascii (text : List Char) : List UInt8 := text.map fun c => c.toNat.toUInt8

def detailHome : String :=
  "the full collect lives on the children's own result rows (the fork-spawned .item rows / the " ++
    "gather's parents); this join row carries the bounded summary"

/-- The envelope, with the count under `__truncated__` if it is cut. -/
structure Envelope where
  value : List Value
  truncated : Option Nat

/-- `_jsonb(envelope).encode("utf-8")`. -/
def Envelope.jsonb (e : Envelope) : List UInt8 :=
  ascii "\x7b\"value\":[".toList ++ intercalate (ascii [',']) (e.value.map Subtype.val) ++
    ascii "]".toList ++
    (match e.truncated with
      | none => []
      | some n => ascii ",\"__truncated__\":".toList ++ ascii (Nat.toDigits 10 n) ++
        ascii (",\"detail_home\":\"" ++ detailHome ++ "\"").toList) ++
    ascii "\x7d".toList

def Envelope.size (e : Envelope) : Nat := e.jsonb.length

/-- The loop over the values; `cap` is `FANIN_FAILURES_BYTE_CAP`. -/
def keep (cap total : Nat) : List Value → List Value → List Value
  | kept, [] => kept
  | kept, value :: rest =>
    if cap < Envelope.size ⟨kept ++ [value], some (total - kept.length - 1)⟩ then kept
    else keep cap total (kept ++ [value]) rest

def boundedCollect (cap : Nat) (values : List Value) : Envelope :=
  if Envelope.size ⟨values, none⟩ ≤ cap then ⟨values, none⟩
  else
    let kept := keep cap values.length [] values
    ⟨kept, some (values.length - kept.length)⟩

def cut (values : List Value) (k : Nat) : Envelope := ⟨values.take k, some (values.length - k)⟩

variable {values : List Value}

lemma length_intercalate_concat (l : List (List UInt8)) (sep b : List UInt8) :
    (intercalate sep l).length + b.length ≤ (intercalate sep (l ++ [b])).length := by
  induction l with
  | nil => simp [intercalate]
  | cons a l ih =>
    cases l with
    | nil => simp [intercalate]
    | cons a' l =>
      rw [cons_append] at ih
      rw [cons_append, cons_append, intercalate_cons_cons, intercalate_cons_cons]
      simp only [length_append] at ih ⊢
      omega

lemma length_toDigits_succ (n : Nat) :
    (Nat.toDigits 10 (n + 1)).length ≤ (Nat.toDigits 10 n).length + 1 := by
  have hlt : n < 10 ^ (Nat.toDigits 10 n).length :=
    (Nat.length_toDigits_le_iff (by decide) Nat.length_toDigits_pos).mp le_rfl
  refine (Nat.length_toDigits_le_iff (by decide) (Nat.succ_pos _)).mpr ?_
  rw [Nat.pow_succ]
  omega

/-- The value a longer prefix adds is no shorter than the digit its marker may lose. -/
lemma size_cut_le (h : k < values.length) : (cut values k).size ≤ (cut values (k + 1)).size := by
  have hdig := length_toDigits_succ (values.length - (k + 1))
  rw [show values.length - (k + 1) + 1 = values.length - k by omega] at hdig
  have htext := length_intercalate_concat ((values.take k).map Subtype.val) (ascii [','])
    (values[k]).val
  have hpos := length_pos_iff.mpr (values[k]).property
  rw [← map_singleton (f := Subtype.val), ← map_append, ← take_succ_eq_append_getElem h] at htext
  simp only [cut, Envelope.size, Envelope.jsonb, length_append, ascii, length_map] at htext ⊢
  omega

lemma size_cut_mono (hij : i ≤ j) (hj : j ≤ values.length) :
    (cut values i).size ≤ (cut values j).size := by
  induction hij with
  | refl => exact le_rfl
  | step _ ih => exact (ih (Nat.le_of_succ_le hj)).trans (size_cut_le hj)

lemma keep_spec (cap : Nat) (kept rest : List Value) (h : kept ++ rest = values) :
    ∃ k ≤ values.length, keep cap values.length kept rest = values.take k ∧
      (k = kept.length ∨ (cut values k).size ≤ cap) ∧
      (k < values.length → cap < (cut values (k + 1)).size) := by
  induction rest generalizing kept with
  | nil =>
    subst h
    exact ⟨kept.length, by simp, by simp [keep], .inl rfl, fun h => by simp at h⟩
  | cons value rest ih =>
    have hcut : Envelope.mk (kept ++ [value]) (some (values.length - kept.length - 1)) =
        cut values (kept.length + 1) := by
      rw [cut, ← h, take_length_add_append, Nat.sub_sub]
      rfl
    rw [keep, hcut]
    split
    next hover =>
      exact ⟨kept.length, by simp [← h], by rw [← h, take_left], .inl rfl, fun _ => hover⟩
    next hfits =>
      obtain ⟨k, hk, hkeep, hlast, hmax⟩ := ih (kept ++ [value]) (by simpa using h)
      refine ⟨k, hk, hkeep, .inr (hlast.elim (fun hk => ?_) id), hmax⟩
      rw [hk, length_append]
      exact not_lt.mp hfits

end TaskQ.BoundedCollect
