import Mathlib.Algebra.Order.Field.Rat
import Mathlib.Tactic.Linarith

namespace TaskQ.TokenBucket
open List

/-- What `TokenBucket.__init__` lets through. -/
structure Limit where
  (capacity refill : ℚ)
  capacity_pos : 0 < capacity
  refill_nonneg : 0 ≤ refill

/-- The `state` document of a bucket's row; an older row may lack `tokens` or `ts`. -/
structure State where
  (tokens ts : Option ℚ)
  (capacity refill : ℚ)
  granted : Bool

/-- One acquire statement: its `statement_timestamp()` and the count it asks for. -/
structure Acquire where
  (now count : ℚ)

def refilled (b : Limit) (st : State) (now : ℚ) : ℚ :=
  min b.capacity
    (st.tokens.getD b.capacity + max (now - st.ts.getD now) 0 * b.refill)

def spend (b : Limit) (available : ℚ) (a : Acquire) : State :=
  { tokens := some (if a.count ≤ available then available - a.count else available)
    ts := some a.now, capacity := b.capacity, refill := b.refill
    granted := decide (a.count ≤ available) }

/-- `_acquire_pg`'s upsert: the insert arm starts full, the conflict arm from the row. -/
def acquire (b : Limit) (row : Option State) (a : Acquire) : State :=
  match row with
  | none => spend b b.capacity a
  | some st => spend b (refilled b st a.now) a

def totalGranted (b : Limit) : Option State → List Acquire → ℚ
  | _, [] => 0
  | row, a :: l =>
    (if (acquire b row a).granted then a.count else 0) + totalGranted b (some (acquire b row a)) l

def earliest (a : Acquire) (l : List Acquire) : ℚ := l.foldr (fun x m => min x.now m) a.now
def latest (a : Acquire) (l : List Acquire) : ℚ := l.foldr (fun x m => max x.now m) a.now

lemma le_latest (h : x ∈ a :: l) : x.now ≤ latest a l := by
  induction l with
  | nil =>
    obtain rfl := mem_singleton.mp h
    exact le_refl _
  | cons y l ih =>
    rcases mem_cons.mp h with rfl | h
    · exact (ih mem_cons_self).trans (le_max_right _ _)
    rcases mem_cons.mp h with rfl | h
    · exact le_max_left _ _
    · exact (ih (mem_cons_of_mem _ h)).trans (le_max_right _ _)

lemma earliest_le : earliest a l ≤ a.now := by
  induction l with
  | nil => exact le_refl _
  | cons y l ih => exact (min_le_right _ _).trans ih

lemma refilled_le {b : Limit} {st : State} (htok : st.tokens = some x) (hts : st.ts = some t)
    (h : b.refill = 0 ∨ t ≤ now) : refilled b st now ≤ x + b.refill * (now - t) := by
  rw [refilled, htok, hts, Option.getD_some, Option.getD_some]
  refine (min_le_right _ _).trans (le_of_eq ?_)
  rcases h with h | h
  · simp [h]
  · rw [max_eq_left (sub_nonneg.mpr h), mul_comm]

lemma spend_bound {b : Limit} {rest : ℚ}
    (hrest : rest ≤ 0 ∨ ∀ x, (spend b available a).tokens = some x → rest ≤ x + slack)
    (hslack : 0 ≤ slack) : (if (spend b available a).granted then a.count else 0) + rest ≤ 0 ∨
      (if (spend b available a).granted then a.count else 0) + rest ≤ available + slack := by
  by_cases h : a.count ≤ available
  · simp only [spend, h, if_true, decide_true, Option.some.injEq, forall_eq'] at hrest ⊢
    rcases hrest with hrest | hrest
    · exact .inr (by linarith)
    · exact .inr (by linarith)
  · simp only [spend, h, if_false, decide_false, Option.some.injEq, forall_eq', Bool.false_eq_true,
      zero_add] at hrest ⊢
    exact hrest

lemma totalGranted_le {b : Limit} {st : State} (htok : st.tokens = some x)
    (hts : st.ts = some t) (hlock : b.refill = 0 ∨ l.Pairwise fun a c => a.now ≤ c.now)
    (hfrom : b.refill = 0 ∨ ∀ a ∈ l, t ≤ a.now) (hto : ∀ a ∈ l, a.now ≤ hi) (hhi : t ≤ hi) :
    totalGranted b (some st) l ≤ 0 ∨ totalGranted b (some st) l ≤ x + b.refill * (hi - t) := by
  -- along the lock order the stored count and time pay for whatever is still granted
  induction l generalizing st x t with
  | nil => exact .inl (le_refl _)
  | cons a l ih =>
    have hnow := hto a mem_cons_self
    have hlock' := hlock.imp_right pairwise_cons.mp
    have hrest : totalGranted b (some (acquire b (some st) a)) l ≤ 0 ∨
        ∀ y, (acquire b (some st) a).tokens = some y →
          totalGranted b (some (acquire b (some st) a)) l ≤ y + b.refill * (hi - a.now) := by
      by_cases hle : totalGranted b (some (acquire b (some st) a)) l ≤ 0
      · exact .inl hle
      · refine .inr fun y hy => (ih hy rfl (hlock'.imp_right And.right) (hlock'.imp_right And.left)
          (fun c hc => hto c (mem_cons_of_mem _ hc)) hnow).resolve_left hle
    have hslack := mul_nonneg b.refill_nonneg (sub_nonneg.mpr hnow)
    have hfill := refilled_le htok hts (hfrom.imp_right fun h => h a mem_cons_self)
    rcases spend_bound hrest hslack with h | h
    · exact .inl h
    · exact .inr (h.trans (by linarith))

/-- With locks granted in statement order, grants stay within the capacity and the refill. -/
theorem granted_le_capacity_add_refill (b : Limit) (row : Option State) (a : Acquire)
    (l : List Acquire) (hlock : b.refill = 0 ∨ (a :: l).Pairwise fun a c => a.now ≤ c.now) :
    totalGranted b row (a :: l) ≤ b.capacity + b.refill * (latest a l - earliest a l) := by
  have hnow : a.now ≤ latest a l := le_latest mem_cons_self
  have hlock' := hlock.imp_right pairwise_cons.mp
  obtain ⟨available, hcap, hspend⟩ : ∃ x ≤ b.capacity, acquire b row a = spend b x a := by
    cases row with
    | none => exact ⟨_, le_refl _, rfl⟩
    | some st => exact ⟨_, min_le_left _ _, rfl⟩
  have hrest : totalGranted b (some (spend b available a)) l ≤ 0 ∨
      ∀ y, (spend b available a).tokens = some y →
        totalGranted b (some (spend b available a)) l ≤ y + b.refill * (latest a l - a.now) := by
    by_cases hle : totalGranted b (some (spend b available a)) l ≤ 0
    · exact .inl hle
    exact .inr fun y hy => (totalGranted_le hy rfl (hlock'.imp_right And.right)
      (hlock'.imp_right And.left) (fun c hc => le_latest (mem_cons_of_mem _ hc))
      hnow).resolve_left hle
  have hslack := mul_nonneg b.refill_nonneg (sub_nonneg.mpr hnow)
  have hspan : b.refill * (latest a l - a.now) ≤ b.refill * (latest a l - earliest a l) :=
    mul_le_mul_of_nonneg_left (sub_le_sub_left earliest_le _) b.refill_nonneg
  have hpos := b.capacity_pos
  rw [totalGranted, hspend]
  rcases spend_bound hrest hslack with h | h <;> linarith

def tenPerTen : Limit :=
  { capacity := 10, refill := 1, capacity_pos := by decide, refill_nonneg := by decide }

theorem granted_le_capacity_add_refill_inOrder :
    totalGranted tenPerTen none [⟨0, 10⟩, ⟨3, 5⟩, ⟨10, 10⟩] ≤
      tenPerTen.capacity + tenPerTen.refill *
        (latest ⟨0, 10⟩ [⟨3, 5⟩, ⟨10, 10⟩] - earliest ⟨0, 10⟩ [⟨3, 5⟩, ⟨10, 10⟩]) :=
  granted_le_capacity_add_refill tenPerTen none ⟨0, 10⟩ [⟨3, 5⟩, ⟨10, 10⟩] (.inr (by decide))

/-- Two late locks set the stored time back, and ten seconds are refilled again each time. -/
theorem late_lock_refills_twice : tenPerTen.capacity + tenPerTen.refill *
        (latest ⟨10, 10⟩ [⟨0, 10⟩, ⟨10, 10⟩, ⟨0, 10⟩, ⟨10, 10⟩] -
          earliest ⟨10, 10⟩ [⟨0, 10⟩, ⟨10, 10⟩, ⟨0, 10⟩, ⟨10, 10⟩]) <
      totalGranted tenPerTen none [⟨10, 10⟩, ⟨0, 10⟩, ⟨10, 10⟩, ⟨0, 10⟩, ⟨10, 10⟩] := by
  decide +kernel

end TaskQ.TokenBucket
