import Mathlib.Algebra.Order.Field.Rat
import Mathlib.Data.Rat.Floor
import Mathlib.Tactic.FieldSimp
import Mathlib.Algebra.Order.Field.Power
import Mathlib.Tactic.Linarith
import Mathlib.Data.Nat.Log

namespace Binary64
open Int

def roundHalfEven (q : ℚ) : ℤ :=
  let rest := fract q
  if rest < 1 / 2 ∨ rest = 1 / 2 ∧ ⌊q⌋ % 2 = 0 then ⌊q⌋ else ⌊q⌋ + 1

def binade (q : ℚ) : ℤ :=
  let e : ℤ := q.num.natAbs.log2 - q.den.log2
  if (2 : ℚ) ^ e ≤ |q| then e else e - 1

def ulp (q : ℚ) : ℚ := 2 ^ (binade q - 52)

/-- The double nearest to a rational, for magnitudes that neither overflow nor are subnormal. -/
def nearest (q : ℚ) : ℚ := roundHalfEven (q / ulp q) * ulp q

def toInt (q : ℚ) : ℤ := if 0 ≤ q then ⌊q⌋ else ⌈q⌉

lemma abs_roundHalfEven_sub_le (q : ℚ) : |roundHalfEven q - q| ≤ 1 / 2 := by
  have hq := floor_add_fract q
  have hnonneg := fract_nonneg q
  have hlt := fract_lt_one q
  rw [abs_le]
  unfold roundHalfEven
  dsimp only
  split
  next h =>
    have hhalf : fract q ≤ 1 / 2 := h.elim le_of_lt fun h => h.1.le
    constructor <;> linarith
  next h =>
    have hhalf : 1 / 2 ≤ fract q := not_lt.mp fun hlt => h (.inl hlt)
    push_cast
    constructor <;> linarith

lemma roundHalfEven_mono (h : a ≤ b) : roundHalfEven a ≤ roundHalfEven b := by
  by_contra hlt
  have hstep : (roundHalfEven b : ℚ) + 1 ≤ roundHalfEven a := by exact_mod_cast not_le.mp hlt
  have ha := abs_le.mp (abs_roundHalfEven_sub_le a)
  have hb := abs_le.mp (abs_roundHalfEven_sub_le b)
  obtain rfl : a = b := by linarith
  linarith

lemma roundHalfEven_le_floor_add_one (q : ℚ) : roundHalfEven q ≤ ⌊q⌋ + 1 := by
  unfold roundHalfEven
  dsimp only
  split <;> omega

/-- A value halfway between two whole numbers is rounded to the even one. -/
lemma roundHalfEven_even (h : fract q = 1 / 2) : roundHalfEven q % 2 = 0 := by
  unfold roundHalfEven
  simp only [h, lt_irrefl, false_or, true_and]
  split <;> omega

lemma roundHalfEven_add_of_even {n : ℤ} (hn : n % 2 = 0) (x : ℚ) :
    roundHalfEven (n + x) = n + roundHalfEven x := by
  have hmod : (n + ⌊x⌋) % 2 = 0 ↔ ⌊x⌋ % 2 = 0 := by omega
  unfold roundHalfEven
  simp only [fract_intCast_add, floor_intCast_add, hmod]
  split <;> omega

lemma roundHalfEven_add_of_ne (n : ℤ) (hx : fract x ≠ 1 / 2) :
    roundHalfEven (n + x) = n + roundHalfEven x := by
  unfold roundHalfEven
  simp only [fract_intCast_add, floor_intCast_add, hx, false_and, or_false]
  split <;> omega

/-- A rounded sum that was halfway is even, so that `x` is next rounded as it is alone. -/
lemma roundHalfEven_round_add (n : ℤ) (x : ℚ) :
    roundHalfEven (roundHalfEven (n + x) + x) = roundHalfEven (n + x) + roundHalfEven x := by
  by_cases hx : fract x = 1 / 2
  · exact roundHalfEven_add_of_even (roundHalfEven_even (by rwa [fract_intCast_add])) x
  · exact roundHalfEven_add_of_ne _ hx

lemma two_zpow_binade_le (h : q ≠ 0) : (2 : ℚ) ^ binade q ≤ |q| := by
  have hnum : 2 ^ q.num.natAbs.log2 ≤ q.num.natAbs :=
    Nat.log2_self_le (natAbs_ne_zero.mpr (Rat.num_ne_zero.mpr h))
  have hden : q.den < 2 ^ (q.den.log2 + 1) := Nat.lt_log2_self
  have habs : |q| = q.num.natAbs / q.den := by
    rw [Nat.cast_natAbs, cast_abs, ← Nat.abs_cast q.den, ← abs_div, Rat.num_div_den]
  unfold binade
  dsimp only
  split
  next hle => exact hle
  · have hpos : (0 : ℚ) < q.den := Nat.cast_pos.mpr q.den_pos
    have hlow : (2 : ℚ) ^ q.num.natAbs.log2 ≤ q.num.natAbs := by exact_mod_cast hnum
    have hhigh : (q.den : ℚ) ≤ 2 ^ (q.den.log2 + 1) := by exact_mod_cast hden.le
    have hexp : (q.num.natAbs.log2 - q.den.log2 - 1 : ℤ) =
        (q.num.natAbs.log2 : ℤ) - ((q.den.log2 + 1 : ℕ) : ℤ) := by
      push_cast
      ring
    rw [hexp, zpow_sub₀ two_ne_zero, zpow_natCast, zpow_natCast, habs]
    exact div_le_div₀ (Nat.cast_nonneg _) hlow hpos hhigh

/-- A double is off by half a unit of the 53rd binary digit at most. -/
lemma abs_nearest_sub_le (q : ℚ) : |nearest q - q| ≤ |q| / 2 ^ 53 := by
  by_cases hq : q = 0
  · subst hq
    decide +kernel
  have hulp : 0 < ulp q := zpow_pos two_pos _
  have hdiff : nearest q - q = (roundHalfEven (q / ulp q) - q / ulp q) * ulp q := by
    rw [nearest]
    field_simp
  have hbin : ulp q = 2 ^ binade q / 2 ^ 52 := by
    rw [ulp, zpow_sub₀ two_ne_zero]
    rfl
  rw [hdiff, abs_mul, abs_of_pos hulp]
  have hround := mul_le_mul_of_nonneg_right (abs_roundHalfEven_sub_le (q / ulp q)) hulp.le
  have hle := two_zpow_binade_le hq
  rw [hbin] at hround ⊢
  linarith

lemma nearest_bounds (b : ℚ) (hlo : -b ≤ q) (hhi : q ≤ b) :
    -(b / 2 ^ 53) ≤ nearest q - q ∧ nearest q - q ≤ b / 2 ^ 53 :=
  abs_le.mp ((abs_nearest_sub_le q).trans
    (div_le_div_of_nonneg_right (abs_le.mpr ⟨hlo, hhi⟩) (by norm_num)))

end Binary64
