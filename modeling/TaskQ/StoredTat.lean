import TaskQ.Gcra
import Mathlib.Algebra.Order.Archimedean.Basic

namespace TaskQ.SlidingWindow
open List Binary64 Int

/-- Lua's `tostring` of a number of milliseconds with 13 integer digits leaves one decimal. -/
def tostring (q : ℚ) : ℚ := roundHalfEven (q * 10) / 10

/-- The TAT is rounded by its text only. -/
def decimal : Arith := ⟨id, tostring⟩

section

/-! Each grant moves the level of the key on by `step` and finds it `ahead` of the clock at most. -/

variable {acquire : Option ℚ → ℚ → Option ℚ × Bool} {Good : ℚ → Prop} {level clock : ℚ → ℚ}
  {step first ahead lo hi : ℚ} {inside : ℚ → Bool} {l : List ℚ}

structure Paced (acquire : Option ℚ → ℚ → Option ℚ × Bool) (Good : ℚ → Prop)
    (level clock : ℚ → ℚ) (step first ahead : ℚ) : Prop where
  keeps (key now) : (acquire key now).2 = false → (acquire key now).1 = key
  moves (key now) : (∀ p ∈ key, Good p) → (acquire key now).2 = true →
    ∃ p', (acquire key now).1 = some p' ∧ Good p' ∧ clock now + first ≤ level p' ∧
      ∀ p ∈ key, level p + step ≤ level p' ∧ level p ≤ clock now + ahead

lemma countP_admitted_cons (key : Option ℚ) :
    (admitted acquire key (now :: l)).countP inside =
      (admitted acquire (acquire key now).1 l).countP inside +
        if (acquire key now).2 = true ∧ inside now = true then 1 else 0 := by
  cases h : (acquire key now).2 <;> simp [admitted, h, countP_cons]

variable (h : Paced acquire Good level clock step first ahead)
  (hin : ∀ t, inside t = true → lo ≤ clock t ∧ clock t ≤ hi)

include h hin in
lemma level_add_count_le (hstep : 0 ≤ step) (hp : Good p) :
    (admitted acquire (some p) l).countP inside = 0 ∨
      level p + (admitted acquire (some p) l).countP inside * step ≤ hi + ahead + step := by
  induction l generalizing p with
  | nil => exact .inl rfl
  | cons now l ih =>
    rw [countP_admitted_cons]
    cases hgrant : (acquire (some p) now).2 with
    | false =>
      rw [h.keeps _ _ hgrant]
      simpa using ih hp
    | true =>
      obtain ⟨p', hp', hgood, -, hmove⟩ := h.moves _ _ (by simpa using hp) hgrant
      obtain ⟨hon, hahead⟩ := hmove p rfl
      have hrest := ih hgood
      rw [hp']
      split
      next hnext =>
        right
        push_cast
        rcases hrest with hrest | hrest
        · rw [hrest, Nat.cast_zero]
          linarith [(hin now hnext.2).2]
        · linarith
      · exact hrest.imp_right fun h => by rw [add_zero]; linarith

include h hin in
/-- What a pacing limiter grants inside an interval. -/
lemma count_mul_le (hstep : 0 ≤ step) (hfirst : first ≤ step + ahead)
    (key : Option ℚ) (hkey : ∀ p ∈ key, Good p) : (admitted acquire key l).countP inside = 0 ∨
      (admitted acquire key l).countP inside * step ≤ hi - lo + ahead + 2 * step - first := by
  induction l generalizing key with
  | nil => exact .inl rfl
  | cons now l ih =>
    rw [countP_admitted_cons]
    cases hgrant : (acquire key now).2 with
    | false =>
      rw [h.keeps _ _ hgrant]
      simpa using ih key hkey
    | true =>
      obtain ⟨p', hp', hgood, hnew, -⟩ := h.moves _ _ hkey hgrant
      rw [hp']
      split
      next hnext =>
        obtain ⟨hlo, hhi⟩ := hin now hnext.2
        right
        push_cast
        rcases level_add_count_le h hin hstep hgood with hrest | hrest
        · rw [hrest, Nat.cast_zero]
          linarith
        · linarith
      · exact ih _ (by simpa using hgood)

end

/-- The script's rule when its texts are rounded and its sums are not. -/
lemma redisPath_decimal (w : SlidingWindow) (key : Option ℚ) (now : ℚ) :
    w.redisPath decimal key now =
      if max (key.getD (now * 1000)) (now * 1000) + w.emissionIntervalMs exact - w.windowMs exact ≤
          now * 1000 then
        (some (tostring (max (key.getD (now * 1000)) (now * 1000) + w.emissionIntervalMs exact)),
          true)
      else (key, false) := by
  have hnow : redisNow decimal now = now * 1000 := redisNow_exact now
  rw [redisPath_eq, hnow]
  rfl

/-! In tenths of a millisecond, for an emission interval `x` that is not rounded down. -/

lemma roundHalfEven_add_le (hx : x ≤ roundHalfEven x) (n : ℤ) :
    roundHalfEven (n + x) ≤ n + roundHalfEven x := by
  by_cases hhalf : fract x = 1 / 2
  · have hup : ⌊x⌋ < roundHalfEven x := by
      have hsum := floor_add_fract x
      have : (⌊x⌋ : ℚ) < roundHalfEven x := by linarith
      exact_mod_cast this
    have := roundHalfEven_le_floor_add_one (n + x)
    rw [floor_intCast_add] at this
    omega
  · exact (roundHalfEven_add_of_ne n hhalf).le

/-- The first TAT is counted from a request's own time: what the rounding takes is at most `x`. -/
lemma exists_round_loss (hpos : 0 < roundHalfEven x) : ∃ r, 0 ≤ r ∧ r ≤ x ∧ ∀ q : ℚ,
    q + x - r ≤ roundHalfEven (roundHalfEven (q + x) + x) - roundHalfEven x := by
  have hround (q : ℚ) := abs_le.mp (abs_roundHalfEven_sub_le q)
  have hone : (1 : ℚ) ≤ roundHalfEven x := by exact_mod_cast hpos
  by_cases hhalf : fract x = 1 / 2
  · have hsum := floor_add_fract x
    have heven := roundHalfEven_even hhalf
    have htwo : (2 : ℚ) ≤ roundHalfEven x := by
      have : 2 ≤ roundHalfEven x := by omega
      exact_mod_cast this
    refine ⟨3 / 2, by norm_num, by linarith [(hround x).2], fun q => ?_⟩
    linarith [(hround (q + x)).1, (hround (roundHalfEven (q + x) + x)).1, (hround x).2]
  · refine ⟨1 / 2, by norm_num, by linarith [(hround x).2], fun q => ?_⟩
    rw [roundHalfEven_add_of_ne _ hhalf]
    push_cast
    linarith [(hround (q + x)).1]

/-- The place of a stored TAT: the next one less a rounded interval. -/
def place (x p : ℚ) : ℚ := (roundHalfEven (p * 10 + x) - roundHalfEven x) / 10

lemma place_tostring (x q : ℚ) : place x (tostring (q + x / 10)) =
    (roundHalfEven (roundHalfEven (q * 10 + x) + x) - roundHalfEven x) / 10 := by
  have hq : (q + x / 10) * 10 = q * 10 + x := by ring
  rw [place, tostring, div_mul_cancel₀ _ (by norm_num), hq]

/-- A grant moves the place of a stored TAT on by the rounded interval. -/
lemma place_add_le (n : ℤ) (h : (n / 10 : ℚ) ≤ q) :
    place x (n / 10) + roundHalfEven x / 10 ≤ place x (tostring (q + x / 10)) := by
  have hfrom : n + x ≤ q * 10 + x := by linarith
  have hnext : roundHalfEven (roundHalfEven (n + x) + x) ≤
      roundHalfEven (roundHalfEven (q * 10 + x) + x) :=
    roundHalfEven_mono (add_le_add_left (cast_le.mpr (roundHalfEven_mono hfrom)) x)
  rw [roundHalfEven_round_add] at hnext
  have hnext : (roundHalfEven (n + x) + roundHalfEven x : ℚ) ≤
    roundHalfEven (roundHalfEven (q * 10 + x) + x) := by exact_mod_cast hnext
  rw [place_tostring, place, div_mul_cancel₀ _ (by norm_num)]
  linarith

/-- Milliseconds between two requests of the window as it was configured. -/
def interval (w : SlidingWindow) : ℚ := w.window * 1000 / w.limit

lemma interval_pos (w : SlidingWindow) : 0 < w.interval :=
  div_pos (mul_pos w.window_pos (by norm_num)) (Nat.cast_pos.mpr w.limit_pos)

lemma emission_le_interval (w : SlidingWindow) : w.emissionIntervalMs exact ≤ w.interval := by
  rw [emissionIntervalMs_exact, windowMs_exact]
  exact div_le_div_of_nonneg_right (floor_le _) (Nat.cast_nonneg _)

lemma windowMs_eq_mul (w : SlidingWindow) :
    (w.windowMs exact : ℚ) = w.limit * w.emissionIntervalMs exact := by
  have := w.limit_pos
  rw [emissionIntervalMs_exact]
  field_simp

/-- The rounded interval is not below the configured one. -/
def RoundsUp (w : SlidingWindow) : Prop := w.interval ≤ tostring (w.emissionIntervalMs decimal)

lemma redisPath_paced (w : SlidingWindow) (h : w.RoundsUp) : ∃ r, 0 ≤ r ∧
    r ≤ w.emissionIntervalMs exact ∧ Paced (w.redisPath decimal)
      (fun p => ∃ n : ℤ, p = n / 10) (place (w.emissionIntervalMs exact * 10)) (· * 1000)
      w.interval (w.emissionIntervalMs exact - r)
      (w.windowMs exact - w.emissionIntervalMs exact) := by
  obtain ⟨x, hx⟩ : ∃ x, x = w.emissionIntervalMs exact * 10 := ⟨_, rfl⟩
  have he : w.emissionIntervalMs exact = x / 10 := by rw [hx]; ring
  have hle : w.interval ≤ roundHalfEven x / 10 := by
    rw [hx]
    exact h
  have hup : x ≤ roundHalfEven x := by linarith [w.emission_le_interval]
  have hpos : 0 < roundHalfEven x := by
    have : (0 : ℚ) < roundHalfEven x := by linarith [w.interval_pos]
    exact_mod_cast this
  obtain ⟨r, hr, hrx, hloss⟩ := exists_round_loss hpos
  rw [he, div_mul_cancel₀ _ (by norm_num)]
  refine ⟨r / 10, by linarith, by linarith, fun key now hdeny => ?_,
    fun key now hkey hgrant => ?_⟩
  · rw [redisPath_decimal] at hdeny ⊢
    split at hdeny
    · cases hdeny
    · next hd => rw [if_neg hd]
  · rw [redisPath_decimal, he] at hgrant ⊢
    split at hgrant
    next hd =>
      have hnow := le_max_right (key.getD (now * 1000)) (now * 1000)
      rw [if_pos hd]
      refine ⟨_, rfl, ⟨_, rfl⟩, ?_, fun p hp => ?_⟩
      · have := hloss (max (key.getD (now * 1000)) (now * 1000) * 10)
        rw [place_tostring]
        linarith
      · obtain ⟨n, rfl⟩ := hkey p hp
        obtain rfl : key = some (n / 10 : ℚ) := hp
        have hlast := le_max_left (n / 10 : ℚ) (now * 1000)
        have hadd : (roundHalfEven (n + x) : ℚ) ≤ n + roundHalfEven x := by
          exact_mod_cast roundHalfEven_add_le hup n
        have hnext := place_add_le (x := x) n hlast
        rw [Option.getD_some] at hd ⊢
        refine ⟨by linarith, ?_⟩
        rw [place, div_mul_cancel₀ _ (by norm_num)]
        linarith
    next => cases hgrant

/-- What the script grants at `l` inside the closed interval. -/
def granted (w : SlidingWindow) (l : List ℚ) (lo hi : ℚ) : Nat :=
  (admitted (w.redisPath decimal) none l).countP fun t => lo ≤ t ∧ t ≤ hi

lemma rate_eq (w : SlidingWindow) (L : ℚ) : w.limit + L * w.limit / w.window + 1 =
    (L * 1000 + (w.limit + 1) * w.interval) / w.interval := by
  have := w.limit_pos
  have := w.window_pos
  rw [interval]
  field_simp
  ring

lemma granted_le (w : SlidingWindow) (h : w.RoundsUp) (l : List ℚ) (hlo : lo ≤ hi) :
    w.granted l lo hi ≤ w.limit + (hi - lo) * w.limit / w.window + 1 := by
  obtain ⟨r, hr, hre, hpaced⟩ := w.redisPath_paced h
  have hpos := w.interval_pos
  have he := w.emission_le_interval
  have hd := w.windowMs_eq_mul
  have hlimit : (1 : ℚ) ≤ w.limit := Nat.one_le_cast.mpr w.limit_pos
  have hburst : 0 ≤ (w.limit - 1) * w.emissionIntervalMs exact :=
    mul_nonneg (sub_nonneg.mpr hlimit) (hr.trans hre)
  have hcut := mul_le_mul_of_nonneg_left he (sub_nonneg.mpr hlimit)
  have hin (t : ℚ) (ht : decide (lo ≤ t ∧ t ≤ hi) = true) :
      lo * 1000 ≤ t * 1000 ∧ t * 1000 ≤ hi * 1000 := by
    have ht := of_decide_eq_true ht
    constructor <;> linarith
  rw [rate_eq, le_div_iff₀ hpos]
  rcases count_mul_le (l := l) hpaced hin hpos.le (by linarith) none (by simp)
    with hcount | hcount
  · rw [granted, hcount, Nat.cast_zero, zero_mul]
    nlinarith
  · rw [granted]
    linarith

/-- Request `k` of a run that keeps step with the rounded interval, in milliseconds. -/
def mark (w : SlidingWindow) (k : Nat) : ℚ :=
  10 ^ 12 + k * tostring (w.emissionIntervalMs decimal)

lemma tostring_mark (w : SlidingWindow) (k : Nat) :
    tostring (w.mark k + w.emissionIntervalMs exact) = w.mark (k + 1) := by
  obtain ⟨x, hx⟩ : ∃ x, x = w.emissionIntervalMs exact * 10 := ⟨_, rfl⟩
  have hs : tostring (w.emissionIntervalMs decimal) = roundHalfEven x / 10 := hx ▸ rfl
  have hsum : (w.mark k + w.emissionIntervalMs exact) * 10 =
      ((10 ^ 13 + k * roundHalfEven x : ℤ) : ℚ) + x := by
    rw [mark, hs, hx]
    push_cast
    ring
  have hround : roundHalfEven ((10 ^ 13 + k * roundHalfEven x : ℤ) + x) =
      10 ^ 13 + k * roundHalfEven x + roundHalfEven x := by
    by_cases hhalf : fract x = 1 / 2
    · have heven : (10 ^ 13 + k * roundHalfEven x : ℤ) % 2 = 0 := by
        rw [add_emod, mul_emod, roundHalfEven_even hhalf]
        simp
      exact roundHalfEven_add_of_even heven x
    · exact roundHalfEven_add_of_ne _ hhalf
  rw [tostring, hsum, hround, mark, hs]
  push_cast
  ring

lemma admitted_inStep (w : SlidingWindow) (n k : Nat) (hkey : key.getD (w.mark k) = w.mark k) :
    admitted (w.redisPath decimal) key ((range' k n).map (w.mark · / 1000)) =
      (range' k n).map (w.mark · / 1000) := by
  induction n generalizing k key with
  | zero => rfl
  | succ n ih =>
    have he : w.emissionIntervalMs exact ≤ w.windowMs exact :=
      div_le_self (cast_nonneg w.windowMs_nonneg) (Nat.one_le_cast.mpr w.limit_pos)
    have hstep : w.redisPath decimal key (w.mark k / 1000) = (some (w.mark (k + 1)), true) := by
      rw [redisPath_decimal, div_mul_cancel₀ _ (by norm_num), hkey, max_self, tostring_mark,
        if_pos (by linarith)]
    rw [range'_succ, map_cons, admitted, hstep, ih (k + 1) (by simp)]
    rfl

/-- Requests in step with an interval rounded down run ahead of the configured rate. -/
lemma exists_lt_granted (w : SlidingWindow) (h : ¬ w.RoundsUp) : ∃ l lo hi, lo ≤ hi ∧
    w.limit + (hi - lo) * w.limit / w.window + 1 < w.granted l lo hi := by
  have hlt := not_le.mp h
  obtain ⟨s, hs⟩ : ∃ s, s = tostring (w.emissionIntervalMs decimal) := ⟨_, rfl⟩
  have hs0 : 0 ≤ s := by
    have hms : (0 : ℚ) ≤ w.windowMs exact := cast_nonneg w.windowMs_nonneg
    have hzero : roundHalfEven 0 = 0 := by decide +kernel
    have hmono : roundHalfEven 0 ≤ roundHalfEven (w.emissionIntervalMs decimal * 10) :=
      roundHalfEven_mono (mul_nonneg (div_nonneg hms (Nat.cast_nonneg _)) (by norm_num))
    rw [hs]
    exact div_nonneg (cast_nonneg (hzero ▸ hmono)) (by norm_num)
  have hmark (k : Nat) : w.mark k = 10 ^ 12 + k * s := by rw [mark, hs]
  rw [← hs] at hlt
  obtain ⟨n, hn⟩ := exists_nat_gt ((w.limit + 1) * w.interval / (w.interval - s))
  rw [div_lt_iff₀ (sub_pos.mpr hlt)] at hn
  have hgranted : w.granted ((range' 0 n).map (w.mark · / 1000)) (w.mark 0 / 1000)
      (w.mark n / 1000) = n := by
    rw [granted, w.admitted_inStep n 0 rfl, countP_eq_length.mpr, length_map, length_range']
    intro t ht
    obtain ⟨k, hk, rfl⟩ := mem_map.mp ht
    have hkn : (k : ℚ) ≤ n := by
      have := (mem_range'_1.mp hk).2
      exact_mod_cast (by omega : k ≤ n)
    have h0 := mul_nonneg (Nat.cast_nonneg (α := ℚ) k) hs0
    have hn := mul_le_mul_of_nonneg_right hkn hs0
    rw [decide_eq_true_iff, hmark, hmark, hmark]
    constructor <;> linarith [Nat.cast_zero (R := ℚ)]
  have hlen : w.mark n / 1000 - w.mark 0 / 1000 = n * s / 1000 := by
    rw [hmark, hmark, Nat.cast_zero]
    ring
  refine ⟨(range' 0 n).map (w.mark · / 1000), w.mark 0 / 1000, w.mark n / 1000, ?_, ?_⟩
  · rw [← sub_nonneg, hlen]
    positivity
  · rw [hgranted, rate_eq, hlen, div_lt_iff₀ w.interval_pos]
    linarith

/-- The stored TAT keeps the configured rate exactly when the interval is not rounded below it. -/
theorem stored_tat_rate_iff (w : SlidingWindow) : (∀ l lo hi, lo ≤ hi →
    w.granted l lo hi ≤ w.limit + (hi - lo) * w.limit / w.window + 1) ↔
      w.window * 1000 / w.limit ≤ tostring (w.emissionIntervalMs decimal) := by
  constructor
  · intro h
    by_contra hdown
    obtain ⟨l, lo, hi, hlo, hlt⟩ := w.exists_lt_granted hdown
    exact (h l lo hi hlo).not_gt hlt
  · intro h l lo hi hlo
    exact w.granted_le h l hlo

def thirtyPerMillisecond : SlidingWindow := ⟨30, 1 / 1000, by decide, by norm_num⟩

/-- Thirty to a millisecond: the interval is rounded away and the TAT stands still. -/
theorem stored_tat_stands_still :
    thirtyPerMillisecond.granted (replicate 32 (10 ^ 9)) (10 ^ 9) (10 ^ 9) = 32 := by
  decide +kernel

end TaskQ.SlidingWindow
