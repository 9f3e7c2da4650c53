import Mathlib.Algebra.Order.Field.Rat
import Mathlib.Tactic.Linarith
import Mathlib.Tactic.NormNum
import TaskQ.Jobs

namespace TaskQ.Backoff
open Jobs

inductive Curve where
  | exponential
  | linear
  | fixed

def maxTimedelta : ℤ := 86399999999999999999

/-- The retry curve of a `RetryPolicy` that passed its validators; the times in microseconds. -/
structure RetryPolicy where
  backoff : Curve
  (base cap : ℤ)
  jitter : ℚ
  base_pos : 0 < base
  cap_ge_base : base ≤ cap
  cap_le_max : cap ≤ maxTimedelta
  jitter_nonneg : 0 ≤ jitter
  jitter_le_one : jitter ≤ 1

def totalSeconds (t : ℤ) : ℚ := t / 1000000

def maxBackoffExponent : Nat := 67

def reclaimJitterModulus : Nat := 4294967296

def rawBackoffSeconds (base cap : ℚ) (backoff : Curve) (attempt : ℤ) : ℚ :=
  match backoff with
  | .exponential => min cap (base * 2 ^ min (max (attempt - 1) 0).toNat maxBackoffExponent)
  | .linear => min cap (base * attempt)
  | .fixed => base

def cappedJitterBand (raw cap jitter : ℚ) : ℚ × ℚ :=
  let cappedRaw := min cap raw
  (cappedRaw * (1 - jitter), min (cappedRaw * (1 + jitter)) cap)

def drawInBand (lower upper fraction cap : ℚ) : ℚ := min cap (lower + (upper - lower) * fraction)

/-- The ceiling that a worker's `max_retry_backoff` leaves of the policy's own. -/
def RetryPolicy.capSeconds (p : RetryPolicy) (maxRetryBackoff : ℤ) : ℚ :=
  min (totalSeconds p.cap) (totalSeconds maxRetryBackoff)

def RetryPolicy.draw (p : RetryPolicy) (maxRetryBackoff attempt : ℤ) (fraction : ℚ) : ℚ :=
  let cap := p.capSeconds maxRetryBackoff
  let band := cappedJitterBand (rawBackoffSeconds (totalSeconds p.base) cap p.backoff attempt)
    cap p.jitter
  drawInBand band.1 band.2 fraction cap

/-- `compute_backoff`, with the value `source.random()` drew. -/
def computeBackoff (p : RetryPolicy) (attempt : ℤ) (random : ℚ) (maxRetryBackoff : ℤ) :
    Except String ℚ :=
  if attempt < 1 then .error ("attempt must be >= 1, got " ++ toString attempt)
  else .ok (p.draw maxRetryBackoff attempt random)

/-- `_reclaim_jitter_fraction`, over the first eight hex digits of the row's hash. -/
def reclaimJitterFraction (digest : Fin reclaimJitterModulus) : ℚ :=
  digest.val / reclaimJitterModulus

/-- `md5` hashes the job's id and attempt. -/
def computeReclaimBackoff (md5 : Nat → ℤ → Fin reclaimJitterModulus) (p : RetryPolicy)
    (attempt : ℤ) (jobId : Nat) (maxRetryBackoff : ℤ) : ℚ :=
  max (p.draw maxRetryBackoff attempt (reclaimJitterFraction (md5 jobId attempt)))
    (totalSeconds minDeferralInterval)

lemma totalSeconds_mono (h : s ≤ t) : totalSeconds s ≤ totalSeconds t :=
  div_le_div_of_nonneg_right (Int.cast_le.mpr h) (by norm_num)

lemma totalSeconds_nonneg (h : 0 ≤ t) : 0 ≤ totalSeconds t := by
  simpa [totalSeconds] using totalSeconds_mono h

/-- By the clamp a curve of at least a microsecond has passed every representable cap. -/
lemma cap_le_clamped (hbase : 1 ≤ base) (hcap : cap ≤ totalSeconds maxTimedelta) :
    cap ≤ totalSeconds base * 2 ^ maxBackoffExponent := by
  have hone := totalSeconds_mono hbase
  have hmax : totalSeconds maxTimedelta ≤ totalSeconds 1 * 2 ^ maxBackoffExponent := by
    norm_num [totalSeconds, maxTimedelta, maxBackoffExponent]
  exact hcap.trans (hmax.trans (mul_le_mul_of_nonneg_right hone (by positivity)))

lemma min_clamped (hbase : 1 ≤ base) (hcap : cap ≤ totalSeconds maxTimedelta) (e : Nat) :
    min cap (totalSeconds base * 2 ^ min e maxBackoffExponent) =
      min cap (totalSeconds base * 2 ^ e) := by
  rcases le_total e maxBackoffExponent with h | h
  · rw [min_eq_left h]
  have hclamped := cap_le_clamped hbase hcap
  have hpow : totalSeconds base * 2 ^ maxBackoffExponent ≤ totalSeconds base * 2 ^ e :=
    mul_le_mul_of_nonneg_left (pow_le_pow_right₀ (by norm_num) h)
      (totalSeconds_nonneg (by omega))
  rw [min_eq_right h, min_eq_left hclamped, min_eq_left (hclamped.trans hpow)]

lemma rawBackoffSeconds_mono (hbase : 0 ≤ base) (cap : ℚ) (backoff : Curve)
    (h : attempt ≤ attempt') :
    rawBackoffSeconds base cap backoff attempt ≤ rawBackoffSeconds base cap backoff attempt' := by
  cases backoff with
  | exponential =>
    refine min_le_min_left cap (mul_le_mul_of_nonneg_left ?_ hbase)
    exact pow_le_pow_right₀ (by norm_num) (min_le_min_right _ (by omega))
  | linear =>
    exact min_le_min_left cap (mul_le_mul_of_nonneg_left (Int.cast_le.mpr h) hbase)
  | fixed => exact le_refl _

lemma drawInBand_nonneg (hraw : 0 ≤ raw) (hcap : 0 ≤ cap) (hj : 0 ≤ jitter) (hj1 : jitter ≤ 1)
    (hf : 0 ≤ fraction) :
    0 ≤ drawInBand (cappedJitterBand raw cap jitter).1 (cappedJitterBand raw cap jitter).2
      fraction cap := by
  have hcapped := le_min hcap hraw
  have hlower : 0 ≤ min cap raw * (1 - jitter) := mul_nonneg hcapped (by linarith)
  have hband : min cap raw * (1 - jitter) ≤ min (min cap raw * (1 + jitter)) cap := by
    refine le_min (mul_le_mul_of_nonneg_left (by linarith) hcapped) ?_
    exact (mul_le_of_le_one_right hcapped (by linarith)).trans (min_le_left _ _)
  exact le_min hcap (add_nonneg hlower (mul_nonneg (sub_nonneg.mpr hband) hf))

lemma RetryPolicy.draw_nonneg (p : RetryPolicy) (hmax : 0 ≤ maxRetryBackoff)
    (hatt : 1 ≤ attempt) (hf : 0 ≤ fraction) : 0 ≤ p.draw maxRetryBackoff attempt fraction := by
  have hbase := totalSeconds_nonneg p.base_pos.le
  have hcap : 0 ≤ p.capSeconds maxRetryBackoff :=
    le_min (totalSeconds_nonneg (p.base_pos.le.trans p.cap_ge_base)) (totalSeconds_nonneg hmax)
  have hfirst : 0 ≤ rawBackoffSeconds (totalSeconds p.base) (p.capSeconds maxRetryBackoff)
      p.backoff 0 := by
    cases p.backoff <;> simp [rawBackoffSeconds, hcap, hbase]
  exact drawInBand_nonneg (hfirst.trans (rawBackoffSeconds_mono hbase _ _ (by omega))) hcap
    p.jitter_nonneg p.jitter_le_one hf

/-- The clamp changes no representable curve, the curve never falls, and every delay is within the
cap. -/
theorem backoff_clamp_exact (p : RetryPolicy) (maxRetryBackoff : ℤ) (hmax : 0 ≤ maxRetryBackoff) :
    (∀ cap ≤ totalSeconds maxTimedelta, ∀ attempt,
      rawBackoffSeconds (totalSeconds p.base) cap .exponential attempt =
        min cap (totalSeconds p.base * 2 ^ (max (attempt - 1) 0).toNat)) ∧
    (∀ cap attempt attempt', attempt ≤ attempt' →
      rawBackoffSeconds (totalSeconds p.base) cap p.backoff attempt ≤
        rawBackoffSeconds (totalSeconds p.base) cap p.backoff attempt') ∧
    (∀ attempt ≥ 1, ∀ random : ℚ, 0 ≤ random → random < 1 →
      ∃ delay, computeBackoff p attempt random maxRetryBackoff = .ok delay ∧
        0 ≤ delay ∧ delay ≤ p.capSeconds maxRetryBackoff) ∧ ∀ md5 attempt jobId,
      0 ≤ computeReclaimBackoff md5 p attempt jobId maxRetryBackoff ∧
        computeReclaimBackoff md5 p attempt jobId maxRetryBackoff ≤
          max (p.capSeconds maxRetryBackoff) (totalSeconds minDeferralInterval) := by
  have hbase := totalSeconds_nonneg p.base_pos.le
  refine ⟨?_, ?_, ?_, ?_⟩
  · intro cap hcap attempt
    exact min_clamped p.base_pos hcap _
  · exact fun cap _ _ => rawBackoffSeconds_mono hbase cap _
  · intro attempt hattempt random hrandom _
    exact ⟨_, if_neg (not_lt.mpr hattempt), p.draw_nonneg hmax hattempt hrandom, min_le_left _ _⟩
  · intro md5 attempt jobId
    exact ⟨le_max_of_le_right (totalSeconds_nonneg (by decide)),
      max_le_max_right _ (min_le_left _ _)⟩

def briefPolicy : RetryPolicy where
  backoff := .exponential
  base := 100000
  cap := 500000
  jitter := 1 / 5
  base_pos := by decide
  cap_ge_base := by decide
  cap_le_max := by decide
  jitter_nonneg := by norm_num
  jitter_le_one := by norm_num

theorem backoff_clamp_exact_brief :
    ∃ delay, computeBackoff briefPolicy 9 (1 / 2) 86400000000 = .ok delay ∧
      0 ≤ delay ∧ delay ≤ briefPolicy.capSeconds 86400000000 :=
  (backoff_clamp_exact briefPolicy 86400000000 (by decide)).2.2.1 9 (by decide) (1 / 2)
    (by norm_num) (by norm_num)

/-- A cap of half a second: the reclaim's floor hands the row back after a whole one. -/
theorem reclaim_exceeds_cap : briefPolicy.capSeconds 86400000000 <
      computeReclaimBackoff (fun _ _ => ⟨0, by decide⟩) briefPolicy 1 7 86400000000 := by
  decide +kernel

end TaskQ.Backoff
