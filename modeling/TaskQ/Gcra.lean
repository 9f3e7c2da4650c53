import TaskQ.Binary64
import TaskQ.TokenBucket

namespace TaskQ
open List Binary64 TokenBucket

/-- What `SlidingWindow.__init__` lets through; the window is in seconds. -/
structure SlidingWindow where
  limit : Nat
  window : ℚ
  limit_pos : 1 ≤ limit
  window_pos : 0 < window

namespace SlidingWindow

/-- What a path computes in: `fl` rounds each result, `str` is a TAT read back from its text. -/
structure Arith where
  fl : ℚ → ℚ
  str : ℚ → ℚ

/-- Rational arithmetic, with stored values as they are. -/
def exact : Arith := ⟨id, id⟩

/-- `int(self._window.total_seconds() * 1000)`. -/
def windowMs (A : Arith) (w : SlidingWindow) : ℤ := toInt (A.fl (A.fl w.window * 1000))

lemma windowMs_exact (w : SlidingWindow) : w.windowMs exact = ⌊w.window * 1000⌋ :=
  if_pos (mul_nonneg w.window_pos.le (by norm_num))

lemma windowMs_nonneg (w : SlidingWindow) : 0 ≤ w.windowMs exact := by
  rw [windowMs_exact]
  exact Int.floor_nonneg.mpr (mul_nonneg w.window_pos.le (by norm_num))

def emissionIntervalMs (A : Arith) (w : SlidingWindow) : ℚ := A.fl (w.windowMs A / w.limit)

lemma emissionIntervalMs_exact (w : SlidingWindow) :
    w.emissionIntervalMs exact = w.windowMs exact / w.limit :=
  rfl

/-- The script's reply: `retryAfter` in milliseconds, `tats` the pair kept for a refund. -/
structure Reply where
  allowed : Bool
  retryAfter : ℚ
  remaining : ℤ
  tats : Option (ℚ × ℚ)

/-- `SLIDING_WINDOW_GCRA_SCRIPT` on a key that holds the TAT, and the key it leaves. -/
def gcraScript (A : Arith) (emissionInterval delayTolerance quantity now : ℚ) (key : Option ℚ) :
    Option ℚ × Reply :=
  let stored := key.getD now
  let tat := if stored < now then now else stored
  let newTat := A.fl (tat + quantity)
  let allowAt := A.fl (newTat - delayTolerance)
  if now < allowAt then (key, ⟨false, A.fl (allowAt - now), 0, none⟩)
  else
    let remainingEstimate :=
      ⌊A.fl (A.fl (delayTolerance - A.fl (newTat - now)) / emissionInterval)⌋
    (some (A.str newTat), ⟨true, 0, if remainingEstimate < 0 then 0 else remainingEstimate,
      some (A.str tat, A.str newTat)⟩)

/-- The script's clock, from the seconds and microseconds of `TIME`. -/
def redisNow (A : Arith) (now : ℚ) : ℚ := A.fl (A.fl (⌊now⌋ + A.fl (Int.fract now)) * 1000)

def acquireRedisGcra (A : Arith) (w : SlidingWindow) (key : Option ℚ) (now : ℚ) :
    Option ℚ × Reply :=
  gcraScript A (w.emissionIntervalMs A) (w.windowMs A) (w.emissionIntervalMs A) (redisNow A now) key

/-- `_acquire_pg_gcra`'s fused upsert on a `gcra` row, in seconds; a row comes back on a grant. -/
def fusedAcquire (A : Arith) (emissionInterval windowSeconds : ℚ) (row : Option ℚ) (now : ℚ) :
    Option ℚ × Bool :=
  match row with
  | none => (some (A.fl (now + emissionInterval)), true)
  | some tat =>
    let baseTat := max now tat
    if A.fl (A.fl (baseTat + emissionInterval) - windowSeconds) ≤ now then
      (some (A.fl (baseTat + emissionInterval)), true)
    else (some tat, false)

def acquirePgGcra (A : Arith) (w : SlidingWindow) (row : Option ℚ) (now : ℚ) : Option ℚ × Bool :=
  fusedAcquire A (A.fl (A.fl (w.windowMs A / 1000) / w.limit)) (A.fl (w.windowMs A / 1000)) row
    (A.fl now)

/-- The rule behind both paths: the TAT moves on unless it would pass the tolerance. -/
def arrive (emission tolerance : ℚ) (tat : Option ℚ) (now : ℚ) : Option ℚ × Bool :=
  if max (tat.getD now) now + emission - tolerance ≤ now then
    (some (max (tat.getD now) now + emission), true)
  else (tat, false)

lemma gcraScript_eq (A : Arith) (key : Option ℚ) : ((gcraScript A e d q now key).1,
    (gcraScript A e d q now key).2.allowed) =
      if A.fl (A.fl (max (key.getD now) now + q) - d) ≤ now then
        (some (A.str (A.fl (max (key.getD now) now + q))), true)
      else (key, false) := by
  have htat : (if key.getD now < now then now else key.getD now) = max (key.getD now) now := by
    split
    · next h => exact (max_eq_right h.le).symm
    · next h => exact (max_eq_left (not_lt.mp h)).symm
  simp only [gcraScript, htat]
  by_cases h : now < A.fl (A.fl (max (key.getD now) now + q) - d)
  · rw [if_pos h, if_neg (not_le.mpr h)]
  · rw [if_neg h, if_pos (not_lt.mp h)]

lemma gcraScript_arrive (key : Option ℚ) : ((gcraScript exact e d e now key).1,
    (gcraScript exact e d e now key).2.allowed) = arrive e d key now :=
  gcraScript_eq exact key

lemma fusedAcquire_arrive (h : e ≤ d) (row : Option ℚ) :
    fusedAcquire exact e d row now = arrive e d row now := by
  cases row with
  | none =>
    have hcold : now + e - d ≤ now := by linarith
    simp [fusedAcquire, arrive, hcold, exact]
  | some tat => simp [fusedAcquire, arrive, max_comm now tat, exact]

def admitted (acquire : Option ℚ → ℚ → Option ℚ × Bool) : Option ℚ → List ℚ → List ℚ
  | _, [] => []
  | tat, now :: l =>
    (if (acquire tat now).2 then [now] else []) ++ admitted acquire (acquire tat now).1 l

def trace (limit : Nat) (window unit : ℚ) (acquire : Option ℚ → ℚ → Option ℚ × Bool) :
    Option ℚ → List ℚ → List (Bool × ℚ)
  | _, [] => []
  | tat, now :: l =>
    let next := acquire tat now
    let behind := max (next.1.getD (now * unit)) (now * unit) - now * unit
    (next.2, (window - behind) / (window / limit)) :: trace limit window unit acquire next.1 l

def redisPath (A : Arith) (w : SlidingWindow) (key : Option ℚ) (now : ℚ) : Option ℚ × Bool :=
  ((w.acquireRedisGcra A key now).1, (w.acquireRedisGcra A key now).2.allowed)

def redisTrace (w : SlidingWindow) (l : List ℚ) : List (Bool × ℚ) :=
  trace w.limit (w.windowMs exact) 1000 (w.redisPath exact) none l

def pgTrace (w : SlidingWindow) (l : List ℚ) : List (Bool × ℚ) :=
  trace w.limit (w.windowMs exact / 1000) 1 (w.acquirePgGcra exact) none l

/-- The token bucket with `capacity = limit` and `refill = limit / window`. -/
def bucket (w : SlidingWindow) : TokenBucket.Limit where
  capacity := w.limit
  refill := w.limit / w.window
  capacity_pos := Nat.cast_pos.mpr w.limit_pos
  refill_nonneg := div_nonneg (Nat.cast_nonneg _) w.window_pos.le

def bucketRun (b : TokenBucket.Limit) : Option TokenBucket.State → List ℚ → List (Bool × ℚ)
  | _, [] => []
  | row, now :: l =>
    let next := acquire b row ⟨now, 1⟩
    (next.granted, next.tokens.getD 0) :: bucketRun b (some next) l

def bucketTrace (w : SlidingWindow) (l : List ℚ) : List (Bool × ℚ) := bucketRun w.bucket none l

/-- The window the limiter works with: cut to whole milliseconds. -/
def wholeMs (w : SlidingWindow) (h : 1 ≤ w.windowMs exact) : SlidingWindow where
  limit := w.limit
  window := w.windowMs exact / 1000
  limit_pos := w.limit_pos
  window_pos := div_pos (Int.cast_pos.mpr h) (by norm_num)

section

/-! A path at `c` time units to the second is followed by the bucket of one token per `T`. -/

variable {b : TokenBucket.Limit} {c T : ℚ} (hc : 0 < c) (hT : 0 < T) (hrefill : b.refill = 1 / T)

def level (b : TokenBucket.Limit) (c T : ℚ) (tat : Option ℚ) (now : ℚ) : ℚ :=
  b.capacity - (max (tat.getD (now * c)) (now * c) - now * c) / (c * T)

def Follows (b : TokenBucket.Limit) (c T t : ℚ) (tat : Option ℚ) : Option TokenBucket.State → Prop
  | none => tat = none
  | some st => st.ts = some t ∧ st.tokens = some (level b c T tat t)

def available (b : TokenBucket.Limit) (row : Option TokenBucket.State) (now : ℚ) : ℚ :=
  row.elim b.capacity (refilled b · now)

lemma acquire_eq_spend (row : Option TokenBucket.State) (a : TokenBucket.Acquire) :
    acquire b row a = spend b (available b row a.now) a := by
  cases row <;> rfl

lemma refill_level {C k x s n : ℚ} (hk : 0 < k) (hsn : s ≤ n) :
    min C (C - (max x s - s) / k + (n - s) / k) = C - (max x n - n) / k := by
  rcases le_total x n with hx | hx
  · have hfull := div_le_div_of_nonneg_right (sub_le_sub_right (max_le hx hsn) s) hk.le
    rw [max_eq_right hx, sub_self, zero_div, sub_zero]
    exact min_eq_left (by linarith)
  · have hahead := div_nonneg (sub_nonneg.mpr hx) hk.le
    have hsum : C - (x - s) / k + (n - s) / k = C - (x - n) / k := by ring
    rw [max_eq_left hx, max_eq_left (hsn.trans hx), hsum]
    exact min_eq_right (by linarith)

include hc hT hrefill in
lemma Follows.available_eq (h : Follows b c T t tat row) (hnow : t ≤ now) :
    available b row now = level b c T tat now := by
  have hcT : 0 < c * T := mul_pos hc hT
  cases row with
  | none =>
    obtain rfl : tat = none := h
    simp [available, level]
  | some st =>
    have hgap : (now - t) * (1 / T) = (now * c - t * c) / (c * T) := by field_simp
    have hclock := mul_le_mul_of_nonneg_right hnow hc.le
    simp only [available, Option.elim_some, refilled, h.1, h.2, Option.getD_some,
      level, max_eq_left (sub_nonneg.mpr hnow), hrefill, hgap]
    cases tat with
    | none =>
      have hfill := div_nonneg (sub_nonneg.mpr hclock) hcT.le
      simpa using hfill
    | some x => exact refill_level hcT hclock

include hc hT in
lemma arrive_level (tat : Option ℚ) (now : ℚ) :
    ((arrive (c * T) (c * T * b.capacity) tat (now * c)).2 ↔ 1 ≤ level b c T tat now) ∧
      level b c T (arrive (c * T) (c * T * b.capacity) tat (now * c)).1 now =
        if 1 ≤ level b c T tat now then level b c T tat now - 1 else level b c T tat now := by
  have hcT : 0 < c * T := mul_pos hc hT
  have hiff : max (tat.getD (now * c)) (now * c) + c * T - c * T * b.capacity ≤ now * c ↔
      1 ≤ level b c T tat now := by
    rw [level, le_sub_comm, div_le_iff₀ hcT]
    constructor <;> intro h <;> linarith
  simp only [arrive, hiff]
  split
  · next h =>
    refine ⟨by simp [h], ?_⟩
    have hnew : now * c ≤ max (tat.getD (now * c)) (now * c) + c * T :=
      (le_max_right _ _).trans (le_add_of_nonneg_right hcT.le)
    simp only [level, Option.getD_some, max_eq_left hnew]
    field_simp
    ring
  · next h => exact ⟨by simp [h], rfl⟩

include hc hT hrefill in
lemma Follows.step (h : Follows b c T t tat row) (hnow : t ≤ now) :
    (arrive (c * T) (c * T * b.capacity) tat (now * c)).2 =
        (acquire b row ⟨now, 1⟩).granted ∧
      Follows b c T now (arrive (c * T) (c * T * b.capacity) tat (now * c)).1
        (some (acquire b row ⟨now, 1⟩)) := by
  obtain ⟨hallowed, hlevel⟩ := arrive_level (b := b) hc hT tat now
  rw [acquire_eq_spend, h.available_eq hc hT hrefill hnow]
  refine ⟨?_, rfl, ?_⟩
  · rw [Bool.eq_iff_iff, hallowed, spend, decide_eq_true_iff]
  · rw [hlevel, spend]

include hc hT hrefill in
lemma trace_eq_bucketRun {acquire : Option ℚ → ℚ → Option ℚ × Bool} {limit : Nat}
    (hlimit : b.capacity = limit) (hwindow : d = c * T * limit)
    (hacquire : ∀ tat now, acquire tat now = arrive (c * T) d tat (now * c))
    (hl : l.Pairwise (· ≤ ·)) (h : Follows b c T t tat row) (ht : ∀ x ∈ l, t ≤ x) :
    trace limit d c acquire tat l = bucketRun b row l := by
  have hpos := hlimit ▸ b.capacity_pos.ne'
  rw [← hlimit] at hwindow
  induction l generalizing t tat row with
  | nil => rfl
  | cons now l ih =>
    obtain ⟨hfrom, hl⟩ := pairwise_cons.mp hl
    obtain ⟨hgrant, hnext⟩ := h.step hc hT hrefill (ht now mem_cons_self)
    rw [← hwindow] at hgrant hnext
    simp only [trace, bucketRun, hacquire, cons.injEq, Prod.mk.injEq]
    refine ⟨⟨hgrant, ?_⟩, ih hl hnext hfrom⟩
    rw [hnext.2, Option.getD_some, level, hwindow, hlimit]
    field_simp

end

lemma redisNow_exact (now : ℚ) : redisNow exact now = now * 1000 :=
  congrArg (· * 1000) (Int.floor_add_fract now)

lemma redisPath_eq (A : Arith) (w : SlidingWindow) (key : Option ℚ) (now : ℚ) :
    w.redisPath A key now =
      let tat := max (key.getD (redisNow A now)) (redisNow A now)
      if A.fl (A.fl (tat + w.emissionIntervalMs A) - w.windowMs A) ≤ redisNow A now then
        (some (A.str (A.fl (tat + w.emissionIntervalMs A))), true)
      else (key, false) :=
  gcraScript_eq A key

lemma redisPath_arrive (w : SlidingWindow) (key : Option ℚ) (now : ℚ) : w.redisPath exact key now =
    arrive (w.emissionIntervalMs exact) (w.windowMs exact) key (now * 1000) := by
  rw [← redisNow_exact]
  exact redisPath_eq exact w key now

lemma acquirePgGcra_arrive (w : SlidingWindow) (row : Option ℚ) (now : ℚ) :
    w.acquirePgGcra exact row now =
      arrive (w.windowMs exact / 1000 / w.limit) (w.windowMs exact / 1000) row now := by
  have hms : (0 : ℚ) ≤ w.windowMs exact := Int.cast_nonneg w.windowMs_nonneg
  have hle : (w.windowMs exact / 1000 / w.limit : ℚ) ≤ w.windowMs exact / 1000 :=
    div_le_self (by positivity) (Nat.one_le_cast.mpr w.limit_pos)
  exact fusedAcquire_arrive hle row

/-- From a millisecond up both paths are, in exact arithmetic, the token bucket of the window cut
to whole ones. -/
theorem gcra_eq_tokenBucket (w : SlidingWindow) (hw : 1 ≤ w.windowMs exact) (l : List ℚ)
    (hl : l.Pairwise (· ≤ ·)) : w.redisTrace l = (w.wholeMs hw).bucketTrace l ∧
      w.pgTrace l = (w.wholeMs hw).bucketTrace l := by
  have hlimit : (0 : ℚ) < w.limit := Nat.cast_pos.mpr w.limit_pos
  have hT : (0 : ℚ) < w.windowMs exact / 1000 / w.limit := by positivity
  have hrefill : (w.wholeMs hw).bucket.refill = 1 / (w.windowMs exact / 1000 / w.limit) := by
    simp only [bucket, wholeMs]
    field_simp
  obtain ⟨t, ht⟩ : ∃ t, ∀ x ∈ l, t ≤ x := by
    cases l with
    | nil => exact ⟨0, by simp⟩
    | cons x l => exact ⟨x, by simpa using (pairwise_cons.mp hl).1⟩
  constructor
  · have hms : w.emissionIntervalMs exact = 1000 * (w.windowMs exact / 1000 / w.limit) := by
      rw [emissionIntervalMs_exact]
      ring
    refine trace_eq_bucketRun (by norm_num) hT hrefill rfl (by field_simp) (fun key now => ?_) hl
      rfl ht
    rw [redisPath_arrive, hms]
  · refine trace_eq_bucketRun one_pos hT hrefill rfl (by field_simp) (fun row now => ?_) hl rfl ht
    rw [acquirePgGcra_arrive, one_mul, mul_one]

def onePerTwoSeconds : SlidingWindow := ⟨2, 2, by decide, by norm_num⟩

theorem gcra_eq_tokenBucket_burst : onePerTwoSeconds.redisTrace [0, 0, 0, 1, 1, 5] =
        (onePerTwoSeconds.wholeMs (by decide +kernel)).bucketTrace [0, 0, 0, 1, 1, 5] ∧
      onePerTwoSeconds.pgTrace [0, 0, 0, 1, 1, 5] =
        (onePerTwoSeconds.wholeMs (by decide +kernel)).bucketTrace [0, 0, 0, 1, 1, 5] :=
  gcra_eq_tokenBucket onePerTwoSeconds (by decide +kernel) _ (by decide +kernel)

def onePerHalfMore : SlidingWindow := ⟨1, 3 / 2000, by decide, by norm_num⟩

/-- One request to 1.5 ms: both paths admit the second after 1 ms, the bucket has 2/3 of a token. -/
theorem gcra_cuts_window : onePerHalfMore.redisTrace [0, 1 / 1000] = [(true, 0), (true, 0)] ∧
      onePerHalfMore.pgTrace [0, 1 / 1000] = [(true, 0), (true, 0)] ∧
      onePerHalfMore.bucketTrace [0, 1 / 1000] = [(true, 0), (false, 2 / 3)] := by
  decide +kernel

end SlidingWindow

end TaskQ
