import TaskQ.BucketBackends
import TaskQ.Gcra

namespace TaskQ.TokenBucket
open Option

/-- `_MAX_TTL`, in seconds. -/
def maxTtl : ℚ := 365 * 86400

def defaultTtl (b : Limit) : ℚ :=
  if b.refill = 0 then 86400
  else
    let seconds := b.capacity / b.refill * 2 + 60
    if maxTtl ≤ seconds then maxTtl else ⌈seconds⌉

/-- `_compute_ttl_seconds`, of a bucket without a `ttl` of its own. -/
def computeTtlSeconds (b : Limit) : ℤ := max 1 ⌊defaultTtl b⌋

/-- The key as the next script finds it: each script sets its `ts` and its `EXPIRE` together. -/
def unexpired (b : Limit) (key : Option (ℚ × ℚ)) (now : ℚ) : Option (ℚ × ℚ) :=
  key.filter fun data => now < data.2 + computeTtlSeconds b

def acquireRun (b : Limit) (kept : Option (ℚ × ℚ) → ℚ → Option (ℚ × ℚ)) :
    Option (ℚ × ℚ) → List Acquire → List Decision
  | _, [] => []
  | key, a :: l =>
    (tokenBucketScript b (kept key a.now) a).2 ::
      acquireRun b kept (some (tokenBucketScript b (kept key a.now) a).1) l

lemma capacity_le_ttl (hfill : 0 < b.refill) (hlong : b.capacity / b.refill * 2 + 60 < maxTtl) :
    b.capacity ≤ computeTtlSeconds b * b.refill := by
  rw [← div_le_iff₀ hfill]
  have hpos := div_pos b.capacity_pos hfill
  have hceil := Int.le_ceil (b.capacity / b.refill * 2 + 60)
  have hle : (⌈b.capacity / b.refill * 2 + 60⌉ : ℚ) ≤ computeTtlSeconds b := by
    rw [computeTtlSeconds, defaultTtl, if_neg hfill.ne', if_neg (not_le.mpr hlong), Int.floor_intCast]
    exact_mod_cast le_max_right _ _
  linarith

lemma tokenBucketScript_unexpired (httl : b.capacity ≤ computeTtlSeconds b * b.refill)
    (hkey : ∀ data ∈ key, 0 ≤ data.1) (a : Acquire) :
    tokenBucketScript b (unexpired b key a.now) a = tokenBucketScript b key a := by
  cases key with
  | none => rfl
  | some data =>
    rw [unexpired, filter_some]
    split
    · rfl
    next h =>
      have hpast : data.2 + computeTtlSeconds b ≤ a.now := by simpa using h
      have hfull : level b data.1 data.2 a.now = b.capacity := by
        refine min_eq_left ?_
        have hn := hkey data rfl
        have hm := mul_le_mul_of_nonneg_right (le_sub_iff_add_le'.mpr hpast) b.refill_nonneg
        have hx := mul_le_mul_of_nonneg_right (le_max_right 0 (a.now - data.2)) b.refill_nonneg
        linarith
      rw [tokenBucketScript_taken none level_full, tokenBucketScript_taken (some data) hfull]

lemma acquireRun_unexpired (httl : b.capacity ≤ computeTtlSeconds b * b.refill)
    (hkey : ∀ data ∈ key, 0 ≤ data.1) (l : List Acquire) :
    acquireRun b (unexpired b) key l = acquireRun b (fun key _ => key) key l := by
  induction l generalizing key with
  | nil => rfl
  | cons a l ih =>
    rw [acquireRun, acquireRun, tokenBucketScript_unexpired httl hkey, ih]
    intro data hdata
    obtain rfl := some.inj hdata
    have hstored : 0 ≤ (key.getD (b.capacity, a.now)).1 := by
      cases key with
      | none => exact b.capacity_pos.le
      | some data => exact hkey data rfl
    rw [tokenBucketScript_taken key rfl, taken]
    split
    · next h => exact sub_nonneg.mpr h
    · exact level_nonneg b _ _ hstored

/-- If a bucket refills within a year, the expiry of its key is not seen in any run. -/
theorem expiry_unseen (b : Limit) (hfill : 0 < b.refill)
    (hlong : b.capacity / b.refill * 2 + 60 < maxTtl) (l : List Acquire) :
    acquireRun b (unexpired b) none l = acquireRun b (fun key _ => key) none l := by
  refine acquireRun_unexpired (capacity_le_ttl hfill hlong) (fun data h => ?_) l
  cases h

theorem expiry_unseen_tenPerTen :
    acquireRun tenPerTen (unexpired tenPerTen) none [⟨0, 10⟩, ⟨90, 10⟩, ⟨91, 2⟩] =
      acquireRun tenPerTen (fun key _ => key) none [⟨0, 10⟩, ⟨90, 10⟩, ⟨91, 2⟩] :=
  expiry_unseen tenPerTen (by decide) (by decide +kernel) _

/-- The third element of the script's reply, in seconds. -/
def scriptRetryAfter (b : Limit) (key : Option (ℚ × ℚ)) (a : Acquire) : ℚ :=
  let reply := (tokenBucketScript b key a).2
  if reply.1 then 0 else if 0 < b.refill then (a.count - reply.2) / b.refill else 0

end TaskQ.TokenBucket

namespace TaskQ.SlidingWindow

lemma emission_le (w : SlidingWindow) : w.emissionIntervalMs exact ≤ w.windowMs exact :=
  div_le_self (Int.cast_nonneg w.windowMs_nonneg) (Nat.one_le_cast.mpr w.limit_pos)

lemma gcraScript_allowed {e d now : ℚ} {key : Option ℚ} :
    (gcraScript exact e d e now key).2.allowed = true ↔ max (key.getD now) now + e - d ≤ now := by
  have hsnd : (gcraScript exact e d e now key).2.allowed = (arrive e d key now).2 :=
    congrArg Prod.snd (gcraScript_arrive key)
  rw [hsnd, arrive]
  split
  · next h => simp [h]
  · next h => simp [h]

end TaskQ.SlidingWindow
