import Mathlib.Tactic.Ring
import TaskQ.TokenBucket

namespace TaskQ.TokenBucket

/-- `allowed` and `remaining` of a `RateLimitDecision`. -/
abbrev Decision := Bool × ℚ

/-- The elapsed refill of every backend: what a count stored at `ts` has become by `now`. -/
def level (b : Limit) (tokens ts now : ℚ) : ℚ :=
  min b.capacity (tokens + max 0 (now - ts) * b.refill)

structure MemBucket where
  tokens : ℚ
  ts : Option ℚ

def MemBucket.acquire (b : Limit) (m : MemBucket) (a : Acquire) : MemBucket × Decision :=
  let tokens := level b m.tokens (m.ts.getD a.now) a.now
  if a.count ≤ tokens then (⟨tokens - a.count, some a.now⟩, true, tokens - a.count)
  else (⟨tokens, some a.now⟩, false, tokens)

def MemBucket.refund (b : Limit) (m : MemBucket) (count : ℚ) : MemBucket :=
  { m with tokens := min b.capacity (m.tokens + count) }

/-- `TOKEN_BUCKET_SCRIPT`; the key holds the fields `tokens` and `ts`. -/
def tokenBucketScript (b : Limit) (key : Option (ℚ × ℚ)) (a : Acquire) : (ℚ × ℚ) × Decision :=
  let data := key.getD (b.capacity, a.now)
  let tokens := level b data.1 data.2 a.now
  if a.count ≤ tokens then ((tokens - a.count, a.now), true, tokens - a.count)
  else ((tokens, a.now), false, tokens)

/-- A count outside `[0, capacity]` raises `RateLimitStoreCorrupt`. -/
def decodeLuaResult (b : Limit) (reply : Decision) : Option Decision :=
  if 0 ≤ reply.2 ∧ reply.2 ≤ b.capacity then some reply else none

/-- `REFUND_SCRIPT`, which leaves a missing key missing. -/
def refundScript (b : Limit) (key : Option (ℚ × ℚ)) (a : Acquire) : Option (ℚ × ℚ) :=
  key.map fun data => (min b.capacity (level b data.1 data.2 a.now + a.count), a.now)

/-- `_refund_pg` on the locked row; a stored count outside `[0, capacity]` raises. -/
def refundPg (b : Limit) (row : Option State) (a : Acquire) : Option State :=
  row.map fun st =>
    let tokens := st.tokens.getD b.capacity
    if 0 ≤ tokens ∧ tokens ≤ b.capacity then
      { tokens := some (min b.capacity (refilled b st a.now + a.count))
        ts := some a.now, capacity := b.capacity, refill := b.refill, granted := false }
    else st

inductive Op where
  | acquire (a : Acquire)
  | refund (a : Acquire)

def Op.args : Op → Acquire
  | .acquire a => a
  | .refund a => a

def memoryRun (b : Limit) : MemBucket → List Op → List (Option Decision)
  | _, [] => []
  | m, .acquire a :: l => some (m.acquire b a).2 :: memoryRun b (m.acquire b a).1 l
  | m, .refund a :: l => memoryRun b (m.refund b a.count) l

def redisRun (b : Limit) : Option (ℚ × ℚ) → List Op → List (Option Decision)
  | _, [] => []
  | key, .acquire a :: l =>
    decodeLuaResult b (tokenBucketScript b key a).2 ::
      redisRun b (some (tokenBucketScript b key a).1) l
  | key, .refund a :: l => redisRun b (refundScript b key a) l

def postgresRun (b : Limit) : Option State → List Op → List (Option Decision)
  | _, [] => []
  | row, .acquire a :: l =>
    some ((acquire b row a).granted, (acquire b row a).tokens.getD 0) ::
      postgresRun b (some (acquire b row a)) l
  | row, .refund a :: l => postgresRun b (refundPg b row a) l

lemma min_add_min {C x d : ℚ} (hd : 0 ≤ d) : min C (min C x + d) = min C (x + d) := by
  rcases le_total C x with h | h
  · rw [min_eq_left h, min_eq_left (by linarith), min_eq_left (by linarith)]
  · rw [min_eq_right h]

inductive Agree (b : Limit) (last : ℚ) : MemBucket → Option (ℚ × ℚ) → Option State → Prop
  | unused : Agree b last ⟨b.capacity, none⟩ none none
  | used (ht : t ≤ last) (hs : s ≤ last) (hy : 0 ≤ y) (hcap : y ≤ b.capacity)
      (hlevel : ∀ now, last ≤ now → level b x t now = level b y s now)
      (htok : st.tokens = some y) (hts : st.ts = some s) :
      Agree b last ⟨x, some t⟩ (some (y, s)) (some st)

def taken (available count : ℚ) : Decision :=
  if count ≤ available then (true, available - count) else (false, available)

lemma taken_mem (h : 0 ≤ available) (hcap : available ≤ C) (hcount : 0 ≤ count) :
    0 ≤ (taken available count).2 ∧ (taken available count).2 ≤ C := by
  rw [taken]
  split
  · next hle => exact ⟨sub_nonneg.mpr hle, by dsimp only; linarith⟩
  · exact ⟨h, hcap⟩

lemma MemBucket.acquire_taken (m : MemBucket) (h : level b m.tokens (m.ts.getD a.now) a.now = v) :
    m.acquire b a = (⟨(taken v a.count).2, some a.now⟩, taken v a.count) := by
  simp only [MemBucket.acquire, taken, h]
  split <;> rfl

lemma tokenBucketScript_taken (key : Option (ℚ × ℚ)) (h : level b (key.getD (b.capacity, a.now)).1
      (key.getD (b.capacity, a.now)).2 a.now = v) :
    tokenBucketScript b key a = (((taken v a.count).2, a.now), taken v a.count) := by
  simp only [tokenBucketScript, taken, h]
  split <;> rfl

lemma level_full : level b b.capacity now now = b.capacity := by simp [level]

lemma level_nonneg (b : Limit) (t now : ℚ) (hx : 0 ≤ x) : 0 ≤ level b x t now :=
  le_min b.capacity_pos.le (add_nonneg hx (mul_nonneg (le_max_left _ _) b.refill_nonneg))

lemma refilled_level (htok : st.tokens = some y) (hts : st.ts = some s) :
    refilled b st now = level b y s now := by
  rw [refilled, htok, hts, Option.getD_some, Option.getD_some, max_comm, level]

section
variable (h : Agree b last m key row)
include h

lemma Agree.available (hnow : last ≤ a.now) : ∃ v, 0 ≤ v ∧ v ≤ b.capacity ∧
      m.acquire b a = (⟨(taken v a.count).2, some a.now⟩, taken v a.count) ∧
      tokenBucketScript b key a = (((taken v a.count).2, a.now), taken v a.count) ∧
      acquire b row a = spend b v a := by
  cases h with
  | unused =>
    exact ⟨b.capacity, b.capacity_pos.le, le_refl _, MemBucket.acquire_taken _ level_full,
      tokenBucketScript_taken _ level_full, rfl⟩
  | @used t s y x st ht hs hy hcap hlevel htok hts =>
    refine ⟨level b y s a.now, level_nonneg b s a.now hy, min_le_left _ _,
      MemBucket.acquire_taken _ (hlevel a.now hnow), tokenBucketScript_taken _ rfl, ?_⟩
    rw [acquire, refilled_level htok hts]

lemma Agree.acquire (hnow : last ≤ a.now) (hcount : 0 ≤ a.count) :
    Agree b a.now (m.acquire b a).1 (some (tokenBucketScript b key a).1)
        (some (TokenBucket.acquire b row a)) ∧
      decodeLuaResult b (tokenBucketScript b key a).2 = some (m.acquire b a).2 ∧
      ((TokenBucket.acquire b row a).granted, (TokenBucket.acquire b row a).tokens.getD 0) =
        (m.acquire b a).2 := by
  obtain ⟨available, h0, hcap, hmem, hscript, hpg⟩ := h.available hnow
  obtain ⟨hleft, hleft'⟩ := taken_mem h0 hcap hcount
  have htok : (spend b available a).tokens = some (taken available a.count).2 := by
    by_cases hle : a.count ≤ available <;> simp [spend, taken, hle]
  rw [hmem, hscript, hpg]
  refine ⟨.used (le_refl _) (le_refl _) hleft hleft' (fun _ _ => rfl) htok rfl, ?_, ?_⟩
  · exact if_pos ⟨hleft, hleft'⟩
  · rw [htok, Option.getD_some]
    by_cases hle : a.count ≤ available <;> simp [spend, taken, hle]

lemma Agree.refund (hnow : last ≤ a.now) (hcount : 0 ≤ a.count) :
    Agree b a.now (m.refund b a.count) (refundScript b key a) (refundPg b row a) := by
  cases h with
  | unused =>
    have hfull : min b.capacity (b.capacity + a.count) = b.capacity :=
      min_eq_left (by linarith)
    rw [MemBucket.refund, hfull]
    exact .unused
  | @used t s y x st ht hs hy hcap hlevel htok hts =>
    have hfill := level_nonneg b s a.now hy
    have hrow : refundPg b (some st) a =
        some ⟨some (min b.capacity (level b y s a.now + a.count)), some a.now, b.capacity,
          b.refill, false⟩ := by
      rw [refundPg, Option.map_some, htok, Option.getD_some, if_pos ⟨hy, hcap⟩,
        refilled_level htok hts]
    rw [hrow]
    refine .used (ht.trans hnow) (le_refl _) (le_min b.capacity_pos.le (add_nonneg hfill hcount))
      (min_le_left _ _) ?_ rfl rfl
    -- both sides are the one sum of the stored count, the refund and the refill since `t`, capped
    intro now hle
    have hgap := mul_nonneg (sub_nonneg.mpr (ht.trans (hnow.trans hle))) b.refill_nonneg
    have hgap' := mul_nonneg (sub_nonneg.mpr hle) b.refill_nonneg
    have hsum : x + (a.now - t) * b.refill + a.count + (now - a.now) * b.refill =
        x + a.count + (now - t) * b.refill := by
      ring
    rw [← hlevel a.now hnow]
    simp only [level, max_eq_right (sub_nonneg.mpr hle),
      max_eq_right (sub_nonneg.mpr (ht.trans hnow)),
      max_eq_right (sub_nonneg.mpr (ht.trans (hnow.trans hle)))]
    rw [min_add_min hgap, min_add_min hgap', add_assoc (min _ _), min_add_min (by linarith),
      ← add_assoc, hsum]

end

/-- With counts that are not negative the three backends give the same decisions and counts. -/
theorem bucket_backends_agree (b : Limit) (ops : List Op)
    (hclock : ops.Pairwise fun o o' => o.args.now ≤ o'.args.now)
    (hcount : ∀ o ∈ ops, 0 ≤ o.args.count) :
    redisRun b none ops = memoryRun b ⟨b.capacity, none⟩ ops ∧
      postgresRun b none ops = memoryRun b ⟨b.capacity, none⟩ ops := by
  suffices hrun : ∀ last m key row, Agree b last m key row → (∀ o ∈ ops, last ≤ o.args.now) →
      redisRun b key ops = memoryRun b m ops ∧ postgresRun b row ops = memoryRun b m ops by
    cases ops with
    | nil => exact ⟨rfl, rfl⟩
    | cons o l =>
      refine hrun o.args.now _ _ _ .unused ?_
      simpa using (List.pairwise_cons.mp hclock).1
  induction ops with
  | nil => exact fun _ _ _ _ _ _ => ⟨rfl, rfl⟩
  | cons o l ih =>
    intro last m key row h hlast
    obtain ⟨hfrom, hclock⟩ := List.pairwise_cons.mp hclock
    have hnow := hlast o List.mem_cons_self
    have hc := hcount o List.mem_cons_self
    have hrest := ih hclock fun o ho => hcount o (List.mem_cons_of_mem _ ho)
    cases o with
    | acquire a =>
      obtain ⟨hnext, hredis, hpg⟩ := h.acquire hnow hc
      obtain ⟨hr, hp⟩ := hrest _ _ _ _ hnext hfrom
      constructor
      · exact congrArg₂ List.cons hredis hr
      · exact congrArg₂ List.cons (congrArg some hpg) hp
    | refund a => exact hrest _ _ _ _ (h.refund hnow hc) hfrom

theorem bucket_backends_agree_refunded :
    redisRun tenPerTen none [.acquire ⟨0, 8⟩, .refund ⟨3, 8⟩, .acquire ⟨4, 10⟩] =
        memoryRun tenPerTen ⟨10, none⟩ [.acquire ⟨0, 8⟩, .refund ⟨3, 8⟩, .acquire ⟨4, 10⟩] ∧
      postgresRun tenPerTen none [.acquire ⟨0, 8⟩, .refund ⟨3, 8⟩, .acquire ⟨4, 10⟩] =
        memoryRun tenPerTen ⟨10, none⟩ [.acquire ⟨0, 8⟩, .refund ⟨3, 8⟩, .acquire ⟨4, 10⟩] :=
  bucket_backends_agree tenPerTen _ (by decide +kernel) (by decide +kernel)

/-- Memory takes a negative refund from the stored count, and the refill then hides it. -/
theorem negative_refund_differs :
    memoryRun tenPerTen ⟨10, none⟩ [.acquire ⟨0, 2⟩, .refund ⟨5, -3⟩, .acquire ⟨5, 1⟩] =
        [some (true, 8), some (true, 9)] ∧
      redisRun tenPerTen none [.acquire ⟨0, 2⟩, .refund ⟨5, -3⟩, .acquire ⟨5, 1⟩] =
        [some (true, 8), some (true, 6)] ∧
      postgresRun tenPerTen none [.acquire ⟨0, 2⟩, .refund ⟨5, -3⟩, .acquire ⟨5, 1⟩] =
        [some (true, 8), some (true, 6)] := by
  decide +kernel

end TaskQ.TokenBucket
