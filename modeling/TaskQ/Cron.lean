import TaskQ.Timezone

namespace TaskQ.Cron
open Timezone

inductive DstStrategy where
  | skip | firstof | allof
  deriving DecidableEq

/-- A zone whose changes are aligned to minutes; past every wall time one is unaffected. -/
structure MinuteZone extends Zone where
  name : String
  changeAligned : ∀ k, minute ∣ change k
  offsetAligned : ∀ k, minute ∣ offset k
  settles : ∀ w, ∃ n : Nat, ∀ k, ¬ toZone.Affects k (w + minute * n)
  utc : name = "UTC" → ∀ k, offset k = 0

/-- The instants a schedule owes: matching wall times by the strategy, and ends of matched gaps. -/
def Owed (z : Zone) (Matches : Int → Prop) (s : DstStrategy) (u : Int) : Prop :=
  (Matches (z.wall u) ∧ (s = .allof ∨ ∀ v, z.wall v = z.wall u → u ≤ v)) ∨
    ∃ k w, z.Skips k ∧ z.Affects k w ∧ Matches w ∧ u = z.change k

/-- `croniter` on a five-field expression, seeded with a naive and with an aware `datetime`. -/
structure Croniter (z : MinuteZone) where
  Matches : Int → Prop
  getNext : Int → Int
  getNextAware : LocalTime → LocalTime
  aligned : ∀ w, Matches w → minute ∣ w
  getNext_isLeast : ∀ w, IsLeast {v | w < v ∧ Matches v} (getNext w)
  getNextAware_isLeast : ∀ u, ∃ v, getNextAware (z.localize u) = z.localize v ∧
    IsLeast {v | u < v ∧ Owed z.toZone Matches .allof v} v

section
variable (z : MinuteZone)

def isAmbiguousTime (naive : Int) : Bool :=
  decide (z.instant ⟨naive, false⟩ ≠ z.instant ⟨naive, true⟩)

variable {z} in
lemma isAmbiguousTime_iff : isAmbiguousTime z w = true ↔ ∃ k, z.Affects k w := by
  rw [isAmbiguousTime, decide_eq_true_eq, Zone.instant_ne_iff]

variable {z} in
lemma isAmbiguousTime_eq_false : isAmbiguousTime z w = false ↔ ∀ k, ¬ z.Affects k w := by
  rw [← Bool.not_eq_true, isAmbiguousTime_iff, not_exists]

lemma exists_unambiguous_before (start : Int) :
    ∃ n : Nat, isAmbiguousTime z (start - minute * (n + 1)) = false := by
  refine ⟨(start - z.first 0).toNat, isAmbiguousTime_eq_false.mpr fun k hk => ?_⟩
  have hfirst : z.first 0 ≤ z.first k := Zone.first_le_first (Nat.zero_le k)
  have hle := hfirst.trans hk.1
  simp only [minute] at hle
  omega

lemma exists_unambiguous_after (start : Int) :
    ∃ n : Nat, isAmbiguousTime z (start + minute * (n + 1)) = false := by
  obtain ⟨n, hn⟩ := z.settles (start + minute)
  refine ⟨n, isAmbiguousTime_eq_false.mpr ?_⟩
  have heq : start + minute * ((n : Int) + 1) = start + minute + minute * n := by
    rw [Int.mul_add, Int.mul_one]
    omega
  rw [heq]
  exact hn

/-- The bounds are walked from the wall time, minute by minute, as far as it stays ambiguous. -/
def repeatedRangeBounds (naive : Int) : Option (Int × Int) :=
  if isAmbiguousTime z naive then
    let floor := naive - naive % minute
    let start := floor - minute * Nat.find (exists_unambiguous_before z floor)
    some (start, start + minute * (Nat.find (exists_unambiguous_after z start) + 1))
  else none

def moves (d : LocalTime) : Bool := decide (z.wall (z.instant d) / minute ≠ d.naive / minute)

lemma exists_not_moves (d : LocalTime) :
    ∃ n : Nat, moves z ⟨d.naive + minute * n, d.fold⟩ = false := by
  obtain ⟨n, hn⟩ := z.settles d.naive
  refine ⟨n, ?_⟩
  have hinst : z.instant ⟨d.naive + minute * n, d.fold⟩ =
      z.instant ⟨d.naive + minute * n, false⟩ := by
    cases d.fold with
    | false => rfl
    | true => rw [Zone.instant, Zone.instant, Zone.localEra_of_unaffected hn]
  rw [moves, decide_eq_false_iff_not, not_not, hinst, (Zone.isLeast_instant fun k _ => hn k).1]

def checkGap (d : LocalTime) : LocalTime :=
  ⟨d.naive + minute * Nat.find (exists_not_moves z d), d.fold⟩

end

def foldToUtc (d : LocalTime) (fold : Bool) : LocalTime := ⟨d.naive, fold⟩

section
variable {z : MinuteZone} (c : Croniter z)

lemma Croniter.lt_getNext (w : Int) : w < c.getNext w := (c.getNext_isLeast w).1.1

lemma Croniter.matches_getNext (w : Int) : c.Matches (c.getNext w) := (c.getNext_isLeast w).1.2

lemma Croniter.getNext_le (h : c.Matches v) (hw : w < v) : c.getNext w ≤ v :=
  (c.getNext_isLeast w).2 ⟨hw, h⟩

lemma Croniter.add_le_iterate (n : Nat) (w : Int) : w + n ≤ c.getNext^[n] w := by
  induction n with
  | zero => simp
  | succ n ih =>
    rw [Function.iterate_succ_apply']
    have := c.lt_getNext (c.getNext^[n] w)
    omega

lemma exists_outside (start stop w : Int) : ∃ n : Nat,
    ¬ (start ≤ c.getNext^[n + 1] w ∧ c.getNext^[n + 1] w < stop) := by
  refine ⟨(stop - w).toNat, fun h => ?_⟩
  have := c.add_le_iterate ((stop - w).toNat + 1) w
  omega

def walkBeyond (start stop w : Int) : Int :=
  c.getNext^[Nat.find (exists_outside c start stop w) + 1] w

def firstMatchBeyondRepeatedRange (candidate : LocalTime) : LocalTime :=
  let beyond := match repeatedRangeBounds z candidate.naive with
    | none => c.getNext candidate.naive
    | some (start, stop) => walkBeyond c start stop candidate.naive
  checkGap z ⟨beyond, false⟩

def second : Int := 1000000

def nextFold1Fire (afterLocal : LocalTime) : Option LocalTime :=
  if afterLocal.fold then none
  else
    match repeatedRangeBounds z afterLocal.naive with
    | none => none
    | some (start, stop) =>
      if c.getNext afterLocal.naive < stop then none
      else
        let first := c.getNext (start - second)
        if stop ≤ first then none else some ⟨first, true⟩

def fold1SeedFire (afterLocal : LocalTime) (s : DstStrategy) : Option LocalTime :=
  if afterLocal.fold then
    match repeatedRangeBounds z afterLocal.naive with
    | none => none
    | some (start, stop) =>
      let candidate := c.getNextAware afterLocal
      if start ≤ candidate.naive ∧ candidate.naive < stop then
        some (if s = .allof then foldToUtc candidate true
          else checkGap z ⟨walkBeyond c start stop candidate.naive, false⟩)
      else none
  else none

def walkedFires (after : Int) (s : DstStrategy) : List LocalTime :=
  let candidate := c.getNextAware (z.localize after)
  if s = .skip ∧ z.name = "UTC" then [candidate]
  else if moves z candidate then
    [checkGap z (c.getNextAware (z.localize (z.instant candidate)))]
  else if isAmbiguousTime z candidate.naive then
    if s = .allof then [foldToUtc candidate false, foldToUtc candidate true]
    else if after < z.instant (foldToUtc candidate false) then [foldToUtc candidate false]
    else [firstMatchBeyondRepeatedRange c candidate]
  else [candidate]

/-- `_compute_next_fire_after_walking`. -/
def computeNextFireAfter (after : Int) (s : DstStrategy) : List LocalTime :=
  match if s = .allof then nextFold1Fire c (z.localize after) else none with
  | some d => [d]
  | none =>
    match fold1SeedFire c (z.localize after) s with
    | some d => [d]
    | none => walkedFires c after s

end

end TaskQ.Cron
