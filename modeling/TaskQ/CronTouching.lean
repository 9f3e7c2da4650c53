import TaskQ.CronLeast

namespace TaskQ.Cron
open Timezone Zone MinuteZone

section
variable {z : MinuteZone}

lemma next_minute_isLeast (u : Int) : u < (u / minute + 1) * minute ∧
    ∀ v, minute ∣ v → u < v → (u / minute + 1) * minute ≤ v := by
  refine ⟨?_, fun v hv huv => ?_⟩
  all_goals
    simp only [minute] at *
    omega

lemma MinuteZone.wall_aligned : minute ∣ z.wall u ↔ minute ∣ u := by
  have := z.offsetAligned (z.era u)
  rw [wall_eq rfl]
  simp only [minute] at *
  omega

lemma answer_of_pair {c : Croniter z} (hfold : (z.localize u).fold = false)
    (hfold1 : nextFold1Fire c (z.localize u) = none)
    (hcand : c.getNextAware (z.localize u) = z.localize v) (h : ∃ k, z.Affects k (z.wall v)) :
    computeNextFireAfter c u .allof = [⟨z.wall v, false⟩, ⟨z.wall v, true⟩] := by
  have hseed : fold1SeedFire c (z.localize u) .allof = none := by
    rw [fold1SeedFire, hfold, if_neg Bool.false_ne_true]
  rw [computeNextFireAfter, if_pos rfl, hfold1]
  rw [hseed]
  rw [walkedFires, hcand, if_neg (fun h => by cases h.1), moves_localize,
    if_neg Bool.false_ne_true, naive_localize, if_pos (isAmbiguousTime_iff.mpr h), if_pos rfl,
    foldToUtc, foldToUtc, naive_localize]

lemma answer_of_unaffected {c : Croniter z} (hu : ∀ k, ¬ z.Affects k (z.wall u))
    (hcand : c.getNextAware (z.localize u) = z.localize v) (h : ∃ k, z.Affects k (z.wall v)) :
    computeNextFireAfter c u .allof = [⟨z.wall v, false⟩, ⟨z.wall v, true⟩] := by
  have hfold := Bool.eq_false_of_not_eq_true fun hfold => by
    obtain ⟨k, hk, -⟩ := affects_of_fold hfold
    exact hu k hk
  refine answer_of_pair hfold ?_ hcand h
  rw [nextFold1Fire, hfold, if_neg Bool.false_ne_true, naive_localize, bounds_of_unaffected hu]

def everyMinute (z : MinuteZone) : Croniter z where
  Matches w := minute ∣ w
  getNext w := (w / minute + 1) * minute
  getNextAware d := z.localize ((z.instant d / minute + 1) * minute)
  aligned _ h := h
  getNext_isLeast w :=
    ⟨⟨(next_minute_isLeast w).1, Int.dvd_mul_left ..⟩, fun v hv =>
      (next_minute_isLeast w).2 v hv.2 hv.1⟩
  getNextAware_isLeast u := by
    refine ⟨(u / minute + 1) * minute, by rw [Zone.instant_localize], ?_, ?_⟩
    · exact ⟨(next_minute_isLeast u).1,
        .inl ⟨MinuteZone.wall_aligned.mpr (Int.dvd_mul_left ..), .inl rfl⟩⟩
    · rintro v ⟨huv, ⟨hm, -⟩ | ⟨k, -, -, -, -, rfl⟩⟩
      · exact (next_minute_isLeast u).2 v (MinuteZone.wall_aligned.mp hm) huv
      · exact (next_minute_isLeast u).2 _ (z.changeAligned k) huv

lemma getNextAware_everyMinute (h : minute ∣ u) :
    (everyMinute z).getNextAware (z.localize u) = z.localize (u + minute) := by
  have hnext : (u / minute + 1) * minute = u + minute := by
    simp only [minute] at *
    omega
  simp only [everyMinute]
  rw [instant_localize, hnext]

lemma exists_touching (h : ¬ z.Apart) : ∃ k, z.Repeats k ∧
    ((∃ i, z.Affects i (z.last k)) ∨ ∃ i, z.Affects i (z.first k - minute)) := by
  simp only [Zone.Apart, not_forall, not_lt] at h
  obtain ⟨i, j, hij, hi, hj, hle⟩ := h
  have heq := le_antisymm (last_le_first hij) hle
  by_cases hrep : z.Repeats i
  · exact ⟨i, hrep, .inl ⟨j, hle, heq ▸ hj⟩⟩
  have hskip : z.Skips i := by
    simp only [Zone.Repeats, Zone.Skips, first, last] at *
    omega
  have hlast := hskip.last_eq
  have hinc := z.increasing i
  have hsucc : j = i + 1 := by
    by_contra hne
    have hbetween := last_le_first (z := z.toZone) (show i + 1 < j by omega)
    simp only [last] at hbetween hlast heq
    omega
  subst hsucc
  refine ⟨i + 1, ?_, .inr ⟨i, ?_, ?_⟩⟩
  · simp only [Zone.Repeats, first] at heq ⊢
    omega
  · have := add_minute_le (first_aligned i) (last_aligned i) hi
    omega
  · simp only [minute]
    omega

section
variable (hk : z.Repeats k)
include hk

lemma lastMinute : z.wall (z.change k - minute) = z.last k - minute ∧
    z.Affects k (z.wall (z.change k - minute)) := by
  have hlast := hk.last_eq
  have hrange := add_minute_le (first_aligned k) (last_aligned k)
    hk.first_lt_last
  have hpos : 0 < minute := by decide
  have hwall : z.wall (z.change k - minute) = z.change k - minute + z.offset k :=
    wall_eq (era_of_first_le (by omega) (by omega))
  refine ⟨by omega, ?_, ?_⟩
  all_goals
    omega

lemma getNext_lastMinute : (everyMinute z).getNext (z.wall (z.change k - minute)) = z.last k := by
  have halign := last_aligned (z := z) k
  rw [(lastMinute hk).1]
  simp only [everyMinute, minute] at *
  omega

lemma answer_of_affects_last (htouch : ∃ i, z.Affects i (z.last k)) :
    computeNextFireAfter (everyMinute z) (z.change k - minute) .allof =
      [⟨z.first k, false⟩, ⟨z.first k, true⟩] := by
  obtain ⟨hwall, haff⟩ := lastMinute hk
  obtain ⟨start, stop, hbd, hb⟩ := bounds_of_affects haff
  have hpos : 0 < minute := by decide
  obtain ⟨-, -, hfold⟩ := haff.before (by omega)
  have hstop : z.last k < stop := by
    refine lt_of_le_of_ne (hb.last_le_stop haff) ?_
    rintro rfl
    obtain ⟨i, hi⟩ := htouch
    exact hb.after i hi
  have hfold1 : nextFold1Fire (everyMinute z) (z.localize (z.change k - minute)) = none := by
    rw [nextFold1Fire, hfold, if_neg Bool.false_ne_true, naive_localize, hbd]
    dsimp only
    rw [getNext_lastMinute hk, if_pos hstop]
  have hcand := getNextAware_everyMinute (z := z)
    (Int.dvd_sub (z.changeAligned k) (Int.dvd_refl minute))
  have hfirst : z.wall (z.change k) = z.first k := by
    rw [wall_eq (era_eq_succ le_rfl (z.increasing k)), hk.first_eq]
  rw [Int.sub_add_cancel] at hcand
  rw [answer_of_pair hfold hfold1 hcand ⟨k, hfirst.ge, hfirst ▸ hk.first_lt_last⟩, hfirst]

lemma instant_first_le : z.instant ⟨z.first k, false⟩ ≤ z.change k - minute := by
  have hrange : z.Affects k (z.first k) := ⟨le_rfl, hk.first_lt_last⟩
  have hlast := hk.last_eq
  have hlen := add_minute_le (first_aligned k) (last_aligned k)
    hk.first_lt_last
  rw [hrange.instant_false]
  omega

lemma not_answers_of_affects_before (hbelow : ∃ i, z.Affects i (z.first k - minute))
    (habove : ∀ i, ¬ z.Affects i (z.last k)) :
    ¬ AnswersLeastOwed (everyMinute z) (z.change k - minute) .allof := by
  rintro ⟨d, rest, hd, hleast⟩
  obtain ⟨hwall, haff⟩ := lastMinute hk
  obtain ⟨start, stop, hbd, hb⟩ := bounds_of_affects haff
  have hpos : 0 < minute := by decide
  obtain ⟨-, -, hfold⟩ := haff.before (by omega)
  have hrange := hk.first_lt_last
  have hstart : start < z.first k := by
    refine lt_of_le_of_ne (hb.start_le_first haff) ?_
    rintro rfl
    obtain ⟨i, hi⟩ := hbelow
    exact hb.before i hi
  have hstop : stop = z.last k := by
    refine le_antisymm (le_of_not_gt fun hgt => ?_) (hb.last_le_stop haff)
    obtain ⟨i, hi⟩ := hb.inside (z.last k) (last_aligned k) (by omega) hgt
    exact habove i hi
  have hfirst : (everyMinute z).getNext (start - second) = start := by
    have halign := hb.start_aligned
    simp only [everyMinute, minute, second] at *
    omega
  have hfold1 : nextFold1Fire (everyMinute z) (z.localize (z.change k - minute)) =
      some ⟨start, true⟩ := by
    rw [nextFold1Fire, hfold, if_neg Bool.false_ne_true, naive_localize, hbd]
    dsimp only
    rw [getNext_lastMinute hk, hfirst, if_neg (by omega), if_neg (by omega)]
  rw [computeNextFireAfter, if_pos rfl, hfold1] at hd
  cases hd
  have hafter := hleast.1.1
  -- the offset of the answer is one from before the change
  obtain ⟨j, hj⟩ : ∃ j, z.localEra true start = j := ⟨_, rfl⟩
  have hle : j ≤ k := by
    rw [← hj]
    exact Nat.find_min' (z.exists_lt_bound true start) hstart
  have hlt : start < z.first j := (localEra_eq.mp hj).1
  have hchg : z.change j ≤ z.change k := change_le hle
  have hinst : z.instant ⟨start, true⟩ = start - z.offset j := by rw [instant, hj]
  have hbef : start - z.offset j < z.change k := by
    simp only [first] at hlt
    omega
  have := add_minute_le (Int.dvd_sub hb.start_aligned (z.offsetAligned j)) (z.changeAligned k)
    hbef
  omega

end

lemma not_answers_of_touching (hk : z.Repeats k)
    (h : (∃ i, z.Affects i (z.last k)) ∨ ∃ i, z.Affects i (z.first k - minute)) :
    ¬ AnswersLeastOwed (everyMinute z) (z.change k - minute) .allof := by
  by_cases hlast : ∃ i, z.Affects i (z.last k)
  · rintro ⟨d, rest, hd, hleast⟩
    rw [answer_of_affects_last hk hlast] at hd
    cases hd
    exact absurd hleast.1.1 (not_lt.mpr (instant_first_le hk))
  · exact not_answers_of_affects_before hk (h.resolve_left hlast) (not_exists.mp hlast)

end

/-- The walk answers the least owed instant just in the zones whose changes do not touch. -/
theorem least_owed_iff_apart (z : MinuteZone) :
    (∀ (c : Croniter z) (after : Int) (s : DstStrategy), AnswersLeastOwed c after s) ↔ z.Apart := by
  refine ⟨fun h => ?_, fun hz c after s => answersLeastOwed_of_apart hz c after s⟩
  by_contra hz
  obtain ⟨k, hk, htouch⟩ := exists_touching hz
  exact not_answers_of_touching hk htouch (h (everyMinute z) _ .allof)

def twiceBackChange : Nat → Int
  | 0 => 0
  | 1 => 120 * minute
  | k + 2 => (k + 1) * day

def twiceBackOffset : Nat → Int
  | 0 => 120 * minute
  | 1 => 60 * minute
  | _ + 2 => 0

lemma twiceBack_increasing : ∀ k, twiceBackChange k < twiceBackChange (k + 1)
  | 0 | 1 => by decide
  | k + 2 => by
    simp only [twiceBackChange, day, minute]
    omega

lemma twiceBack_bounded : ∀ k, -day < twiceBackOffset k ∧ twiceBackOffset k < day
  | 0 | 1 => by decide
  | k + 2 => by
    simp only [twiceBackOffset]
    decide

lemma twiceBack_ordered : ∀ k,
    twiceBackChange k + max (twiceBackOffset k) (twiceBackOffset (k + 1)) ≤
      twiceBackChange (k + 1) + min (twiceBackOffset (k + 1)) (twiceBackOffset (k + 2))
  | 0 | 1 => by decide
  | k + 2 => by
    simp only [twiceBackChange, twiceBackOffset, day, minute]
    omega

def twiceBackZone : Zone where
  change := twiceBackChange
  offset := twiceBackOffset
  increasing := twiceBack_increasing
  bounded := twiceBack_bounded
  ordered := twiceBack_ordered

lemma twiceBack_changeAligned : ∀ k, minute ∣ twiceBackChange k
  | 0 | 1 => by decide
  | k + 2 => by
    simp only [twiceBackChange, day, minute]
    omega

lemma twiceBack_offsetAligned : ∀ k, minute ∣ twiceBackOffset k
  | 0 | 1 => by decide
  | k + 2 => Int.dvd_zero _

lemma twiceBack_affects (h : twiceBackZone.Affects k w) : w < 180 * minute := by
  match k with
  | 0 => exact h.2.trans (by decide)
  | 1 => exact h.2.trans_le (by decide)
  | k + 2 => exact absurd rfl h.offset_ne

lemma twiceBack_settles (w : Int) :
    ∃ n : Nat, ∀ k, ¬ twiceBackZone.Affects k (w + minute * n) := by
  refine ⟨(180 * minute - w).toNat, fun k hk => ?_⟩
  have := twiceBack_affects hk
  simp only [minute] at this
  omega

def twiceBack : MinuteZone where
  toZone := twiceBackZone
  name := "Etc/TwiceBack"
  changeAligned := twiceBack_changeAligned
  offsetAligned := twiceBack_offsetAligned
  settles := twiceBack_settles
  utc h := absurd h (by decide)

/-- At 01:59 of the first pass, `* * * * *` under `allof` answers 01:00 of the first pass. -/
theorem twiceBack_answers_before_seed :
    computeNextFireAfter (everyMinute twiceBack) (-minute) .allof =
        [⟨60 * minute, false⟩, ⟨60 * minute, true⟩] ∧
      twiceBack.instant ⟨60 * minute, false⟩ = -60 * minute ∧
      ¬ AnswersLeastOwed (everyMinute twiceBack) (-minute) .allof := by
  have hrep : twiceBack.Repeats 0 := show (60 * minute : Int) < 120 * minute by decide
  have htouch : twiceBack.Affects 1 (twiceBack.last 0) :=
    ⟨show (120 * minute + min (60 * minute) 0 : Int) ≤ 0 + max (120 * minute) (60 * minute) by
      decide, show (0 + max (120 * minute) (60 * minute) : Int) < 120 * minute +
        max (60 * minute) 0 by decide⟩
  have hrange : twiceBack.Affects 0 (twiceBack.first 0) := ⟨le_rfl, hrep.first_lt_last⟩
  have hanswer := answer_of_affects_last hrep ⟨1, htouch⟩
  have hinstant := hrange.instant_false
  have hnot := not_answers_of_touching hrep (.inl ⟨1, htouch⟩)
  exact ⟨hanswer, hinstant, hnot⟩

end TaskQ.Cron
