import TaskQ.Cron

namespace TaskQ.Cron
open Timezone Zone MinuteZone Int Nat Bool

section
variable {z : MinuteZone}

lemma MinuteZone.first_aligned (k : Nat) : minute ∣ z.first k := by
  have h1 := z.changeAligned k
  have h2 := z.offsetAligned k
  have h3 := z.offsetAligned (k + 1)
  simp only [first, minute] at *
  omega

lemma MinuteZone.last_aligned (k : Nat) : minute ∣ z.last k := by
  have h1 := z.changeAligned k
  have h2 := z.offsetAligned k
  have h3 := z.offsetAligned (k + 1)
  simp only [last, minute] at *
  omega

lemma add_minute_le (hv : minute ∣ v) (hw : minute ∣ w) (h : v < w) : v + minute ≤ w := by
  simp only [minute] at *
  omega

end

section
variable {z : MinuteZone}

lemma instant_last (hk : z.Skips k) : z.instant ⟨z.last k, false⟩ = z.change k ∧
    z.wall (z.change k) = z.last k := by
  have hlast : z.last k = z.change k + z.offset (k + 1) := by
    simp only [Zone.Skips, last] at hk ⊢
    omega
  have hinc := z.increasing k
  have hera : z.localEra false (z.last k) = k + 1 := by
    refine localEra_eq.mpr ⟨?_, fun j hj => last_le_last (le_of_lt_succ hj)⟩
    rw [hlast]
    simp only [bound, last, if_neg Bool.false_ne_true]
    omega
  have hwall := wall_eq (era_eq_succ le_rfl hinc)
  refine ⟨?_, hwall.trans hlast.symm⟩
  rw [instant, hera]
  dsimp only
  omega

lemma moves_of_skips (hk : z.Skips k) (h : z.Affects k w) (hw : minute ∣ w) :
    moves z ⟨w, false⟩ = true := by
  have hfirst : z.change k ≤ w - z.offset k := by
    have := h.1
    simp only [Zone.Skips, first] at hk this
    omega
  have hlast := hk.last_le_wall hfirst
  have hgap := add_minute_le hw (last_aligned k) h.2
  rw [moves, decide_eq_true_eq, h.instant_false]
  simp only [minute] at *
  omega

lemma isLeast_checkGap (hw : minute ∣ w) :
    IsLeast {u | w ≤ z.wall u} (z.instant (checkGap z ⟨w, false⟩)) := by
  by_cases hgap : ∃ k, z.Skips k ∧ z.Affects k w
  · obtain ⟨k, hk, ha⟩ := hgap
    obtain ⟨n, hn⟩ : ∃ n : Nat, z.last k = w + minute * n := by
      have hlast := last_aligned (z := z) k
      have := ha.2
      refine ⟨((z.last k - w) / minute).toNat, ?_⟩
      simp only [minute] at *
      omega
    have hfind : Nat.find (exists_not_moves z ⟨w, false⟩) = n := by
      rw [Nat.find_eq_iff]
      refine ⟨?_, fun m hm => ?_⟩
      · rw [← hn, moves, (instant_last hk).1, (instant_last hk).2]
        simp
      rw [not_eq_false]
      refine moves_of_skips hk ⟨?_, ?_⟩ ?_
      · have := ha.1
        simp only [minute] at *
        omega
      · rw [hn]
        simp only [minute]
        omega
      · exact Int.dvd_add hw (Int.dvd_mul_right ..)
    rw [checkGap, hfind, ← hn, (instant_last hk).1]
    exact hk.isLeast_change ha
  · have hno : ∀ k, z.Skips k → ¬ z.Affects k w := fun k hk ha => hgap ⟨k, hk, ha⟩
    obtain ⟨hwall, hleast⟩ := isLeast_instant hno
    have hfind : Nat.find (exists_not_moves z ⟨w, false⟩) = 0 := by
      simp [moves, hwall]
    rw [checkGap, hfind]
    simpa using hleast

end

section
variable {z : MinuteZone}

structure Bounds (z : MinuteZone) (w start stop : Int) : Prop where
  start_aligned : minute ∣ start
  stop_aligned : minute ∣ stop
  start_le : start ≤ w
  lt_stop : w < stop
  inside : ∀ v, minute ∣ v → start ≤ v → v < stop → ∃ k, z.Affects k v
  before : ∀ k, ¬ z.Affects k (start - minute)
  after : ∀ k, ¬ z.Affects k stop

lemma floor_affected (h : z.Affects k w) : z.Affects k (w - w % minute) := by
  have h1 := first_aligned (z := z) k
  obtain ⟨h2, h3⟩ := h
  constructor
  all_goals
    simp only [minute] at *
    omega

lemma bounds_of_affects (h : z.Affects k w) :
    ∃ start stop, repeatedRangeBounds z w = some (start, stop) ∧ Bounds z w start stop := by
  obtain ⟨floor, hfloor⟩ : ∃ floor, floor = w - w % minute := ⟨_, rfl⟩
  have hk := hfloor ▸ floor_affected h
  have halign : minute ∣ floor := by
    simp only [minute] at *
    omega
  obtain ⟨n, hn⟩ : ∃ n, Nat.find (exists_unambiguous_before z floor) = n := ⟨_, rfl⟩
  obtain ⟨start, hstart⟩ : ∃ start, start = floor - minute * n := ⟨_, rfl⟩
  obtain ⟨m, hm⟩ : ∃ m, Nat.find (exists_unambiguous_after z start) = m := ⟨_, rfl⟩
  obtain ⟨hbef, hdown⟩ := (Nat.find_eq_iff _).mp hn
  obtain ⟨hafter, hup⟩ := (Nat.find_eq_iff _).mp hm
  have hstartAligned : minute ∣ start := by
    rw [hstart]
    exact Int.dvd_sub halign (Int.dvd_mul_right ..)
  refine ⟨start, start + minute * (m + 1), ?_, ?_⟩
  · rw [repeatedRangeBounds, if_pos (isAmbiguousTime_iff.mpr ⟨k, h⟩)]
    simp only [← hfloor, hn, ← hstart, hm]
  have hlower : ∀ v, minute ∣ v → start ≤ v → v ≤ floor → ∃ k, z.Affects k v := by
    intro v hv hle hge
    rcases lt_or_eq_of_le hge with hlt | rfl
    · have hi := hdown ((floor - v) / minute - 1).toNat (by
        simp only [minute] at *
        omega)
      rw [not_eq_false] at hi
      have heq : floor - minute * ((((floor - v) / minute - 1).toNat : Int) + 1) = v := by
        simp only [minute] at *
        omega
      rw [heq] at hi
      exact isAmbiguousTime_iff.mp hi
    · exact ⟨k, hk⟩
  have hupper : ∀ v, minute ∣ v → start < v → v < start + minute * (m + 1) →
      ∃ k, z.Affects k v := by
    intro v hv hlt hlt'
    have hi := hup ((v - start) / minute - 1).toNat (by
      simp only [minute] at *
      omega)
    rw [not_eq_false] at hi
    have heq : start + minute * ((((v - start) / minute - 1).toNat : Int) + 1) = v := by
      simp only [minute] at *
      omega
    rw [heq] at hi
    exact isAmbiguousTime_iff.mp hi
  have hunaff := isAmbiguousTime_eq_false.mp hafter
  refine ⟨hstartAligned, ?_, ?_, ?_, ?_, ?_, hunaff⟩
  · exact Int.dvd_add hstartAligned (Int.dvd_mul_right ..)
  · simp only [minute] at *
    omega
  · -- the upper walk starts below the wall time, and all in between is affected
    by_contra hge
    obtain ⟨i, hi⟩ := hlower (start + minute * (m + 1))
      (Int.dvd_add hstartAligned (Int.dvd_mul_right ..))
      (by simp only [minute] at *; omega) (by simp only [minute] at *; omega)
    exact hunaff i hi
  · intro v hv hle hlt
    rcases lt_or_eq_of_le hle with hlt' | rfl
    · exact hupper v hv hlt' hlt
    · exact hlower start hv le_rfl (by simp only [minute] at *; omega)
  · have heq : floor - minute * ((n : Int) + 1) = start - minute := by
      rw [hstart, Int.mul_add, Int.mul_one]
      omega
    rw [heq] at hbef
    exact isAmbiguousTime_eq_false.mp hbef

lemma Bounds.start_le_first (hb : Bounds z w start stop) (h : z.Affects k w) :
    start ≤ z.first k := by
  by_contra hlt
  have hle := add_minute_le (first_aligned k) hb.start_aligned (not_le.mp hlt)
  have hw := hb.start_le.trans_lt h.2
  refine hb.before k ⟨by omega, ?_⟩
  simp only [minute]
  omega

lemma Bounds.last_le_stop (hb : Bounds z w start stop) (h : z.Affects k w) : z.last k ≤ stop := by
  by_contra hlt
  exact hb.after k ⟨(h.1.trans hb.lt_stop.le), not_le.mp hlt⟩

lemma Bounds.eq_of_apart (hz : z.Apart) (hb : Bounds z w start stop) (h : z.Affects k w) :
    start = z.first k ∧ stop = z.last k := by
  have hstart := hb.start_le_first h
  have hstop := hb.last_le_stop h
  have hk := h.1.trans_lt h.2
  constructor
  · by_contra hne
    have hlt := lt_of_le_of_ne hstart hne
    have hle := add_minute_le hb.start_aligned (first_aligned k) hlt
    obtain ⟨i, hi⟩ := hb.inside (z.first k - minute)
      (Int.dvd_sub (first_aligned k) (Int.dvd_refl _)) (by omega)
      (by simp only [minute]; omega)
    have hi' := hi.1.trans_lt hi.2
    rcases lt_trichotomy i k with hik | rfl | hik
    · have := add_minute_le (last_aligned i) (first_aligned k)
        (hz i k hik hi' hk)
      have := hi.2
      omega
    · have := hi.1
      simp only [minute] at this
      omega
    · have := (last_le_first hik).trans hi.1
      simp only [minute] at this
      omega
  · by_contra hne
    obtain ⟨i, hi⟩ := hb.inside (z.last k) (last_aligned k) (by omega) (by omega)
    have hi' := hi.1.trans_lt hi.2
    rcases lt_trichotomy i k with hik | rfl | hik
    · have := hi.2.trans_le (last_le_first hik)
      omega
    · exact lt_irrefl _ hi.2
    · exact absurd hi.1 (not_le.mpr (hz k i hik hk hi'))

end

section
variable {z : MinuteZone} {c : Croniter z}

lemma isLeast_walkBeyond (hstart : start ≤ w) (hstop : w < stop) :
    IsLeast {v | stop ≤ v ∧ c.Matches v} (walkBeyond c start stop w) := by
  obtain ⟨n, hn⟩ : ∃ n, Nat.find (exists_outside c start stop w) = n := ⟨_, rfl⟩
  obtain ⟨hout, hin⟩ := (Nat.find_eq_iff _).mp hn
  have hlt : c.getNext^[n] w < stop := by
    cases n with
    | zero => exact hstop
    | succ n => exact (not_not.mp (hin n (Nat.lt_succ_self n))).2
  have hle := c.add_le_iterate (n + 1) w
  rw [walkBeyond, hn]
  refine ⟨⟨?_, ?_⟩, fun v hv => ?_⟩
  · by_contra hnot
    exact hout ⟨by omega, not_le.mp hnot⟩
  · rw [Function.iterate_succ_apply']
    exact c.matches_getNext _
  · rw [Function.iterate_succ_apply']
    exact c.getNext_le hv.2 (hlt.trans_le hv.1)

lemma Owed.allof (h : Owed z.toZone M s u) : Owed z.toZone M .allof u :=
  h.imp_left fun h => ⟨h.1, .inl rfl⟩

lemma owed_iff_reaches (hs : s ≠ .allof) : Owed z.toZone M s u ↔
    ∃ m, M m ∧ IsLeast {v | m ≤ z.wall v} u := by
  constructor
  · rintro (⟨hm, hs' | hleast⟩ | ⟨k, w, hk, ha, hm, rfl⟩)
    · exact absurd hs' hs
    · obtain ⟨hwall, hfirst⟩ := isLeast_instant fun k hk => hk.not_affects_wall (u := u)
      have hu := le_antisymm (hfirst.2 (le_refl (z.wall u))) (hleast _ hwall)
      rw [hu] at hfirst
      exact ⟨z.wall u, hm, hfirst⟩
    · exact ⟨w, hm, hk.isLeast_change ha⟩
  · rintro ⟨m, hm, hleast⟩
    by_cases hgap : ∃ k, z.Skips k ∧ z.Affects k m
    · obtain ⟨k, hk, ha⟩ := hgap
      exact .inr ⟨k, m, hk, ha, hm, hleast.unique (hk.isLeast_change ha)⟩
    obtain ⟨hwall, hfirst⟩ := isLeast_instant fun k hk ha => hgap ⟨k, hk, ha⟩
    have hu := hleast.unique hfirst
    rw [← hu] at hwall
    exact .inl ⟨hwall ▸ hm, .inr fun v hv => hleast.2 (hwall.symm.trans hv.symm).le⟩

lemma isLeast_beyond (hs : s ≠ .allof) (hk : z.Repeats k)
    (hafter : z.first k - z.offset k ≤ u) (hbef : u < z.last k - z.offset (k + 1))
    (hspent : ∀ x, u < x → x < z.change k → ¬ c.Matches (z.wall x))
    (hw : IsLeast {v | z.last k ≤ v ∧ c.Matches v} w) (hv : IsLeast {u | w ≤ z.wall u} v) :
    IsLeast {x | u < x ∧ Owed z.toZone c.Matches s x} v := by
  refine ⟨⟨?_, (owed_iff_reaches hs).mpr ⟨w, hw.1.2, hv⟩⟩, ?_⟩
  · by_contra hle
    have hwall : z.wall v < z.last k :=
      wall_lt_last_iff.mpr ((not_lt.mp hle).trans_lt hbef)
    exact absurd (hw.1.1.trans hv.1) (not_le.mpr hwall)
  · rintro x ⟨hx, howed⟩
    obtain ⟨m, hm, hreach⟩ := (owed_iff_reaches hs).mp howed
    have hlast : z.last k ≤ m := by
      by_contra hlt
      have hm' := add_minute_le (c.aligned m hm) (last_aligned k) (not_le.mp hlt)
      have hchg : z.last k = z.change k + z.offset k := hk.last_eq
      have hrange := add_minute_le (first_aligned k) (last_aligned k)
        hk.first_lt_last
      have hpos : 0 < minute := by decide
      -- the last minute of the first pass has reached `m`
      have hy : z.wall (z.change k - minute) = z.change k - minute + z.offset k :=
        wall_eq (era_of_first_le (by omega) (by omega))
      have hym : m ≤ z.wall (z.change k - minute) := by omega
      have hxy : x ≤ z.change k - minute := hreach.2 hym
      have hwall : z.wall x = x + z.offset k :=
        wall_eq (era_of_first_le (by omega) (by omega))
      have hpred : z.wall (x - 1) = x - 1 + z.offset k :=
        wall_eq (era_of_first_le (by omega) (by omega))
      have hle : m ≤ z.wall x := hreach.1
      have hnot : ¬ m ≤ z.wall (x - 1) := fun hge => by
        have := hreach.2 hge
        omega
      have heq : z.wall x = m := by omega
      exact hspent x hx (by omega) (heq ▸ hm)
    exact hv.2 ((hw.2 ⟨hlast, hm⟩).trans hreach.1)

end

section
variable {z : MinuteZone} {c : Croniter z}

def AnswersLeastOwed (c : Croniter z) (after : Int) (s : DstStrategy) : Prop :=
  ∃ d rest, computeNextFireAfter c after s = d :: rest ∧
    IsLeast {v | after < v ∧ Owed z.toZone c.Matches s v} (z.instant d)

lemma bounds_of_apart (hz : z.Apart) (h : z.Affects k w) :
    repeatedRangeBounds z w = some (z.first k, z.last k) := by
  obtain ⟨start, stop, hbd, hb⟩ := bounds_of_affects h
  obtain ⟨rfl, rfl⟩ := hb.eq_of_apart hz h
  exact hbd

lemma bounds_of_unaffected (h : ∀ k, ¬ z.Affects k w) : repeatedRangeBounds z w = none := by
  rw [repeatedRangeBounds, isAmbiguousTime_eq_false.mpr h, if_neg Bool.false_ne_true]

lemma naive_localize (u : Int) : (z.localize u).naive = z.wall u := rfl

lemma nextFold1Fire_before (hz : z.Apart) (h : z.Affects k (z.wall u)) (hu : u < z.change k) :
    nextFold1Fire c (z.localize u) =
      if c.getNext (z.wall u) < z.last k ∨ z.last k ≤ c.getNext (z.first k - second) then none
      else some ⟨c.getNext (z.first k - second), true⟩ := by
  rw [nextFold1Fire, (h.before hu).2.2, if_neg Bool.false_ne_true, naive_localize,
    bounds_of_apart hz h]
  dsimp only
  by_cases h1 : c.getNext (z.wall u) < z.last k
  · rw [if_pos h1, if_pos (.inl h1)]
  by_cases h2 : z.last k ≤ c.getNext (z.first k - second)
  · rw [if_neg h1, if_pos h2, if_pos (.inr h2)]
  · rw [if_neg h1, if_neg h2, if_neg (not_or.mpr ⟨h1, h2⟩)]

lemma isLeast_secondPass (h : z.Affects k (z.wall u)) (hu : u < z.change k)
    (hspent : z.last k ≤ c.getNext (z.wall u)) (hlt : c.getNext (z.first k - second) < z.last k) :
    IsLeast {v | u < v ∧ Owed z.toZone c.Matches .allof v}
      (z.instant ⟨c.getNext (z.first k - second), true⟩) := by
  obtain ⟨hrep, hera, -⟩ := h.before hu
  have hmatch := c.matches_getNext (z.first k - second)
  have hfirst : z.first k ≤ c.getNext (z.first k - second) := by
    have h1 := c.aligned _ hmatch
    have h2 := first_aligned (z := z) k
    have h3 := c.lt_getNext (z.first k - second)
    simp only [minute, second] at *
    omega
  have hchg := hrep.first_eq
  have hlast := hrep.last_eq
  have hwallu := wall_eq hera
  rw [(show z.Affects k _ from ⟨hfirst, hlt⟩).instant_true]
  have herav : z.era (c.getNext (z.first k - second) - z.offset (k + 1)) = k + 1 :=
    era_of_lt_last (by omega) (by omega)
  refine ⟨⟨by omega, .inl ⟨?_, .inl rfl⟩⟩, ?_⟩
  · rw [wall_eq herav, Int.sub_add_cancel]
    exact hmatch
  · rintro x ⟨hux, howed⟩
    by_contra hxv
    rcases howed with ⟨hm, -⟩ | ⟨i, w, hi, -, -, rfl⟩
    · by_cases hx : x < z.change k
      · have herax := era_of_first_le (by have := h.1; omega) hx
        rw [wall_eq herax] at hm
        have := c.getNext_le hm (show z.wall u < _ by omega)
        omega
      · have herax := era_of_lt_last (not_lt.mp hx) (by omega)
        rw [wall_eq herax] at hm
        have := c.getNext_le hm (show z.first k - second < _ by simp only [second]; omega)
        omega
    · have hnext := lt_change_era (z := z.toZone)
        (c.getNext (z.first k - second) - z.offset (k + 1))
      rw [herav] at hnext
      have hik := eq_era_of_change hux (by rw [hera]; omega)
      rw [hik, hera] at hi
      exact lt_asymm hi hrep

lemma isLeast_nextFold1Fire (hz : z.Apart) (h : nextFold1Fire c (z.localize u) = some d) :
    IsLeast {v | u < v ∧ Owed z.toZone c.Matches .allof v} (z.instant d) := by
  by_cases haff : ∃ k, z.Affects k (z.wall u)
  · obtain ⟨k, hk⟩ := haff
    by_cases hu : u < z.change k
    · rw [nextFold1Fire_before hz hk hu] at h
      split at h
      · cases h
      next hnot =>
        cases h
        obtain ⟨hspent, hlt⟩ := not_or.mp hnot
        exact isLeast_secondPass hk hu (not_lt.mp hspent) (not_le.mp hlt)
    · rw [nextFold1Fire, (hk.after (not_lt.mp hu)).2.2, if_pos rfl] at h
      cases h
  · rw [nextFold1Fire, naive_localize, bounds_of_unaffected (not_exists.mp haff)] at h
    split at h
    · cases h
    · cases h

lemma unaffected_gapEnd (hz : z.Apart) (hi : z.Skips i) : ¬ z.Affects k (z.wall (z.change i)) := by
  rw [(instant_last hi).2]
  intro hk
  have hne : z.first i < z.last i := by
    rw [hi.first_eq, hi.last_eq]
    exact Int.add_lt_add_left hi _
  rcases lt_trichotomy i k with hik | rfl | hik
  · exact absurd hk.1 (not_le.mpr (hz i k hik hne (hk.1.trans_lt hk.2)))
  · exact lt_irrefl _ hk.2
  · exact absurd hk.2 (not_lt.mpr ((last_le_first hik).trans hne.le))

section
variable (hz : z.Apart) (hv : IsLeast {v | u < v ∧ Owed z.toZone c.Matches .allof v} v)
  (hk : z.Affects k (z.wall v))
include hz hv hk

lemma matches_of_affects : c.Matches (z.wall v) := by
  rcases hv.1.2 with ⟨hm, -⟩ | ⟨i, w, hi, -, -, rfl⟩
  · exact hm
  · exact absurd hk (unaffected_gapEnd hz hi)

lemma earlier_le_seed (hc : z.change k ≤ v) :
    z.wall v - z.offset k ≤ u ∧ ∀ x, u < x → x < z.change k → ¬ c.Matches (z.wall x) := by
  have hrep := (hk.after hc).1
  have hlast := hrep.last_eq
  have hlt := hk.2
  have hfirst := hk.1
  have hera : z.era (z.wall v - z.offset k) = k := era_of_first_le (by omega) (by omega)
  have hwall : z.wall (z.wall v - z.offset k) = z.wall v := by
    rw [wall_eq hera, Int.sub_add_cancel]
  have hspent : ∀ x, u < x → x < z.change k → ¬ c.Matches (z.wall x) := by
    intro x hx hxk hm
    have := hv.2 ⟨hx, .inl ⟨hm, .inl rfl⟩⟩
    omega
  refine ⟨le_of_not_gt fun hgt => ?_, hspent⟩
  refine hspent _ hgt (by omega) ?_
  rw [hwall]
  exact matches_of_affects hz hv hk

lemma isLeast_walked (hs : s ≠ .allof) (hc : z.change k ≤ v) :
    IsLeast {x | u < x ∧ Owed z.toZone c.Matches s x}
      (z.instant (checkGap z ⟨walkBeyond c (z.first k) (z.last k) (z.wall v), false⟩)) := by
  obtain ⟨hrep, hera, -⟩ := hk.after hc
  obtain ⟨hle, hspent⟩ := earlier_le_seed hz hv hk hc
  have hbeyond : IsLeast _ (walkBeyond c (z.first k) (z.last k) (z.wall v)) :=
    isLeast_walkBeyond hk.1 hk.2
  have huv := hv.1.1
  have hwall := wall_eq hera
  have hfirst := hk.1
  have hlast := hk.2
  exact isLeast_beyond hs hrep (by omega) (by omega) hspent hbeyond
    (isLeast_checkGap (c.aligned _ hbeyond.1.2))

end

lemma localize_after (hk : z.Affects k (z.wall u)) (hu : z.change k ≤ u) :
    z.instant ⟨z.wall u, true⟩ = u := by
  have hfold := (hk.after hu).2.2
  have := instant_localize (z := z.toZone) u
  rwa [show z.localize u = ⟨z.wall u, true⟩ from LocalTime.ext rfl hfold] at this

lemma localize_before (hk : z.Affects k (z.wall u)) (hu : u < z.change k) :
    z.instant ⟨z.wall u, false⟩ = u := by
  have hfold := (hk.before hu).2.2
  have := instant_localize (z := z.toZone) u
  rwa [show z.localize u = ⟨z.wall u, false⟩ from LocalTime.ext rfl hfold] at this

lemma fold1SeedFire_after (hz : z.Apart) (hk : z.Affects k (z.wall u)) (hu : z.change k ≤ u)
    (hv : c.getNextAware (z.localize u) = z.localize v) : fold1SeedFire c (z.localize u) s =
      if z.first k ≤ z.wall v ∧ z.wall v < z.last k then
        some (if s = .allof then ⟨z.wall v, true⟩
          else checkGap z ⟨walkBeyond c (z.first k) (z.last k) (z.wall v), false⟩)
      else none := by
  rw [fold1SeedFire, (hk.after hu).2.2, if_pos rfl, naive_localize, bounds_of_apart hz hk, hv]
  rfl

lemma isLeast_fold1SeedFire (hz : z.Apart) (h : fold1SeedFire c (z.localize u) s = some d) :
    IsLeast {x | u < x ∧ Owed z.toZone c.Matches s x} (z.instant d) := by
  cases hfold : (z.localize u).fold with
  | false =>
    rw [fold1SeedFire, hfold, if_neg Bool.false_ne_true] at h
    cases h
  | true =>
    obtain ⟨k, hk, hu⟩ := affects_of_fold hfold
    obtain ⟨v, hv, hleast⟩ := c.getNextAware_isLeast u
    rw [fold1SeedFire_after hz hk hu hv] at h
    obtain ⟨hin, h⟩ := Option.ite_none_right_eq_some.mp h
    have hc := hu.trans hleast.1.1.le
    split at h
    next hs =>
      cases h
      subst hs
      rw [localize_after hin hc]
      exact hleast
    next hs =>
      cases h
      exact isLeast_walked hz hleast hin hs hc

lemma moves_localize (v : Int) : moves z (z.localize v) = false := by
  rw [moves, instant_localize, naive_localize]
  simp

lemma isLeast_of_fold (hv : IsLeast {v | u < v ∧ Owed z.toZone c.Matches .allof v} v)
    (hfold : (z.localize v).fold = false) :
    IsLeast {x | u < x ∧ Owed z.toZone c.Matches s x} v := by
  have hinst : z.instant ⟨z.wall v, false⟩ = v := by
    have := instant_localize (z := z.toZone) v
    rwa [show z.localize v = ⟨z.wall v, false⟩ from LocalTime.ext rfl hfold] at this
  obtain ⟨-, hfirst⟩ := isLeast_instant fun k hk => hk.not_affects_wall (u := v)
  rw [hinst] at hfirst
  refine ⟨⟨hv.1.1, hv.1.2.imp_left fun h => ⟨h.1, .inr fun x hx => hfirst.2 hx.ge⟩⟩, ?_⟩
  exact fun x hx => hv.2 ⟨hx.1, hx.2.allof⟩

lemma nextFold1Fire_of_candidate (hz : z.Apart)
    (hv : c.getNextAware (z.localize u) = z.localize v)
    (hleast : IsLeast {v | u < v ∧ Owed z.toZone c.Matches .allof v} v)
    (hk : z.Affects k (z.wall v)) (hc : z.change k ≤ v)
    (hseed : fold1SeedFire c (z.localize u) s = none) : nextFold1Fire c (z.localize u) ≠ none := by
  obtain ⟨hrep, hera, -⟩ := hk.after hc
  obtain ⟨hle, hspent⟩ := earlier_le_seed hz hleast hk hc
  have hwallv := wall_eq hera
  have hlast := hrep.last_eq
  have huv := hleast.1.1
  have hfirst := hk.1
  have hlt := hk.2
  by_cases hu : u < z.change k
  · have hwallu := wall_eq (era_of_first_le (by omega) hu)
    have hku : z.Affects k (z.wall u) := ⟨by omega, by omega⟩
    rw [nextFold1Fire_before hz hku hu, if_neg]
    · exact Option.some_ne_none _
    rintro (hmore | hnone)
    · -- a match left in the first pass would be the candidate
      have hwall : z.wall (c.getNext (z.wall u) - z.offset k) = c.getNext (z.wall u) := by
        have := c.lt_getNext (z.wall u)
        rw [wall_eq (era_of_first_le (k := k) (by omega) (by omega)),
          Int.sub_add_cancel]
      have := c.lt_getNext (z.wall u)
      refine hspent (c.getNext (z.wall u) - z.offset k) (by omega) (by omega) ?_
      rw [hwall]
      exact c.matches_getNext _
    · have := c.getNext_le (matches_of_affects hz hleast hk)
        (show z.first k - second < _ by simp only [second]; omega)
      omega
  · have hu := not_lt.mp hu
    have hwallu := wall_eq (era_of_lt_last hu (by omega))
    have hku : z.Affects k (z.wall u) := ⟨first_le_wall hu, by omega⟩
    rw [fold1SeedFire_after hz hku hu hv, if_pos ⟨hk.1, hk.2⟩] at hseed
    cases hseed

lemma isLeast_walkedFires (hz : z.Apart)
    (hfold1 : s = .allof → nextFold1Fire c (z.localize u) = none)
    (hseed : fold1SeedFire c (z.localize u) s = none) : ∃ d rest, walkedFires c u s = d :: rest ∧
      IsLeast {v | u < v ∧ Owed z.toZone c.Matches s v} (z.instant d) := by
  obtain ⟨v, hv, hleast⟩ := c.getNextAware_isLeast u
  rw [walkedFires, hv]
  split
  next hutc =>
    refine ⟨_, _, rfl, ?_⟩
    rw [instant_localize]
    refine isLeast_of_fold hleast (eq_false_of_not_eq_true fun hfold => ?_)
    obtain ⟨k, hk, -⟩ := affects_of_fold hfold
    exact hk.offset_ne (by rw [z.utc hutc.2, z.utc hutc.2])
  · rw [moves_localize, if_neg Bool.false_ne_true, naive_localize]
    split
    next hamb =>
      obtain ⟨k, hk⟩ := isAmbiguousTime_iff.mp hamb
      by_cases hc : v < z.change k
      · have hinst := localize_before hk hc
        have hfold := (hk.before hc).2.2
        split
        · refine ⟨_, _, rfl, ?_⟩
          rw [foldToUtc, naive_localize, hinst]
          exact isLeast_of_fold hleast hfold
        · rw [foldToUtc, naive_localize, hinst, if_pos hleast.1.1]
          refine ⟨_, _, rfl, ?_⟩
          rw [hinst]
          exact isLeast_of_fold hleast hfold
      · have hc := not_lt.mp hc
        obtain ⟨hle, -⟩ := earlier_le_seed hz hleast hk hc
        split
        next hs =>
          exact absurd (hfold1 hs) (nextFold1Fire_of_candidate hz hv hleast hk hc hseed)
        next hs =>
          rw [foldToUtc, naive_localize, hk.instant_false, if_neg (not_lt.mpr hle)]
          refine ⟨_, _, rfl, ?_⟩
          rw [firstMatchBeyondRepeatedRange, naive_localize, bounds_of_apart hz hk]
          exact isLeast_walked hz hleast hk hs hc
    next hamb =>
      refine ⟨_, _, rfl, ?_⟩
      rw [instant_localize]
      refine isLeast_of_fold hleast (eq_false_of_not_eq_true fun hfold => ?_)
      obtain ⟨k, hk, -⟩ := affects_of_fold hfold
      exact hamb (isAmbiguousTime_iff.mpr ⟨k, hk⟩)

lemma answersLeastOwed_of_apart (hz : z.Apart) (c : Croniter z) (after : Int)
    (s : DstStrategy) : AnswersLeastOwed c after s := by
  rw [AnswersLeastOwed, computeNextFireAfter]
  split
  next d hd =>
    split at hd
    next hs =>
      subst hs
      exact ⟨d, [], rfl, isLeast_nextFold1Fire hz hd⟩
    · cases hd
  next hnone =>
    split
    next d hd => exact ⟨d, [], rfl, isLeast_fold1SeedFire hz hd⟩
    next hseed =>
      refine isLeast_walkedFires hz (fun hs => ?_) hseed
      rwa [if_pos hs] at hnone

end

end TaskQ.Cron
