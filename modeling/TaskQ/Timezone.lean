import Mathlib.Data.Nat.Find
import Mathlib.Order.Bounds.Basic
import Mathlib.Order.Monotone.Basic

namespace Timezone

/-- Ints are microseconds in UTC, wall times are the microseconds a local clock shows. -/
def minute : Int := 60000000

def day : Int := 1440 * minute

/-- A time zone by its changes in order, of which no two affect one wall time. -/
structure Zone where
  (change offset : Nat → Int)
  increasing : ∀ k, change k < change (k + 1)
  bounded : ∀ k, -day < offset k ∧ offset k < day
  ordered : ∀ k, change k + max (offset k) (offset (k + 1)) ≤
    change (k + 1) + min (offset (k + 1)) (offset (k + 2))

/-- A wall time with the bit that tells the two occurrences of a repeated one apart. -/
@[ext]
structure LocalTime where
  naive : Int
  fold : Bool

namespace Zone
variable (z : Zone)

/-- The wall times that change `k` skips or repeats start here. -/
def first (k : Nat) : Int := z.change k + min (z.offset k) (z.offset (k + 1))

def last (k : Nat) : Int := z.change k + max (z.offset k) (z.offset (k + 1))

def Skips (k : Nat) : Prop := z.offset k < z.offset (k + 1)

def Repeats (k : Nat) : Prop := z.offset (k + 1) < z.offset k

def Affects (k : Nat) (w : Int) : Prop := z.first k ≤ w ∧ w < z.last k

def Apart : Prop :=
  ∀ i j, i < j → z.first i < z.last i → z.first j < z.last j → z.last i < z.first j

section
variable {z}

lemma first_le_last (k : Nat) : z.first k ≤ z.last k := by
  simp only [first, last]
  omega

lemma last_le_first_succ (k : Nat) : z.last k ≤ z.first (k + 1) := z.ordered k

lemma first_le_first (h : i ≤ j) : z.first i ≤ z.first j := by
  induction h with
  | refl => exact le_rfl
  | step _ ih => exact ih.trans ((first_le_last _).trans (last_le_first_succ _))

lemma last_le_first (h : i < j) : z.last i ≤ z.first j :=
  (last_le_first_succ i).trans (first_le_first h)

lemma last_le_last (h : i ≤ j) : z.last i ≤ z.last j := by
  rcases Nat.eq_or_lt_of_le h with rfl | h
  · exact le_rfl
  · exact (last_le_first h).trans (first_le_last j)

lemma change_le (h : i ≤ j) : z.change i ≤ z.change j :=
  (strictMono_nat_of_lt_succ z.increasing).monotone h

lemma lt_of_change_lt (h : z.change i < z.change j) : i < j :=
  (strictMono_nat_of_lt_succ z.increasing).lt_iff_lt.mp h

lemma change_zero_add_le (k : Nat) : z.change 0 + k ≤ z.change k := by
  induction k with
  | zero => simp
  | succ k ih =>
    have := z.increasing k
    omega

lemma Repeats.first_eq (h : z.Repeats k) : z.first k = z.change k + z.offset (k + 1) := by
  simp only [Repeats, first] at h ⊢
  omega

lemma Repeats.last_eq (h : z.Repeats k) : z.last k = z.change k + z.offset k := by
  simp only [Repeats, last] at h ⊢
  omega

lemma Repeats.first_lt_last (h : z.Repeats k) : z.first k < z.last k := by
  rw [h.first_eq, h.last_eq]
  simp only [Repeats] at h
  omega

lemma Skips.first_eq (h : z.Skips k) : z.first k = z.change k + z.offset k := by
  simp only [Skips, first] at h ⊢
  omega

lemma Skips.last_eq (h : z.Skips k) : z.last k = z.change k + z.offset (k + 1) := by
  simp only [Skips, last] at h ⊢
  omega

end

lemma exists_lt_change (u : Int) : ∃ k, u < z.change k := by
  refine ⟨(u - z.change 0 + 1).toNat, ?_⟩
  have := z.change_zero_add_le (u - z.change 0 + 1).toNat
  omega

/-- What `zoneinfo` bisects: fold 0 keeps the old offset for affected wall times, fold 1 the new. -/
def bound (fold : Bool) (k : Nat) : Int := if fold then z.first k else z.last k

lemma exists_lt_bound (fold : Bool) (w : Int) : ∃ k, w < z.bound fold k := by
  obtain ⟨k, hk⟩ := z.exists_lt_change (w + day)
  have hfirst : w < z.first k := by
    have h1 := z.bounded k
    have h2 := z.bounded (k + 1)
    simp only [first]
    omega
  refine ⟨k, ?_⟩
  cases fold with
  | true => exact hfirst
  | false => exact hfirst.trans_le (first_le_last k)

def era (u : Int) : Nat := Nat.find (z.exists_lt_change u)

def localEra (fold : Bool) (w : Int) : Nat := Nat.find (z.exists_lt_bound fold w)

/-- `astimezone(tz)`. -/
def localize (u : Int) : LocalTime where
  naive := u + z.offset (z.era u)
  fold := match z.era u with
    | 0 => false
    | k + 1 => decide (u - z.change k < z.offset k - z.offset (k + 1))

/-- `astimezone(UTC)`. -/
def instant (d : LocalTime) : Int := d.naive - z.offset (z.localEra d.fold d.naive)

def wall (u : Int) : Int := (z.localize u).naive

section
variable {z}

lemma era_eq : z.era u = k ↔ u < z.change k ∧ ∀ j < k, z.change j ≤ u := by
  simp only [era, Nat.find_eq_iff, not_lt]

lemma lt_change_era (u : Int) : u < z.change (z.era u) := Nat.find_spec (z.exists_lt_change u)

lemma change_le_of_lt_era (h : k < z.era u) : z.change k ≤ u := (era_eq.mp rfl).2 k h

lemma era_le_of_lt_change (h : u < z.change k) : z.era u ≤ k :=
  Nat.find_min' (z.exists_lt_change u) h

lemma lt_era_of_change_le (h : z.change k ≤ u) : k < z.era u := by
  by_contra hk
  have := (lt_change_era u).trans_le (change_le (not_lt.mp hk))
  omega

lemma era_eq_succ (h : z.change k ≤ u) (h' : u < z.change (k + 1)) : z.era u = k + 1 :=
  Nat.le_antisymm (era_le_of_lt_change h') (lt_era_of_change_le h)

lemma eq_era_of_change (h : u < z.change k) (h' : z.change k < z.change (z.era u + 1)) :
    k = z.era u :=
  Nat.le_antisymm (Nat.le_of_lt_succ (lt_of_change_lt h')) (era_le_of_lt_change h)

lemma era_of_first_le (h : z.first k - z.offset k ≤ u) (h' : u < z.change k) : z.era u = k := by
  refine era_eq.mpr ⟨h', fun j hj => ?_⟩
  obtain ⟨i, rfl⟩ := Nat.exists_eq_add_of_lt hj
  have hchg : z.change j ≤ z.change (j + i) := change_le (Nat.le_add_right j i)
  have hlast := last_le_first_succ (z := z) (j + i)
  simp only [last] at hlast
  omega

lemma wall_eq (h : z.era u = k) : z.wall u = u + z.offset k := by
  rw [← h]
  rfl

lemma wall_lt_last (h : u < z.change k) : z.wall u < z.last k := by
  have hlt := lt_change_era (z := z) u
  have hle : z.last (z.era u) ≤ z.last k := last_le_last (era_le_of_lt_change h)
  rw [wall_eq rfl]
  refine lt_of_lt_of_le ?_ hle
  simp only [last]
  omega

lemma first_le_wall (h : z.change k ≤ u) : z.first k ≤ z.wall u := by
  obtain ⟨i, hi⟩ := Nat.exists_eq_add_of_lt (lt_era_of_change_le h)
  have hle : z.first k ≤ z.first (k + i) := first_le_first (Nat.le_add_right k i)
  have hchg : z.change (k + i) ≤ u := change_le_of_lt_era (by omega)
  rw [wall_eq hi]
  refine hle.trans ?_
  simp only [first]
  omega

lemma Skips.wall_lt_first (hk : z.Skips k) (h : u < z.change k) : z.wall u < z.first k := by
  rcases Nat.eq_or_lt_of_le (era_le_of_lt_change h) with he | he
  · rw [wall_eq he]
    simp only [Skips, first] at hk ⊢
    omega
  · have hlast := wall_lt_last (lt_change_era (z := z) u)
    exact hlast.trans_le (last_le_first he)

lemma era_of_lt_last (h : z.change k ≤ u) (h' : u < z.last k - z.offset (k + 1)) :
    z.era u = k + 1 := by
  have hnext := last_le_first_succ (z := z) k
  refine era_eq_succ h ?_
  simp only [first] at hnext
  omega

lemma last_le_wall (h : z.last k - z.offset (k + 1) ≤ u) : z.last k ≤ z.wall u := by
  by_cases hu : u < z.change (k + 1)
  · have hchg : z.change k ≤ u := by
      simp only [last] at h
      omega
    rw [wall_eq (era_eq_succ hchg hu)]
    omega
  · exact (last_le_first_succ k).trans (first_le_wall (not_lt.mp hu))

lemma wall_lt_last_iff : z.wall u < z.last k ↔ u < z.last k - z.offset (k + 1) := by
  refine ⟨fun h => lt_of_not_ge fun hge => absurd h (not_lt.mpr (last_le_wall hge)), fun h => ?_⟩
  by_cases hu : u < z.change k
  · exact wall_lt_last hu
  · rw [wall_eq (era_of_lt_last (not_lt.mp hu) h)]
    omega

lemma Skips.last_le_wall (hk : z.Skips k) (h : z.change k ≤ u) : z.last k ≤ z.wall u := by
  refine Zone.last_le_wall (le_trans ?_ h)
  simp only [Skips, last] at hk ⊢
  omega

end

section
variable {z}

lemma localEra_eq : z.localEra fold w = k ↔ w < z.bound fold k ∧ ∀ j < k, z.bound fold j ≤ w := by
  simp only [localEra, Nat.find_eq_iff, not_lt]

section
variable (h : z.Affects k w)
include h

lemma Affects.localEra_false : z.localEra false w = k :=
  localEra_eq.mpr ⟨h.2, fun _ hj => (last_le_first hj).trans h.1⟩

lemma Affects.localEra_true : z.localEra true w = k + 1 :=
  localEra_eq.mpr ⟨h.2.trans_le (last_le_first_succ k),
    fun _ hj => (first_le_first (Nat.le_of_lt_succ hj)).trans h.1⟩

lemma Affects.instant_false : z.instant ⟨w, false⟩ = w - z.offset k := by
  rw [instant, h.localEra_false]

lemma Affects.instant_true : z.instant ⟨w, true⟩ = w - z.offset (k + 1) := by
  rw [instant, h.localEra_true]

lemma Affects.offset_ne : z.offset k ≠ z.offset (k + 1) := by
  obtain ⟨h1, h2⟩ := h
  simp only [first, last] at h1 h2
  omega

end

lemma localEra_of_unaffected (h : ∀ k, ¬ z.Affects k w) :
    z.localEra true w = z.localEra false w := by
  obtain ⟨hlt, hle⟩ := localEra_eq.mp (rfl : z.localEra false w = _)
  refine localEra_eq.mpr ⟨?_, fun j hj => (first_le_last j).trans (hle j hj)⟩
  exact lt_of_not_ge fun hge => h _ ⟨hge, hlt⟩

lemma instant_ne_iff : z.instant ⟨w, false⟩ ≠ z.instant ⟨w, true⟩ ↔ ∃ k, z.Affects k w := by
  constructor
  · intro hne
    by_contra hnone
    refine hne ?_
    rw [instant, instant, localEra_of_unaffected (not_exists.mp hnone)]
  · rintro ⟨k, hk⟩ heq
    rw [hk.instant_false, hk.instant_true] at heq
    exact hk.offset_ne (by omega)

lemma fold_of_era_succ (h : z.era u = k + 1) :
    (z.localize u).fold = decide (u - z.change k < z.offset k - z.offset (k + 1)) := by
  simp only [localize, h]

lemma Affects.before (h : z.Affects k (z.wall u)) (hu : u < z.change k) :
    z.Repeats k ∧ z.era u = k ∧ (z.localize u).fold = false := by
  have hera : z.era u = k := by
    refine Nat.le_antisymm (era_le_of_lt_change hu) (Nat.le_of_not_lt fun hlt => ?_)
    have hlast := (wall_lt_last (lt_change_era u)).trans_le (last_le_first (z := z) hlt)
    exact absurd h.1 (not_le.mpr hlast)
  refine ⟨?_, hera, ?_⟩
  · have hskip : ¬ z.Skips k := fun hk => absurd h.1 (not_le.mpr (hk.wall_lt_first hu))
    exact lt_of_le_of_ne (not_lt.mp hskip) h.offset_ne.symm
  cases k with
  | zero => simp only [localize, hera]
  | succ k =>
    rw [fold_of_era_succ hera, decide_eq_false_iff_not, not_lt]
    have hlast := (last_le_first_succ (z := z) k).trans h.1
    rw [wall_eq hera] at hlast
    simp only [last] at hlast
    omega

lemma Affects.after (h : z.Affects k (z.wall u)) (hu : z.change k ≤ u) :
    z.Repeats k ∧ z.era u = k + 1 ∧ (z.localize u).fold = true := by
  have hera : z.era u = k + 1 := by
    refine era_eq_succ hu (lt_of_not_ge fun hge => ?_)
    have hlast := (last_le_first_succ k).trans (first_le_wall hge)
    exact absurd h.2 (not_lt.mpr hlast)
  have hrep : z.Repeats k := by
    have hskip : ¬ z.Skips k := fun hk => absurd h.2 (not_lt.mpr (hk.last_le_wall hu))
    exact lt_of_le_of_ne (not_lt.mp hskip) h.offset_ne.symm
  refine ⟨hrep, hera, ?_⟩
  rw [fold_of_era_succ hera, decide_eq_true_eq]
  have hlast := h.2
  rw [wall_eq hera] at hlast
  simp only [Repeats, last] at hrep hlast
  omega

lemma Skips.not_affects_wall (hk : z.Skips k) : ¬ z.Affects k (z.wall u) := by
  intro h
  have hrep : z.Repeats k := by
    by_cases hu : u < z.change k
    · exact (h.before hu).1
    · exact (h.after (not_lt.mp hu)).1
  exact lt_asymm hk hrep

lemma affects_of_fold (h : (z.localize u).fold = true) :
    ∃ k, z.Affects k (z.wall u) ∧ z.change k ≤ u := by
  cases hera : z.era u with
  | zero => simp [localize, hera] at h
  | succ k =>
    have hu : z.change k ≤ u := change_le_of_lt_era (by omega)
    rw [fold_of_era_succ hera, decide_eq_true_eq] at h
    refine ⟨k, ⟨first_le_wall hu, ?_⟩, hu⟩
    rw [wall_eq hera]
    simp only [last]
    omega

lemma localEra_wall (h : (z.localize u).fold = false) :
    z.localEra false (z.wall u) = z.era u := by
  refine localEra_eq.mpr ⟨wall_lt_last (lt_change_era u), fun j hj => ?_⟩
  have hu := change_le_of_lt_era hj
  by_contra hlt
  have := Affects.after ⟨first_le_wall hu, not_le.mp hlt⟩ hu
  rw [h] at this
  cases this.2.2

lemma instant_localize (u : Int) : z.instant (z.localize u) = u := by
  cases h : (z.localize u).fold with
  | false =>
    have hera := localEra_wall h
    rw [instant, h, show (z.localize u).naive = z.wall u from rfl, hera, wall_eq rfl]
    omega
  | true =>
    obtain ⟨k, hk, hu⟩ := affects_of_fold h
    have hera := (hk.after hu).2.1
    rw [instant, h, show (z.localize u).naive = z.wall u from rfl, hk.localEra_true, wall_eq hera]
    omega

lemma isLeast_instant (h : ∀ k, z.Skips k → ¬ z.Affects k w) :
    z.wall (z.instant ⟨w, false⟩) = w ∧ IsLeast {u | w ≤ z.wall u} (z.instant ⟨w, false⟩) := by
  obtain ⟨k, hk⟩ : ∃ k, z.localEra false w = k := ⟨_, rfl⟩
  obtain ⟨hlt, hle⟩ := localEra_eq.mp hk
  have hinst : z.instant ⟨w, false⟩ = w - z.offset k := by rw [instant, hk]
  have hupper : w - z.offset k < z.change k := by
    by_cases hskip : z.Skips k
    · have hfirst : w < z.first k := lt_of_not_ge fun hge => h k hskip ⟨hge, hlt⟩
      simp only [first] at hfirst
      omega
    · simp only [bound, last, Skips] at hlt hskip
      rw [if_neg Bool.false_ne_true] at hlt
      omega
  have hera : z.era (w - z.offset k) = k := by
    refine era_eq.mpr ⟨hupper, fun j hj => ?_⟩
    obtain ⟨i, rfl⟩ := Nat.exists_eq_add_of_lt hj
    have hlast : z.last (j + i) ≤ w := hle (j + i) (Nat.lt_succ_self _)
    have hchg : z.change j ≤ z.change (j + i) := change_le (Nat.le_add_right j i)
    simp only [last] at hlast
    omega
  have hwall : z.wall (w - z.offset k) = w := by
    rw [wall_eq hera]
    omega
  rw [hinst]
  refine ⟨hwall, hwall.ge, fun u hu => ?_⟩
  by_contra hlt'
  have hu' : u < z.change k := (not_le.mp hlt').trans hupper
  rcases Nat.eq_or_lt_of_le (era_le_of_lt_change hu') with he | he
  · have hu : w ≤ z.wall u := hu
    rw [wall_eq he] at hu
    omega
  · have hlast : z.wall u < z.last (z.era u) := wall_lt_last (lt_change_era u)
    have hbound : z.last (z.era u) ≤ w := hle _ he
    have hu : w ≤ z.wall u := hu
    omega

lemma Skips.isLeast_change (hk : z.Skips k) (h : z.Affects k w) :
    IsLeast {u | w ≤ z.wall u} (z.change k) := by
  refine ⟨h.2.le.trans (hk.last_le_wall le_rfl), fun u hu => ?_⟩
  by_contra hlt
  have hwall := hk.wall_lt_first (not_le.mp hlt)
  have := h.1.trans hu
  omega

end

end Zone

end Timezone
