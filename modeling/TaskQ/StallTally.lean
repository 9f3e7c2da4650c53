import Mathlib.Data.List.MinMax
import Mathlib.Data.List.Nodup
import Mathlib.Data.Prod.Lex
import Mathlib.Data.String.Basic
import TaskQ.Runs

namespace TaskQ.StallTally
open List Runs

/-- The keys of `_counts` with the sums over their kinds; `recorded` is the ghost of all calls. -/
structure Tally where
  actors : List String := []
  count : String → Nat := fun _ => 0
  recorded : List String := []

def stallTallyUnattributed : String := "_unattributed_"

def keyOf (actor : Option String) : String := (actor.filter (· ≠ "")).getD stallTallyUnattributed

def Tally.bump (s : Tally) (key : String) : Tally where
  actors := s.actors.insert key
  count b := s.count b + if key == b then 1 else 0
  recorded := key :: s.recorded

def Tally.evictSmallest (s : Tally) : Tally :=
  match s.actors.argmin fun b => toLex (s.count b, b) with
  | none => s
  | some c => { s with actors := s.actors.erase c, count := fun b => if b = c then 0 else s.count b }

/-- The `while` of `record`: every eviction leaves fewer actors. -/
def evict (maxActors : Nat) : Nat → Tally → Tally
  | 0, s => s
  | fuel + 1, s =>
    if maxActors < s.actors.length then evict maxActors fuel s.evictSmallest else s

def record (maxActors : Nat) (s : Tally) (actor : Option String) : Option Tally :=
  let s := s.bump (keyOf actor)
  some (evict maxActors s.actors.length s)

/-- The actor is not recorded again once it was evicted. -/
def StaysOut (a : String) (s : Tally) (actor : Option String) : Prop :=
  keyOf actor = a → a ∈ s.actors ∨ a ∉ s.recorded

/-- As many other actors as the tally keeps were recorded as often as the actor. -/
def Outranked (a : String) (maxActors : Nat) (recorded : List String) : Prop :=
  ∃ others : List String, others.Nodup ∧ a ∉ others ∧ others.length = maxActors ∧
    ∀ b ∈ others, recorded.count a ≤ recorded.count b

structure Tally.Sound (a : String) (maxActors size : Nat) (s : Tally) : Prop where
  distinct : s.actors.Nodup
  size : s.actors.length ≤ size
  le : ∀ b, s.count b ≤ s.recorded.count b
  own : a ∈ s.actors → s.count a = s.recorded.count a
  kept : a ∈ s.recorded → a ∈ s.actors ∨ Outranked a maxActors s.recorded

variable {s s' : Tally} {a : String} {maxActors : Nat}

lemma Tally.Sound.bump (h : s.Sound a maxActors n)
    (hout : key = a → a ∈ s.actors ∨ a ∉ s.recorded) :
    (s.bump key).Sound a maxActors (n + 1) where
  distinct := h.distinct.insert
  size := by
    have hsize := h.size
    by_cases hk : key ∈ s.actors <;> simp [Tally.bump, hk] <;> omega
  le b := by
    rw [Tally.bump, count_cons]
    exact Nat.add_le_add_right (h.le b) _
  own ha := by
    have hnow : s.count a = s.recorded.count a := by
      by_cases hk : key = a
      · rcases hout hk with hmem | hnew
        · exact h.own hmem
        · exact (h.le a).antisymm (count_eq_zero.mpr hnew ▸ Nat.zero_le _)
      · exact h.own ((mem_insert_iff.mp ha).resolve_left (Ne.symm hk))
    rw [Tally.bump, count_cons, ← hnow]
  kept ha := by
    by_cases hk : a = key
    · exact .inl (hk ▸ mem_insert_self)
    · refine (h.kept ((mem_cons.mp ha).resolve_left hk)).imp mem_insert_of_mem ?_
      rintro ⟨others, hn, hnot, hlen, hle⟩
      refine ⟨others, hn, hnot, hlen, fun b hb => ?_⟩
      rw [Tally.bump, count_cons_of_ne (Ne.symm hk)]
      exact (hle b hb).trans count_le_count_cons

lemma Tally.Sound.evictSmallest (h : s.Sound a maxActors (maxActors + 1))
    (hfull : maxActors < s.actors.length) : s.evictSmallest.Sound a maxActors maxActors := by
  rw [Tally.evictSmallest]
  split
  next hnone =>
    rw [argmin_eq_none.mp hnone] at hfull
    cases hfull
  next c hc =>
    have hmin : ∀ b ∈ s.actors, s.count c ≤ s.count b :=
      fun b hb => Prod.Lex.monotone_fst _ _ (le_of_mem_argmin hb hc)
    have hlen : (s.actors.erase c).length = maxActors := by
      rw [length_erase_of_mem (argmin_mem hc)]
      have := h.size
      omega
    refine ⟨h.distinct.erase c, hlen.le, fun b => ?_, fun ha => ?_, fun ha => ?_⟩
    · dsimp only
      split
      · exact Nat.zero_le _
      · exact h.le b
    · have hne : a ≠ c := fun heq => h.distinct.not_mem_erase (heq ▸ ha)
      exact (if_neg hne).trans (h.own (mem_of_mem_erase ha))
    · rcases h.kept ha with hmem | hout
      · by_cases hac : a = c
        · subst hac
          refine .inr ⟨_, h.distinct.erase a, h.distinct.not_mem_erase, hlen, fun b hb => ?_⟩
          exact (h.own hmem).symm.trans_le ((hmin b (mem_of_mem_erase hb)).trans (h.le b))
        · exact .inl ((mem_erase_of_ne hac).mpr hmem)
      · exact .inr hout

lemma evict_of_le (h : s.actors.length ≤ maxActors) (fuel : Nat) : evict maxActors fuel s = s := by
  cases fuel with
  | zero => rfl
  | succ fuel => rw [evict, if_neg (not_lt.mpr h)]

lemma Tally.Sound.record (h : s.Sound a maxActors maxActors) (hok : StaysOut a s actor)
    (hs : record maxActors s actor = some s') : s'.Sound a maxActors maxActors := by
  cases hs
  have hbump := h.bump hok
  by_cases hfull : maxActors < (s.bump (keyOf actor)).actors.length
  · have hevicted := hbump.evictSmallest hfull
    obtain ⟨n, hn⟩ := Nat.exists_eq_succ_of_ne_zero (Nat.ne_zero_of_lt hfull)
    rw [hn, evict, if_pos hfull, evict_of_le hevicted.size]
    exact hevicted
  · rw [evict_of_le (not_lt.mp hfull)]
    exact { hbump with size := not_lt.mp hfull }

/-- An actor that is not recorded again once it was evicted is kept, unless as many others as the
tally keeps were recorded as often. -/
theorem hottest_kept (h : Reach (record maxActors) (StaysOut a) {} s) (ha : a ∈ s.recorded)
    (hfew : ¬ Outranked a maxActors s.recorded) : a ∈ s.actors := by
  have hs : s.Sound a maxActors maxActors := h.invariant
    ⟨.nil, Nat.zero_le _, fun _ => Nat.zero_le _, nofun, nofun⟩
    fun _ _ _ hI hok hs => hI.record hok hs
  exact (hs.kept ha).resolve_right hfew

/-- Recorded after another actor, `a` is evicted each time with a count of one. -/
theorem hottest_evicted : ∃ s, Reach (record 1) (fun _ _ => True) {} s ∧
    s.recorded = ["a", "a", "b"] ∧ "a" ∉ s.actors :=
  ⟨_, .of_final (l := [some "b", some "a", some "a"]) rfl, rfl, by decide +kernel⟩

theorem hottest_kept_first : "a" ∈ (final (record 1) {} [some "a", some "a", some "b"]).actors ∧
    "b" ∉ (final (record 1) {} [some "a", some "a", some "b"]).actors := by
  refine ⟨hottest_kept (.of_exec (exec_final rfl) ⟨fun _ => .inr not_mem_nil, fun s hs =>
    ⟨fun _ => .inl ?_, fun s hs => ⟨fun h => ?_, fun _ _ => trivial⟩⟩⟩) (by decide) ?_, by decide⟩
  · cases hs
    decide
  · exact absurd h (by decide)
  rintro ⟨others, -, hnot, hlen, hle⟩
  obtain ⟨b, rfl⟩ := length_eq_one_iff.mp hlen
  have htwo : 2 ≤ ["b", "a", "a"].count b := hle b mem_cons_self
  have hb : b ∈ ["b", "a", "a"] := count_pos_iff.mp (by omega)
  have hnot : b ≠ "a" := fun h => hnot (h ▸ mem_cons_self)
  simp only [mem_cons, hnot, not_mem_nil, or_self, or_false] at hb
  subst hb
  exact absurd htwo (by decide)

end TaskQ.StallTally
