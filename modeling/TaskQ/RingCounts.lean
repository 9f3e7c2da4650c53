import Mathlib.Algebra.BigOperators.Group.List.Basic
import Mathlib.Algebra.GroupWithZero.Nat
import TaskQ.ProgressReplay

namespace TaskQ.Stream
open Runs List

/-- An append in flight: the row's node and text, and the seqs its snapshot trims. -/
structure Append where
  node : Nat
  payload : String
  victims : List Nat
  deriving DecidableEq

/-- What a writer has to add to its node's counter row: one occurrence and the rows trimmed. -/
structure Owed where
  (node dropped : Nat)
  deriving DecidableEq

structure Counter where
  occurrences : Nat := 0
  dropped : Nat := 0

structure Rings where
  table : List StreamRow := []
  drawn : List Nat := []
  appends : List Append := []
  owed : List Owed := []
  passes : List (List Nat) := []
  counters : Nat → Counter := fun _ => {}
  pruned : Nat → Nat := fun _ => 0

inductive Write where
  | append (node : Nat) (payload : String)
  | land (a : Append) (seq : Nat)
  | count (c : Owed)
  | prune (owners : List Nat)
  | landPrune (victims : List Nat)

def Append.trims (a : Append) (r : StreamRow) : Bool := r.node = a.node && a.victims.contains r.seq

def Counter.add (c : Counter) (dropped : Nat) : Counter :=
  ⟨c.occurrences + 1, c.dropped + dropped⟩

/-- A statement reads its victims when it starts and deletes those still there when it ends. -/
def writeStep (bound : Nat) (s : Rings) : Write → Option Rings
  | .append node payload =>
    let old := s.table.filter fun r => r.node = node && bound - 1 ≤ newer s.table r
    some { s with appends := ⟨node, payload, old.map StreamRow.seq⟩ :: s.appends }
  | .land a seq =>
    if a ∈ s.appends ∧ seq ∉ s.drawn then
      some { s with
        table := s.table.filter (!a.trims ·) ++ [⟨seq, a.node, a.payload⟩], drawn := seq :: s.drawn
        appends := s.appends.erase a, owed := ⟨a.node, (s.table.filter a.trims).length⟩ :: s.owed }
    else none
  | .count c =>
    if c ∈ s.owed then
      some { s with
        owed := s.owed.erase c
        counters := fun n => if n = c.node then (s.counters n).add c.dropped else s.counters n }
    else none
  | .prune owners =>
    let old := s.table.filter fun r => owners.contains r.node && bound ≤ newer s.table r
    some { s with passes := old.map StreamRow.seq :: s.passes }
  | .landPrune victims =>
    if victims ∈ s.passes then
      let gone := fun r : StreamRow => victims.contains r.seq
      some { s with
        table := s.table.filter (!gone ·), passes := s.passes.erase victims
        pruned := fun n => s.pruned n + (s.table.filter gone).countP (·.node = n) }
    else none

def Rings.retained (s : Rings) (n : Nat) : Nat := s.table.countP (·.node = n)

def Rings.pending (s : Rings) (n : Nat) (f : Nat → Nat) : Nat :=
  (s.owed.map fun c => if c.node = n then f c.dropped else 0).sum

def Accounted (n : Nat) (s : Rings) : Prop :=
  (s.counters n).occurrences + s.pending n (fun _ => 1) =
    s.retained n + (s.counters n).dropped + s.pending n id + s.pruned n

variable {s s' : Rings} {n bound : Nat}

lemma retained_split (s : Rings) (n : Nat) (gone : StreamRow → Bool) :
    s.retained n = (s.table.filter gone).countP (·.node = n) +
      (s.table.filter (!gone ·)).countP (·.node = n) :=
  countP_eq_countP_filter_add ..

lemma countP_trims (s : Rings) (n : Nat) (a : Append) :
    (s.table.filter a.trims).countP (·.node = n) =
      if a.node = n then (s.table.filter a.trims).length else 0 := by
  have hnode : ∀ r ∈ s.table.filter a.trims, r.node = a.node := by
    intro r hr
    simpa using (Bool.and_eq_true_iff.mp (mem_filter.mp hr).2).1
  split
  next h => exact countP_eq_length.mpr fun r hr => decide_eq_true ((hnode r hr).trans h)
  next h => exact countP_eq_zero.mpr fun r hr => by simpa [hnode r hr] using h

lemma pending_erase {c : Owed} (hc : c ∈ s.owed) (f : Nat → Nat) :
    s.pending n f = (if c.node = n then f c.dropped else 0) +
      ((s.owed.erase c).map fun c => if c.node = n then f c.dropped else 0).sum :=
  (sum_map_erase (fun c : Owed => if c.node = n then f c.dropped else 0) hc).symm

lemma Accounted.step {w : Write} (h : Accounted n s) (hs : writeStep bound s w = some s') :
    Accounted n s' := by
  cases w with
  | append | prune =>
    cases hs
    exact h
  | land a seq =>
    obtain ⟨-, rfl⟩ := matched hs
    have hsplit := retained_split s n a.trims
    rw [countP_trims] at hsplit
    simp only [Accounted, Rings.retained, Rings.pending, countP_append, map_cons,
      sum_cons, countP_singleton, id] at h hsplit ⊢
    by_cases hn : a.node = n
    · simp only [hn, if_true, decide_true] at hsplit ⊢
      omega
    · simp only [hn, if_false, decide_false, Bool.false_eq_true] at hsplit ⊢
      omega
  | count c =>
    obtain ⟨hc, rfl⟩ := matched hs
    have hone := pending_erase (n := n) hc fun _ => 1
    have hdrop := pending_erase (n := n) hc id
    simp only [Accounted, Rings.retained, Rings.pending, Counter.add, id] at h hone hdrop ⊢
    by_cases hn : c.node = n
    · simp only [hn, if_true] at hone hdrop ⊢
      omega
    · simp only [hn, Ne.symm hn, if_false] at hone hdrop ⊢
      omega
  | landPrune victims =>
    obtain ⟨-, rfl⟩ := matched hs
    have hsplit := retained_split s n fun r => victims.contains r.seq
    simp only [Accounted, Rings.retained, Rings.pending] at h hsplit ⊢
    omega

/-- A node's counter row accounts for every row appended exactly when no prune pass removed one. -/
theorem ring_conserved_iff (h : Reach (writeStep bound) (fun _ _ => True) {} s)
    (hrest : ∀ c ∈ s.owed, c.node ≠ n) :
    (s.counters n).occurrences = s.retained n + (s.counters n).dropped ↔ s.pruned n = 0 := by
  have hacc : Accounted n s := h.invariant rfl fun _ _ _ hacc _ hs => hacc.step hs
  have hpending (f : Nat → Nat) : s.pending n f = 0 := by
    refine sum_eq_zero fun x hx => ?_
    obtain ⟨c, hc, rfl⟩ := mem_map.mp hx
    exact if_neg (hrest c hc)
  rw [Accounted, hpending, hpending] at hacc
  omega

/-- Two overlapping appends leave a ring of bound 1 with two rows. -/
def overlap : List Write :=
  [.append 0 "a", .append 0 "b", .land ⟨0, "a", []⟩ 1, .land ⟨0, "b", []⟩ 2, .count ⟨0, 0⟩,
    .count ⟨0, 0⟩]

theorem pruned_row_uncounted : ∃ s, Reach (writeStep 1) (fun _ _ => True) {} s ∧ s.owed = [] ∧
      (s.counters 0).occurrences ≠ s.retained 0 + (s.counters 0).dropped :=
  ⟨_, .of_final (l := overlap ++ [.prune [0], .landPrune [1]]) rfl, rfl, by decide⟩

theorem overlap_conserved :
    ∃ s, Reach (writeStep 1) (fun _ _ => True) {} s ∧ (∀ c ∈ s.owed, c.node ≠ 0) ∧ s.pruned 0 = 0 ∧
      (s.counters 0).occurrences = s.retained 0 + (s.counters 0).dropped :=
  have h : Reach (writeStep 1) (fun _ _ => True) {} _ := .of_final (l := overlap) rfl
  have hrest := forall_mem_nil _
  ⟨_, h, hrest, rfl, (ring_conserved_iff h hrest).mpr rfl⟩

end TaskQ.Stream
