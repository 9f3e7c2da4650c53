import Mathlib.Algebra.Order.Field.Rat
import Mathlib.Tactic.Linarith
import TaskQ.Dict
import TaskQ.Rows
import TaskQ.Runs

namespace TaskQ.ClaimCursor

open Runs List

/-- Per queue the highest claimed id and the monotonic end of its window. -/
abbrev Entries := List (String × JobId × ℚ)

section
variable (reset : ℚ)

def advance (entries : Entries) (queue : String) (id : JobId) (clock jitter : ℚ) : Entries :=
  if reset ≤ 0 then entries
  else
    match entries.lookup queue with
    | some (last, expires) =>
      if id ≤ last then entries else Dict.set queue (id, expires) entries
    | none => Dict.set queue (id, clock + reset * jitter) entries

def bound (entries : Entries) (queue : String) (clock : ℚ) : Option JobId × Entries :=
  if reset ≤ 0 then (none, entries)
  else
    match entries.lookup queue with
    | none => (none, entries)
    | some (last, expires) =>
      if expires ≤ clock then (none, Dict.erase queue entries) else (some last, entries)

def bounds (entries : Entries) : List (String × ℚ) → List JobId × Entries
  | [] => ([], entries)
  | (queue, clock) :: reads =>
    let b := bound reset entries queue clock
    let rest := bounds b.2 reads
    (b.1.toList ++ rest.1, rest.2)

def roundBound (entries : Entries) (reads : List (String × ℚ)) : Option JobId × Entries :=
  let b := bounds reset entries reads
  (b.1.min?, b.2)

end

structure Trace where
  entries : Entries := []
  now : ℚ := 0
  hidden : Option (ℚ × ℚ) := none

inductive Act where
  /-- A round attempt with the clock readings of its bounds, one for each queue. -/
  | round (clocks : List ℚ)
  | advance (queue : String) (id : JobId) (clock jitter : ℚ)

structure Watch where
  reset : ℚ
  queues : List String
  queue : String
  id : JobId
  polled : queue ∈ queues

namespace Watch
variable (W : Watch)

def window : ℚ := W.reset * (3 / 2)

def reads (clocks : List ℚ) : List (String × ℚ) := W.queues.zip clocks

def hides (entries : Entries) (clocks : List ℚ) : Prop :=
  ∃ b ∈ (roundBound W.reset entries (W.reads clocks)).1, W.id < b

instance : Decidable (W.hides entries clocks) :=
  inferInstanceAs (Decidable (∃ b ∈ (roundBound W.reset entries (W.reads clocks)).1, _))

def step (s : Trace) : Act → Option Trace
  | .round clocks =>
    if clocks.length = W.queues.length ∧ (s.now :: clocks).Pairwise (· ≤ ·) then
      let start := clocks.headD s.now
      some
        { entries := (roundBound W.reset s.entries (W.reads clocks)).2
          now := clocks.getLastD s.now
          hidden := if W.hides s.entries clocks
            then some ((s.hidden.map Prod.fst).getD start, start) else none }
    else none
  | .advance queue id clock jitter =>
    if queue ∈ W.queues ∧ s.now ≤ clock ∧ 1 / 2 ≤ jitter ∧ jitter ≤ 3 / 2 then
      some { s with entries := advance W.reset s.entries queue id clock jitter, now := clock }
    else none

/-- A round that misses the row finds the cursor of the row's own queue live. -/
def OwnCursor (s : Trace) : Act → Prop
  | .round clocks => W.hides s.entries clocks →
      ∃ e, s.entries.lookup W.queue = some e ∧ ∀ r ∈ W.reads clocks, r.1 = W.queue → r.2 < e.2
  | .advance .. => True

end Watch

section
variable {reset : ℚ} {entries : Entries} {e : JobId × ℚ}

lemma lookup_bound (h : entries.lookup q = some e) (hlive : queue = q → clock < e.2) :
    (bound reset entries queue clock).2.lookup q = some e := by
  unfold bound
  split
  · exact h
  split
  · exact h
  next last expires hl =>
    split
    next hexp =>
      rw [Dict.lookup_erase, if_neg, h]
      rintro rfl
      cases h.symm.trans hl
      exact absurd hexp (not_le.mpr (hlive rfl))
    · exact h

lemma of_lookup_bound (h : (bound reset entries queue clock).2.lookup q = some e) :
    entries.lookup q = some e := by
  unfold bound at h
  repeat' split at h
  · exact h
  · exact h
  · rw [Dict.lookup_erase] at h
    split at h
    · cases h
    · exact h
  · exact h

lemma live_of_bound (h : b ∈ (bound reset entries queue clock).1) :
    ∃ e, entries.lookup queue = some e ∧ clock < e.2 := by
  unfold bound at h
  split at h
  · cases h
  split at h
  · cases h
  next last expires hl =>
    split at h
    · cases h
    next hlive => exact ⟨_, hl, not_le.mp hlive⟩

lemma lookup_bounds (h : entries.lookup q = some e) (hlive : ∀ r ∈ reads, r.1 = q → r.2 < e.2) :
    (bounds reset entries reads).2.lookup q = some e := by
  induction reads generalizing entries with
  | nil => exact h
  | cons r reads ih =>
    obtain ⟨hr, hreads⟩ := forall_mem_cons.mp hlive
    exact ih (lookup_bound h hr) hreads

lemma of_lookup_bounds (h : (bounds reset entries reads).2.lookup q = some e) :
    entries.lookup q = some e := by
  induction reads generalizing entries with
  | nil => exact h
  | cons r reads ih => exact of_lookup_bound (ih h)

lemma lookup_advance {i : JobId} (h : (advance reset entries k i t d).lookup q = some e) :
    (∃ last, entries.lookup q = some (last, e.2)) ∨
      q = k ∧ entries.lookup q = none ∧ 0 < reset ∧ e.2 = t + reset * d := by
  unfold advance at h
  split at h
  · exact .inl ⟨e.1, h⟩
  next hreset =>
    split at h
    next last expires hl =>
      split at h
      · exact .inl ⟨e.1, h⟩
      rw [Dict.lookup_set] at h
      split at h
      next hq =>
        cases h
        exact .inl ⟨last, hq ▸ hl⟩
      · exact .inl ⟨e.1, h⟩
    next hl =>
      rw [Dict.lookup_set] at h
      split at h
      next hq =>
        cases h
        exact .inr ⟨hq, hq ▸ hl, not_le.mp hreset, rfl⟩
      · exact .inl ⟨e.1, h⟩

lemma exists_lookup_advance (h : entries.lookup q = some e) (k : String) (i : JobId) (t d : ℚ) :
    ∃ last, (advance reset entries k i t d).lookup q = some (last, e.2) := by
  unfold advance
  split
  · exact ⟨e.1, h⟩
  split
  next last expires hl =>
    split
    · exact ⟨e.1, h⟩
    rw [Dict.lookup_set]
    by_cases hq : q = k
    · subst hq
      cases h.symm.trans hl
      exact ⟨i, if_pos rfl⟩
    · exact ⟨e.1, by rw [if_neg hq, h]⟩
  next hl =>
    have hq : q ≠ k := by
      rintro rfl
      rw [h] at hl
      cases hl
    exact ⟨e.1, by rw [Dict.lookup_set, if_neg hq, h]⟩

end

namespace Watch
variable {W : Watch} {s s' : Trace}

structure Sound (W : Watch) (s : Trace) : Prop where
  armed : ∀ q e, s.entries.lookup q = some e → e.2 ≤ s.now + W.window
  own : ∀ first last, s.hidden = some (first, last) → ∃ e, s.entries.lookup W.queue = some e ∧
    last < e.2 ∧ e.2 ≤ first + W.window

lemma exists_read (hlen : clocks.length = W.queues.length)
    (hmono : (now :: clocks).Pairwise (· ≤ ·)) :
    ∃ r ∈ W.reads clocks, r.1 = W.queue ∧ clocks.headD now ≤ r.2 := by
  obtain ⟨i, hi, hq⟩ := getElem_of_mem W.polled
  have hi' : i < clocks.length := hlen ▸ hi
  refine ⟨(W.queue, clocks[i]), mem_iff_getElem.mpr ⟨i, ?_, ?_⟩, rfl, ?_⟩
  · simp [reads, hi, hi']
  · simp [reads, hq]
  cases clocks with
  | nil => cases hi'
  | cons t clocks =>
    rcases mem_cons.mp (getElem_mem hi') with h | h
    · exact h.ge
    · exact (pairwise_cons.mp (pairwise_cons.mp hmono).2).1 _ h

lemma now_le {now : ℚ} (hmono : (now :: clocks).Pairwise (· ≤ ·)) :
    now ≤ clocks.headD now ∧ now ≤ clocks.getLastD now := by
  have hle := (pairwise_cons.mp hmono).1
  cases clocks with
  | nil => exact ⟨le_refl _, le_refl _⟩
  | cons t clocks =>
    refine ⟨hle _ mem_cons_self, hle _ ?_⟩
    rw [getLastD_cons]
    exact getLastD_mem_cons

lemma Sound.round (h : W.Sound s) (hok : W.OwnCursor s (.round clocks))
    (hs : W.step s (.round clocks) = some s') : W.Sound s' := by
  obtain ⟨⟨hlen, hmono⟩, rfl⟩ := matched hs
  obtain ⟨hstart, hend⟩ := now_le hmono
  refine ⟨fun q e he => ?_, fun first last hh => ?_⟩
  · exact (h.armed q e (of_lookup_bounds he)).trans (by simpa using hend)
  dsimp only at hh
  obtain ⟨hhides, hh⟩ := Option.ite_none_right_eq_some.mp hh
  obtain ⟨e, he, hlive⟩ := hok hhides
  obtain ⟨r, hr, hrq, hrle⟩ := exists_read hlen hmono
  obtain ⟨hfirst, rfl⟩ := Prod.mk.inj (Option.some.inj hh)
  refine ⟨e, lookup_bounds he hlive, hrle.trans_lt (hlive r hr hrq), ?_⟩
  cases hhid : s.hidden with
  | none =>
    rw [hhid] at hfirst
    have harmed := h.armed _ _ he
    have hst : clocks.headD s.now = first := hfirst
    linarith
  | some p =>
    rw [hhid] at hfirst
    obtain ⟨e', he', _, hle⟩ := h.own p.1 p.2 hhid
    cases he.symm.trans he'
    exact (show p.1 = first from hfirst) ▸ hle

lemma Sound.advance (h : W.Sound s) (hs : W.step s (.advance k i t d) = some s') :
    W.Sound s' := by
  obtain ⟨⟨_, hclock, hlow, hhigh⟩, rfl⟩ := matched hs
  refine ⟨fun q e he => ?_, fun first last hh => ?_⟩
  · rcases lookup_advance he with ⟨last, hl⟩ | ⟨_, _, hreset, hexp⟩
    · have harmed := h.armed q _ hl
      linarith
    have hmul := mul_le_mul_of_nonneg_left hhigh hreset.le
    rw [hexp, window]
    linarith
  · obtain ⟨e, he, hlt, hle⟩ := h.own first last hh
    obtain ⟨last', hl⟩ := exists_lookup_advance he k i t d
    exact ⟨_, hl, hlt, hle⟩

lemma Sound.step (h : W.Sound s) (hok : W.OwnCursor s a) (hs : W.step s a = some s') :
    W.Sound s' := by
  cases a with
  | round clocks => exact h.round hok hs
  | advance queue id clock jitter => exact h.advance hs

/-- A worker of one queue has no other cursor to take. -/
lemma ownCursor_of_single (hq : W.queues = [W.queue]) (s : Trace) (a : Act) :
    W.OwnCursor s a := by
  cases a with
  | advance => trivial
  | round clocks =>
    rintro ⟨b, hb, -⟩
    cases clocks with
    | nil => simp [roundBound, reads, hq, bounds] at hb
    | cons t clocks =>
      simp only [roundBound, reads, hq, zip_cons_cons, zip_nil_left, bounds,
        append_nil] at hb
      obtain ⟨e, he, hlive⟩ := live_of_bound (Option.mem_toList.mp (min?_mem hb))
      simpa [reads, hq] using ⟨_, _, he, hlive⟩

instance (s : Trace) (a : Act) : Decidable (W.OwnCursor s a) :=
  match a with
  | .round _ => inferInstanceAs (Decidable (_ → ∃ e ∈ s.entries.lookup W.queue, _))
  | .advance .. => inferInstanceAs (Decidable True)

end Watch

/-- The rounds that do not reach a row all start within one window. -/
theorem hidden_within_window {W : Watch} {s : Trace} {t first last : ℚ}
    (h : Reach W.step W.OwnCursor { now := t } s) (hh : s.hidden = some (first, last)) :
    last - first ≤ W.window := by
  have hstart : W.Sound { now := t } := ⟨fun _ _ he => (by cases he), fun _ _ he => (by cases he)⟩
  have hsound : W.Sound s := h.invariant hstart fun _ _ _ hI hok hs => hI.step hok hs
  obtain ⟨e, _, hlt, hle⟩ := hsound.own first last hh
  linarith

def watched : Watch := ⟨60, ["a", "b"], "a", 5, by decide⟩

def together : List Act :=
  [.advance "a" 10 0 1, .advance "b" 10 0 1, .round [31, 31], .round [59, 59]]

theorem hidden_within_window_together : (59 : ℚ) - 31 ≤ watched.window ∧
      (final watched.step {} (together ++ [.round [61, 61]])).hidden = none :=
  ⟨hidden_within_window (s := final watched.step {} together)
    (.of_decide (by decide +kernel) (by decide +kernel)) (by decide +kernel), by decide +kernel⟩

def staggered : List Act :=
  [.advance "a" 10 0 1, .advance "b" 11 30 1, .round [31, 31], .round [61, 61],
    .advance "a" 12 62 1, .round [91, 91], .advance "b" 13 92 1, .round [123, 123]]

theorem staggered_hides_past_window :
    ∃ s, Reach watched.step (fun _ _ => True) {} s ∧ s.hidden = some (31, 123) ∧
      watched.window < 123 - 31 :=
  ⟨final watched.step {} staggered, .of_final (by decide +kernel), by decide +kernel,
    by decide +kernel⟩

end TaskQ.ClaimCursor
