import Mathlib.Data.Finset.Max
import Mathlib.Data.List.Sort
import TaskQ.Runs

namespace TaskQ.Stream
open Runs List Nat

structure StreamRow where
  (seq node : Nat)
  payload : String
  deriving DecidableEq

def newer (table : List StreamRow) (r : StreamRow) : Nat :=
  table.countP fun x => x.node = r.node && r.seq < x.seq

/-- `PROGRESS_STREAM_APPEND_TRIM_SQL`: the trim does not see the row that is inserted. -/
def appendTrim (row : StreamRow) (bound : Nat) (table : List StreamRow) : List StreamRow :=
  (table.filter fun r => r.node ≠ row.node || newer table r < bound - 1) ++ [row]

/-- `PROGRESS_RING_PRUNE_SQL` over the owners it selects. -/
def ringPrune (owners : List Nat) (bound : Nat) (table : List StreamRow) : List StreamRow :=
  table.filter fun r => !owners.contains r.node || newer table r < bound

inductive Frame where
  | progress (row : StreamRow)
  /-- `next` is the first seq that was free when the ring's oldest seq was read -/
  | resync (next : Nat)

inductive Phase where
  | idle
  | fetched (events : List StreamRow)
  | yielding (events : List StreamRow)

structure State where
  table : List StreamRow
  next : Nat
  log : List StreamRow
  cursor : Nat
  phase : Phase
  frames : List Frame

inductive Event where
  | append (node : Nat) (payload : String) (bound : Nat)
  | prune (owners : List Nat) (bound : Nat)
  | readReplay
  | readOldest
  | yield

section
variable (flowOf : Nat → Nat) (run : Nat)

def replayLimit : Nat := 5000

/-- `PROGRESS_REPLAY_RUN_SQL`; the table is in the order of `seq`. -/
def replayRun (table : List StreamRow) (cursor : Nat) : List StreamRow :=
  (table.filter fun r => flowOf r.node = run && cursor < r.seq).take replayLimit

def ringOldestRun (table : List StreamRow) : Option Nat :=
  ((table.filter fun r => flowOf r.node = run).map StreamRow.seq).min?

/-- The mode is `partial`. -/
def prunedPastCursor (table : List StreamRow) (cursor : Nat) : Bool :=
  0 < cursor && (ringOldestRun flowOf run table).any fun oldest => cursor + 1 < oldest

def step (s : State) : Event → Option State
  | .append node payload bound =>
    let row : StreamRow := ⟨s.next, node, payload⟩
    some { s with
      table := appendTrim row bound s.table, next := s.next + 1, log := s.log ++ [row] }
  | .prune owners bound => some { s with table := ringPrune owners bound s.table }
  | .readReplay =>
    match s.phase with
    | .idle => some { s with phase := .fetched (replayRun flowOf run s.table s.cursor) }
    | _ => none
  | .readOldest =>
    match s.phase with
    | .fetched events => some { s with
        phase := .yielding events
        frames := if prunedPastCursor flowOf run s.table s.cursor then s.frames ++ [.resync s.next]
          else s.frames }
    | _ => none
  | .yield =>
    match s.phase with
    | .yielding [] => some { s with phase := .idle }
    | .yielding (e :: events) => some { s with
        cursor := max s.cursor e.seq, phase := .yielding events
        frames := s.frames ++ [.progress e] }
    | _ => none

def State.start (cursor : Nat) : State := ⟨[], 1, [], cursor, .idle, []⟩

def State.Dropped (s : State) (e : StreamRow) : Prop :=
  e ∈ s.log ∧ e ∉ s.table ∧ flowOf e.node = run

/-- A replay read that misses events of the run misses the first past its cursor. -/
def Noticed (s : State) : Event → Prop
  | .prune _ bound => 0 < bound
  | .readReplay => ∀ e, s.Dropped flowOf run e → s.cursor < e.seq →
      ∀ r ∈ s.table, flowOf r.node = run → s.cursor + 1 < r.seq
  | _ => True

def State.Told (s : State) (e : StreamRow) : Prop :=
  .progress e ∈ s.frames ∨ ∃ next, .resync next ∈ s.frames ∧ e.seq < next

end

section
variable {table : List StreamRow}

lemma mem_appendTrim : r ∈ appendTrim row bound table ↔
    (r ∈ table ∧ (r.node ≠ row.node ∨ newer table r < bound - 1)) ∨ r = row := by
  simp [appendTrim]

lemma mem_ringPrune : r ∈ ringPrune owners bound table ↔
    r ∈ table ∧ (r.node ∉ owners ∨ newer table r < bound) := by
  simp [ringPrune]

lemma newer_mono (hnode : r.node = e.node) (hseq : r.seq ≤ e.seq) :
    newer table e ≤ newer table r := by
  refine countP_mono_left fun x _ hx => ?_
  simp only [Bool.and_eq_true, decide_eq_true_eq] at hx ⊢
  exact ⟨hx.1.trans hnode.symm, lt_of_le_of_lt hseq hx.2⟩

lemma exists_newest (h : r ∈ table) : ∃ x ∈ table, x.node = r.node ∧ newer table x = 0 := by
  obtain ⟨x, hx, hmax⟩ := Finset.exists_max_image
    (table.filter fun y => y.node = r.node).toFinset StreamRow.seq
    ⟨r, mem_toFinset.mpr (mem_filter.mpr ⟨h, decide_eq_true rfl⟩)⟩
  obtain ⟨hxt, hnode⟩ := mem_filter.mp (mem_toFinset.mp hx)
  refine ⟨x, hxt, of_decide_eq_true hnode, countP_eq_zero.mpr fun y hy hnewer => ?_⟩
  simp only [Bool.and_eq_true, decide_eq_true_eq] at hnewer hnode
  have hmem : y ∈ (table.filter fun y => y.node = r.node).toFinset :=
    mem_toFinset.mpr (mem_filter.mpr ⟨hy, decide_eq_true (hnewer.1.trans hnode)⟩)
  exact absurd (hmax y hmem) (Nat.not_le_of_lt hnewer.2)

lemma mem_take_of_le (hs : table.Pairwise fun a b => a.seq < b.seq) (he : e ∈ table)
    (hx : x ∈ table.take n) (hle : e.seq ≤ x.seq) : e ∈ table.take n := by
  rw [← take_append_drop n table] at he hs
  rcases mem_append.mp he with he | he
  · exact he
  · have hlt := (pairwise_append.mp hs).2.2 x hx e he
    exact absurd hle (Nat.not_le_of_lt hlt)

end

section
variable (flowOf : Nat → Nat) (run : Nat)

structure Batch (s : State) (events : List StreamRow) (missing : StreamRow → Prop) : Prop where
  sorted : events.Pairwise fun a b => a.seq < b.seq
  ahead : ∀ x ∈ events, s.cursor < x.seq
  logged : ∀ x ∈ events, x ∈ s.log
  complete : ∀ e ∈ s.log, flowOf e.node = run → s.cursor < e.seq →
    (∃ x ∈ events, e.seq ≤ x.seq) → e ∈ events ∨ missing e

def State.Warned (s : State) : Prop :=
  (∃ r ∈ s.table, flowOf r.node = run) ∧
    ∀ r ∈ s.table, flowOf r.node = run → s.cursor + 1 < r.seq

def State.PhaseSound (s : State) : Prop :=
  match s.phase with
  | .idle => True
  | .fetched events => Batch flowOf run s events fun _ => s.Warned flowOf run
  | .yielding events => Batch flowOf run s events s.Told

structure Sound (c : Nat) (s : State) : Prop where
  cursor : c ≤ s.cursor
  reached : s.cursor = c ∨ s.cursor < s.next
  table : ∀ r ∈ s.table, r ∈ s.log
  log : ∀ e ∈ s.log, e.seq < s.next
  sorted : s.table.Pairwise fun a b => a.seq < b.seq
  told : ∀ e ∈ s.log, flowOf e.node = run → c < e.seq → e.seq ≤ s.cursor → s.Told e
  phase : s.PhaseSound flowOf run

variable {flowOf run}

lemma prunedPastCursor_of_warned (h : State.Warned flowOf run s) (hpos : 0 < s.cursor) :
    prunedPastCursor flowOf run s.table s.cursor = true := by
  obtain ⟨⟨r, hr, hrun⟩, hall⟩ := h
  have hmem : r.seq ∈ (s.table.filter fun r => flowOf r.node = run).map StreamRow.seq :=
    mem_map.mpr ⟨r, mem_filter.mpr ⟨hr, decide_eq_true hrun⟩, rfl⟩
  obtain ⟨oldest, holdest⟩ := Option.isSome_iff_exists.mp (isSome_min?_of_mem hmem)
  obtain ⟨x, hx, rfl⟩ := mem_map.mp (min?_mem holdest)
  obtain ⟨hxt, hxrun⟩ := mem_filter.mp hx
  have hlt := hall x hxt (of_decide_eq_true hxrun)
  simp [prunedPastCursor, ringOldestRun, holdest, hpos, hlt]

lemma Batch.extend (h : Batch flowOf run s events missing) (hcur : s'.cursor = s.cursor)
    (hlog : ∀ e ∈ s.log, e ∈ s'.log) (hnew : ∀ e ∈ s'.log, e ∈ s.log ∨ ∀ x ∈ events, x.seq < e.seq)
    (hmissing : ∀ e ∈ s.log, s.cursor < e.seq → missing e → missing' e) :
    Batch flowOf run s' events missing' where
  sorted := h.sorted
  ahead x hx := hcur ▸ h.ahead x hx
  logged x hx := hlog x (h.logged x hx)
  complete e he hrun hlt hle := by
    rw [hcur] at hlt
    rcases hnew e he with he | hpast
    · exact (h.complete e he hrun hlt hle).imp_right (hmissing e he hlt)
    · obtain ⟨x, hx, hex⟩ := hle
      exact absurd hex (Nat.not_le_of_lt (hpast x hx))

variable {next node bound : Nat}

section
variable (h : Sound flowOf run c s)
include h

lemma Sound.ring {table log : List StreamRow}
    (htable : ∀ r ∈ table, r ∈ log) (hlog : ∀ e ∈ log, e.seq < next) (hnext : s.next ≤ next)
    (hsort : table.Pairwise fun a b => a.seq < b.seq) (hold : ∀ e ∈ s.log, e ∈ log)
    (hnew : ∀ e ∈ log, e ∈ s.log ∨ s.next ≤ e.seq)
    (hwarn : ∀ e ∈ s.log, s.cursor < e.seq → s.Warned flowOf run →
      State.Warned flowOf run { s with table, next, log }) :
    Sound flowOf run c { s with table, next, log } := by
  have hpast : ∀ events : List StreamRow, (∀ x ∈ events, x ∈ s.log) →
      ∀ e ∈ log, e ∈ s.log ∨ ∀ x ∈ events, x.seq < e.seq := by
    intro events hevents e he
    refine (hnew e he).imp_right fun hle x hx => ?_
    exact lt_of_lt_of_le (h.log x (hevents x hx)) hle
  constructor
  case cursor => exact h.cursor
  case reached => exact h.reached.imp_right fun hlt => lt_of_lt_of_le hlt hnext
  case table => exact htable
  case log => exact hlog
  case sorted => exact hsort
  case told =>
    intro e he hrun hlt hle
    rcases hnew e he with he | hpast
    · exact h.told e he hrun hlt hle
    · dsimp only at hle
      rcases h.reached with heq | hcur <;> omega
  case phase =>
    have hphase := h.phase
    unfold State.PhaseSound at hphase ⊢
    split
    · trivial
    next events heq =>
      rw [heq] at hphase
      exact Batch.extend hphase rfl hold (hpast events hphase.logged) hwarn
    next events heq =>
      rw [heq] at hphase
      exact Batch.extend hphase rfl hold (hpast events hphase.logged) fun _ _ _ ht => ht

lemma Sound.append {payload : String} : Sound flowOf run c { s with
      table := appendTrim ⟨s.next, node, payload⟩ bound s.table
      next := s.next + 1
      log := s.log ++ [⟨s.next, node, payload⟩] } := by
  refine h.ring ?_ ?_ (le_succ _) ?_ (fun e he => mem_append_left _ he) ?_ ?_
  · intro r hr
    rcases mem_appendTrim.mp hr with ⟨hr, -⟩ | rfl
    · exact mem_append_left _ (h.table r hr)
    · exact mem_append_right _ (mem_singleton_self _)
  · intro e he
    rcases mem_append.mp he with he | he
    · exact lt_succ_of_lt (h.log e he)
    · obtain rfl := mem_singleton.mp he
      exact lt_succ_self _
  · refine pairwise_append.mpr ⟨h.sorted.filter _, pairwise_singleton _ _, ?_⟩
    intro a ha b hb
    obtain rfl := mem_singleton.mp hb
    exact h.log a (h.table a (mem_filter.mp ha).1)
  · intro e he
    refine (mem_append.mp he).imp_right fun he => ?_
    obtain rfl := mem_singleton.mp he
    exact le_rfl
  · rintro e he hlt ⟨⟨r, hr, hrun⟩, hall⟩
    have hnext := h.log e he
    constructor
    · by_cases hnode : flowOf node = run
      · exact ⟨_, mem_appendTrim.mpr (.inr rfl), hnode⟩
      · refine ⟨r, mem_appendTrim.mpr (.inl ⟨hr, .inl fun heq => hnode ?_⟩), hrun⟩
        rw [← hrun, heq]
    · intro x hx hxrun
      rcases mem_appendTrim.mp hx with ⟨hx, -⟩ | rfl
      · exact hall x hx hxrun
      · dsimp only
        omega

lemma Sound.prune (hbound : 0 < bound) :
    Sound flowOf run c { s with table := ringPrune owners bound s.table } := by
  refine h.ring (fun r hr => h.table r (mem_ringPrune.mp hr).1) h.log le_rfl
    (h.sorted.filter _) (fun _ he => he) (fun _ he => .inl he) ?_
  rintro e - - ⟨⟨r, hr, hrun⟩, hall⟩
  refine ⟨?_, fun x hx => hall x (mem_ringPrune.mp hx).1⟩
  obtain ⟨x, hx, hnode, hnewest⟩ := exists_newest hr
  refine ⟨x, mem_ringPrune.mpr ⟨hx, .inr ?_⟩, hnode ▸ hrun⟩
  rw [hnewest]
  exact hbound

lemma Sound.readReplay (hok : Noticed flowOf run s .readReplay) :
    Sound flowOf run c { s with phase := .fetched (replayRun flowOf run s.table s.cursor) } := by
  refine ⟨h.cursor, h.reached, h.table, h.log, h.sorted, h.told, ?_⟩
  have hmem : ∀ x ∈ replayRun flowOf run s.table s.cursor,
      x ∈ s.table ∧ flowOf x.node = run ∧ s.cursor < x.seq := by
    intro x hx
    simpa using mem_filter.mp (mem_of_mem_take hx)
  have hfilt : (s.table.filter fun r => flowOf r.node = run && s.cursor < r.seq).Pairwise
      fun a b => a.seq < b.seq := h.sorted.filter _
  constructor
  case sorted => exact hfilt.sublist (take_sublist _ _)
  case ahead => exact fun x hx => (hmem x hx).2.2
  case logged => exact fun x hx => h.table x (hmem x hx).1
  case complete =>
    rintro e he hrun hlt ⟨x, hx, hle⟩
    by_cases ht : e ∈ s.table
    · exact .inl (mem_take_of_le hfilt (mem_filter.mpr ⟨ht, by simp [hrun, hlt]⟩) hx hle)
    · exact .inr ⟨⟨x, (hmem x hx).1, (hmem x hx).2.1⟩, hok e ⟨he, ht, hrun⟩ hlt⟩

end

lemma State.Told.mono (h : State.Told s e) (hfr : ∀ f ∈ s.frames, f ∈ s'.frames) :
    State.Told s' e := by
  rcases h with h | ⟨next, h, hlt⟩
  · exact .inl (hfr _ h)
  · exact .inr ⟨next, hfr _ h, hlt⟩

section
variable (h : Sound flowOf run c s)
include h

lemma Sound.readOldest (hc : 0 < c) (hphase : s.phase = .fetched events) :
    Sound flowOf run c { s with
      phase := .yielding events
      frames := if prunedPastCursor flowOf run s.table s.cursor then s.frames ++ [.resync s.next]
        else s.frames } := by
  have hbatch : Batch flowOf run s events fun _ => s.Warned flowOf run := by
    have := h.phase
    rwa [State.PhaseSound, hphase] at this
  have hfr : ∀ f ∈ s.frames, f ∈ if prunedPastCursor flowOf run s.table s.cursor
      then s.frames ++ [.resync s.next] else s.frames := by
    intro f hf
    split
    · exact mem_append_left _ hf
    · exact hf
  refine ⟨h.cursor, h.reached, h.table, h.log, h.sorted, fun e he hrun hlt hle =>
    (h.told e he hrun hlt hle).mono hfr, ?_⟩
  refine hbatch.extend rfl (fun _ he => he) (fun _ he => .inl he) fun e he hlt hwarn => ?_
  refine .inr ⟨s.next, ?_, h.log e he⟩
  rw [if_pos (prunedPastCursor_of_warned hwarn (lt_of_lt_of_le hc h.cursor))]
  exact mem_append_right _ (mem_singleton_self _)

lemma Sound.yield (hphase : s.phase = .yielding (x :: events)) : Sound flowOf run c { s with
      cursor := max s.cursor x.seq
      phase := .yielding events
      frames := s.frames ++ [.progress x] } := by
  have hbatch : Batch flowOf run s (x :: events) s.Told := by
    have := h.phase
    rwa [State.PhaseSound, hphase] at this
  obtain ⟨hahead, hrest⟩ := forall_mem_cons.mp hbatch.ahead
  obtain ⟨hfirst, hsort⟩ := pairwise_cons.mp hbatch.sorted
  have hcur := max_eq_right (le_of_lt hahead)
  have hfr : ∀ f ∈ s.frames, f ∈ s.frames ++ [.progress x] :=
    fun f hf => mem_append_left _ hf
  rw [hcur]
  constructor
  case cursor => exact le_trans h.cursor (le_of_lt hahead)
  case reached => exact .inr (h.log x (hbatch.logged x mem_cons_self))
  case table => exact h.table
  case log => exact h.log
  case sorted => exact h.sorted
  case told =>
    intro e he hrun hlt hle
    by_cases hold : e.seq ≤ s.cursor
    · exact (h.told e he hrun hlt hold).mono hfr
    -- past the old cursor and up to the new one the batch has only its first event
    rcases hbatch.complete e he hrun (Nat.lt_of_not_le hold)
      ⟨x, mem_cons_self, hle⟩ with hmem | htold
    · rcases mem_cons.mp hmem with rfl | hmem
      · exact .inl (mem_append_right _ (mem_singleton_self _))
      · exact absurd hle (Nat.not_le_of_lt (hfirst e hmem))
    · exact htold.mono hfr
  case phase =>
    constructor
    case sorted => exact hsort
    case ahead => exact hfirst
    case logged => exact fun y hy => hbatch.logged y (mem_cons_of_mem _ hy)
    case complete =>
      rintro e he hrun hlt ⟨y, hy, hle⟩
      rcases hbatch.complete e he hrun (lt_trans hahead hlt)
        ⟨y, mem_cons_of_mem _ hy, hle⟩ with hmem | htold
      · rcases mem_cons.mp hmem with rfl | hmem
        · exact absurd hlt (lt_irrefl _)
        · exact .inl hmem
      · exact .inr (htold.mono hfr)

lemma Sound.step (hc : 0 < c) (hok : Noticed flowOf run s ev)
    (hs : Stream.step flowOf run s ev = some s') : Sound flowOf run c s' := by
  cases ev with
  | append node payload bound =>
    cases hs
    exact h.append
  | prune owners bound =>
    cases hs
    exact h.prune hok
  | readReplay =>
    rw [Stream.step] at hs
    split at hs
    · cases hs
      exact h.readReplay hok
    · cases hs
  | readOldest =>
    rw [Stream.step] at hs
    split at hs
    next events hphase =>
      cases hs
      exact h.readOldest hc hphase
    · cases hs
  | yield =>
    rw [Stream.step] at hs
    split at hs
    · cases hs
      exact ⟨h.cursor, h.reached, h.table, h.log, h.sorted, h.told, trivial⟩
    next x events hphase =>
      cases hs
      exact h.yield hphase
    · cases hs

end

lemma Sound.start : Sound flowOf run c (State.start c) where
  cursor := le_rfl
  reached := .inl rfl
  table _ hr := absurd hr not_mem_nil
  log _ he := absurd he not_mem_nil
  sorted := .nil
  told _ he := absurd he not_mem_nil
  phase := trivial

/-- In a run of the stream whose reads are all noticed the replay has no silent gap. -/
theorem replay_gap_free (hc : 0 < c)
    (h : Reach (step flowOf run) (Noticed flowOf run) (State.start c) s) :
    ∀ e ∈ s.log, flowOf e.node = run → c < e.seq → e.seq ≤ s.cursor →
      .progress e ∈ s.frames ∨ ∃ next, .resync next ∈ s.frames ∧ e.seq < next :=
  (h.invariant Sound.start fun _ _ _ hs hok => hs.step hc hok).told

/-- An old row of one node hides that another's was dropped. -/
theorem dropped_event_skipped :
    ∃ s, Reach (step (fun _ => 0) 0) (fun _ _ => True) (State.start 1) s ∧
      ∃ e ∈ s.log, 1 < e.seq ∧ e.seq ≤ s.cursor ∧
        ¬ (.progress e ∈ s.frames ∨ ∃ next, .resync next ∈ s.frames ∧ e.seq < next) := by
  let events : List Event :=
    [.append 0 "" 1, .append 1 "" 1, .append 1 "" 1, .readReplay, .readOldest, .yield]
  let s := final (step (fun _ => 0) 0) (State.start 1) events
  have hframes : s.frames = [.progress ⟨3, 1, ""⟩] := rfl
  refine ⟨s, .of_exec (exec_final (by decide)) (meets_true _ _), ⟨2, 1, ""⟩, by decide, by decide,
    by decide, ?_⟩
  rw [hframes]
  simp

structure Ring (s : State) : Prop where
  log : ∀ e ∈ s.log, e.seq < s.next
  table : ∀ r ∈ s.table, r ∈ s.log
  older : ∀ e ∈ s.log, e ∉ s.table → ∀ r ∈ s.table, r.node = e.node → e.seq < r.seq

lemma Ring.append (h : Ring s) {payload : String} : Ring { s with
      table := appendTrim ⟨s.next, node, payload⟩ bound s.table
      next := s.next + 1
      log := s.log ++ [⟨s.next, node, payload⟩] } := by
  constructor
  case log =>
    intro e he
    rcases mem_append.mp he with he | he
    · exact Nat.lt_succ_of_lt (h.log e he)
    · obtain rfl := mem_singleton.mp he
      exact Nat.lt_succ_self _
  case table =>
    intro r hr
    rcases mem_appendTrim.mp hr with ⟨hr, -⟩ | rfl
    · exact mem_append_left _ (h.table r hr)
    · exact mem_append_right _ (mem_singleton_self _)
  case older =>
    intro e he hdrop r hr hnode
    rcases mem_append.mp he with he | he
    · rcases mem_appendTrim.mp hr with ⟨hr, hkept⟩ | rfl
      · by_cases ht : e ∈ s.table
        · -- both were there, and only the other was trimmed
          refine Nat.lt_of_not_le fun hle => hdrop (mem_appendTrim.mpr (.inl ⟨ht, ?_⟩))
          rw [← hnode]
          exact hkept.imp_right fun hlt => Nat.lt_of_le_of_lt (newer_mono hnode hle) hlt
        · exact h.older e he ht r hr hnode
      · exact h.log e he
    · obtain rfl := mem_singleton.mp he
      exact absurd (mem_appendTrim.mpr (.inr rfl)) hdrop

lemma Ring.prune (h : Ring s) : Ring { s with table := ringPrune owners bound s.table } := by
  refine ⟨h.log, fun r hr => h.table r (mem_ringPrune.mp hr).1, ?_⟩
  intro e he hdrop r hr hnode
  obtain ⟨hr, hkept⟩ := mem_ringPrune.mp hr
  by_cases ht : e ∈ s.table
  · refine Nat.lt_of_not_le fun hle => hdrop (mem_ringPrune.mpr ⟨ht, ?_⟩)
    rw [← hnode]
    exact hkept.imp_right fun hlt => Nat.lt_of_le_of_lt (newer_mono hnode hle) hlt
  · exact h.older e he ht r hr hnode

lemma Ring.step (h : Ring s) (hs : Stream.step flowOf run s ev = some s') : Ring s' := by
  cases ev with
  | append node payload bound =>
    cases hs
    exact h.append
  | prune owners bound =>
    cases hs
    exact h.prune
  | readReplay | readOldest | yield =>
    rw [Stream.step] at hs
    split at hs
    all_goals cases hs
    all_goals exact ⟨h.log, h.table, h.older⟩

def OneNode (flowOf : Nat → Nat) (run node : Nat) (_ : State) : Event → Prop
  | .append n _ _ => flowOf n = run → n = node
  | .prune _ bound => 0 < bound
  | _ => True

structure Single (flowOf : Nat → Nat) (run n : Nat) (s : State) : Prop extends Ring s where
  emitter : ∀ e ∈ s.log, flowOf e.node = run → e.node = n

lemma Single.start : Single flowOf run n (State.start c) := by
  refine ⟨⟨?_, ?_, ?_⟩, ?_⟩
  all_goals exact fun e he => absurd he not_mem_nil

lemma Single.step (h : Single flowOf run n s) (hok : OneNode flowOf run n s ev)
    (hs : Stream.step flowOf run s ev = some s') : Single flowOf run n s' := by
  refine ⟨h.toRing.step hs, ?_⟩
  cases ev with
  | append node payload bound =>
    cases hs
    intro e he hrun
    rcases mem_append.mp he with he | he
    · exact h.emitter e he hrun
    · obtain rfl := mem_singleton.mp he
      exact hok hrun
  | prune owners bound =>
    cases hs
    exact h.emitter
  | readReplay | readOldest | yield =>
    rw [Stream.step] at hs
    split at hs
    all_goals cases hs
    all_goals exact h.emitter

lemma Single.noticed (h : Single flowOf run n s) (hok : OneNode flowOf run n s ev) :
    Noticed flowOf run s ev := by
  cases ev with
  | prune owners bound => exact hok
  | readReplay =>
    intro e ⟨he, hdrop, hrun⟩ hlt r hr hrrun
    have hnode := (h.emitter r (h.table r hr) hrrun).trans (h.emitter e he hrun).symm
    exact lt_of_le_of_lt hlt (h.older e he hdrop r hr hnode)
  | append | readOldest | yield => trivial

lemma noticed_of_one_node (h : Reach (step flowOf run) (OneNode flowOf run n) (State.start c) s) :
    Reach (step flowOf run) (Noticed flowOf run) (State.start c) s :=
  h.mono_of_invariant Single.start (fun _ _ _ hs hok => hs.step hok) fun _ _ hs hok => hs.noticed hok

theorem dropped_event_resynced :
    ∃ s, Reach (step (fun _ => 0) 0) (Noticed (fun _ => 0) 0) (State.start 1) s ∧
      s.frames = [.resync 4, .progress ⟨3, 0, ""⟩] ∧
      (.progress ⟨2, 0, ""⟩ ∈ s.frames ∨ ∃ next, .resync next ∈ s.frames ∧ 2 < next) := by
  let events : List Event :=
    [.append 0 "" 1, .append 0 "" 1, .append 0 "" 1, .readReplay, .readOldest, .yield]
  let s := final (step (fun _ => 0) 0) (State.start 1) events
  let zero : State → Event → Bool
    | _, .append n _ _ => n == 0
    | _, .prune _ bound => decide (0 < bound)
    | _, _ => true
  have hone : Reach (step (fun _ => 0) 0) (OneNode (fun _ => 0) 0 0) (State.start 1) s := by
    refine .of_exec (exec_final (by decide)) (.of_checks zero (by decide) fun s ev hev => ?_)
    cases ev with
    | append n payload bound => exact fun _ => beq_iff_eq.mp hev
    | prune owners bound => exact of_decide_eq_true (p := 0 < bound) hev
    | readReplay | readOldest | yield => trivial
  have hreach := noticed_of_one_node hone
  exact ⟨s, hreach, rfl, replay_gap_free (by decide) hreach ⟨2, 0, ""⟩ (by decide) rfl (by decide)
    (by decide)⟩

end

end TaskQ.Stream
