import TaskQ.Dict
import TaskQ.Joined
import TaskQ.Runs

namespace TaskQ.Spawn
open Runs List Function Positions Option

/-- A node row: its attempt, and the counters `spawn_cursor_<attempt>` of its metadata. -/
structure NodeRow where
  attempt : Nat
  running : Bool
  cursors : Nat → Option Nat

def NodeRow.release (row : NodeRow) : NodeRow := { row with running := false }

/-- An execution of a node's body: its unused slot and the child runs its spawns returned. -/
structure Execution where
  (row attempt : Nat)
  claimed : Option Nat
  children : List Nat
  live : Bool
  deriving DecidableEq

structure State where
  rows : Nat → NodeRow
  runs : List ((String × String) × Nat)
  executions : List Execution

def runIdempotencyScope (name : String) : String :=
  if name = "" then "workflow-run" else "workflow-run:" ++ name

def spawnKey (flow nodeKey : String) (slot : Nat) : String :=
  Joined.join ':' ["childflow", flow, nodeKey, toString slot]

/-- `COALESCE(cursor, -1) + 1`. -/
def nextSlot (cursor : Option Nat) : Nat := cursor.elim 0 (· + 1)

def insertFlowRun (key : String × String) (runs : List ((String × String) × Nat)) :
    Nat × List ((String × String) × Nat) :=
  match runs.lookup key with
  | some child => (child, runs)
  | none => (runs.length, runs ++ [(key, runs.length)])

inductive Event where
  | claim (r : Nat)
  | claimSlot (i : Nat)
  | createFlow (i : Nat)
  | settle (i : Nat)
  | defer (i : Nat)
  | stop (i : Nat)
  | reclaim (r : Nat)
  | createRun (key : String × String)

section
variable (flow : String) (nodeKey : Nat → String) (program : Nat → Nat → String)

def childKey (r k slot : Nat) : String × String :=
  (runIdempotencyScope (program r k), spawnKey flow (nodeKey r) slot)

def State.holds (s : State) (e : Execution) : Bool :=
  e.live && (s.rows e.row).running && (s.rows e.row).attempt == e.attempt

def step (s : State) : Event → Option State
  | .claim r =>
    if (s.rows r).running then none
    else some { s with
      rows := Function.update s.rows r
        { s.rows r with
          attempt := (s.rows r).attempt + 1, running := true }
      executions := s.executions ++ [⟨r, (s.rows r).attempt + 1, none, [], true⟩] }
  | .claimSlot i =>
    match s.executions[i]? with
    | none => none
    | some e =>
      if e.live && e.claimed.isNone then
        let slot := nextSlot ((s.rows e.row).cursors e.attempt)
        some { s with
          rows := Function.update s.rows e.row
            { s.rows e.row with
              cursors := Function.update (s.rows e.row).cursors e.attempt (some slot) }
          executions := s.executions.set i { e with claimed := some slot } }
      else none
  | .createFlow i =>
    match s.executions[i]? with
    | none => none
    | some e =>
      match e.live, e.claimed with
      | true, some slot =>
        let inserted := insertFlowRun
          (childKey flow nodeKey program e.row e.children.length slot) s.runs
        some { s with
          runs := inserted.2
          executions := s.executions.set i
            { e with
              claimed := none, children := e.children ++ [inserted.1] } }
      | _, _ => none
  | .settle i =>
    match s.executions[i]? with
    | none => none
    | some e =>
      if s.holds e then some { s with
        rows := Function.update s.rows e.row (s.rows e.row).release
        executions := s.executions.set i { e with live := false } }
      else none
  | .defer i =>
    match s.executions[i]? with
    | none => none
    | some e =>
      if s.holds e then some { s with
        rows := Function.update s.rows e.row
          { s.rows e.row with
            attempt := e.attempt - 1, running := false }
        executions := s.executions.set i { e with live := false } }
      else none
  | .stop i =>
    (s.executions[i]?).map fun e =>
      { s with executions := s.executions.set i { e with live := false } }
  | .reclaim r => some { s with
      rows := Function.update s.rows r (s.rows r).release }
  | .createRun key => some { s with runs := (insertFlowRun key s.runs).2 }

end

def State.start : State := ⟨fun _ => ⟨0, false, fun _ => none⟩, [], []⟩

lemma spawnKey_inj : spawnKey flow a i = spawnKey flow b j ↔ a = b ∧ i = j := by
  have hdigit := Joined.segments_toString (c := ':') (by decide)
  rw [spawnKey, spawnKey, Joined.join_inj (cons_ne_nil _ _) (cons_ne_nil _ _)]
  simp only [flatMap_cons, flatMap_nil, append_nil, append_cancel_left_eq,
    hdigit, ← concat_eq_append, concat_inj, Joined.segments_inj, String.toList_inj,
    Joined.toString_inj]

structure Table (runs : List ((String × String) × Nat)) : Prop where
  lt : ∀ key child, runs.lookup key = some child → child < runs.length
  inj : ∀ key key' child, runs.lookup key = some child → runs.lookup key' = some child →
    key = key'

lemma lookup_insertFlowRun (h : runs.lookup key' = some child) :
    (insertFlowRun key runs).2.lookup key' = some child := by
  unfold insertFlowRun
  split
  · exact h
  · rw [lookup_append, h, some_or]

lemma insertFlowRun_lookup (key : String × String) (runs : List ((String × String) × Nat)) :
    (insertFlowRun key runs).2.lookup key = some (insertFlowRun key runs).1 := by
  unfold insertFlowRun
  split
  next child h => exact h
  next h => rw [lookup_append, h, none_or, lookup_cons_self]

lemma Table.insertFlowRun (h : Table runs) (key : String × String) :
    Table (Spawn.insertFlowRun key runs).2 := by
  unfold Spawn.insertFlowRun
  split
  · exact h
  have hcases : ∀ k child, (runs ++ [(key, runs.length)]).lookup k = some child →
      (runs.lookup k = some child ∧ child < runs.length) ∨ (k = key ∧ child = runs.length) := by
    intro k child hk
    rw [lookup_append, Dict.lookup_cons] at hk
    cases hr : runs.lookup k with
    | some c =>
      rw [hr, some_or] at hk
      exact .inl ⟨hk, h.lt k child (hr.trans hk)⟩
    | none =>
      rw [hr, none_or] at hk
      obtain ⟨heq, hk⟩ := ite_none_right_eq_some.mp hk
      exact .inr ⟨heq, (some.inj hk).symm⟩
  constructor
  case lt =>
    intro k child hk
    rw [length_append, length_singleton]
    rcases hcases k child hk with ⟨-, hlt⟩ | ⟨-, heq⟩ <;> omega
  case inj =>
    intro k k' child hk hk'
    rcases hcases k child hk with ⟨hk, hlt⟩ | ⟨rfl, heq⟩ <;>
      rcases hcases k' child hk' with ⟨hk', hlt'⟩ | ⟨rfl, heq'⟩
    · exact h.inj k k' child hk hk'
    · omega
    · omega
    · rfl

section
variable (flow : String) (nodeKey : Nat → String) (program : Nat → Nat → String)

/-- No claim repeats an attempt number a spawn counted under, and one row of a step key spawns. -/
def Steady (s : State) : Event → Prop
  | .claim r => (s.rows r).cursors ((s.rows r).attempt + 1) = none
  | .claimSlot i => ∀ e, s.executions[i]? = some e → ∀ r, r ≠ e.row → nodeKey r = nodeKey e.row →
      ∀ a, (s.rows r).cursors a = none
  | _ => True

structure Execution.Sound (s : State) (e : Execution) : Prop where
  children : ∀ (k child : Nat), e.children[k]? = some child →
    s.runs.lookup (childKey flow nodeKey program e.row k k) = some child
  counted : 0 < e.children.length + e.claimed.toList.length →
    (s.rows e.row).cursors e.attempt ≠ none
  claimed : ∀ slot, e.claimed = some slot → slot = e.children.length
  cursor : e.live = true → nextSlot ((s.rows e.row).cursors e.attempt) =
    e.children.length + e.claimed.toList.length
  attempt : e.live = true → e.attempt ≤ (s.rows e.row).attempt

def Distinct (executions : List Execution) : Prop :=
  ∀ (i j : Nat) (e f : Execution), executions[i]? = some e → executions[j]? = some f →
    e.live = true → f.live = true → e.row = f.row → e.attempt = f.attempt → i = j

structure Sound (s : State) : Prop where
  table : Table s.runs
  executions : ∀ (i : Nat) (e : Execution), s.executions[i]? = some e →
    e.Sound flow nodeKey program s
  distinct : Distinct s.executions
  apart : ∀ r r', r ≠ r' → nodeKey r = nodeKey r' →
    (∀ a, (s.rows r).cursors a = none) ∨ (∀ a, (s.rows r').cursors a = none)

variable {flow nodeKey program}

lemma Distinct.set (h : Distinct executions) (he : executions[i]? = some e)
    (hrow : e'.row = e.row) (hatt : e'.attempt = e.attempt)
    (hlive : e'.live = true → e.live = true) : Distinct (executions.set i e') := by
  have hback : ∀ (j : Nat) (f : Execution), (executions.set i e')[j]? = some f → f.live = true →
      ∃ f0, executions[j]? = some f0 ∧ f0.live = true ∧ f0.row = f.row ∧
        f0.attempt = f.attempt := by
    intro j f hj hl
    rcases of_set hj with ⟨rfl, rfl⟩ | ⟨-, hj⟩
    · exact ⟨e, he, hlive hl, hrow.symm, hatt.symm⟩
    · exact ⟨f, hj, hl, rfl, rfl⟩
  intro j k f g hj hk hlf hlg hr ha
  obtain ⟨f0, hj0, hlf0, hrf, haf⟩ := hback j f hj hlf
  obtain ⟨g0, hk0, hlg0, hrg, hag⟩ := hback k g hk hlg
  exact h j k f0 g0 hj0 hk0 hlf0 hlg0 (by rw [hrf, hr, hrg]) (by rw [haf, ha, hag])

lemma Execution.Sound.kept {e : Execution} (h : e.Sound flow nodeKey program s)
    (hruns : ∀ key child, s.runs.lookup key = some child → s'.runs.lookup key = some child)
    (hcount : (s.rows e.row).cursors e.attempt ≠ none → (s'.rows e.row).cursors e.attempt ≠ none)
    (hlive : e.live = true → (s'.rows e.row).cursors e.attempt = (s.rows e.row).cursors e.attempt ∧
      e.attempt ≤ (s'.rows e.row).attempt) : e.Sound flow nodeKey program s' where
  children k child hk := hruns _ _ (h.children k child hk)
  counted hpos := hcount (h.counted hpos)
  claimed := h.claimed
  cursor hl := by rw [(hlive hl).1, h.cursor hl]
  attempt hl := (hlive hl).2

variable {rows : Nat → NodeRow}

lemma cursors_update (h : row.cursors = (rows r).cursors) (r' : Nat) :
    (Function.update rows r row r').cursors = (rows r').cursors := by
  by_cases hr : r' = r
  · rw [hr, update_self, h]
  · rw [update_of_ne hr]

lemma attempt_release (rows : Nat → NodeRow) (r r' : Nat) :
    (Function.update rows r (rows r).release r').attempt = (rows r').attempt := by
  by_cases hr : r' = r
  · rw [hr, update_self, NodeRow.release]
  · rw [update_of_ne hr]

section
variable (h : Sound flow nodeKey program s)
include h

lemma Sound.same (hcur : ∀ r, (rows r).cursors = (s.rows r).cursors)
    (hatt : ∀ r, (s.rows r).attempt ≤ (rows r).attempt) (htable : Table runs)
    (hruns : ∀ key child, s.runs.lookup key = some child → runs.lookup key = some child) :
    Sound flow nodeKey program ⟨rows, runs, s.executions⟩ where
  table := htable
  executions i e hi := (h.executions i e hi).kept hruns
    (fun hc => by dsimp only; rwa [hcur])
    fun hl => ⟨by dsimp only; rw [hcur],
      Nat.le_trans ((h.executions i e hi).attempt hl) (hatt _)⟩
  distinct := h.distinct
  apart r r' hne hkey := by
    simp only [hcur]
    exact h.apart r r' hne hkey

lemma Sound.ended (he : s.executions[i]? = some e)
    (hcur : ∀ r, (rows r).cursors = (s.rows r).cursors)
    (hatt : ∀ (j : Nat) (f : Execution), j ≠ i → s.executions[j]? = some f → f.live = true →
      f.attempt ≤ (rows f.row).attempt) : Sound flow nodeKey program
      ⟨rows, s.runs, s.executions.set i { e with live := false }⟩ where
  table := h.table
  executions j f hj := by
    rcases of_set hj with ⟨rfl, rfl⟩ | ⟨hne, hj⟩
    · have hs := h.executions j e he
      exact ⟨hs.children, fun hpos => by dsimp only; rw [hcur]; exact hs.counted hpos,
        hs.claimed, nofun, nofun⟩
    · exact (h.executions j f hj).kept (fun _ _ hk => hk)
        (fun hc => by dsimp only; rwa [hcur])
        fun hl => ⟨by dsimp only; rw [hcur], hatt j f hne hj hl⟩
  distinct := h.distinct.set he rfl rfl nofun
  apart r r' hne hkey := by
    simp only [hcur]
    exact h.apart r r' hne hkey

lemma Sound.claim (hfresh : (s.rows r).cursors ((s.rows r).attempt + 1) = none) :
    Sound flow nodeKey program { s with
      rows := Function.update s.rows r
        { s.rows r with
          attempt := (s.rows r).attempt + 1
          running := true }
      executions := s.executions ++ [⟨r, (s.rows r).attempt + 1, none, [], true⟩] } := by
  have hlt : ∀ (i : Nat) (e : Execution), s.executions[i]? = some e → e.live = true →
      e.row = r → e.attempt < (s.rows r).attempt + 1 := by
    rintro i e hi hl rfl
    exact Nat.lt_succ_of_le ((h.executions i e hi).attempt hl)
  have hcur : ∀ r', (Function.update s.rows r
      ⟨(s.rows r).attempt + 1, true, (s.rows r).cursors⟩ r').cursors = (s.rows r').cursors :=
    cursors_update rfl
  constructor
  case table => exact h.table
  case executions =>
    intro i e hi
    rcases of_concat hi with hi | ⟨-, rfl⟩
    · refine (h.executions i e hi).kept (fun _ _ hk => hk)
        (fun hc => by dsimp only; rwa [hcur]) fun hl => ⟨by dsimp only; rw [hcur], ?_⟩
      dsimp only
      by_cases hr : e.row = r
      · rw [hr, update_self]
        exact Nat.le_of_lt (hlt i e hi hl hr)
      · rw [update_of_ne hr]
        exact (h.executions i e hi).attempt hl
    · constructor
      case children => nofun
      case counted => nofun
      case claimed => nofun
      case cursor =>
        intro
        rw [hcur, hfresh]
        rfl
      case attempt =>
        intro
        exact Nat.le_of_eq (by dsimp only; rw [update_self])
  case distinct =>
    intro i j e f hi hj hle hlf hrow hatt
    rcases of_concat hi with hi | ⟨rfl, rfl⟩ <;>
      rcases of_concat hj with hj | ⟨rfl, rfl⟩
    · exact h.distinct i j e f hi hj hle hlf hrow hatt
    · exact absurd hatt (Nat.ne_of_lt (hlt i e hi hle hrow))
    · exact absurd hatt.symm (Nat.ne_of_lt (hlt j f hj hlf hrow.symm))
    · rfl
  case apart =>
    intro r1 r2 hne hkey
    simp only [hcur]
    exact h.apart r1 r2 hne hkey

lemma Sound.claimSlot (he : s.executions[i]? = some e)
    (hl : e.live = true) (hnone : e.claimed = none)
    (halone : ∀ r, r ≠ e.row → nodeKey r = nodeKey e.row → ∀ a, (s.rows r).cursors a = none)
    {slot : Nat} (hslot : slot = nextSlot ((s.rows e.row).cursors e.attempt)) :
    Sound flow nodeKey program { s with
      rows := Function.update s.rows e.row
        { s.rows e.row with
          cursors := Function.update (s.rows e.row).cursors e.attempt (some slot) }
      executions := s.executions.set i { e with claimed := some slot } } := by
  have hs := h.executions i e he
  have hlen : slot = e.children.length := by
    rw [hslot, hs.cursor hl, hnone]
    rfl
  constructor
  case table => exact h.table
  case executions =>
    intro j f hj
    rcases of_set hj with ⟨rfl, rfl⟩ | ⟨hne, hj⟩
    · constructor
      case children => exact hs.children
      case counted => simp
      case claimed => simp [hlen]
      case cursor => simp [nextSlot, hlen]
      case attempt => simpa using hs.attempt
    · refine (h.executions j f hj).kept (fun _ _ hk => hk) ?_ fun hlf => ?_
      · by_cases hr : f.row = e.row
        · by_cases ha : f.attempt = e.attempt
          · simp [hr, ha]
          · simp [hr, ha]
        · simp [hr]
      · by_cases hr : f.row = e.row
        · have ha : f.attempt ≠ e.attempt := fun ha => hne (h.distinct j i f e hj he hlf hl hr ha)
          simpa [hr, ha] using (h.executions j f hj).attempt hlf
        · simpa [hr] using (h.executions j f hj).attempt hlf
  case distinct => exact h.distinct.set he rfl rfl fun hl => hl
  case apart =>
    intro r r' hne hkey
    dsimp only
    by_cases hr : r = e.row
    · subst hr
      right
      rw [update_of_ne hne.symm]
      exact halone r' hne.symm hkey.symm
    · by_cases hr' : r' = e.row
      · subst hr'
        left
        rw [update_of_ne hne]
        exact halone r hne hkey
      · rw [update_of_ne hr, update_of_ne hr']
        exact h.apart r r' hne hkey

lemma Sound.createFlow (he : s.executions[i]? = some e)
    (hl : e.live = true) (hclaim : e.claimed = some slot) {inserted : Nat × List _}
    (hins : inserted = insertFlowRun
      (childKey flow nodeKey program e.row e.children.length slot) s.runs) :
    Sound flow nodeKey program { s with
      runs := inserted.2
      executions := s.executions.set i
        { e with
          claimed := none
          children := e.children ++ [inserted.1] } } := by
  have hs := h.executions i e he
  have hruns : ∀ key child, s.runs.lookup key = some child →
      inserted.2.lookup key = some child := by
    intro key child hk
    rw [hins]
    exact lookup_insertFlowRun hk
  have hslot := hs.claimed slot hclaim
  constructor
  case table => exact hins ▸ h.table.insertFlowRun _
  case executions =>
    intro j f hj
    rcases of_set hj with ⟨rfl, rfl⟩ | ⟨hne, hj⟩
    · constructor
      case children =>
        intro k child hk
        rcases of_concat hk with hk | ⟨rfl, rfl⟩
        · exact hruns _ _ (hs.children k child hk)
        dsimp only
        rw [hins, hslot]
        exact insertFlowRun_lookup _ _
      case counted =>
        intro
        exact hs.counted (by simp [hclaim])
      case claimed => nofun
      case cursor =>
        intro
        rw [hs.cursor hl, hclaim, length_append]
        rfl
      case attempt => exact hs.attempt
    · exact (h.executions j f hj).kept hruns (fun hc => hc)
        fun hlf => ⟨rfl, (h.executions j f hj).attempt hlf⟩
  case distinct => exact h.distinct.set he rfl rfl fun hl => hl
  case apart => exact h.apart

lemma Sound.step (hok : Steady nodeKey s ev)
    (hs : Spawn.step flow nodeKey program s ev = some s') : Sound flow nodeKey program s' := by
  cases ev with
  | claim r =>
    obtain ⟨-, hs⟩ := ite_none_left_eq_some.mp hs
    cases hs
    exact h.claim hok
  | claimSlot i =>
    rw [Spawn.step] at hs
    split at hs
    · cases hs
    next e he =>
      obtain ⟨hguard, hs⟩ := ite_none_right_eq_some.mp hs
      obtain ⟨hl, hnone⟩ := Bool.and_eq_true_iff.mp hguard
      cases hs
      exact h.claimSlot he hl (isNone_iff_eq_none.mp hnone) (hok e he) rfl
  | createFlow i =>
    rw [Spawn.step] at hs
    split at hs
    · cases hs
    next e he =>
      split at hs
      next slot hl hclaim =>
        cases hs
        exact h.createFlow he hl hclaim rfl
      · cases hs
  | settle i =>
    rw [Spawn.step] at hs
    split at hs
    · cases hs
    next e he =>
      obtain ⟨-, rfl⟩ := matched hs
      refine h.ended he (cursors_update rfl) fun j f hne hj hl => ?_
      rw [attempt_release]
      exact (h.executions j f hj).attempt hl
  | defer i =>
    rw [Spawn.step] at hs
    split at hs
    · cases hs
    next e he =>
      obtain ⟨hholds, hs⟩ := ite_none_right_eq_some.mp hs
      simp only [State.holds, Bool.and_eq_true, beq_iff_eq] at hholds
      obtain ⟨⟨hle, -⟩, hatt⟩ := hholds
      cases hs
      refine h.ended he (cursors_update rfl) fun j f hne hj hl => ?_
      have ha := (h.executions j f hj).attempt hl
      by_cases hr : f.row = e.row
      · have hother : f.attempt ≠ e.attempt := fun heq =>
          hne (h.distinct j i f e hj he hl hle hr heq)
        rw [hr] at ha
        rw [hr, update_self]
        dsimp only
        omega
      · rw [update_of_ne hr]
        exact ha
  | stop i =>
    obtain ⟨e, he, rfl⟩ := map_eq_some_iff.mp hs
    exact h.ended he (fun _ => rfl) fun j f _ hj hl => (h.executions j f hj).attempt hl
  | reclaim r =>
    cases hs
    exact h.same (cursors_update rfl) (fun r' => Nat.le_of_eq (attempt_release _ _ r').symm)
      h.table fun _ _ hk => hk
  | createRun key =>
    cases hs
    exact h.same (fun _ => rfl) (fun _ => Nat.le_refl _) (h.table.insertFlowRun key)
      fun _ _ => lookup_insertFlowRun

end

lemma sound_of_reach (h : Reach (step flow nodeKey program) (Steady nodeKey) State.start s) :
    Sound flow nodeKey program s := by
  refine h.invariant ⟨⟨nofun, nofun⟩, nofun, nofun, ?_⟩ fun s a s' hs hok => hs.step hok
  intro r r' hne hkey
  exact .inl fun a => rfl

/-- In a steady run each spawn site has its own child. -/
theorem spawn_owns_child (h : Reach (step flow nodeKey program) (Steady nodeKey) State.start s)
    (he : e ∈ s.executions) (hf : f ∈ s.executions) :
    (e.row = f.row → ∀ (k c c' : Nat), e.children[k]? = some c → f.children[k]? = some c' →
      c = c') ∧ (e.row ≠ f.row → ∀ c ∈ e.children, c ∉ f.children) := by
  have hsound := sound_of_reach h
  obtain ⟨i, hi⟩ := mem_iff_getElem?.mp he
  obtain ⟨j, hj⟩ := mem_iff_getElem?.mp hf
  have hse := hsound.executions i e hi
  have hsf := hsound.executions j f hj
  constructor
  · intro hrow k c c' hc hc'
    have hlookup := hse.children k c hc
    rw [hrow, hsf.children k c' hc'] at hlookup
    exact (some.inj hlookup).symm
  · intro hrow c hc hc'
    obtain ⟨k, hk⟩ := mem_iff_getElem?.mp hc
    obtain ⟨k', hk'⟩ := mem_iff_getElem?.mp hc'
    -- the run has one key, so the two rows have one step key
    have hkey := hsound.table.inj _ _ c (hse.children k c hk) (hsf.children k' c hk')
    have hnode := (spawnKey_inj.mp (congrArg Prod.snd hkey)).1
    have hpos : ∀ (g : Execution), c ∈ g.children →
        0 < g.children.length + g.claimed.toList.length :=
      fun g hg => Nat.lt_of_lt_of_le (length_pos_of_mem hg) (Nat.le_add_right _ _)
    rcases hsound.apart e.row f.row hrow hnode with hnone | hnone
    · exact hse.counted (hpos e hc) (hnone _)
    · exact hsf.counted (hpos f hc') (hnone _)

/-- Two map children of one step, and a row that spawns, defers with a refund and is re-claimed. -/
theorem child_shared_or_respawned :
    (∃ s e f, Reach (step "f" (fun _ => "load") fun _ _ => "import") (fun _ _ => True)
      State.start s ∧ e ∈ s.executions ∧ f ∈ s.executions ∧ e.row ≠ f.row ∧
      ∃ c ∈ e.children, c ∈ f.children) ∧
    (∃ s e f, Reach (step "f" (fun _ => "load") fun _ _ => "import") (fun _ _ => True)
      State.start s ∧ e ∈ s.executions ∧ f ∈ s.executions ∧ e.row = f.row ∧
      ∃ (k c c' : Nat), e.children[k]? = some c ∧ f.children[k]? = some c' ∧ c ≠ c') := by
  let run := step "f" (fun _ => "load") fun _ _ => "import"
  let mapped : List Event :=
    [.claim 0, .claimSlot 0, .createFlow 0, .claim 1, .claimSlot 1, .createFlow 1]
  let deferred : List Event :=
    [.claim 0, .claimSlot 0, .createFlow 0, .defer 0, .claim 0, .claimSlot 1, .createFlow 1]
  constructor
  · refine ⟨final run State.start mapped, ⟨0, 1, none, [0], true⟩, ⟨1, 1, none, [0], true⟩,
      .of_exec (exec_final ?_) (meets_true _ _), ?_, ?_, by decide, 0, by decide, by decide⟩
    all_goals decide +kernel
  · refine ⟨final run State.start deferred, ⟨0, 1, none, [0], false⟩, ⟨0, 1, none, [1], true⟩,
      .of_exec (exec_final ?_) (meets_true _ _), ?_, ?_, rfl, 0, 0, 1, rfl, rfl, by decide⟩
    all_goals decide +kernel

theorem retried_spawn_adopts :
    ∃ s, Reach (step "f" toString fun _ _ => "import") (Steady toString) State.start s ∧
      s.executions = [⟨0, 1, none, [0], false⟩, ⟨1, 1, none, [1], true⟩, ⟨0, 2, none, [0], true⟩] ∧
      ∀ c ∈ [1], c ∉ [0] := by
  let run := step "f" toString fun _ _ => "import"
  let events : List Event :=
    [.claim 0, .claimSlot 0, .createFlow 0, .claim 1, .claimSlot 1, .createFlow 1, .settle 0,
      .claim 0, .claimSlot 2, .createFlow 2]
  let fresh : State → Event → Bool
    | s, .claim r => (s.rows r).cursors ((s.rows r).attempt + 1) == none
    | _, _ => true
  have hsteady : ∀ s ev, fresh s ev = true → Steady toString s ev := by
    intro s ev h
    cases ev with
    | claim r => exact beq_iff_eq.mp h
    | claimSlot i => exact fun e _ r hne hkey => absurd (Joined.toString_inj.mp hkey) hne
    | createFlow | settle | defer | stop | reclaim | createRun => exact True.intro
  have hreach : Reach run (Steady toString) State.start (final run State.start events) :=
    .of_exec (exec_final (by decide +kernel)) (.of_checks fresh (by decide +kernel) hsteady)
  have hexecutions : (final run State.start events).executions =
      [⟨0, 1, none, [0], false⟩, ⟨1, 1, none, [1], true⟩, ⟨0, 2, none, [0], true⟩] := by
    decide +kernel
  have hmem : ∀ e ∈ [Execution.mk 1 1 none [1] true, ⟨0, 2, none, [0], true⟩],
      e ∈ (final run State.start events).executions := by
    exact fun e he => mem_cons_of_mem _ he
  have howns := spawn_owns_child hreach (hmem _ (mem_cons_self ..))
    (hmem _ (mem_cons_of_mem _ (mem_cons_self ..)))
  exact ⟨_, hreach, hexecutions, howns.2 (by decide)⟩

end

end TaskQ.Spawn
