import TaskQ.Chain
import TaskQ.Runs

namespace TaskQ.Emit
open Runs

abbrev Rows := List (JobId × JobRow)

def outstanding (flow source : JobId) (p : JobId × JobRow) : Bool :=
  p.2.inFlow flow && p.1 ≠ source && !p.2.status.terminal

/-- `EMIT_IN_FLIGHT_SQL`. -/
def inFlight (rows : Rows) (flow source : JobId) : Nat :=
  rows.countP fun p => outstanding flow source p && p.2.stepKey ≠ rootStepKey

structure Admission where
  source : JobId
  page : List (JobId × EmitChild)
  admitted : Bool := false

/-- The committed rows; an emitter that waits for the lock or the bound has written nothing. -/
structure EmitDb where
  rows : Rows
  lock : Option Admission := none

inductive EmitEvent where
  | lock (source : JobId) (ids : List JobId) (children : List EmitChild)
  | count
  | commit (now : Time)
  | rollback
  | write (job : JobId) (status : JobStatus)

def Admission.childRows (a : Admission) (flow : JobId) (now : Time) : Rows :=
  a.page.map fun p => (p.1, emitChildRow now flow a.source p.2)

/-- `emit_batch` of a run that declares `max_in_flight`, and the other writers of its rows. -/
def EmitDb.step (flow : JobId) (maxInFlight : Nat) (s : EmitDb) : EmitEvent → Option EmitDb
  | .lock source ids children => (emitBatch children).bind fun valid =>
    if s.lock = none ∧ valid.length ≤ maxInFlight then
      some { s with lock := some ⟨source, ids.zip valid, false⟩ }
    else none
  | .count => s.lock.map fun a =>
    if inFlight s.rows flow a.source + a.page.length ≤ maxInFlight then
      { s with lock := some { a with admitted := true } }
    else { s with lock := none } -- `_AdmissionLostError`
  | .commit now => s.lock.bind fun a =>
    if a.admitted then some ⟨s.rows ++ a.childRows flow now, none⟩ else none
  | .rollback => some { s with lock := none }
  | .write job status =>
    some { s with rows := s.rows.map fun p =>
      if p.1 = job && !p.2.status.terminal then (p.1, { p.2 with status }) else p }

variable {flow maxInFlight : Nat} {s s' : EmitDb}

def EmitDb.Fits (flow : JobId) (maxInFlight : Nat) (s : EmitDb) : Prop :=
  ∀ a, s.lock = some a → a.admitted = true →
    inFlight s.rows flow a.source + a.page.length ≤ maxInFlight

lemma inFlight_write (rows : Rows) (source job : JobId) (status : JobStatus) :
    inFlight (rows.map fun p =>
      if p.1 = job && !p.2.status.terminal then (p.1, { p.2 with status }) else p) flow source ≤
    inFlight rows flow source := by
  rw [inFlight, List.countP_map]
  apply List.countP_mono_left
  intro p _ hp
  simp only [Function.comp] at hp
  split at hp
  next hw =>
    simp only [outstanding, Bool.and_eq_true] at hp hw ⊢
    exact ⟨⟨hp.1.1, hw.2⟩, hp.2⟩
  · exact hp

lemma EmitDb.Fits.step (h : s.Fits flow maxInFlight)
    (hs : s.step flow maxInFlight e = some s') : s'.Fits flow maxInFlight := by
  intro a ha hadm
  cases e with
  | lock source ids children =>
    obtain ⟨valid, -, hs⟩ := Option.bind_eq_some_iff.mp hs
    obtain ⟨-, rfl⟩ := matched hs
    cases ha
    cases hadm
  | count =>
    obtain ⟨b, -, rfl⟩ := Option.map_eq_some_iff.mp hs
    split at ha
    next hfits =>
      cases ha
      rwa [if_pos hfits]
    · cases ha
  | commit now =>
    obtain ⟨b, -, hs⟩ := Option.bind_eq_some_iff.mp hs
    obtain ⟨-, rfl⟩ := matched hs
    cases ha
  | rollback =>
    cases hs
    cases ha
  | write job status =>
    cases hs
    exact (Nat.add_le_add_right (inFlight_write ..) _).trans (h a ha hadm)

/-- An emit that commits leaves at most `max_in_flight` rows beside its source's and the root's. -/
theorem emit_within_bound
    (h : Reach (EmitDb.step flow maxInFlight) (fun _ _ => True) ⟨rows, none⟩ s)
    (ha : s.lock = some a) (hs : s.step flow maxInFlight (.commit now) = some s') :
    inFlight s'.rows flow a.source ≤ maxInFlight := by
  have hfits : s.Fits flow maxInFlight :=
    h.invariant (fun _ ha => by cases ha) fun _ _ _ hI _ hs => hI.step hs
  obtain ⟨b, hb, hs⟩ := Option.bind_eq_some_iff.mp hs
  cases ha.symm.trans hb
  obtain ⟨hadm, rfl⟩ := matched hs
  have hpage : inFlight (a.childRows flow now) flow a.source ≤ a.page.length :=
    List.countP_le_length.trans (List.length_map ..).le
  rw [inFlight, List.countP_append]
  exact (Nat.add_le_add_left hpage _).trans (hfits a ha hadm)

def emitting : Rows :=
  [(0, { stepKey := rootStepKey, status := .running, metadata := { flowId := some 0 } }),
    (1, { stepKey := "pages", status := .running, metadata := { flowId := some 0 } })]

def onePage : List EmitEvent := [.lock 1 [2] [⟨"parse", "wf", "default", none, "t", 0⟩], .count]

/-- The root row is not counted: with it two rows are left under a bound of one. -/
theorem root_past_bound : ∃ s s', Reach (EmitDb.step 0 1) (fun _ _ => True) ⟨emitting, none⟩ s ∧
    s.step 0 1 (.commit 0) = some s' ∧ s'.rows.countP (outstanding 0 1) = 2 :=
  ⟨_, _, .of_final (l := onePage) rfl, rfl, by decide⟩

theorem one_page_within_bound :
    ∃ s s' : EmitDb, Reach (EmitDb.step 0 1) (fun _ _ => True) ⟨emitting, none⟩ s ∧
      s.step 0 1 (.commit 0) = some s' ∧ inFlight s'.rows 0 1 ≤ 1 :=
  have h : Reach (EmitDb.step 0 1) (fun _ _ => True) ⟨emitting, none⟩ _ :=
    .of_final (l := onePage) rfl
  ⟨_, _, h, rfl, emit_within_bound h rfl rfl⟩

end TaskQ.Emit
