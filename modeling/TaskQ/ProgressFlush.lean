import TaskQ.Runs

namespace TaskQ.Progress
open Runs Option

inductive Field where
  | step | percent | detail | data

/-- An entry of `pending_state`: a number or a text, or a dict that is shared with the actor. -/
inductive Entry (V : Type) where
  | plain (v : V)
  | object (id : Nat)

def Entry.value (objects : Nat → V) : Entry V → V
  | .plain v => v
  | .object id => objects id

abbrev Pending (V : Type) := Field → Option (Entry V)

abbrev Document (J : Type) := Field → Option J

def merge (a b : Document J) : Document J := fun f => (b f).or (a f)

structure Row (J : Type) where
  progressSeq : Int
  progressState : Document J

structure Buffer (V J : Type) where
  (baseSeq pendingSeqDelta : Int)
  pendingState : Pending V
  encodedData : Option (Nat × J)
  (dirty flushInFlight : Bool)

inductive Phase (J : Type) where
  | acquiring
  | sent (doc : Document J)
  | applied (returnedSeq : Int)

structure Flight (V J : Type) where
  delta : Int
  snapshot : Pending V
  phase : Phase J

structure State (V J : Type) where
  row : Row J
  buffer : Buffer V J
  objects : Nat → V
  flights : List (Flight V J)
  consumed : Nat
  reported : Document J

/-- The arguments of `ctx.progress`; without settings `data` is not encoded for its size. -/
structure Call (V : Type) where
  (step percent detail : Option V)
  data : Option Nat
  measured : Bool

def Call.entry (c : Call V) : Pending V
  | .step => c.step.map .plain
  | .percent => c.percent.map .plain
  | .detail => c.detail.map .plain
  | .data => c.data.map .object

inductive Event (V : Type) where
  | progress (c : Call V)
  | stateChange
  | mutate (id : Nat) (v : V)
  | tickFlush
  | immediateFlush
  | render (i : Nat)
  | apply (i : Nat)
  | fail (i : Nat)
  | retire (i : Nat)

section
variable (eq : V → V → Bool) (json : V → J)

def document (objects : Nat → V) (pending : Pending V) : Document J :=
  fun f => (pending f).map fun entry => json (entry.value objects)

/-- `==` of two entries: a dict is equal to itself. -/
def entryEq (objects : Nat → V) (a b : Entry V) : Bool :=
  match a, b with
  | .object i, .object j => i == j || eq (objects i) (objects j)
  | a, b => eq (a.value objects) (b.value objects)

def Buffer.progress (objects : Nat → V) (c : Call V) (b : Buffer V J) : Buffer V J :=
  { b with
    pendingSeqDelta := b.pendingSeqDelta + 1
    pendingState := fun f => (c.entry f).or (b.pendingState f)
    encodedData :=
      match c.data with
      | none => b.encodedData
      | some id => if c.measured then some (id, json (objects id)) else none
    dirty := true }

def Buffer.consumeStateChangeSeq (b : Buffer V J) : Buffer V J :=
  { b with pendingSeqDelta := b.pendingSeqDelta + 1 }

def stateDocument (objects : Nat → V) (b : Buffer V J) (snapshot : Pending V) : Document J :=
  fun f =>
    match f, snapshot f, b.encodedData with
    | .data, some (.object id), some (source, bytes) =>
      some (if id = source then bytes else json (objects id))
    | _, entry, _ => entry.map fun entry => json (entry.value objects)

def retained (objects : Nat → V) (snapshot pending : Pending V) : Pending V := fun f =>
  match snapshot f, pending f with
  | some flushed, some entry => if entryEq eq objects entry flushed then none else some entry
  | _, entry => entry

def Buffer.retireFlushedSnapshot (objects : Nat → V) (returnedSeq delta : Int)
    (snapshot : Pending V) (b : Buffer V J) : Buffer V J :=
  let pending := retained eq objects snapshot b.pendingState
  { b with
    baseSeq := returnedSeq, pendingSeqDelta := b.pendingSeqDelta - delta, pendingState := pending
    encodedData := if (pending .data).isSome then b.encodedData else none
    dirty := b.pendingSeqDelta - delta ≠ 0 || (pending .step).isSome || (pending .percent).isSome ||
      (pending .detail).isSome || (pending .data).isSome }

def State.latch (s : State V J) (phase : Phase J) : State V J :=
  { s with
    buffer := { s.buffer with flushInFlight := true }
    flights := s.flights ++ [⟨s.buffer.pendingSeqDelta, s.buffer.pendingState, phase⟩] }

def step (s : State V J) : Event V → Option (State V J)
  | .progress c => some { s with
      buffer := s.buffer.progress json s.objects c, consumed := s.consumed + 1
      reported := merge s.reported (document json s.objects c.entry) }
  | .stateChange => some { s with
      buffer := s.buffer.consumeStateChangeSeq, consumed := s.consumed + 1 }
  | .mutate id v => some { s with objects := fun i => if i = id then v else s.objects i }
  | .tickFlush =>
    if s.buffer.dirty && !s.buffer.flushInFlight then
      some (s.latch (.sent (stateDocument json s.objects s.buffer s.buffer.pendingState)))
    else none
  | .immediateFlush =>
    if s.buffer.dirty && !s.buffer.flushInFlight then some (s.latch .acquiring) else none
  | .render i =>
    match s.flights[i]? with
    | some ⟨delta, snapshot, .acquiring⟩ => some { s with
        flights := s.flights.set i
          ⟨delta, snapshot, .sent (stateDocument json s.objects s.buffer snapshot)⟩ }
    | _ => none
  | .apply i =>
    match s.flights[i]? with
    | some ⟨delta, snapshot, .sent doc⟩ => some { s with
        row := ⟨s.row.progressSeq + delta, merge s.row.progressState doc⟩
        flights := s.flights.set i ⟨delta, snapshot, .applied (s.row.progressSeq + delta)⟩ }
    | _ => none
  | .fail i =>
    match s.flights[i]? with
    | some ⟨_, _, .acquiring⟩ | some ⟨_, _, .sent _⟩ => some { s with
        buffer := { s.buffer with flushInFlight := false }, flights := s.flights.eraseIdx i }
    | _ => none
  | .retire i =>
    match s.flights[i]? with
    | some ⟨delta, snapshot, .applied returnedSeq⟩ => some { s with
        buffer := { s.buffer.retireFlushedSnapshot eq s.objects returnedSeq delta snapshot with
          flushInFlight := false }
        flights := s.flights.eraseIdx i }
    | _ => none

end

def State.seeded (row : Row J) (objects : Nat → V) : State V J :=
  ⟨row, ⟨row.progressSeq, 0, fun _ => none, none, false, false⟩, objects, [], 0, row.progressState⟩

def State.head (s : State V J) : Int := s.buffer.baseSeq + s.buffer.pendingSeqDelta

def Gated (s : State V J) (flight : Option (Flight V J)) : Prop :=
  s.flights = flight.toList ∧ s.buffer.flushInFlight = flight.isSome

section
variable (eq : V → V → Bool) (json : V → J)

inductive Turn (s : State V J) :
    Event V → Option (Flight V J) → State V J → Option (Flight V J) → Prop where
  | progress (c : Call V) : Turn s (.progress c) flight { s with
      buffer := s.buffer.progress json s.objects c, consumed := s.consumed + 1
      reported := merge s.reported (document json s.objects c.entry) } flight
  | stateChange : Turn s .stateChange flight { s with
      buffer := s.buffer.consumeStateChangeSeq, consumed := s.consumed + 1 } flight
  | mutate (id : Nat) (v : V) : Turn s (.mutate id v) flight
      { s with objects := fun i => if i = id then v else s.objects i } flight
  | latch (phase : Phase J) : (∀ r, phase ≠ .applied r) →
      (∀ doc, phase = .sent doc →
        doc = stateDocument json s.objects s.buffer s.buffer.pendingState) →
      Turn s e none (s.latch phase)
        (some ⟨s.buffer.pendingSeqDelta, s.buffer.pendingState, phase⟩)
  | render (i : Nat) : Turn s (.render i) (some ⟨delta, snapshot, .acquiring⟩)
      { s with flights := [⟨delta, snapshot,
        .sent (stateDocument json s.objects s.buffer snapshot)⟩] }
      (some ⟨delta, snapshot, .sent (stateDocument json s.objects s.buffer snapshot)⟩)
  | apply (i : Nat) : Turn s (.apply i) (some ⟨delta, snapshot, .sent doc⟩)
      { s with
        row := ⟨s.row.progressSeq + delta, merge s.row.progressState doc⟩
        flights := [⟨delta, snapshot, .applied (s.row.progressSeq + delta)⟩] }
      (some ⟨delta, snapshot, .applied (s.row.progressSeq + delta)⟩)
  | fail (i : Nat) : (∀ r, flight.phase ≠ .applied r) → Turn s (.fail i) (some flight)
      { s with
        buffer := { s.buffer with flushInFlight := false }, flights := [] } none
  | retire (i : Nat) : Turn s (.retire i) (some ⟨delta, snapshot, .applied returnedSeq⟩)
      { s with
        buffer := { s.buffer.retireFlushedSnapshot eq s.objects returnedSeq delta snapshot with
          flushInFlight := false }
        flights := [] } none

variable {eq json}

lemma Gated.getElem? (h : Gated s flight) (hi : s.flights[i]? = some f) :
    flight = some f ∧ i = 0 := by
  rw [h.1] at hi
  cases flight with
  | none => cases hi
  | some f' =>
    cases i with
    | zero =>
      cases hi
      exact ⟨rfl, rfl⟩
    | succ i => cases hi

lemma Gated.idle (h : Gated s flight) (hopen : (s.buffer.dirty && !s.buffer.flushInFlight) = true) :
    flight = none := by
  rw [h.2] at hopen
  cases flight with
  | none => rfl
  | some => simp at hopen

lemma turn_of_step (hgate : Gated s flight) (h : step eq json s e = some s') :
    ∃ flight', Gated s' flight' ∧ Turn eq json s e flight s' flight' := by
  cases e with
  | progress c =>
    cases h
    exact ⟨flight, hgate, .progress c⟩
  | stateChange =>
    cases h
    exact ⟨flight, hgate, .stateChange⟩
  | mutate id v =>
    cases h
    exact ⟨flight, hgate, .mutate id v⟩
  | tickFlush =>
    obtain ⟨hopen, rfl⟩ := matched h
    obtain rfl := hgate.idle hopen
    refine ⟨_, ⟨?_, rfl⟩, .latch _ (fun r hr => by cases hr) fun doc hdoc => by cases hdoc; rfl⟩
    rw [State.latch, hgate.1]
    rfl
  | immediateFlush =>
    obtain ⟨hopen, rfl⟩ := matched h
    obtain rfl := hgate.idle hopen
    refine ⟨_, ⟨?_, rfl⟩, .latch _ (fun r hr => by cases hr) fun doc hdoc => by cases hdoc⟩
    rw [State.latch, hgate.1]
    rfl
  | render i =>
    rw [step] at h
    split at h
    next hi =>
      cases h
      obtain ⟨rfl, rfl⟩ := hgate.getElem? hi
      rw [hgate.1]
      refine ⟨_, ?_, .render 0⟩
      exact ⟨rfl, hgate.2⟩
    · cases h
  | apply i =>
    rw [step] at h
    split at h
    next hi =>
      cases h
      obtain ⟨rfl, rfl⟩ := hgate.getElem? hi
      rw [hgate.1]
      refine ⟨_, ?_, .apply 0⟩
      exact ⟨rfl, hgate.2⟩
    · cases h
  | fail i =>
    rw [step] at h
    split at h
    next hi =>
      cases h
      obtain ⟨rfl, rfl⟩ := hgate.getElem? hi
      rw [hgate.1]
      exact ⟨none, ⟨rfl, rfl⟩, .fail 0 fun r hr => by cases hr⟩
    next hi =>
      cases h
      obtain ⟨rfl, rfl⟩ := hgate.getElem? hi
      rw [hgate.1]
      exact ⟨none, ⟨rfl, rfl⟩, .fail 0 fun r hr => by cases hr⟩
    · cases h
  | retire i =>
    rw [step] at h
    split at h
    next hi =>
      cases h
      obtain ⟨rfl, rfl⟩ := hgate.getElem? hi
      rw [hgate.1]
      exact ⟨none, ⟨rfl, rfl⟩, .retire 0⟩
    · cases h

def Standing (s : State V J) : Option (Flight V J) → Prop
  | none => s.row.progressSeq = s.buffer.baseSeq
  | some flight => flight.delta ≤ s.buffer.pendingSeqDelta ∧
    match flight.phase with
    | .applied returnedSeq => returnedSeq = s.row.progressSeq ∧
        s.row.progressSeq = s.buffer.baseSeq + flight.delta
    | _ => s.row.progressSeq = s.buffer.baseSeq

structure Counted (seq : Int) (s : State V J) (flight : Option (Flight V J)) : Prop where
  head : s.head = seq + s.consumed
  pending : 0 ≤ s.buffer.pendingSeqDelta
  standing : Standing s flight

lemma Standing.le (h : Standing s flight) (hpend : 0 ≤ s.buffer.pendingSeqDelta) :
    s.row.progressSeq ≤ s.head := by
  rw [State.head]
  cases flight with
  | none =>
    rw [Standing] at h
    omega
  | some flight =>
    obtain ⟨hle, h⟩ := h
    split at h
    · omega
    · omega

lemma Standing.consume (h : Standing s flight) {buffer : Buffer V J}
    (hbase : buffer.baseSeq = s.buffer.baseSeq)
    (hpend : buffer.pendingSeqDelta = s.buffer.pendingSeqDelta + 1) : Standing { s with
      buffer := buffer
      consumed := n
      reported := doc } flight := by
  cases flight with
  | none => exact Eq.trans h hbase.symm
  | some flight =>
    rw [Standing, hbase, hpend]
    exact ⟨Int.le_add_one h.1, h.2⟩

lemma Counted.turn (h : Counted seq s flight) (ht : Turn eq json s e flight s' flight') :
    Counted seq s' flight' := by
  obtain ⟨hhead, hpend, hstand⟩ := h
  rw [State.head] at hhead
  cases ht with
  | progress c =>
    refine ⟨?_, Int.le_add_one hpend, hstand.consume rfl rfl⟩
    simp only [State.head, Buffer.progress]
    omega
  | stateChange =>
    refine ⟨?_, Int.le_add_one hpend, hstand.consume rfl rfl⟩
    simp only [State.head, Buffer.consumeStateChangeSeq]
    omega
  | mutate | render => exact ⟨hhead, hpend, hstand⟩
  | latch phase hphase =>
    refine ⟨hhead, hpend, Int.le_refl _, ?_⟩
    split
    next r hr => exact absurd hr (hphase r)
    · exact hstand
  | apply i =>
    obtain ⟨hle, hrow⟩ := hstand
    refine ⟨hhead, hpend, hle, rfl, ?_⟩
    rw [hrow]
  | fail i hphase =>
    refine ⟨hhead, hpend, ?_⟩
    obtain ⟨-, hrow⟩ := hstand
    split at hrow
    next r hr => exact absurd hr (hphase r)
    · exact hrow
  | retire i =>
    obtain ⟨hle, hret, hrow⟩ := hstand
    dsimp only at hle hret hrow
    refine ⟨?_, ?_, ?_⟩
    · simp only [State.head, Buffer.retireFlushedSnapshot]
      omega
    · simp only [Buffer.retireFlushedSnapshot]
      omega
    · exact hret.symm

structure Merged (json : V → J) (s : State V J) : Prop where
  merged : merge s.row.progressState (document json s.objects s.buffer.pendingState) = s.reported
  encoded : ∀ id bytes, s.buffer.encodedData = some (id, bytes) →
    s.buffer.pendingState .data = some (.object id) ∧ bytes = json (s.objects id)

structure Faithful (eq : V → V → Bool) (json : V → J) (s : State V J) (flight : Flight V J) :
    Prop where
  kept : ∀ f flushed, flight.snapshot f = some flushed →
    ∃ entry, s.buffer.pendingState f = some entry ∧
      (entryEq eq s.objects entry flushed = true →
        json (entry.value s.objects) = json (flushed.value s.objects))
  sent : ∀ doc, flight.phase = .sent doc → doc = document json s.objects flight.snapshot
  applied : ∀ r, flight.phase = .applied r → ∀ f flushed, flight.snapshot f = some flushed →
    s.row.progressState f = some (json (flushed.value s.objects))

/-- No call during a flush gives an equal value of another JSON, and no buffered dict changes. -/
def Harmless (eq : V → V → Bool) (json : V → J) (s : State V J) : Event V → Prop
  | .progress c => ∀ flight ∈ s.flights, ∀ f entry flushed, c.entry f = some entry →
      flight.snapshot f = some flushed → entryEq eq s.objects entry flushed = true →
        json (entry.value s.objects) = json (flushed.value s.objects)
  | .mutate id _ => (∀ f, s.buffer.pendingState f ≠ some (.object id)) ∧
      ∀ flight ∈ s.flights, ∀ f, flight.snapshot f ≠ some (.object id)
  | _ => True

lemma stateDocument_eq (h : Merged json s) (snapshot : Pending V) :
    stateDocument json s.objects s.buffer snapshot = document json s.objects snapshot := by
  funext f
  unfold stateDocument document
  split
  next id source bytes henc hentry =>
    rw [hentry, map_some]
    split
    next heq =>
      obtain ⟨-, rfl⟩ := h.encoded source bytes henc
      rw [heq]
      rfl
    · rfl
  · rfl

lemma merge_merge_of_subset {a b c : Document J} (h : ∀ f, (b f).isSome → (c f).isSome) :
    merge (merge a b) c = merge a c := by
  funext f
  rw [merge, merge, merge]
  cases hc : c f with
  | some j => rfl
  | none =>
    cases hb : b f with
    | none => rfl
    | some j =>
      have := h f (by rw [hb]; rfl)
      rw [hc] at this
      cases this

lemma document_progress (json : V → J) (objects : Nat → V) (c : Call V) (pending : Pending V) :
    document json objects (fun f => (c.entry f).or (pending f)) =
      merge (document json objects pending) (document json objects c.entry) := by
  funext f
  rw [document, merge, document, document]
  cases c.entry f with
  | none => rfl
  | some entry => rfl

lemma merge_assoc (a b c : Document J) : merge a (merge b c) = merge (merge a b) c := by
  funext f
  rw [merge, merge, merge, merge, Option.or_assoc]

variable {id : Nat}

lemma value_mutate {entry : Entry V} (h : entry ≠ .object id) :
    entry.value (fun i => if i = id then v else objects i) = entry.value objects := by
  cases entry with
  | plain => rfl
  | object i => exact if_neg fun heq => h (congrArg Entry.object heq)

lemma Merged.progress (h : Merged json s) (c : Call V) : Merged json { s with
    buffer := s.buffer.progress json s.objects c
    consumed := s.consumed + 1
    reported := merge s.reported (document json s.objects c.entry) } := by
  refine ⟨?_, fun id bytes henc => ?_⟩
  · dsimp only [Buffer.progress]
    rw [document_progress, merge_assoc, h.merged]
  simp only [Buffer.progress] at henc ⊢
  cases hdata : c.data with
  | none =>
    rw [hdata] at henc
    rw [Call.entry, hdata]
    exact h.encoded id bytes henc
  | some id' =>
    rw [hdata] at henc
    dsimp only at henc
    split at henc
    · cases henc
      rw [Call.entry, hdata]
      exact ⟨rfl, rfl⟩
    · cases henc

lemma Faithful.progress (h : Faithful eq json s flight) (c : Call V)
    (hok : ∀ f entry flushed, c.entry f = some entry → flight.snapshot f = some flushed →
      entryEq eq s.objects entry flushed = true →
        json (entry.value s.objects) = json (flushed.value s.objects)) : Faithful eq json { s with
      buffer := s.buffer.progress json s.objects c
      consumed := s.consumed + 1
      reported := merge s.reported (document json s.objects c.entry) } flight := by
  refine ⟨fun f flushed hflush => ?_, h.sent, h.applied⟩
  dsimp only [Buffer.progress]
  cases hc : c.entry f with
  | none => exact h.kept f flushed hflush
  | some entry => exact ⟨entry, rfl, hok f entry flushed hc hflush⟩

lemma document_mutate {pending : Pending V} (h : ∀ f, pending f ≠ some (.object id)) :
    document json (fun i => if i = id then v else objects i) pending =
      document json objects pending := by
  funext f
  rw [document, document]
  cases hf : pending f with
  | none => rfl
  | some entry =>
    rw [map_some, map_some, value_mutate fun heq => h f (heq ▸ hf)]

lemma entryEq_mutate {entry flushed : Entry V} (h : entry ≠ .object id)
    (h' : flushed ≠ .object id) :
    entryEq eq (fun i => if i = id then v else objects i) entry flushed =
      entryEq eq objects entry flushed := by
  cases entry with
  | plain =>
    rw [entryEq, entryEq, value_mutate h']
    · rfl
    · rintro i j ⟨⟩
    · rintro i j ⟨⟩
  | object i =>
    cases flushed with
    | plain =>
      rw [entryEq, entryEq, value_mutate h]
      · rfl
      · rintro i j - ⟨⟩
      · rintro i j - ⟨⟩
    | object j =>
      rw [entryEq, entryEq, if_neg fun heq => h (congrArg Entry.object heq),
        if_neg fun heq => h' (congrArg Entry.object heq)]

lemma Merged.mutate (h : Merged json s)
    (hpend : ∀ f, s.buffer.pendingState f ≠ some (.object id)) :
    Merged json { s with objects := fun i => if i = id then v else s.objects i } := by
  refine ⟨?_, fun id' bytes henc => ?_⟩
  · dsimp only
    rw [document_mutate hpend, h.merged]
  obtain ⟨hdata, hbytes⟩ := h.encoded id' bytes henc
  refine ⟨hdata, ?_⟩
  dsimp only
  rw [if_neg, hbytes]
  rintro rfl
  exact hpend .data hdata

lemma Faithful.mutate (h : Faithful eq json s flight)
    (hpend : ∀ f, s.buffer.pendingState f ≠ some (.object id))
    (hsnap : ∀ f, flight.snapshot f ≠ some (.object id)) :
    Faithful eq json { s with objects := fun i => if i = id then v else s.objects i } flight := by
  refine ⟨fun f flushed hflush => ?_, fun doc hdoc => ?_, fun r hr f flushed hflush => ?_⟩
  · obtain ⟨entry, hentry, hsame⟩ := h.kept f flushed hflush
    have hne : entry ≠ .object id := fun heq => hpend f (heq ▸ hentry)
    have hne' : flushed ≠ .object id := fun heq => hsnap f (heq ▸ hflush)
    refine ⟨entry, hentry, ?_⟩
    rw [entryEq_mutate hne hne', value_mutate hne, value_mutate hne']
    exact hsame
  · dsimp only
    rw [document_mutate hsnap, h.sent doc hdoc]
  · dsimp only
    rw [value_mutate fun heq => hsnap f (heq ▸ hflush)]
    exact h.applied r hr f flushed hflush

lemma retained_cases (eq : V → V → Bool) (objects : Nat → V) (snapshot pending : Pending V)
    (f : Field) : retained eq objects snapshot pending f = pending f ∨
      retained eq objects snapshot pending f = none ∧ ∃ flushed entry, snapshot f = some flushed ∧
        pending f = some entry ∧ entryEq eq objects entry flushed = true := by
  unfold retained
  split
  next flushed entry hflush hentry =>
    split
    next heq => exact .inr ⟨rfl, flushed, entry, hflush, hentry, heq⟩
    · exact .inl hentry.symm
  · exact .inl rfl

lemma Merged.retire (h : Merged json s)
    (hf : Faithful eq json s ⟨delta, snapshot, .applied returnedSeq⟩) : Merged json { s with
      buffer := { s.buffer.retireFlushedSnapshot eq s.objects returnedSeq delta snapshot with
        flushInFlight := false }
      flights := [] } := by
  refine ⟨?_, fun id bytes henc => ?_⟩
  · rw [← h.merged]
    funext f
    dsimp only [Buffer.retireFlushedSnapshot, merge, document]
    rcases retained_cases eq s.objects snapshot s.buffer.pendingState f with
      heq | ⟨hnone, flushed, entry, hflush, hentry, heq⟩
    · rw [heq]
    obtain ⟨entry', hentry', hsame⟩ := hf.kept f flushed hflush
    rw [hentry] at hentry'
    cases hentry'
    rw [hnone, hentry, map_some, hsame heq]
    exact hf.applied returnedSeq rfl f flushed hflush
  · dsimp only [Buffer.retireFlushedSnapshot] at henc ⊢
    obtain ⟨hsome, henc⟩ := ite_none_right_eq_some.mp henc
    obtain ⟨hdata, hbytes⟩ := h.encoded id bytes henc
    rcases retained_cases eq s.objects snapshot s.buffer.pendingState .data with heq | ⟨hnone, -⟩
    · rw [heq]
      exact ⟨hdata, hbytes⟩
    · rw [hnone] at hsome
      cases hsome

lemma Merged.turn (hm : Merged json s) (hf : ∀ flight' ∈ flight, Faithful eq json s flight')
    (hgate : Gated s flight) (hok : Harmless eq json s e)
    (ht : Turn eq json s e flight s' flight') :
    Merged json s' ∧ ∀ flight'' ∈ flight', Faithful eq json s' flight'' := by
  have hmem : ∀ flight' ∈ flight, flight' ∈ s.flights := by
    intro flight' hfl
    rw [hgate.1]
    exact mem_toList.mpr hfl
  cases ht with
  | progress c =>
    refine ⟨hm.progress c, fun flight' hfl => (hf flight' hfl).progress c ?_⟩
    exact hok flight' (hmem flight' hfl)
  | stateChange =>
    refine ⟨⟨hm.merged, hm.encoded⟩, fun flight' hfl => ?_⟩
    obtain ⟨hkept, hsent, happ⟩ := hf flight' hfl
    exact ⟨hkept, hsent, happ⟩
  | mutate id v =>
    refine ⟨hm.mutate hok.1, fun flight' hfl => (hf flight' hfl).mutate hok.1 ?_⟩
    exact hok.2 flight' (hmem flight' hfl)
  | latch phase hphase hdoc =>
    refine ⟨⟨hm.merged, hm.encoded⟩, fun flight hfl => ?_⟩
    cases hfl
    refine ⟨fun f flushed hflush => ⟨flushed, hflush, fun _ => rfl⟩, fun doc hsent => ?_,
      fun r hr => absurd hr (hphase r)⟩
    rw [hdoc doc hsent, stateDocument_eq hm]
    rfl
  | render i =>
    refine ⟨⟨hm.merged, hm.encoded⟩, fun flight' hfl => ?_⟩
    cases hfl
    refine ⟨(hf _ rfl).kept, fun doc hsent => ?_, fun r hr => by cases hr⟩
    cases hsent
    exact stateDocument_eq hm _
  | @apply delta snapshot doc i =>
    have hfl := hf _ rfl
    have hdoc : doc = document json s.objects snapshot := hfl.sent doc rfl
    refine ⟨⟨?_, hm.encoded⟩, fun flight' hflight' => ?_⟩
    · dsimp only
      rw [merge_merge_of_subset, hm.merged]
      intro f hsome
      rw [hdoc, document, isSome_map] at hsome
      obtain ⟨flushed, hflush⟩ := isSome_iff_exists.mp hsome
      obtain ⟨entry, hentry, -⟩ := hfl.kept f flushed hflush
      rw [document, isSome_map, hentry]
      rfl
    · cases hflight'
      refine ⟨hfl.kept, fun doc hsent => ?_, fun r _ f flushed hflush => ?_⟩
      · cases hsent
      dsimp only [merge]
      rw [hdoc, document, (show snapshot f = some flushed from hflush)]
      rfl
  | fail i hphase =>
    exact ⟨⟨hm.merged, hm.encoded⟩, fun flight' hfl => by cases hfl⟩
  | retire i =>
    exact ⟨hm.retire (hf _ rfl), fun flight' hfl => by cases hfl⟩

lemma reach_counted (row : Row J) (objects : Nat → V)
    (h : Reach (step eq json) (fun _ _ => True) (.seeded row objects) s) :
    ∃ flight, Gated s flight ∧ Counted row.progressSeq s flight := by
  induction h with
  | start => exact ⟨none, ⟨rfl, rfl⟩, by simp [State.head, State.seeded], Int.le_refl _, rfl⟩
  | next _ _ hs ih =>
    obtain ⟨flight, hgate, hcount⟩ := ih
    obtain ⟨flight', hgate', hturn⟩ := turn_of_step hgate hs
    exact ⟨flight', hgate', hcount.turn hturn⟩

lemma reach_merged (row : Row J) (objects : Nat → V)
    (h : Reach (step eq json) (Harmless eq json) (.seeded row objects) s) :
    ∃ flight, Gated s flight ∧ Merged json s ∧ ∀ flight' ∈ flight, Faithful eq json s flight' := by
  induction h with
  | start =>
    refine ⟨none, ⟨rfl, rfl⟩, ⟨rfl, fun id bytes henc => ?_⟩, fun flight hfl => ?_⟩
    · cases henc
    · cases hfl
  | next _ hok hs ih =>
    obtain ⟨flight, hgate, hmerge, hfaithful⟩ := ih
    obtain ⟨flight', hgate', hturn⟩ := turn_of_step hgate hs
    exact ⟨flight', hgate', hmerge.turn hfaithful hgate hok hturn⟩

end

lemma Turn.consumed_le {eq : V → V → Bool} {json : V → J}
    (h : Turn eq json s e flight s' flight') : s.consumed ≤ s'.consumed := by
  cases h with
  | progress | stateChange => exact Nat.le_succ _
  | _ => exact Nat.le_refl _

/-- The seq counts every event once, and under harmless turns nothing reported is lost. -/
theorem progress_counted_once (eq : V → V → Bool) (json : V → J) (row : Row J) (objects : Nat → V)
    (s : State V J) (hreach : Reach (step eq json) (fun _ _ => True) (.seeded row objects) s) :
    s.head = row.progressSeq + s.consumed ∧ s.row.progressSeq ≤ s.head ∧
      (∀ e s', step eq json s e = some s' → s.head ≤ s'.head) ∧
      (Reach (step eq json) (Harmless eq json) (.seeded row objects) s →
        merge s.row.progressState (document json s.objects s.buffer.pendingState) =
          s.reported) := by
  obtain ⟨flight, hgate, hcounted⟩ := reach_counted row objects hreach
  refine ⟨hcounted.head, hcounted.standing.le hcounted.pending, fun e s' hs => ?_, fun hok => ?_⟩
  · obtain ⟨flight', -, hturn⟩ := turn_of_step hgate hs
    have hle := hturn.consumed_le
    rw [hcounted.head, (hcounted.turn hturn).head]
    omega
  · obtain ⟨-, -, hmerged, -⟩ := reach_merged row objects hok
    exact hmerged.merged

inductive Scalar where
  | none
  | bool (b : Bool)
  | int (n : Int)
  | str (s : String)
  deriving DecidableEq

inductive PyValue where
  | scalar (v : Scalar)
  | dict (items : List (String × Scalar))

inductive Json where
  | scalar (v : Scalar)
  | object (entries : String → Option Scalar)

def Scalar.number : Scalar → Option Int
  | .bool b => some b.toNat
  | .int n => some n
  | _ => Option.none

/-- `==`, for which a bool is a number. -/
def Scalar.pyEq (a b : Scalar) : Bool := a = b || (a.number.isSome && a.number == b.number)

def PyValue.pyEq : PyValue → PyValue → Bool
  | .scalar a, .scalar b => a.pyEq b
  | .dict xs, .dict ys =>
    xs.length == ys.length && xs.all fun x => (ys.lookup x.1).any x.2.pyEq
  | _, _ => false

def PyValue.json : PyValue → Json
  | .scalar v => .scalar v
  | .dict items => .object fun key => items.lookup key

def okDicts : Nat → PyValue
  | 0 => .dict [("ok", .int 1)]
  | _ => .dict [("ok", .bool true)]

def emptyRow : Row Json := ⟨0, fun _ => Option.none⟩

def reports (id : Nat) : Event PyValue := .progress ⟨none, none, none, some id, true⟩

def steps (n : Int) : Event PyValue := .progress ⟨some (.scalar (.int n)), none, none, none, true⟩

/-- The call during the flush is equal to the snapshot and dropped: the row keeps the number. -/
theorem equal_value_dropped :
    ∃ s, Reach (step PyValue.pyEq PyValue.json) (fun _ _ => True) (.seeded emptyRow okDicts) s ∧
      merge s.row.progressState (document PyValue.json s.objects s.buffer.pendingState) ≠
        s.reported := by
  let events : List (Event PyValue) := [reports 0, .tickFlush, reports 1, .apply 0, .retire 0]
  let run := step PyValue.pyEq PyValue.json
  refine ⟨final run (.seeded emptyRow okDicts) events,
    .of_exec (exec_final (by decide)) (meets_true _ _), fun h => ?_⟩
  have hdata := congrFun h .data
  have hok := congrFun (Json.object.inj (some.inj hdata)) "ok"
  exact absurd hok (by decide)

theorem late_call_kept :
    ∃ s, Reach (step PyValue.pyEq PyValue.json) (Harmless PyValue.pyEq PyValue.json)
        (.seeded emptyRow okDicts) s ∧ s.row.progressSeq = 1 ∧ s.head = 2 ∧
      merge s.row.progressState (document PyValue.json s.objects s.buffer.pendingState) =
        s.reported := by
  let run := step PyValue.pyEq PyValue.json
  let start : State PyValue Json := .seeded emptyRow okDicts
  have hfirst : Harmless PyValue.pyEq PyValue.json start (steps 1) :=
    fun flight hflight => absurd hflight List.not_mem_nil
  have hlate : Harmless PyValue.pyEq PyValue.json (final run start [steps 1, .tickFlush])
      (steps 2) := by
    intro flight hflight f entry flushed hentry hflushed heq
    obtain rfl := List.mem_singleton.mp hflight
    cases f with
    | step =>
      cases hentry
      cases hflushed
      exact absurd heq (by decide)
    | percent | detail | data => cases hentry
  have hflush : Reach run (Harmless PyValue.pyEq PyValue.json) start
      (final run start [steps 1, .tickFlush]) :=
    .next (.next .start hfirst rfl)
      (show Harmless PyValue.pyEq PyValue.json _ .tickFlush from True.intro) rfl
  have hreach : Reach run (Harmless PyValue.pyEq PyValue.json) start
      (final run start [steps 1, .tickFlush, steps 2, .apply 0, .retire 0]) :=
    .next (.next (.next hflush hlate rfl)
      (show Harmless PyValue.pyEq PyValue.json _ (.apply 0) from True.intro) rfl)
      (show Harmless PyValue.pyEq PyValue.json _ (.retire 0) from True.intro) rfl
  have hany := hreach.mono fun _ _ _ => True.intro
  have h := progress_counted_once _ _ _ _ _ hany
  exact ⟨_, hreach, rfl, h.1, h.2.2.2 hreach⟩

end TaskQ.Progress
