import TaskQ.LoopProgress

namespace TaskQ.Loops
open Runs Option List

/-- The driver's objects and the database's documents; `None` and `null` are `none`. -/
structure Codec (V Doc : Type) where
  jsonable : V → V
  dumps : V → Option Doc
  loads : Doc → V
  isDict : V → Bool
  typeName : V → String

inductive CarryKind (V : Type) where
  | model (validate : V → Except String V)
  /-- `dict` itself or a subclass. -/
  | dict (build : V → V)
  /-- `list`, `str`, `int`, `float` or `bool`. -/
  | native
  | other

structure CarryType (V : Type) where
  name : String
  isInstance : Option V → Bool
  kind : CarryKind V

inductive CarryError where
  /-- `LoopCarryContractError` -/
  | contract (message : String)
  | validation (message : String)

section
variable (k : Codec V Doc)

def Codec.write (v : Option V) : Option Doc := (v.map k.jsonable).bind k.dumps

def Codec.read (doc : Option Doc) : Option V := doc.map k.loads

/-- `encode_result`, without the key of its envelope. -/
def Codec.encodeResult (v : Option V) : Option (Option Doc) :=
  v.map fun v => k.dumps (k.jsonable v)

def Codec.notADict (t : CarryType V) (raw : Option V) : CarryError :=
  .contract ("the loop's declared carry (" ++ t.name ++ ") arrived as '" ++
    (raw.map k.typeName).getD "NoneType" ++ "' — the jsonb value cannot be re-hydrated through " ++
    "the declared type's validator")

def rehydrateCarry (declared : Option (CarryType V)) (raw : Option V) :
    Except CarryError (Option V) :=
  match declared with
  | none => .ok raw
  | some t =>
    if t.isInstance raw then .ok raw
    else
      match t.kind with
      | .model validate =>
        match raw.filter k.isDict with
        | some m => ((validate m).mapError .validation).map some
        | none => .error (k.notADict t raw)
      | .dict build =>
        match raw.filter k.isDict with
        | some m => .ok (some (build m))
        | none => .error (k.notADict t raw)
      | .native => .ok raw
      | .other => .error (.contract ("the loop's declared carry type '" ++ t.name ++ "' cannot " ++
          "round-trip the jsonb boundary — declare a pydantic model, a dict subclass, or a " ++
          "JSON-native type (the carry contract: the body receives the declared type at " ++
          "iteration 0 AND after every resume)"))

end

/-- A loop node without `until` or budget, whose body returns `Done` or `Refine`. -/
structure LoopDecl (V Doc : Type) where
  spec : LoopSpec V
  codec : Codec V Doc
  carryType : Option (CarryType V)
  body : Option V → IterResult V
  maxAttempts : Nat
  retryKind : RetryKind

def IterResult.map (f : Option α → Option β) : IterResult α → IterResult β
  | .done payload => .done (f payload)
  | .refine feedback => .refine (f feedback)

def IterStatus.map (f : Option α → Option β) : IterStatus α → IterStatus β
  | .running => .running
  | .succeeded result => .succeeded (result.map f)
  | .failed errorClass message => .failed errorClass message

def IterRow.map (f : Option α → Option β) (l : IterRow α) : IterRow β :=
  ⟨l.stepKey, l.attempt, l.status.map f⟩

def IterResult.returned : IterResult α → Returned α
  | .done payload => .done payload
  | .refine feedback => .refine feedback

def Returned.map (f : Option α → Option β) : Returned α → Returned β
  | .done payload => .done (f payload)
  | .refine feedback => .refine (f feedback)
  | .other typeName => .other typeName

def IterStatus.outcome : IterStatus α → Option (IterResult α)
  | .succeeded result => some result
  | .running | .failed _ _ => none

/-- The row, its ledger and its driver; the ghosts are the outcomes recorded and consumed. -/
structure Recovery (V Doc : Type) where
  row : LoopRow Doc := {}
  result : Option (Option Doc) := none
  ledger : List (IterRow Doc) := []
  driver : Option (Identity × Driver V) := none
  recorded : List (Nat × IterResult Doc) := []
  consumed : List (Nat × IterResult Doc) := []

inductive Happening where
  | claim (worker : WorkerId) (epoch : Nat)
  | drive
  | crash
  | fault
  | park
  | reclaim
  | capSweep
  deriving DecidableEq

def Recovery.counter (s : Recovery V Doc) : Nat := s.row.iteration.getD 0

def Recovery.goto (s : Recovery V Doc) (c : Identity) (d : Driver V) (pc : Pc V) : Recovery V Doc :=
  { s with driver := some (c, { d with pc }) }

def Recovery.current (s : Recovery V Doc) : List (Nat × IterResult Doc) :=
  s.recorded.filter fun p => p.1 = s.counter

def Pc.isEnded : Pc α → Bool
  | .ended => true
  | _ => false

section
variable (D : LoopDecl V Doc)

def LoopDecl.rowSpec : LoopSpec Doc :=
  ⟨D.spec.stepKey, D.spec.maxIterations, D.codec.write D.spec.initialCarry⟩

def LoopDecl.rehydrate (raw : Option V) : Option (Option V) :=
  (rehydrateCarry D.codec D.carryType raw).toOption

def LoopDecl.driveLoop (s : Recovery V Doc) (c : Identity) (d : Driver V) :
    Option (Recovery V Doc) :=
  match d.pc with
  | .readState =>
    some (s.goto c d (match s.row.iteration with
      | none => .init
      | some i => .top i (D.codec.read s.row.carry)))
  | .init => some { s.goto c d (.top 0 (D.spec.initialCarry.map D.codec.jsonable)) with
      row := loopInit D.rowSpec s.row }
  | .top i carry =>
    match d.rounds with
    | 0 => some (s.goto c d .ended)
    | n + 1 => some (s.goto c { d with rounds := n } (topNext D.spec i carry false))
  | .memo i carry =>
    some (s.goto c d (memoNext i carry
      ((memoizedStepResult (iterKey D.rowSpec i) s.ledger).map (·.map D.codec.read))))
  | .claimLedger i carry => some { s.goto c d (.body i carry) with
      ledger := claimStepLedger (iterKey D.rowSpec i) c.attempt s.ledger }
  | .body i carry =>
    some (s.goto c d (match D.rehydrate carry with
      | some x => .record i (D.body x).returned
      | none => .ended))
  | .record i value =>
    let status := (value.map D.codec.write).status
    some { s.goto c d (recordNext i value) with
      ledger := ledgerTerminal (iterKey D.rowSpec i) c.attempt status s.ledger
      recorded := s.recorded ++ status.outcome.toList.map (i, ·) }
  | .advance i carry =>
    match loopAdvance D.rowSpec c (i + 1) (D.codec.write carry) s.row with
    | some row => some { s.goto c d (.top (i + 1) carry) with
        row
        consumed := s.consumed ++ [(i, .refine (D.codec.write carry))] }
    | none => some (s.goto c d (.exhaust none none))
  | .exhaust errorClass message => some { s.goto c d .ended with
      row := exhaustLoop c errorClass message s.row
      consumed := if s.row.holds c then s.consumed ++ s.current else s.consumed }
  | .finalize payload =>
    if s.row.holds c then
      some { s.goto c d .ended with
        row := finalizeSuccess c s.row, result := D.codec.encodeResult payload
        consumed := s.consumed ++ [(s.counter, .done (D.codec.write payload))] }
    else some (s.goto c d .ended)
  | .ended => none

def LoopRow.repend (r : LoopRow α) : LoopRow α :=
  if r.status = .running then { r with status := .scheduled, lockedByWorker := none } else r

def LoopDecl.hasBudget (r : LoopRow Doc) : Bool :=
  D.retryKind = .indefinite || (r.attempt < D.maxAttempts && D.retryKind ≠ .nonRetryable)

def LoopDecl.reclaimed (r : LoopRow Doc) : LoopRow Doc :=
  if D.hasBudget r then { r with status := .pending, lockedByWorker := none }
  else
    { r with
      status := .crashed, lockedByWorker := none, errorClass := some "WorkerCrashed"
      errorMessage := some "lock expired before worker reported terminal state" }

def LoopDecl.capped (i : Nat) : Bool := D.spec.maxIterations.any (· ≤ i)

def capState : String := "iteration_cap_exhausted"

/-- `sweep_loop_budget` on a loop at its cap. -/
def LoopRow.capSwept (r : LoopRow α) : LoopRow α :=
  { r with
    status := .failed, errorClass := some loopErrorCap
    errorMessage := some ("the loop's iteration cap wall fired (the sweep's arm; the named " ++
      "state: " ++ capState ++ ")")
    iterationState := some capState }

/-- One driver at a time: a row is claimed, reclaimed and swept when its driver is gone. -/
def LoopDecl.step (s : Recovery V Doc) : Happening → Option (Recovery V Doc)
  | .claim worker epoch =>
    if s.driver.isNone && (s.row.status = .pending || s.row.status = .scheduled) then
      some { s with
        row := { s.row with
          status := .running, lockedByWorker := some worker, attempt := s.row.attempt + 1
          claimEpoch := epoch }
        driver := some (⟨worker, s.row.attempt + 1, epoch⟩, {}) }
    else none
  | .drive => s.driver.bind fun p => D.driveLoop s p.1 p.2
  | .crash => if s.driver.isSome then some { s with driver := none } else none
  | .fault =>
    if s.driver.isSome then some { s with row := s.row.repend, driver := none } else none
  | .park =>
    if s.driver.any fun p => p.2.pc.isEnded && s.row.holds p.1 then
      some { s with
        row := { s.row with
          status := .scheduled, lockedByWorker := none, attempt := s.row.attempt - 1 }
        driver := none }
    else none
  | .reclaim =>
    if s.driver.isNone && s.row.status = .running then
      some { s with row := D.reclaimed s.row }
    else none
  | .capSweep =>
    if s.driver.isNone && s.row.status = .running && s.row.iteration.any D.capped then
      some { s with row := s.row.capSwept, consumed := s.consumed ++ s.current }
    else none

def Smooth (_ : Recovery V Doc) : Happening → Prop
  | .claim _ _ | .drive | .park => True
  | .crash | .fault | .reclaim | .capSweep => False

def Undisturbed (_ : Recovery V Doc) : Happening → Prop
  | .claim _ _ | .drive | .park | .reclaim => True
  | .crash | .fault | .capSweep => False

end

inductive Ending (Doc : Type) where
  | result (value : Option (Option Doc))
  | exhausted (errorClass iterationState : Option String)
  deriving DecidableEq

def Recovery.ending (s : Recovery V Doc) : Option (Ending Doc) :=
  match s.row.status with
  | .succeeded => some (.result s.result)
  | .failed => some (.exhausted s.row.errorClass s.row.iterationState)
  | _ => none

def capExhausted : Ending Doc := .exhausted (some loopErrorCap) (some capState)

section
variable (D : LoopDecl V Doc)

def LoopDecl.enters : Nat → Option (Option V)
  | 0 => D.rehydrate (D.spec.initialCarry.map D.codec.jsonable)
  | i + 1 => (enters i).bind fun x =>
    if D.capped i then none
    else
      match D.body x with
      | .done _ => none
      | .refine feedback => if i + 1 ≤ D.spec.cap then D.rehydrate feedback else none

def LoopDecl.outcomeAt (i : Nat) : Option (IterResult Doc) :=
  (D.enters i).bind fun x => if D.capped i then none else some ((D.body x).map D.codec.write)

def LoopDecl.endsAt (i : Nat) : Option (Ending Doc) :=
  (D.enters i).bind fun x =>
    if D.capped i then some capExhausted
    else
      match D.body x with
      | .done payload => some (.result (D.codec.encodeResult payload))
      | .refine _ => if i + 1 ≤ D.spec.cap then none else some capExhausted

def LoopDecl.trace : Nat → List (Nat × IterResult Doc)
  | 0 => []
  | i + 1 => trace i ++ (D.outcomeAt i).toList.map (i, ·)

inductive LoopDecl.Passed (D : LoopDecl V Doc) : Option V → Prop where
  | initial : D.rehydrate (D.spec.initialCarry.map D.codec.jsonable) = some x → Passed D x
  | next : Passed D x → D.body x = .refine feedback → D.rehydrate feedback = some y → Passed D y

/-- The declared type makes the same carry of an object and of its document. -/
def LoopDecl.Returns (live : Option V) (doc : Option Doc) : Prop :=
  (∃ x, D.rehydrate live = some x ∧ D.rehydrate (D.codec.read doc) = some x) ∧
    D.codec.write (D.codec.read doc) = doc

structure LoopDecl.Survives : Prop where
  initial : D.Returns (D.spec.initialCarry.map D.codec.jsonable)
    (D.codec.write D.spec.initialCarry)
  feedback : D.Passed x → D.body x = .refine f → D.Returns f (D.codec.write f)
  payload : D.Passed x → D.body x = .done p →
    D.codec.encodeResult (D.codec.read (D.codec.write p)) = D.codec.encodeResult p

def LoopDecl.Fits (i : Nat) (raw : Option V) : Prop :=
  ∃ x, D.rehydrate raw = some x ∧ D.enters i = some x

end

section
variable {D : LoopDecl V Doc} {x p f : Option V} {i j : Nat}

namespace LoopDecl

lemma enters_succ (hx : D.enters i = some x) (hcap : D.capped i = false)
    (hbody : D.body x = .refine f) (hle : i + 1 ≤ D.spec.cap) :
    D.enters (i + 1) = D.rehydrate f := by
  rw [enters, hx, bind_some, hcap, hbody]
  exact if_pos hle

lemma outcomeAt_eq (hx : D.enters i = some x) (hcap : D.capped i = false) :
    D.outcomeAt i = some ((D.body x).map D.codec.write) := by
  rw [outcomeAt, hx, bind_some, hcap]
  rfl

lemma outcomeAt_capped (hcap : D.capped i = true) : D.outcomeAt i = none := by
  rw [outcomeAt, hcap]
  cases D.enters i with
  | none => rfl
  | some x => rfl

lemma endsAt_capped (hx : D.enters i = some x) (hcap : D.capped i = true) :
    D.endsAt i = some capExhausted := by
  rw [endsAt, hx, bind_some, hcap]
  rfl

lemma endsAt_done (hx : D.enters i = some x) (hcap : D.capped i = false)
    (hbody : D.body x = .done p) : D.endsAt i = some (.result (D.codec.encodeResult p)) := by
  rw [endsAt, hx, bind_some, hcap, hbody]
  rfl

lemma endsAt_refused (hx : D.enters i = some x) (hcap : D.capped i = false)
    (hbody : D.body x = .refine f) (hle : ¬ i + 1 ≤ D.spec.cap) :
    D.endsAt i = some capExhausted := by
  rw [endsAt, hx, bind_some, hcap, hbody]
  exact if_neg hle

lemma enters_of_outcomeAt (h : D.outcomeAt i = some o) :
    ∃ x, D.enters i = some x ∧ D.capped i = false ∧ (D.body x).map D.codec.write = o := by
  obtain ⟨x, hx, h⟩ := bind_eq_some_iff.mp h
  cases hcap : D.capped i with
  | true =>
    rw [hcap] at h
    cases h
  | false =>
    rw [hcap] at h
    exact ⟨x, hx, rfl, some.inj h⟩

lemma enters_after (h : D.endsAt i = some e) : D.enters (i + 1 + n) = none := by
  induction n with
  | zero =>
    obtain ⟨x, hx, h⟩ := bind_eq_some_iff.mp h
    rw [Nat.add_zero, enters, hx, bind_some]
    split
    · rfl
    next hcap =>
      rw [if_neg hcap] at h
      cases hbody : D.body x with
      | done payload => rfl
      | refine feedback =>
        rw [hbody] at h
        dsimp only at h ⊢
        split
        next hle =>
          rw [if_pos hle] at h
          cases h
        · rfl
  | succ n ih =>
    rw [← Nat.add_assoc, enters, ih]
    rfl

lemma not_endsAt_of_lt (h : D.endsAt i = some e) (hlt : i < j) : D.endsAt j = none := by
  obtain ⟨n, rfl⟩ := Nat.exists_eq_add_of_lt hlt
  rw [endsAt, show i + n + 1 = i + 1 + n by omega, enters_after h]
  rfl

lemma endsAt_unique (h : D.endsAt i = some e) (h' : D.endsAt j = some e') : e = e' := by
  rcases Nat.lt_trichotomy i j with hlt | rfl | hlt
  · rw [not_endsAt_of_lt h hlt] at h'
    cases h'
  · exact some.inj (h.symm.trans h')
  · rw [not_endsAt_of_lt h' hlt] at h
    cases h

lemma mem_trace : (i, o) ∈ D.trace n ↔ i < n ∧ D.outcomeAt i = some o := by
  induction n with
  | zero => simp [trace]
  | succ n ih =>
    rw [trace, mem_append, ih]
    constructor
    · rintro (⟨hlt, ho⟩ | hlast)
      · exact ⟨Nat.lt_succ_of_lt hlt, ho⟩
      obtain ⟨o', ho', heq⟩ := mem_map.mp hlast
      cases heq
      exact ⟨Nat.lt_succ_self i, mem_toList.mp ho'⟩
    · rintro ⟨hlt, ho⟩
      rcases Nat.lt_succ_iff_lt_or_eq.mp hlt with hlt | rfl
      · exact .inl ⟨hlt, ho⟩
      · exact .inr (mem_map.mpr ⟨o, mem_toList.mpr ho, rfl⟩)

lemma trace_succ (h : D.outcomeAt i = some o) :
    D.trace (i + 1) = D.trace i ++ [(i, o)] := by
  rw [trace, h]
  rfl

lemma trace_succ_none (h : D.outcomeAt i = none) : D.trace (i + 1) = D.trace i := by
  rw [trace, h]
  exact append_nil _

lemma trace_prefix : D.trace i <+: D.trace (i + 1) := prefix_append _ _

lemma trace_sorted : (D.trace n).Pairwise fun p q => p.1 < q.1 := by
  induction n with
  | zero => exact .nil
  | succ n ih =>
    refine pairwise_append.mpr ⟨ih, ?_, ?_⟩
    · cases D.outcomeAt n with
      | none => exact .nil
      | some o => exact pairwise_singleton _ _
    · rintro ⟨i, o⟩ hp q hq
      obtain ⟨o', -, rfl⟩ := mem_map.mp hq
      exact (mem_trace.mp hp).1

lemma filter_trace : (D.trace (i + 1)).filter (fun p => p.1 = i) =
    (D.outcomeAt i).toList.map (i, ·) := by
  have hold : (D.trace i).filter (fun p => p.1 = i) = [] := by
    apply filter_eq_nil_iff.mpr
    rintro ⟨k, o⟩ hk heq
    exact absurd (of_decide_eq_true heq) (Nat.ne_of_lt (mem_trace.mp hk).1)
  rw [trace, filter_append, hold, nil_append]
  cases D.outcomeAt i with
  | none => rfl
  | some o => simp

lemma passed_of_enters (h : D.enters i = some x) : D.Passed x := by
  induction i generalizing x with
  | zero => exact .initial h
  | succ i ih =>
    obtain ⟨y, hy, h⟩ := bind_eq_some_iff.mp h
    obtain ⟨-, h⟩ := ite_none_left_eq_some.mp h
    cases hbody : D.body y with
    | done payload =>
      rw [hbody] at h
      cases h
    | refine feedback =>
      rw [hbody] at h
      dsimp only at h
      split at h
      · exact .next (ih hy) hbody h
      · cases h

end LoopDecl

lemma Codec.write_eq_of_encodeResult {k : Codec V Doc} {v w : Option V}
    (h : k.encodeResult v = k.encodeResult w) : k.write v = k.write w := by
  cases v with
  | none =>
    cases w with
    | none => rfl
    | some w => cases h
  | some v =>
    cases w with
    | none => cases h
    | some w => exact some.inj h

lemma LoopDecl.Survives.fits_initial (hs : D.Survives) :
    D.Fits 0 (D.spec.initialCarry.map D.codec.jsonable) ∧
      D.Fits 0 (D.codec.read (D.codec.write D.spec.initialCarry)) := by
  obtain ⟨⟨x, hlive, hread⟩, -⟩ := hs.initial
  exact ⟨⟨x, hlive, hlive⟩, x, hread, hlive⟩

lemma LoopDecl.Survives.fits_feedback (hs : D.Survives) (hx : D.enters i = some x)
    (hcap : D.capped i = false) (hbody : D.body x = .refine f) (hle : i + 1 ≤ D.spec.cap) :
    D.Fits (i + 1) f ∧ D.Fits (i + 1) (D.codec.read (D.codec.write f)) := by
  obtain ⟨⟨y, hlive, hread⟩, -⟩ := hs.feedback (passed_of_enters hx) hbody
  have hy : D.enters (i + 1) = some y := (enters_succ hx hcap hbody hle).trans hlive
  exact ⟨⟨y, hlive, hy⟩, y, hread, hy⟩

end

end TaskQ.Loops
