namespace TaskQ.Retry

/-- A field that `model_construct` left unvalidated. -/
inductive Field where
  | timedelta (microseconds : Int)
  | str (text : String)
  | other (typeName : String)

structure RetryOverride where
  kind : Option Field := none
  delay : Option Field := none

inductive Returned where
  | override (o : RetryOverride)
  | other (typeName : String)

inductive ShapeError where
  | notOverride (typeName : String)
  | delay (carried : Field)
  | kind (carried : Field)

def overrideShapeError : Returned → Option ShapeError
  | .other typeName => some (.notOverride typeName)
  | .override o =>
    match o.delay with
    | some (.str text) => some (.delay (.str text))
    | some (.other typeName) => some (.delay (.other typeName))
    | none | some (.timedelta _) =>
      match o.kind with
      | none => none
      | some (.str text) =>
        if text ∈ ["transient", "indefinite", "non_retryable"] then none
        else some (.kind (.str text))
      | some carried => some (.kind carried)

inductive Raised where
  | keyboardInterrupt
  | cancelledError
  | other (repr : String)

inductive Outcome where
  | returns (value : Option Returned)
  | raises (e : Raised)

abbrev RetryClassifierHook (ε : Type) := ε → Nat → Outcome

def composeRetryClassifiers : List (RetryClassifierHook ε) → RetryClassifierHook ε
  | [], _, _ => .returns none
  | classifier :: classifiers, exception, attempt =>
    match classifier exception attempt with
    | .raises (.other _) => composeRetryClassifiers classifiers exception attempt
    | .raises carved => .raises carved
    | .returns none => composeRetryClassifiers classifiers exception attempt
    | .returns (some override) =>
      if (overrideShapeError override).isSome then
        composeRetryClassifiers classifiers exception attempt
      else .returns (some override)

def Outcome.decides : Outcome → Bool
  | .raises (.other _) | .returns none => false
  | .raises _ => true
  | .returns (some override) => (overrideShapeError override).isNone

theorem compose_cons (classifier : RetryClassifierHook ε) (classifiers : List _) (exception : ε)
    (attempt : Nat) : composeRetryClassifiers (classifier :: classifiers) exception attempt =
      if (classifier exception attempt).decides then classifier exception attempt
      else composeRetryClassifiers classifiers exception attempt := by
  rw [composeRetryClassifiers]
  split
  next h => simp [h, Outcome.decides]
  next carved hne h =>
    rw [h, if_pos]
    cases carved with
    | other repr => exact absurd rfl (hne repr)
    | keyboardInterrupt => rfl
    | cancelledError => rfl
  next h => simp [h, Outcome.decides]
  next override h =>
    rw [h, Outcome.decides]
    cases overrideShapeError override with
    | none => rfl
    | some e => rfl

def firstDeciding (outcomes : List Outcome) : Outcome :=
  (outcomes.find? Outcome.decides).getD (.returns none)

theorem compose_eq (classifiers : List (RetryClassifierHook ε)) (exception : ε) (attempt : Nat) :
    composeRetryClassifiers classifiers exception attempt =
      firstDeciding (classifiers.map fun c => c exception attempt) := by
  induction classifiers with
  | nil => rfl
  | cons classifier classifiers ih =>
    rw [compose_cons, ih, List.map_cons, firstDeciding, firstDeciding, List.find?_cons]
    cases h : (classifier exception attempt).decides with
    | false => rfl
    | true => rfl

theorem firstDeciding_append (l l' : List Outcome) :
    firstDeciding [firstDeciding l, firstDeciding l'] = firstDeciding (l ++ l') := by
  unfold firstDeciding
  rw [List.find?_append]
  cases h : l.find? Outcome.decides with
  | none =>
    cases h' : l'.find? Outcome.decides with
    | none => rfl
    | some o =>
      have hnone : (Outcome.returns none).decides = false := rfl
      simp [hnone, List.find?_some h']
  | some o => simp [List.find?_some h]

/-- Composing is associative with the empty composition as its unit, and gives the first valid
override unless an exception that is carved out is raised before it. -/
theorem compose_monoid {ε : Type} :
    (∀ l l' : List (RetryClassifierHook ε),
      composeRetryClassifiers [composeRetryClassifiers l, composeRetryClassifiers l'] =
        composeRetryClassifiers (l ++ l')) ∧
    (∀ l : List (RetryClassifierHook ε),
      composeRetryClassifiers [composeRetryClassifiers [], composeRetryClassifiers l] =
        composeRetryClassifiers l ∧
      composeRetryClassifiers [composeRetryClassifiers l, composeRetryClassifiers []] =
        composeRetryClassifiers l) ∧
    ∀ (l : List (RetryClassifierHook ε)) exception attempt,
      composeRetryClassifiers l exception attempt =
        ((l.map fun c => c exception attempt).find? Outcome.decides).getD (.returns none) := by
  have happend : ∀ l l' : List (RetryClassifierHook ε),
      composeRetryClassifiers [composeRetryClassifiers l, composeRetryClassifiers l'] =
        composeRetryClassifiers (l ++ l') := by
    intro l l'
    funext exception attempt
    rw [compose_eq (l ++ l'), List.map_append, ← firstDeciding_append, ← compose_eq, ← compose_eq]
    exact compose_eq _ _ _
  refine ⟨happend, fun l => ⟨happend [] l, ?_⟩, compose_eq⟩
  rw [happend, List.append_nil]

end TaskQ.Retry
