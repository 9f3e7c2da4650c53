import TaskQ.Dict

namespace TaskQ.Di

inductive Scope where
  | process | thread | loop | transient
  deriving DecidableEq

def Scope.value : Scope → Nat
  | .process => 0
  | .thread => 1
  | .loop => 2
  | .transient => 3

lemma Scope.value_eq_zero : ∀ {s : Scope}, s.value = 0 ↔ s = .process
  | .process | .thread | .loop | .transient => by decide

inductive PyClass where
  | jobContext
  | model (n : Nat)
  | user (n : Nat)
  deriving DecidableEq

/-- What `get_type_hints` gives for a parameter. -/
inductive Hint where
  | cls (t : PyClass)
  | contextOf
  | annotated (base : Option PyClass) (marks : List Scope)
  | other
  deriving DecidableEq

def Hint.isJobContext : Hint → Bool
  | .cls .jobContext | .contextOf => true
  | _ => false

def Hint.unwrapped : Hint → Option PyClass
  | .cls t => some t
  | .annotated base _ => base
  | .contextOf | .other => none

def Hint.marks : Hint → List Scope
  | .annotated _ marks => marks
  | _ => []

structure Param where
  name : String
  variadic : Bool
  hint : Option Hint
  hasDefault : Bool
  deriving DecidableEq

inductive DiError where
  | multipleScopeMarkers (param : String)
  | nonTypeHint (param : String)
  | unannotated (param : String)
  | missingProvider (t : PyClass)
  | noContainer (s : Scope)
  | factory
  | lifecycle
  | recursionLimit
  deriving DecidableEq

abbrev Request := PyClass × Option Scope

/-- What the registration walks make of a parameter, which leave out the names `skipped`. -/
def Param.edge (skipped : List String) (p : Param) : Except DiError (Option Request) :=
  if p.name ∈ skipped ∨ p.variadic then .ok none
  else
    match p.hint with
    | none => .ok none
    | some a =>
      if a.isJobContext then .ok none
      else if 1 < a.marks.length then .error (.multipleScopeMarkers p.name)
      else .ok (a.unwrapped.map fun t => (t, a.marks.head?))

/-- What `solve_dependencies` makes of a parameter. -/
def Param.request (passthrough : List String) (p : Param) : Except DiError (Option Request) :=
  match p.hint with
  | none => .ok none
  | some a =>
    if p.name ∈ passthrough then .ok none
    else if 1 < a.marks.length then .error (.multipleScopeMarkers p.name)
    else
      match a.unwrapped with
      | none => .error (.nonTypeHint p.name)
      | some t => .ok (some (t, a.marks.head?))

def collect (f : Param → Except DiError (Option Request)) : List Param → Except DiError (List Request)
  | [] => .ok []
  | p :: ps =>
    match f p with
    | .error e => .error e
    | .ok r => (collect f ps).map (r.toList ++ ·)

inductive FactoryShape where
  | syncCallable | asyncCallable | asyncGenerator | syncGenerator | value | cls
  deriving DecidableEq

inductive ProviderLifecycle where
  | plain | asyncContextManager | asyncCloseable | syncCloseable
  | asyncGenerator | syncGenerator | plainFactory

structure ProviderEntry where
  scope : Scope
  shape : FactoryShape
  lifecycle : Option ProviderLifecycle
  params : List Param

abbrev Providers := List (PyClass × ProviderEntry)

structure DepEdge where
  (owner dep : PyClass)
  override : Option Scope
  deriving DecidableEq

def collectDepEdges (owner : PyClass) (params : List Param) : Except DiError (List DepEdge) :=
  (collect (Param.edge ["self", "payload"]) params).map fun requests =>
    requests.map fun r => ⟨owner, r.1, r.2⟩

def collectAll : Providers → Except DiError (List DepEdge)
  | [] => .ok []
  | (t, entry) :: rest =>
    match if entry.shape = .value then .ok [] else collectDepEdges t entry.params with
    | .error e => .error e
    | .ok edges => (collectAll rest).map (edges ++ ·)

/-- `ProviderRegistry`, after registrations none of which has raised. -/
structure Registry where
  providers : Providers
  depEdges : List DepEdge
  distinct : (providers.map Prod.fst).Nodup
  collected : collectAll providers = .ok depEdges

structure Actor where
  name : String
  params : List Param
  (rateLimits reservations : List String)
  deriving DecidableEq

/-- The decorator's hints leave out the metadata of `Annotated`. -/
def Hint.isContextParam (a : Hint) : Bool :=
  a = .contextOf || a.unwrapped = some .jobContext

/-- The decorator's check: a model payload, then classes and at most one `JobContext`. -/
def Actor.accepted (a : Actor) : Bool :=
  match a.params with
  | [] => false
  | payload :: rest =>
    (match payload.hint.bind Hint.unwrapped with
      | some (.model _) => true
      | _ => false) &&
    (rest.all fun p => p.hint.any fun an => an.isContextParam || an.unwrapped.isSome) &&
    decide ((rest.countP fun p => p.hint.any Hint.isContextParam) ≤ 1)

/-- `override or registered`, in which the scope of value zero counts as absent. -/
def effectiveScope (override : Option Scope) (registered : Scope) : Scope :=
  match override with
  | some s => if s.value = 0 then registered else s
  | none => registered

/-- `override if override is not None else registered`. -/
def solverScope (override : Option Scope) (registered : Scope) : Scope :=
  override.getD registered

lemma effectiveScope_eq (override : Option Scope) (registered : Scope) :
    effectiveScope override registered = solverScope override registered ∨
      override = some .process ∧ effectiveScope override registered = registered := by
  cases override with
  | none => exact .inl rfl
  | some s =>
    rw [effectiveScope]
    split
    next h => exact .inr ⟨congrArg some (Scope.value_eq_zero.mp h), rfl⟩
    · exact .inl rfl

lemma solverScope_le (override : Option Scope) (registered : Scope) :
    (solverScope override registered).value ≤ (effectiveScope override registered).value := by
  rcases effectiveScope_eq override registered with h | ⟨rfl, -⟩
  · exact h ▸ Nat.le_refl _
  · exact Nat.zero_le _

end TaskQ.Di
