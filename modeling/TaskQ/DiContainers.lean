import TaskQ.DiValidate
import TaskQ.Runs

namespace TaskQ.Di

inductive Place where
  | worker (s : Scope)
  | invocation (n : Nat)
  deriving DecidableEq

def Place.scope : Place → Scope
  | .worker s => s
  | .invocation _ => .transient

inductive Obj where
  | value (t : PyClass)
  | slot (n : Nat) (t : PyClass)
  | made (id : Nat)
  deriving DecidableEq

structure Instance where
  type : PyClass
  place : Place
  args : List Obj
  teardown : Bool
  deriving DecidableEq

inductive Outcome where
  | object | none | raises
  deriving DecidableEq

structure Slots where
  (shadow derived : List PyClass)

structure DiState where
  heap : List Instance
  cache : List ((Scope × PyClass) × Obj)
  opened : List Scope
  invocations : List Slots
  calls : Nat
  closed : List Place
  torn : List Nat

/-- The arms of `_get_or_create_user_code` that register a teardown. -/
def ProviderEntry.hasTeardown (entry : ProviderEntry) : Bool :=
  match entry.shape with
  | .asyncGenerator | .syncGenerator => true
  | .cls =>
    match entry.lifecycle with
    | some .asyncContextManager | some .asyncCloseable | some .syncCloseable => true
    | _ => false
  | .value | .syncCallable | .asyncCallable => false

def ProviderEntry.badLifecycle (entry : ProviderEntry) : Bool :=
  match entry.shape, entry.lifecycle with
  | .cls, some .asyncGenerator | .cls, some .syncGenerator | .cls, some .plainFactory => true
  | _, _ => false

section
variable (providers : Providers) (shadow : List PyClass)

abbrev Verdicts := List (PyClass × Bool)

def reachesAny (walk : Verdicts → PyClass → Except DiError ((Bool × Bool) × Verdicts)) :
    List Param → Verdicts → Except DiError ((Bool × Bool) × Verdicts)
  | [], verdict => .ok ((false, true), verdict)
  | p :: ps, verdict =>
    match p.request [] with
    | .error (.multipleScopeMarkers name) => .error (.multipleScopeMarkers name)
    | .error _ | .ok none => reachesAny walk ps verdict
    | .ok (some r) =>
      match walk verdict r.1 with
      | .error e => .error e
      | .ok sub =>
        if r.1 ∈ shadow ∨ sub.1.1 then .ok ((true, sub.1.2), sub.2)
        else (reachesAny walk ps sub.2).map fun rest =>
          ((rest.1.1, sub.1.2 && rest.1.2), rest.2)

def reachesTracked : Nat → List PyClass → Verdicts → PyClass →
    Except DiError ((Bool × Bool) × Verdicts)
  | 0, _, verdict, _ => .ok ((false, false), verdict)
  | depth + 1, seen, verdict, t =>
    match verdict.lookup t with
    | some v => .ok ((v, true), verdict)
    | none =>
      if t ∈ seen then .ok ((false, false), verdict)
      else
        match (providers.lookup t).filter fun entry => entry.shape ≠ .value with
        | none => .ok ((decide (t ∈ shadow), true), Dict.set t (decide (t ∈ shadow)) verdict)
        | some entry =>
          (reachesAny shadow (reachesTracked depth (t :: seen)) entry.params verdict).map
            fun walked =>
              if walked.1.2 then (walked.1, Dict.set t walked.1.1 walked.2) else walked

def derivedFrom (depth : Nat) : Providers → Verdicts → Except DiError (List PyClass)
  | [], _ => .ok []
  | (t, entry) :: rest, verdict =>
    if entry.shape = .value then derivedFrom depth rest verdict
    else
      match reachesTracked providers shadow depth [] verdict t with
      | .error e => .error e
      | .ok walked =>
        (derivedFrom depth rest walked.2).map fun derived =>
          if walked.1.1 then t :: derived else derived

def shadowDerivedProviders : Except DiError (List PyClass) :=
  derivedFrom providers shadow (providers.length + 1) providers []

end

/-- Through which containers a call is resolved: those of the worker, or those of an invocation. -/
inductive Ctx where
  | worker
  | invocation (n : Nat) (slots : Slots)

inductive Source where
  | slot (n : Nat)
  | container (p : Place)

/-- What serves a scope. In an invocation `LOOP` may be a `LoopScopeSlotView`. -/
def Ctx.source (scope : Scope) (t : PyClass) : Ctx → Source
  | .worker => .container (.worker scope)
  | .invocation n slots =>
    match scope with
    | .process => .container (.worker .process)
    | .thread => .container (.worker .thread)
    | .loop =>
      if t ∈ slots.shadow then .slot n
      else if t ∈ slots.derived then .container (.invocation n)
      else .container (.worker .loop)
    | .transient => .container (.invocation n)

/-- The worker's map of containers has no `TRANSIENT`, and is filled as they open. -/
def Ctx.has (opened : List Scope) (scope : Scope) : Ctx → Bool
  | .worker => decide (scope ∈ opened)
  | .invocation _ _ => true

abbrev Resolve (α : Type) := DiState → Except DiError α × DiState

section
variable (providers : Providers) (oracle : Nat → Outcome)

def solveHints (resolve : Scope → PyClass → ProviderEntry → Resolve Obj)
    (passthrough : List String) : List Param → Resolve (List (String × Obj))
  | [], s => (.ok [], s)
  | p :: ps, s =>
    match p.request passthrough with
    | .error e => (.error e, s)
    | .ok none => solveHints resolve passthrough ps s
    | .ok (some r) =>
      match providers.lookup r.1 with
      | none => (.error (.missingProvider r.1), s)
      | some entry =>
        match resolve (solverScope r.2 entry.scope) r.1 entry s with
        | (.error e, s') => (.error e, s')
        | (.ok obj, s') =>
          match solveHints resolve passthrough ps s' with
          | (.error e, s'') => (.error e, s'')
          | (.ok rest, s'') => (.ok ((p.name, obj) :: rest), s'')

def solveDependencies (resolve : Scope → PyClass → ProviderEntry → Resolve Obj)
    (passthrough : List String) (params : List Param) (s : DiState) :
    Except DiError (List (String × Obj)) × DiState :=
  match solveHints providers resolve passthrough params s with
  | (.error e, s') => (.error e, s')
  | (.ok kwargs, s') =>
    match params.find? fun p => p.hint.isNone && p.name ≠ "self" &&
        !passthrough.contains p.name && !p.hasDefault && !p.variadic with
    | some p => (.error (.unannotated p.name), s')
    | none => (.ok kwargs, s')

def callFactory (t : PyClass) (entry : ProviderEntry) (place : Place) (args : List Obj)
    (s : DiState) : Except DiError Obj × DiState :=
  if oracle s.calls = .raises then (.error .factory, { s with calls := s.calls + 1 })
  else if entry.badLifecycle then (.error .lifecycle, { s with calls := s.calls + 1 })
  else
    (.ok (.made s.heap.length), { s with
        calls := s.calls + 1, heap := s.heap ++ [⟨t, place, args, entry.hasTeardown⟩] })

def build (resolve : Scope → PyClass → ProviderEntry → Resolve Obj) (t : PyClass)
    (entry : ProviderEntry) (place : Place) (s : DiState) : Except DiError Obj × DiState :=
  if entry.shape = .value then (.ok (.value t), s)
  else
    match solveDependencies providers resolve [] entry.params s with
    | (.error e, s') => (.error e, s')
    | (.ok kwargs, s') => callFactory oracle t entry place (kwargs.map Prod.snd) s'

/-- A factory that gives `None` leaves nothing in the cache that a later call would find. -/
def store (scope : Scope) (t : PyClass) (entry : ProviderEntry) (obj : Obj) (s : DiState) :
    DiState :=
  if entry.shape ≠ .value ∧ oracle (s.calls - 1) = .none then s
  else { s with cache := Dict.set (scope, t) obj s.cache }

/-- `get_or_create` of the container a scope stands for; the depth is that of the calls. -/
def getOrCreate : Nat → Ctx → Scope → PyClass → ProviderEntry → Resolve Obj
  | 0, _, _, _, _, s => (.error .recursionLimit, s)
  | depth + 1, ctx, scope, t, entry, s =>
    if ctx.has s.opened scope then
      match ctx.source scope t with
      | .slot n => (.ok (.slot n t), s)
      | .container (.invocation n) =>
        build providers oracle (getOrCreate depth ctx) t entry (.invocation n) s
      | .container (.worker scope) =>
        match s.cache.lookup (scope, t) with
        | some obj => (.ok obj, s)
        | none =>
          match build providers oracle (getOrCreate depth .worker) t entry (.worker scope) s with
          | (.error e, s') => (.error e, s')
          | (.ok obj, s') => (.ok obj, store oracle scope t entry obj s')
    else (.error (.noContainer scope), s)

variable (limit : Nat)

/-- `build_actor_scope`, as far as the keyword arguments it yields. -/
def buildActorScope (a : Actor) (shadow : List PyClass) (s : DiState) :
    Except DiError (List (String × Obj)) × DiState :=
  match if shadow = [] then .ok [] else shadowDerivedProviders providers shadow with
  | .error e => (.error e, s)
  | .ok derived =>
    solveDependencies providers
      (getOrCreate providers oracle limit (.invocation s.invocations.length ⟨shadow, derived⟩))
      actorPassthrough a.params { s with invocations := s.invocations ++ [⟨shadow, derived⟩] }

inductive DiEvent where
  | openScope (scope : Scope)
  | bootstrap (t : PyClass)
  | invoke (a : Actor) (shadow : List PyClass)
  | close (p : Place)

/-- The order of the teardown: the invocations, `LOOP`, `THREAD`, `PROCESS`. -/
def DiState.closable (s : DiState) : Place → Prop
  | .invocation n => n < s.invocations.length
  | .worker .transient => False
  | .worker .loop => ∀ n < s.invocations.length, .invocation n ∈ s.closed
  | .worker .thread => .worker .loop ∈ s.closed
  | .worker .process => .worker .thread ∈ s.closed

instance (s : DiState) : (p : Place) → Decidable (s.closable p)
  | .invocation _ => inferInstanceAs (Decidable (_ < _))
  | .worker .transient => inferInstanceAs (Decidable False)
  | .worker .loop => inferInstanceAs (Decidable (∀ n < _, _))
  | .worker .thread => inferInstanceAs (Decidable (_ ∈ _))
  | .worker .process => inferInstanceAs (Decidable (_ ∈ _))

def teardowns (p : Place) (heap : List Instance) : List Nat :=
  (List.range heap.length).filter fun i =>
    heap[i]?.any fun inst => inst.place = p && inst.teardown

def diStep (actors : List Actor) (s : DiState) : DiEvent → Option DiState
  | .openScope scope =>
    if scope ≠ .transient ∧ scope ∉ s.opened then some { s with opened := scope :: s.opened }
    else none
  | .bootstrap t =>
    (providers.lookup t).map fun entry =>
      (getOrCreate providers oracle limit .worker entry.scope t entry s).2
  | .invoke a shadow =>
    if a ∈ actors then some (buildActorScope providers oracle limit a shadow s).2 else none
  | .close p =>
    if s.closable p ∧ p ∉ s.closed then
      some { s with
        closed := p :: s.closed, torn := teardowns p s.heap ++ s.torn }
    else none

end

def DiState.empty : DiState := ⟨[], [], [], [], 0, [], []⟩

end TaskQ.Di
