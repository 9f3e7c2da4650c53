import Mathlib.Logic.Relation
import TaskQ.Di

namespace TaskQ.Di
open List Option Prod.Lex

abbrev Adjacency := List (PyClass × List PyClass)

def children (adj : Adjacency) (t : PyClass) : List PyClass := (adj.lookup t).getD []

def addEdge (adj : Adjacency) (e : DepEdge) : Adjacency :=
  let adj := Dict.set e.owner (children adj e.owner ++ [e.dep]) adj
  if (adj.lookup e.dep).isSome then adj else Dict.set e.dep [] adj

def buildAdjacency (edges : List DepEdge) : Adjacency := edges.foldl addEdge []

def frameSize (frames : List (PyClass × List PyClass)) : Nat :=
  frames.foldr (fun f size => f.2.length + 1 + size) 0

lemma frameSize_pop : frameSize frames < frameSize ((c, []) :: frames) := by
  simp [frameSize]

lemma frameSize_skip : frameSize ((c, ns) :: frames) < frameSize ((c, n :: ns) :: frames) := by
  simp [frameSize]

lemma erase_shrinks {fresh : List PyClass} (h : n ∈ fresh) :
    (fresh.erase n).length < fresh.length := by
  rw [length_erase_of_mem h]
  exact Nat.sub_one_lt (Nat.ne_zero_of_lt (length_pos_of_mem h))

def stackOf (frames : List (PyClass × List PyClass)) : List PyClass :=
  (frames.map Prod.fst).reverse

def cyclePath (stack : List PyClass) (n : PyClass) : List PyClass :=
  stack.drop (stack.idxOf n) ++ [n]

/-- `_detect_cycles`' loop, the top of its stack first; `fresh` are the classes never on it. -/
def detectLoop (adj : Adjacency) (fresh : List PyClass) (frames : List (PyClass × List PyClass)) :
    Except (List PyClass) (List PyClass) :=
  match frames with
  | [] => .ok fresh
  | (_, []) :: frames => detectLoop adj fresh frames
  | (c, n :: ns) :: frames =>
    if n ∈ stackOf ((c, ns) :: frames) then .error (cyclePath (stackOf ((c, ns) :: frames)) n)
    else if n ∈ fresh then
      detectLoop adj (fresh.erase n) ((n, children adj n) :: (c, ns) :: frames)
    else detectLoop adj fresh ((c, ns) :: frames)
termination_by (fresh.length, frameSize frames)
decreasing_by
  · exact right _ frameSize_pop
  · exact left _ _ (erase_shrinks ‹n ∈ fresh›)
  · exact right _ frameSize_skip

def detectFrom (adj : Adjacency) : List PyClass → List PyClass → Except (List PyClass) Unit
  | [], _ => .ok ()
  | start :: starts, fresh =>
    if start ∈ fresh then
      match detectLoop adj (fresh.erase start) [(start, children adj start)] with
      | .error path => .error path
      | .ok fresh => detectFrom adj starts fresh
    else detectFrom adj starts fresh

def detectCycles (adj : Adjacency) : Except (List PyClass) Unit :=
  detectFrom adj (adj.map Prod.fst) (adj.map Prod.fst)

/-- `_post_order_dfs`, from the classes on the stack. -/
def postOrderDfs (adj : Adjacency) (fresh : List PyClass)
    (frames : List (PyClass × List PyClass)) : List PyClass × List PyClass :=
  match frames with
  | [] => (fresh, [])
  | (c, []) :: frames =>
    let rest := postOrderDfs adj fresh frames
    (rest.1, c :: rest.2)
  | (c, n :: ns) :: frames =>
    if n ∈ fresh then postOrderDfs adj (fresh.erase n) ((n, children adj n) :: (c, ns) :: frames)
    else postOrderDfs adj fresh ((c, ns) :: frames)
termination_by (fresh.length, frameSize frames)
decreasing_by
  · exact right _ frameSize_pop
  · exact left _ _ (erase_shrinks ‹n ∈ fresh›)
  · exact right _ frameSize_skip

def postOrderFrom (adj : Adjacency) : List PyClass → List PyClass → List PyClass
  | [], _ => []
  | root :: roots, fresh =>
    if root ∈ fresh then
      let walked := postOrderDfs adj (fresh.erase root) [(root, children adj root)]
      walked.2 ++ postOrderFrom adj roots walked.1
    else postOrderFrom adj roots fresh

inductive ValidationError where
  | di (e : DiError)
  | missingProvider (typeName : PyClass) (requiredBy : PyClass ⊕ String)
  | unknownName (actor name : String)
  | keyError (t : PyClass)
  | dependencyCycle (path : List PyClass)
  | scopeViolation (fromScope toScope : Scope) (typeName dependent : PyClass)

section
variable (providers : Providers)

def actorPassthrough : List String := ["payload", "ctx"]

def collectActorEdges : List Actor → Except DiError (List (String × PyClass))
  | [] => .ok []
  | a :: actors =>
    match collect (Param.edge actorPassthrough) a.params with
    | .error e => .error e
    | .ok requests =>
      (collectActorEdges actors).map ((requests.map fun r => (a.name, r.1)) ++ ·)

/-- The effective scope `_actor_deps_at_scope` computes for a parameter, with its class. -/
def Param.checkedAt (p : Param) : Option (PyClass × Scope) :=
  if p.name ∈ actorPassthrough ∨ p.variadic then none
  else
    match p.hint with
    | none => none
    | some a =>
      if a.isJobContext then none
      else
        match a.unwrapped with
        | none => none
        | some t => (providers.lookup t).map fun entry =>
          (t, effectiveScope a.marks.head? entry.scope)

/-- The scope in which `solve_dependencies` resolves a parameter of an actor, with its class. -/
def Param.solvedAt (p : Param) : Option (PyClass × Scope) :=
  match p.request actorPassthrough with
  | .ok (some r) => (providers.lookup r.1).map fun entry => (r.1, solverScope r.2 entry.scope)
  | _ => none

def atScope (at_ : Param → Option (PyClass × Scope)) (scope : Scope) (params : List Param) :
    List PyClass :=
  params.filterMap fun p => (at_ p).bind fun ts => if ts.2 = scope then some ts.1 else none

def actorDepsAtScope (a : Actor) (scope : Scope) : List PyClass :=
  atScope (Param.checkedAt providers) scope a.params

def solvedAtScope (a : Actor) (scope : Scope) : List PyClass :=
  atScope (Param.solvedAt providers) scope a.params

def topoSortForActor (edges : List DepEdge) (a : Actor) (scope : Scope) : List PyClass :=
  let roots := actorDepsAtScope providers a scope
  let adj : Adjacency := edges.foldl (fun adj e =>
    if (providers.lookup e.owner).isSome then
      Dict.set e.owner (children adj e.owner ++ [e.dep]) adj
    else adj) []
  postOrderFrom adj roots (roots ++ (edges.map fun e => e.dep)).dedup

def checkEdge (e : DepEdge) : Option ValidationError :=
  match providers.lookup e.owner, providers.lookup e.dep with
  | some owner, some dep =>
    let effective := effectiveScope e.override dep.scope
    if owner.scope.value < effective.value then
      some (.scopeViolation owner.scope effective e.dep e.owner)
    else none
  | none, _ => some (.keyError e.owner)
  | some _, none => some (.keyError e.dep)

structure RateLimitNames where
  (rateLimits reservations : List String)

def unknownName (names : RateLimitNames) (a : Actor) : Option ValidationError :=
  ((a.rateLimits.find? fun n => n ∉ names.rateLimits).or
    (a.reservations.find? fun n => n ∉ names.reservations)).map fun n => .unknownName a.name n

def planCache (edges : List DepEdge) (actors : List Actor) :
    List ((String × Scope) × List PyClass) :=
  (actors.flatMap fun a => [Scope.process, .thread, .loop, .transient].map fun s => (a, s)).foldl
    (fun plans x =>
      let plan := topoSortForActor providers edges x.1 x.2
      if plan.isEmpty then plans else Dict.set (x.1.name, x.2) plan plans) []

def runValidation (edges : List DepEdge) (actors : List Actor) (names : Option RateLimitNames) :
    Except ValidationError (List ((String × Scope) × List PyClass)) :=
  match collectActorEdges actors with
  | .error e => .error (.di e)
  | .ok actorEdges =>
    match edges.find? fun e => (providers.lookup e.dep).isNone with
    | some e => .error (.missingProvider e.dep (.inl e.owner))
    | none =>
      match actorEdges.find? fun e => (providers.lookup e.2).isNone with
      | some e => .error (.missingProvider e.2 (.inr e.1))
      | none =>
        match names.bind fun names => actors.findSome? (unknownName names) with
        | some e => .error e
        | none =>
          match detectCycles (buildAdjacency edges) with
          | .error path => .error (.dependencyCycle path)
          | .ok () =>
            match edges.findSome? (checkEdge providers) with
            | some e => .error e
            | none => .ok (planCache providers edges actors)

end

section
open Relation

def Depends (edges : List DepEdge) (a b : PyClass) : Prop := ∃ e ∈ edges, e.owner = a ∧ e.dep = b

lemma children_set : children (Dict.set k v adj) t = if t = k then v else children adj t := by
  rw [children, Dict.lookup_set]
  split <;> rfl

lemma mem_children_addEdge (h : n ∈ children (addEdge adj e) c) :
    n ∈ children adj c ∨ e.owner = c ∧ e.dep = n := by
  have hset : n ∈ children (Dict.set e.owner (children adj e.owner ++ [e.dep]) adj) c := by
    rw [addEdge] at h
    split at h
    · exact h
    rw [children_set] at h
    split at h
    · cases h
    · exact h
  rw [children_set] at hset
  split at hset
  next heq =>
    subst heq
    rcases mem_append.mp hset with hold | hnew
    · exact .inl hold
    · exact .inr ⟨rfl, (mem_singleton.mp hnew).symm⟩
  · exact .inl hset

lemma mem_children_foldl (h : n ∈ children (edges.foldl addEdge adj) c) :
    n ∈ children adj c ∨ Depends edges c n := by
  induction edges generalizing adj with
  | nil => exact .inl h
  | cons e edges ih =>
    rcases ih h with h | ⟨e', he', heq⟩
    · rcases mem_children_addEdge h with hold | heq
      · exact .inl hold
      · exact .inr ⟨e, mem_cons_self, heq⟩
    · exact .inr ⟨e', mem_cons_of_mem _ he', heq⟩

lemma depends_of_mem_children (h : n ∈ children (buildAdjacency edges) c) : Depends edges c n :=
  (mem_children_foldl h).resolve_left not_mem_nil

structure OnPath (adj : Adjacency) (frames : List (PyClass × List PyClass)) : Prop where
  neighbours : ∀ f ∈ frames, f.2 ⊆ children adj f.1
  path : frames.Pairwise fun f g => ReflTransGen (fun a b => b ∈ children adj a) g.1 f.1

lemma OnPath.skip (h : OnPath adj ((c, n :: ns) :: frames)) : OnPath adj ((c, ns) :: frames) := by
  obtain ⟨hc, hfr⟩ := forall_mem_cons.mp h.neighbours
  refine ⟨forall_mem_cons.mpr ⟨fun m hm => hc (mem_cons_of_mem _ hm), hfr⟩, ?_⟩
  obtain ⟨htop, hrest⟩ := pairwise_cons.mp h.path
  exact pairwise_cons.mpr ⟨htop, hrest⟩

lemma OnPath.push (h : OnPath adj ((c, n :: ns) :: frames)) :
    OnPath adj ((n, children adj n) :: (c, ns) :: frames) := by
  have hn : n ∈ children adj c := (forall_mem_cons.mp h.neighbours).1 mem_cons_self
  refine ⟨forall_mem_cons.mpr ⟨fun m hm => hm, h.skip.neighbours⟩,
    pairwise_cons.mpr ⟨?_, h.skip.path⟩⟩
  intro g hg
  rcases mem_cons.mp hg with rfl | hg
  · exact .single hn
  · exact .tail ((pairwise_cons.mp h.path).1 g hg) hn

lemma cycle_of_detectLoop (h : detectLoop adj fresh frames = .error path)
    (hpath : OnPath adj frames) : ∃ t, TransGen (fun a b => b ∈ children adj a) t t := by
  fun_induction detectLoop adj fresh frames with
  | case1 => cases h
  | case2 fresh c frames ih =>
    exact ih h ⟨(forall_mem_cons.mp hpath.neighbours).2, (pairwise_cons.mp hpath.path).2⟩
  | case3 fresh c n ns frames hn =>
    -- the neighbour on the stack reaches the top, and the top it
    have hc : n ∈ children adj c :=
      (forall_mem_cons.mp hpath.neighbours).1 mem_cons_self
    refine ⟨n, ?_⟩
    rcases mem_cons.mp (mem_reverse.mp hn) with rfl | hn
    · exact .single hc
    · obtain ⟨g, hg, rfl⟩ := mem_map.mp hn
      exact .tail' ((pairwise_cons.mp hpath.path).1 g hg) hc
  | case4 fresh c n ns frames _ _ ih => exact ih h hpath.push
  | case5 fresh c n ns frames _ _ ih => exact ih h hpath.skip

lemma cycle_of_detectFrom (h : detectFrom adj starts fresh = .error path) :
    ∃ t, TransGen (fun a b => b ∈ children adj a) t t := by
  induction starts generalizing fresh with
  | nil => cases h
  | cons start starts ih =>
    rw [detectFrom] at h
    split at h
    · split at h
      next hloop =>
        refine cycle_of_detectLoop hloop ⟨?_, pairwise_singleton _ _⟩
        exact forall_mem_singleton.mpr fun m hm => hm
      · exact ih h
    · exact ih h

lemma detectCycles_of_acyclic (h : ∀ t, ¬ TransGen (Depends edges) t t) :
    detectCycles (buildAdjacency edges) = .ok () := by
  cases hd : detectCycles (buildAdjacency edges) with
  | ok => rfl
  | error path =>
    obtain ⟨t, ht⟩ := cycle_of_detectFrom hd
    exact absurd (ht.lift id fun _ _ hab => depends_of_mem_children hab) (h t)

end

section
variable {providers : Providers}

lemma of_countP_eq {P Q : α → Bool} {l : List α} (h : ∀ a ∈ l, P a → Q a)
    (hcount : l.countP Q ≤ l.countP P) : ∀ a ∈ l, Q a → P a := by
  induction l with
  | nil => exact fun a ha => absurd ha not_mem_nil
  | cons b l ih =>
    obtain ⟨hb, hl⟩ := forall_mem_cons.mp h
    have hle := countP_mono_left hl
    rw [countP_cons, countP_cons] at hcount
    refine forall_mem_cons.mpr ⟨fun hQ => ?_, ih hl ?_⟩
    · by_contra hP
      rw [if_pos hQ, if_neg hP] at hcount
      omega
    · by_cases hP : P b = true
      · rw [if_pos hP, if_pos (hb hP)] at hcount
        omega
      · rw [if_neg hP] at hcount
        omega

lemma length_atScope (f : Param → Option (PyClass × Scope)) (scope : Scope)
    (params : List Param) : (atScope f scope params).length =
      params.countP fun p => (f p).any fun ts => ts.2 = scope := by
  induction params with
  | nil => rfl
  | cons p params ih =>
    rw [countP_cons, ← ih, atScope, filterMap_cons]
    cases hp : f p with
    | none => rfl
    | some ts =>
      by_cases hs : ts.2 = scope
      · simp [atScope, hs]
      · simp [atScope, hs]

def Param.Differs (f g : Option (PyClass × Scope)) : Prop :=
  f = g ∨ f = none ∧ g.isSome ∨
    ∃ t s, s ≠ Scope.process ∧ f = some (t, s) ∧ g = some (t, .process)

def Param.unchecked (p : Param) : Bool := p.variadic || p.hint.any Hint.isJobContext

lemma Param.walks (p : Param) (h : ∀ e, p.edge actorPassthrough ≠ .error e) :
    (p.checkedAt providers = none ∧ p.solvedAt providers = none ∧
      ∀ r, p.request actorPassthrough = .ok (some r) → providers.lookup r.1 = none) ∨
    ∃ r entry, p.request actorPassthrough = .ok (some r) ∧ providers.lookup r.1 = some entry ∧
      p.solvedAt providers = some (r.1, solverScope r.2 entry.scope) ∧ p.checkedAt providers =
        if p.unchecked then none else some (r.1, effectiveScope r.2 entry.scope) := by
  obtain ⟨name, variadic, hint, hasDefault⟩ := p
  rw [Param.checkedAt, Param.solvedAt, Param.request, Param.unchecked]
  rw [Param.edge] at h
  cases hint with
  | none =>
    refine .inl ⟨by split <;> rfl, rfl, fun r hr => ?_⟩
    cases hr
  | some a =>
    dsimp only at h ⊢
    by_cases hname : name ∈ actorPassthrough
    · rw [if_pos (.inl hname), if_pos hname]
      exact .inl ⟨rfl, rfl, fun r hr => by cases hr⟩
    rw [if_neg hname]
    by_cases hmarks : 1 < a.marks.length
    · rw [if_pos hmarks]
      refine .inl ⟨?_, rfl, fun r hr => by cases hr⟩
      split
      · rfl
      next hskip =>
        split
        · rfl
        next hcontext =>
          rw [if_neg hskip, if_neg hcontext, if_pos hmarks] at h
          exact absurd rfl (h _)
    rw [if_neg hmarks]
    cases hbase : a.unwrapped with
    | none =>
      refine .inl ⟨?_, rfl, fun r hr => by cases hr⟩
      split <;> [rfl; (split <;> rfl)]
    | some t =>
      dsimp only
      cases hentry : providers.lookup t with
      | none =>
        refine .inl ⟨?_, rfl, fun r hr => ?_⟩
        · split <;> [rfl; (split <;> rfl)]
        · cases hr
          exact hentry
      | some entry =>
        refine .inr ⟨(t, a.marks.head?), entry, rfl, hentry, rfl, ?_⟩
        cases variadic with
        | true => simp
        | false =>
          rw [if_neg (by simp [hname]), Bool.false_or, any_some]
          rfl

lemma Param.differs (p : Param) (h : ∀ e, p.edge actorPassthrough ≠ .error e) :
    Param.Differs (p.checkedAt providers) (p.solvedAt providers) := by
  rcases p.walks h with ⟨hcheck, hsolv, -⟩ | ⟨r, entry, -, -, hsolv, hcheck⟩
  · exact .inl (hcheck.trans hsolv.symm)
  rw [hcheck, hsolv]
  split
  · exact .inr (.inl ⟨rfl, rfl⟩)
  rcases effectiveScope_eq r.2 entry.scope with heq | ⟨hover, heq⟩
  · exact .inl (by rw [heq])
  rw [heq, hover]
  by_cases hscope : entry.scope = .process
  · exact .inl (by rw [hscope]; rfl)
  · exact .inr (.inr ⟨r.1, entry.scope, hscope, rfl, rfl⟩)

/-- A parameter the solver resolves is checked, and no override moves it to `PROCESS`. -/
def Param.Ordinary (providers : Providers) (p : Param) : Prop :=
  ∀ r entry, p.request actorPassthrough = .ok (some r) → providers.lookup r.1 = some entry →
    p.unchecked = false ∧ (r.2 = some .process → entry.scope = .process)

lemma Param.checkedAt_eq_iff (p : Param) (h : ∀ e, p.edge actorPassthrough ≠ .error e) :
    p.checkedAt providers = p.solvedAt providers ↔ p.Ordinary providers := by
  rcases p.walks h with ⟨hcheck, hsolv, hnone⟩ | ⟨r, entry, hr, hentry, hsolv, hcheck⟩
  · refine ⟨fun _ r entry hr hentry => ?_, fun _ => hcheck.trans hsolv.symm⟩
    rw [hnone r hr] at hentry
    cases hentry
  · rw [hcheck, hsolv]
    constructor
    · intro heq r' entry' hr' hentry'
      rw [hr] at hr'
      cases hr'
      rw [hentry] at hentry'
      cases hentry'
      split at heq
      · cases heq
      next hunch =>
        refine ⟨Bool.eq_false_iff.mpr hunch, fun hover => ?_⟩
        rw [hover] at heq
        exact congrArg Prod.snd (some.inj heq)
    · intro hordinary
      obtain ⟨hunch, hproc⟩ := hordinary r entry hr hentry
      rw [hunch, if_neg Bool.false_ne_true]
      rcases effectiveScope_eq r.2 entry.scope with heq | ⟨hover, heq⟩
      · rw [heq]
      · rw [heq, hover, hproc hover]
        rfl

lemma atScope_eq_iff {f g : Param → Option (PyClass × Scope)} {params : List Param}
    (h : ∀ p ∈ params, Param.Differs (f p) (g p)) :
    (∀ scope, atScope f scope params = atScope g scope params) ↔ ∀ p ∈ params, f p = g p := by
  refine ⟨fun heq => ?_, fun heq scope => filterMap_congr fun p hp => by rw [heq p hp]⟩
  have hcount : ∀ scope, (params.countP fun p => (g p).any fun ts => ts.2 = scope) ≤
      params.countP fun p => (f p).any fun ts => ts.2 = scope := by
    intro scope
    exact Nat.le_of_eq (by rw [← length_atScope, ← length_atScope, heq scope])
  -- at the scope of value zero nothing is checked that is not solved there
  have hproc := of_countP_eq (P := fun p => (f p).any fun ts => ts.2 = .process)
    (fun p hp hf => by
      rcases h p hp with hfg | ⟨hnone, -⟩ | ⟨t, s, hs, hfp, -⟩
      · rwa [← hfg]
      · rw [hnone] at hf
        cases hf
      · rw [hfp] at hf
        exact absurd (of_decide_eq_true hf) hs) (hcount .process)
  have hsame : ∀ p ∈ params, f p = g p ∨ f p = none ∧ (g p).isSome := by
    intro p hp
    rcases h p hp with hfg | hnone | ⟨t, s, hs, hfp, hgp⟩
    · exact .inl hfg
    · exact .inr hnone
    have hf := hproc p hp (by rw [hgp]; rfl)
    rw [hfp] at hf
    exact absurd (of_decide_eq_true hf) hs
  intro p hp
  rcases hsame p hp with hfg | ⟨hnone, hsome⟩
  · exact hfg
  obtain ⟨⟨t, s⟩, hg⟩ := isSome_iff_exists.mp hsome
  have hf := of_countP_eq (P := fun p => (f p).any fun ts => ts.2 = s)
    (fun p hp hf => by
      rcases hsame p hp with hfg | ⟨hnone, -⟩
      · rwa [← hfg]
      · rw [hnone] at hf
        cases hf) (hcount s) p hp (by rw [hg]; exact decide_eq_true rfl)
  rw [hnone] at hf
  cases hf

def scopeOf (providers : Providers) (t : PyClass) : Scope :=
  ((providers.lookup t).map fun entry => entry.scope).getD .process

def SolverViolates (providers : Providers) (e : DepEdge) : Prop :=
  (scopeOf providers e.owner).value <
    (solverScope e.override (scopeOf providers e.dep)).value

/-- Nothing stops the validation before its check of the scopes. -/
structure Admissible (providers : Providers) (edges : List DepEdge) (actors : List Actor)
    (names : Option RateLimitNames) : Prop where
  owners : ∀ e ∈ edges, (providers.lookup e.owner).isSome
  deps : ∀ e ∈ edges, (providers.lookup e.dep).isSome
  marks : ∀ a ∈ actors, ∀ p ∈ a.params, ∀ err, p.edge actorPassthrough ≠ .error err
  requests : ∀ a ∈ actors, ∀ p ∈ a.params, ∀ r, p.edge actorPassthrough = .ok (some r) →
    (providers.lookup r.1).isSome
  known : ∀ n, names = some n → ∀ a ∈ actors, unknownName n a = none
  acyclic : ∀ t, ¬ Relation.TransGen (Depends edges) t t

lemma collect_of_ok {f : Param → Except DiError (Option Request)} {params : List Param}
    (h : ∀ p ∈ params, ∀ e, f p ≠ .error e) : ∃ requests, collect f params = .ok requests ∧
      ∀ r ∈ requests, ∃ p ∈ params, f p = .ok (some r) := by
  induction params with
  | nil => exact ⟨[], rfl, fun r hr => absurd hr not_mem_nil⟩
  | cons p params ih =>
    obtain ⟨hp, hparams⟩ := forall_mem_cons.mp h
    obtain ⟨requests, hcoll, hfrom⟩ := ih hparams
    cases hf : f p with
    | error e => exact absurd hf (hp e)
    | ok o =>
      refine ⟨o.toList ++ requests, ?_, fun r hr => ?_⟩
      · rw [collect, hf]
        rw [hcoll]
        rfl
      · rcases mem_append.mp hr with hr | hr
        · exact ⟨p, mem_cons_self, by rw [hf, mem_toList.mp hr]⟩
        · obtain ⟨p', hp', hf'⟩ := hfrom r hr
          exact ⟨p', mem_cons_of_mem _ hp', hf'⟩

lemma collectActorEdges_of_ok {actors : List Actor}
    (h : ∀ a ∈ actors, ∀ p ∈ a.params, ∀ e, p.edge actorPassthrough ≠ .error e) :
    ∃ edges, collectActorEdges actors = .ok edges ∧ ∀ x ∈ edges, ∃ a ∈ actors,
      ∃ p ∈ a.params, ∃ r, p.edge actorPassthrough = .ok (some r) ∧ r.1 = x.2 := by
  induction actors with
  | nil => exact ⟨[], rfl, fun r hr => absurd hr not_mem_nil⟩
  | cons a actors ih =>
    obtain ⟨ha, hact⟩ := forall_mem_cons.mp h
    obtain ⟨edges, hedges, hfrom⟩ := ih hact
    obtain ⟨requests, hcoll, hreq⟩ := collect_of_ok ha
    refine ⟨(requests.map fun r => (a.name, r.1)) ++ edges, ?_, fun x hx => ?_⟩
    · rw [collectActorEdges, hcoll]
      rw [hedges]
      rfl
    · rcases mem_append.mp hx with hx | hx
      · obtain ⟨r, hr, rfl⟩ := mem_map.mp hx
        obtain ⟨p, hp, hedge⟩ := hreq r hr
        exact ⟨a, mem_cons_self, p, hp, r, hedge, rfl⟩
      · obtain ⟨a', ha', hx⟩ := hfrom x hx
        exact ⟨a', mem_cons_of_mem _ ha', hx⟩

section
variable (h : Admissible providers edges actors names)
include h

lemma Admissible.runValidation : runValidation providers edges actors names =
      match edges.findSome? (checkEdge providers) with
      | some e => .error e
      | none => .ok (planCache providers edges actors) := by
  obtain ⟨actorEdges, hact, hfrom⟩ := collectActorEdges_of_ok h.marks
  have hdeps : (edges.find? fun e => (providers.lookup e.dep).isNone) = none := by
    refine find?_eq_none.mpr fun e he hnone => ?_
    rw [← not_isSome, h.deps e he] at hnone
    cases hnone
  have hreq : (actorEdges.find? fun e => (providers.lookup e.2).isNone) = none := by
    refine find?_eq_none.mpr fun x hx hnone => ?_
    obtain ⟨a, ha, p, hp, r, hr, heq⟩ := hfrom x hx
    rw [← heq, ← not_isSome, h.requests a ha p hp r hr] at hnone
    cases hnone
  have hknown : (names.bind fun names => actors.findSome? (unknownName names)) = none := by
    cases hn : names with
    | none => rfl
    | some n => exact findSome?_eq_none_iff.mpr (h.known n hn)
  rw [Di.runValidation, hact]
  dsimp only
  rw [hdeps, hreq, hknown, detectCycles_of_acyclic h.acyclic]

lemma checkEdge_eq (he : e ∈ edges) : checkEdge providers e =
      if (scopeOf providers e.owner).value <
          (effectiveScope e.override (scopeOf providers e.dep)).value then
        some (.scopeViolation (scopeOf providers e.owner)
          (effectiveScope e.override (scopeOf providers e.dep)) e.dep e.owner)
      else none := by
  obtain ⟨owner, howner⟩ := isSome_iff_exists.mp (h.owners e he)
  obtain ⟨dep, hdep⟩ := isSome_iff_exists.mp (h.deps e he)
  rw [checkEdge, scopeOf, scopeOf, howner, hdep]
  rfl

lemma raises_iff :
    (∃ fromScope toScope t dependent, Di.runValidation providers edges actors names =
      .error (.scopeViolation fromScope toScope t dependent)) ↔
    ∃ e ∈ edges, (scopeOf providers e.owner).value <
      (effectiveScope e.override (scopeOf providers e.dep)).value := by
  rw [h.runValidation]
  constructor
  · rintro ⟨fromScope, toScope, t, dependent, hraise⟩
    split at hraise
    next err herr =>
      obtain ⟨e, he, hcheck⟩ := exists_of_findSome?_eq_some herr
      rw [checkEdge_eq h he] at hcheck
      refine ⟨e, he, ?_⟩
      by_contra hle
      rw [if_neg hle] at hcheck
      cases hcheck
    · cases hraise
  · rintro ⟨e, he, hlt⟩
    cases hfind : edges.findSome? (checkEdge providers) with
    | none =>
      have hnone := findSome?_eq_none_iff.mp hfind e he
      rw [checkEdge_eq h he, if_pos hlt] at hnone
      cases hnone
    | some err =>
      obtain ⟨e', he', hcheck⟩ := exists_of_findSome?_eq_some hfind
      rw [checkEdge_eq h he'] at hcheck
      split at hcheck
      · cases hcheck
        exact ⟨_, _, _, _, rfl⟩
      · cases hcheck

end

lemma violates_iff (e : DepEdge) : (scopeOf providers e.owner).value <
        (effectiveScope e.override (scopeOf providers e.dep)).value ↔
      SolverViolates providers e ∨ e.override = some .process ∧
        (scopeOf providers e.owner).value < (scopeOf providers e.dep).value := by
  rw [SolverViolates]
  rcases effectiveScope_eq e.override (scopeOf providers e.dep) with heq | ⟨hover, heq⟩
  · rw [heq]
    refine ⟨.inl, fun h => h.elim id fun hhidden => ?_⟩
    rw [hhidden.1] at heq ⊢
    rw [← heq]
    exact hhidden.2
  · rw [heq, hover]
    refine ⟨fun hlt => .inr ⟨rfl, hlt⟩, fun h => h.elim (fun hlt => ?_) And.right⟩
    exact absurd hlt (Nat.not_lt_zero _)

/-- The scopes checked are the solver's just if no override to `PROCESS` hides a registered scope
and no parameter of an actor is resolved unchecked. -/
theorem validation_checks_solver_scopes_iff (providers : Providers) (edges : List DepEdge)
    (actors : List Actor) (names : Option RateLimitNames)
    (h : Admissible providers edges actors names) :
    (((∃ fromScope toScope t dependent, Di.runValidation providers edges actors names =
        .error (.scopeViolation fromScope toScope t dependent)) ↔
        ∃ e ∈ edges, SolverViolates providers e) ∧
      ∀ a ∈ actors, ∀ scope, actorDepsAtScope providers a scope = solvedAtScope providers a scope) ↔
    ((∃ e ∈ edges, SolverViolates providers e) ∨ ∀ e ∈ edges, e.override = some .process →
        (scopeOf providers e.dep).value ≤ (scopeOf providers e.owner).value) ∧
      ∀ a ∈ actors, ∀ p ∈ a.params, p.Ordinary providers := by
  have hactor : ∀ a ∈ actors, (∀ scope, actorDepsAtScope providers a scope =
      solvedAtScope providers a scope) ↔ ∀ p ∈ a.params, p.Ordinary providers := by
    intro a ha
    refine (atScope_eq_iff fun p hp => p.differs (h.marks a ha p hp)).trans ?_
    exact forall₂_congr fun p hp => p.checkedAt_eq_iff (h.marks a ha p hp)
  refine and_congr ?_ (forall₂_congr hactor)
  rw [raises_iff h]
  simp only [violates_iff]
  constructor
  · intro hiff
    by_cases hviolates : ∃ e ∈ edges, SolverViolates providers e
    · exact .inl hviolates
    · refine .inr fun e he hover => Nat.not_lt.mp fun hlt => ?_
      exact hviolates (hiff.mp ⟨e, he, .inr ⟨hover, hlt⟩⟩)
  · intro hcond
    constructor
    · rintro ⟨e, he, hviolates | ⟨hover, hlt⟩⟩
      · exact ⟨e, he, hviolates⟩
      rcases hcond with hviolates | hle
      · exact hviolates
      · exact absurd hlt (Nat.not_lt.mpr (hle e he hover))
    · rintro ⟨e, he, hviolates⟩
      exact ⟨e, he, .inl hviolates⟩

def overriddenEdge : DepEdge := ⟨.user 0, .user 1, some .process⟩

def overriddenProviders : Providers :=
  [(.user 0, ⟨.process, .syncCallable, some .plainFactory,
    [⟨"dep", false, some (.annotated (some (.user 1)) [.process]), false⟩]⟩),
   (.user 1, ⟨.loop, .syncCallable, some .plainFactory, []⟩)]

/-- An actor whose parameter `dep` is resolved at the marked scope. -/
def markedActor (t : PyClass) (scope : Scope) : Actor :=
  ⟨"report", [⟨"payload", false, some (.cls (.model 0)), false⟩,
    ⟨"dep", false, some (.annotated (some t) [scope]), false⟩], [], []⟩

def overridingActor : Actor := markedActor (.user 1) .process

lemma acyclic_singleton (h : e.owner ≠ e.dep) (t : PyClass) :
    ¬ Relation.TransGen (Depends [e]) t t := by
  intro ht
  obtain ⟨b, ⟨e1, he1, howner, -⟩, -⟩ := Relation.TransGen.head'_iff.mp ht
  obtain ⟨c, -, e2, he2, -, hdep⟩ := Relation.TransGen.tail'_iff.mp ht
  obtain rfl := mem_singleton.mp he1
  obtain rfl := mem_singleton.mp he2
  exact h (howner.trans hdep.symm)

lemma markedActor_edges (hp : p ∈ (markedActor (.user n) scope).params) :
    p.edge actorPassthrough = .ok none ∨
      p.edge actorPassthrough = .ok (some (.user n, some scope)) := by
  rcases mem_cons.mp hp with rfl | hp
  · exact .inl rfl
  · obtain rfl := mem_singleton.mp hp
    exact .inr rfl

lemma marked_admissible (howner : (overriddenProviders.lookup e.owner).isSome)
    (hdep : (overriddenProviders.lookup e.dep).isSome) (hne : e.owner ≠ e.dep)
    (hn : (overriddenProviders.lookup (.user n)).isSome) :
    Admissible overriddenProviders [e] [markedActor (.user n) scope] none where
  owners := by simpa using howner
  deps := by simpa using hdep
  marks := by
    intro a ha p hp err herr
    obtain rfl := mem_singleton.mp ha
    rcases markedActor_edges hp with h | h
    all_goals
      rw [h] at herr
      cases herr
  requests := by
    intro a ha p hp r hr
    obtain rfl := mem_singleton.mp ha
    rcases markedActor_edges hp with h | h
    all_goals
      rw [h] at hr
      cases hr
    exact hn
  known n hn := by cases hn
  acyclic := acyclic_singleton hne

/-- The solver finds the edge in order where the validation raises, and plans the parameter apart.
-/
theorem overridden_raises :
    Di.runValidation overriddenProviders [overriddenEdge] [overridingActor] none =
        .error (.scopeViolation .process .loop (.user 1) (.user 0)) ∧
      (¬ ∃ e ∈ [overriddenEdge], SolverViolates overriddenProviders e) ∧
      actorDepsAtScope overriddenProviders overridingActor .loop = [.user 1] ∧
      solvedAtScope overriddenProviders overridingActor .process = [.user 1] := by
  refine ⟨?_, ?_, by decide, by decide⟩
  · have hadmissible : Admissible overriddenProviders [overriddenEdge] [overridingActor] none :=
      marked_admissible (by decide) (by decide) (by decide) (by decide)
    rw [hadmissible.runValidation]
    rfl
  · rintro ⟨e, he, hviolates⟩
    obtain rfl := mem_singleton.mp he
    exact absurd hviolates (by unfold SolverViolates; decide)

def honouredEdge : DepEdge := ⟨.user 1, .user 0, some .loop⟩

theorem honoured_checked : ((∃ fromScope toScope t dependent,
        Di.runValidation overriddenProviders [honouredEdge] [markedActor (.user 0) .loop] none =
          .error (.scopeViolation fromScope toScope t dependent)) ↔
        ∃ e ∈ [honouredEdge], SolverViolates overriddenProviders e) ∧
      ∀ a ∈ [markedActor (.user 0) .loop], ∀ scope, actorDepsAtScope overriddenProviders a scope =
        solvedAtScope overriddenProviders a scope := by
  refine (validation_checks_solver_scopes_iff _ _ _ _ (marked_admissible (by decide) (by decide)
    (by decide) (by decide))).mpr ⟨.inr (by decide), fun a ha p hp r entry hr hentry => ?_⟩
  obtain rfl := mem_singleton.mp ha
  rcases mem_cons.mp hp with rfl | hp
  · cases hr
  · obtain rfl := mem_singleton.mp hp
    cases hr
    exact ⟨rfl, nofun⟩

end

end TaskQ.Di
