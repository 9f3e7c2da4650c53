import Mathlib.Data.List.Dedup
import Mathlib.Data.List.ReduceOption
import TaskQ.DepthFirst
import TaskQ.Dict

namespace TaskQ.Validate
open List Option Prod

/-- A resolved annotation: `cls` is a class but no payload model, `form` is no class. -/
inductive Hint where
  | model (name : String)
  | list (elem : Hint)
  | any
  | object
  | cls (name : String)
  | form (text : String)
  deriving DecidableEq

def Hint.model? : Hint → Option String
  | .model m => some m
  | _ => none

structure Param where
  name : String
  hint : Option Hint
  /-- `return` is a keyword. -/
  named : name ≠ "return"

structure Body where
  context : Param
  params : List Param
  returns : Option Hint

inductive Source where
  | promise (key : String)
  | data (value : String)

def Source.promise? : Source → Option String
  | .promise key => some key
  | .data _ => none

structure NodeDecl where
  parents : List String := []
  args : List Source := []
  body : Option Body := none

structure CompiledWorkflow where
  nodes : List (String × NodeDecl)
  keyed : (nodes.map fst).Nodup

def CompiledWorkflow.keys (g : CompiledWorkflow) : List String := g.nodes.map fst

def CompiledWorkflow.node (g : CompiledWorkflow) (key : String) : Option NodeDecl :=
  g.nodes.lookup key

structure WorkflowValidationError where
  (rule severity message : String)

def cyclic (cycle : List String) : WorkflowValidationError where
  rule := "E1-acyclicity"
  severity := "error"
  message := "the wiring is cyclic: " ++ " → ".intercalate cycle ++
    " — a cycle makes every join in it wait forever"

def CompiledWorkflow.parents (g : CompiledWorkflow) (key : String) : List String :=
  (g.node key).elim [] NodeDecl.parents

def ruleAcyclicity (g : CompiledWorkflow) : List WorkflowValidationError :=
  ((DepthFirst.search g.keys g.parents).map cyclic).toList

def CompiledWorkflow.Parent (g : CompiledWorkflow) (key parent : String) : Prop :=
  parent ∈ g.keys ∧ ∃ n, (key, n) ∈ g.nodes ∧ parent ∈ n.parents

lemma CompiledWorkflow.node_some {g : CompiledWorkflow} :
    g.node key = some n ↔ (key, n) ∈ g.nodes :=
  (Dict.mem_iff_lookup g.keyed).symm

lemma CompiledWorkflow.edge_iff {g : CompiledWorkflow} :
    DepthFirst.Edge g.keys g.parents key parent ↔ g.Parent key parent := by
  constructor
  · rintro ⟨hkey, hpar, hnext⟩
    obtain ⟨⟨_, n⟩, hn, rfl⟩ := mem_map.mp hkey
    rw [parents, node_some.mpr hn] at hnext
    exact ⟨hpar, n, hn, hnext⟩
  · rintro ⟨hpar, n, hn, hnext⟩
    refine ⟨mem_map.mpr ⟨_, hn, rfl⟩, hpar, ?_⟩
    rw [parents, node_some.mpr hn]
    exact hnext

/-- The rule refuses just the cyclic graphs, names a closed walk, and orders the others. -/
theorem ruleAcyclicity_exact (g : CompiledWorkflow) :
    (ruleAcyclicity g ≠ [] ↔ ∃ key, Relation.TransGen g.Parent key key) ∧
    (∀ e ∈ ruleAcyclicity g, ∃ walk last, e = cyclic (walk ++ [last]) ∧
      (walk ++ [last]).IsChain g.Parent ∧ last ∈ walk) ∧
    (ruleAcyclicity g = [] → ∃ order : List String, order.Perm g.keys ∧
      ∀ key parent, g.Parent key parent → order.idxOf parent < order.idxOf key) := by
  have hedge : DepthFirst.Edge g.keys g.parents = g.Parent := by
    funext key parent
    exact propext CompiledWorkflow.edge_iff
  obtain ⟨hfound, hnone⟩ := DepthFirst.search_spec g.keys g.parents
  rw [ruleAcyclicity]
  cases hs : DepthFirst.search g.keys g.parents with
  | some found =>
    have hlasso := hfound found hs
    have hcycle := hlasso.cycle
    rw [hedge] at hcycle
    refine ⟨iff_of_true (cons_ne_nil _ _) hcycle, ?_, fun h => absurd h (cons_ne_nil _ _)⟩
    intro e he
    obtain rfl := mem_singleton.mp he
    obtain ⟨hchain, walk, last, rfl, hlast⟩ := hlasso
    rw [hedge] at hchain
    exact ⟨walk, last, rfl, hchain, hlast⟩
  | none =>
    obtain ⟨order, hordered, hall⟩ := hnone hs
    have hacyclic : ¬ ∃ key, Relation.TransGen g.Parent key key := by
      rintro ⟨key, hkey⟩
      rw [← hedge] at hkey
      exact hordered.acyclic (fun x hx => (hall x).mpr hx) hkey
    refine ⟨iff_of_false (fun h => h rfl) hacyclic, fun e he => absurd he not_mem_nil, ?_⟩
    intro _
    refine ⟨order, (perm_ext_iff_of_nodup hordered.nodup g.keyed).mpr hall, ?_⟩
    intro key parent hparent
    rw [← hedge] at hparent
    exact (hordered.idxOf_lt ((hall key).mpr hparent.1) hparent).2

section

/-- Every slot that holds a key has an entry of its own, as has every slot before it. -/
def Lined (slots : List (Option κ)) (seen : List (Option τ)) : Prop :=
  ∀ (i : Nat) k, slots[i]? = some (some k) → (∃ t, seen[i]? = some (some t)) ∧
    ∀ j < i, ∀ t, seen[j]? = some (some t) → ∃ k', slots[j]? = some (some k')

variable {slots : List (Option κ)} {seen : List (Option τ)}

lemma Lined.tail (h : Lined (slot :: slots) (entry :: seen)) : Lined slots seen := by
  intro i k hk
  obtain ⟨hown, hbef⟩ := h (i + 1) k hk
  exact ⟨hown, fun j hj t ht => hbef (j + 1) (Nat.succ_lt_succ hj) t ht⟩

lemma Lined.reduceOption_eq_nil
    (h : Lined (none :: slots) (some t :: seen)) : slots.reduceOption = [] := by
  rw [eq_nil_iff_forall_not_mem]
  intro k hk
  obtain ⟨i, hi⟩ := getElem?_of_mem (reduceOption_mem_iff.mp hk)
  obtain ⟨k', hk'⟩ := (h (i + 1) k hi).2 0 (Nat.succ_pos i) t rfl
  cases hk'

lemma Lined.mem_zip (h : Lined slots seen) : (k, t) ∈ slots.reduceOption.zip seen.reduceOption ↔
      ∃ i : Nat, slots[i]? = some (some k) ∧ seen[i]? = some (some t) := by
  induction slots generalizing seen with
  | nil => simp
  | cons slot slots ih =>
    cases seen with
    | nil => simp
    | cons entry seen =>
      have hhead : ∀ P : Nat → Prop, (∃ i, P i) ↔ P 0 ∨ ∃ i, P (i + 1) := by
        intro P
        constructor
        · rintro ⟨_ | i, hi⟩
          · exact .inl hi
          · exact .inr ⟨i, hi⟩
        · rintro (h | ⟨i, hi⟩)
          · exact ⟨0, h⟩
          · exact ⟨i + 1, hi⟩
      rw [hhead]
      cases slot with
      | none =>
        cases entry with
        | none => simp [reduceOption_cons_of_none, ih h.tail]
        | some t' =>
          have hnil := h.reduceOption_eq_nil
          have hnone : ∀ i : Nat, slots[i]? ≠ some (some k) := by
            intro i hi
            have hmem := reduceOption_mem_iff.mpr (mem_of_getElem? hi)
            rw [hnil] at hmem
            cases hmem
          simp [reduceOption_cons_of_none, hnil, hnone]
      | some k' =>
        cases entry with
        | none =>
          obtain ⟨⟨t', ht'⟩, -⟩ := h 0 k' rfl
          cases ht'
        | some t' =>
          simp [reduceOption_cons_of_some, ih h.tail, eq_comm (a := k'), eq_comm (a := t')]

lemma mem_zip_of_before {i j : Nat} (keys : List κ)
    (hentry : ∀ (j : Nat) t', slots[j]? = some none → seen[j]? = some (some t') → t' = t)
    (hj : slots[j]? = some none) (ht : seen[j]? = some (some t)) (hji : j < i)
    (hi : slots[i]? = some (some k)) :
    ∃ k', (k', t) ∈ (keys ++ slots.reduceOption).zip seen.reduceOption := by
  induction slots generalizing seen keys i j with
  | nil => cases hj
  | cons slot slots ih =>
    cases seen with
    | nil => cases ht
    | cons entry seen =>
      obtain ⟨i, rfl⟩ := Nat.exists_eq_succ_of_ne_zero (Nat.ne_zero_of_lt hji)
      have hkey : k ∈ slots.reduceOption :=
        reduceOption_mem_iff.mpr (mem_of_getElem? hi)
      have hentry' := fun (j : Nat) t' (hj : slots[j]? = some none) (ht : seen[j]? = some (some t')) =>
        hentry (j + 1) t' hj ht
      cases slot with
      | none =>
        rw [reduceOption_cons_of_none]
        cases entry with
        | some t' =>
          -- the entry meets the first key that is left
          obtain rfl := hentry 0 t' rfl rfl
          cases hl : keys ++ slots.reduceOption with
          | nil =>
            rw [(append_eq_nil_iff.mp hl).2] at hkey
            cases hkey
          | cons k0 l => exact ⟨k0, mem_cons_self⟩
        | none =>
          rw [reduceOption_cons_of_none]
          cases j with
          | zero => cases ht
          | succ j => exact ih keys hentry' hj ht (Nat.lt_of_succ_lt_succ hji) hi
      | some k1 =>
        rw [reduceOption_cons_of_some]
        cases j with
        | zero => cases hj
        | succ j =>
          cases entry with
          | none =>
            rw [reduceOption_cons_of_none, append_cons]
            exact ih (keys ++ [k1]) hentry' hj ht (Nat.lt_of_succ_lt_succ hji) hi
          | some t' =>
            cases keys with
            | nil =>
              obtain ⟨k', hk'⟩ := ih [] hentry' hj ht (Nat.lt_of_succ_lt_succ hji) hi
              exact ⟨k', mem_cons_of_mem _ hk'⟩
            | cons k0 keys =>
              obtain ⟨k', hk'⟩ :=
                ih (keys ++ [k1]) hentry' hj ht (Nat.lt_of_succ_lt_succ hji) hi
              rw [append_assoc] at hk'
              exact ⟨k', mem_cons_of_mem _ hk'⟩

end

section

structure Classes where
  /-- `__name__` of a payload model. -/
  nameOf : String → String
  issubclass : String → String → Bool
  isRootModel : String → Bool
  reprHint : Hint → String
  reprText : String → String

/-- The entries of `__annotations__`, as `body_hints` resolves them. -/
def bodyHints (b : Body) : List (String × Hint) :=
  (b.context :: b.params).filterMap (fun p => p.hint.map (mk p.name)) ++
    (b.returns.map (mk "return")).toList

def returnHint (b : Body) : Option Hint := (bodyHints b).lookup "return"

def joinProducedShape (g : CompiledWorkflow) (join : NodeDecl) : Option String :=
  let shapes := (join.parents.filterMap fun key =>
    (g.node key).bind fun source => source.body.bind fun b => (returnHint b).bind Hint.model?).dedup
  match shapes with
  | [m] => some m
  | _ => none

def incompatible (c : Classes) (key : String) (text : String) : WorkflowValidationError where
  rule := "E5-incompatible-consumer"
  severity := "error"
  message := c.reprText key ++ " consumes " ++ text

def Classes.unrelated (c : Classes) (m e : String) : Bool := m ≠ e ∧ ¬ c.issubclass m e

def elementCompat (c : Classes) (key parentKey : String) (elem param : Hint) :
    List WorkflowValidationError :=
  match elem.model?, param with
  | some m, .list (.model e) =>
    if c.unrelated m e then
      [incompatible c key (c.reprText parentKey ++ "'s list[" ++ c.nameOf m ++ "] as " ++
        c.reprHint param ++ " — unrelated ELEMENT models: the join's element and the " ++
        "consumer's element are different models (a wiring that dies at runtime with a type " ++
        "error is a BUILD-TIME finding)")]
    else []
  | some m, .list (.cls _) =>
    [incompatible c key (c.reprText parentKey ++ "'s list[" ++ c.nameOf m ++ "] as " ++
      c.reprHint param ++ " — the consumer's ELEMENT is not the producer's model: the decode's " ++
      "TypeAdapter reds the payload at runtime (a pydantic ValidationError on every attempt). " ++
      "Annotate the param list[" ++ c.nameOf m ++ "] — the annotation IS the wiring")]
  | some m, .model e =>
    if c.isRootModel e then []
    else
      [incompatible c key (c.reprText parentKey ++ "'s list[" ++ c.nameOf m ++
        "] as the single model " ++ c.nameOf e ++ " — a list payload cannot decode into one " ++
        "model (declare the param list[" ++ c.nameOf m ++ "]; the element law's the same " ++
        "totality discipline E1-E16 apply at the node level)")]
  | _, _ => []

def produced (g : CompiledWorkflow) (parent : NodeDecl) : Option Hint :=
  match parent.body with
  | none => (joinProducedShape g parent).map .model
  | some b => returnHint b

def comparePair (c : Classes) (g : CompiledWorkflow) (key parentKey : String) (param : Hint) :
    List WorkflowValidationError :=
  match g.node parentKey with
  | none => []
  | some parent =>
    match produced g parent, param with
    | some (.list elem), _ => elementCompat c key parentKey elem param
    | some (.model m), .list (.model e) =>
      if parent.body.isSome then
        [incompatible c key (c.reprText parentKey ++ "'s " ++ c.nameOf m ++ " as " ++
          c.reprHint param ++ " — a single-model producer cannot feed a list param (the " ++
          "gather's shape is the join's: wire the consumer under the bodyless collect, or take " ++
          "the model bare)")]
      else if c.unrelated m e then
        [incompatible c key (c.reprText parentKey ++ "'s list[" ++ c.nameOf m ++ "] as " ++
          c.reprHint param ++ " — unrelated payload models: the join's element and the " ++
          "consumer's element are different models")]
      else []
    | some (.model _), .list _ => []
    | some (.model m), .model e =>
      if c.unrelated m e then
        [incompatible c key (c.reprText parentKey ++ "'s " ++ c.nameOf m ++ " as " ++ c.nameOf e ++
          " — unrelated payload models: the wiring promises data the consumer cannot accept")]
      else []
    | some (.model m), _ =>
      [incompatible c key (c.reprText parentKey ++ "'s " ++ c.nameOf m ++ " through a param the " ++
        "compile cannot see a model on — annotate the param with the payload's model (the " ++
        "annotation IS the wiring; a duck-typed param consumes any producer unseen)")]
    | _, _ => []

/-- The pairs of `_rule_consumer_compat`: promises in order, annotated parameters but `ctx`. -/
def rulePairs (args : List Source) (b : Body) : List (String × Hint) :=
  (args.filterMap Source.promise?).zip
    (((bodyHints b).filter fun e => e.1 ∉ ["return", "ctx"]).map snd)

def compatOf (c : Classes) (g : CompiledWorkflow) (p : String × NodeDecl) :
    List WorkflowValidationError :=
  match p.2.body with
  | none => []
  | some b => (rulePairs p.2.args b).flatMap fun pair => comparePair c g p.1 pair.1 pair.2

def ruleConsumerCompat (c : Classes) (g : CompiledWorkflow) : List WorkflowValidationError :=
  g.nodes.flatMap (compatOf c g)

def delivered (g : CompiledWorkflow) (parentKey : String) : Option Hint :=
  (g.node parentKey).bind fun parent =>
    match parent.body with
    | none => (joinProducedShape g parent).map fun m => .list (.model m)
    | some b => b.returns

inductive Unrelated (c : Classes) : Hint → Hint → Prop where
  | model : c.unrelated m e → Unrelated c (.model m) (.model e)
  | list : c.unrelated m e → Unrelated c (.list (.model m)) (.list (.model e))

variable {c : Classes} {g : CompiledWorkflow} {n : NodeDecl} {b : Body} {args : List Source}

lemma lookup_return (ps : List Param) (l : List (String × Hint)) :
    (ps.filterMap (fun p => p.hint.map (mk p.name)) ++ l).lookup "return" =
      l.lookup "return" := by
  induction ps with
  | nil => rfl
  | cons p ps ih =>
    cases hp : p.hint with
    | none => simpa [hp] using ih
    | some t =>
      rw [filterMap_cons, hp, map_some, cons_append, Dict.lookup_cons,
        if_neg p.named.symm, ih]

lemma returnHint_eq (b : Body) : returnHint b = b.returns := by
  rw [returnHint, bodyHints, lookup_return]
  cases b.returns <;> rfl

lemma filter_hints (ps : List Param) : ((ps.filterMap fun p => p.hint.map (mk p.name)).filter
      fun e => e.1 ∉ ["return", "ctx"]).map snd =
      (ps.map fun p => if p.name = "ctx" then none else p.hint).reduceOption := by
  induction ps with
  | nil => rfl
  | cons p ps ih =>
    have hp := p.named
    cases hh : p.hint with
    | none => simpa [hh, filterMap_cons] using ih
    | some t =>
      by_cases hc : p.name = "ctx"
      · simpa [hh, hc, filterMap_cons] using ih
      · simpa [hh, hc, hp, filterMap_cons] using ih

def Body.shape (b : Body) : List (String × Bool) :=
  (b.context :: b.params).map fun p => (p.name, p.hint.isSome)

def Annotated (args : List Source) (shape : List (String × Bool)) : Prop :=
  ∀ (i : Nat) key, args[i]? = some (.promise key) → ∃ name, shape[i + 1]? = some (name, true)

/-- The parameters of the promises, none called `ctx`, come before the other annotated ones. -/
structure Aligned (args : List Source) (shape : List (String × Bool)) : Prop where
  named : ∀ (i : Nat) key, args[i]? = some (.promise key) → shape[i + 1]? ≠ some ("ctx", true)
  first : ∀ (i : Nat) key, args[i]? = some (.promise key) → ∀ j ≤ i, ∀ name,
    shape[j]? = some (name, true) → name ≠ "ctx" →
      ∃ i' key', j = i' + 1 ∧ args[i']? = some (.promise key')

def PairsOwn (args : List Source) (shape : List (String × Bool)) : Prop :=
  ∀ (c : Classes) (g : CompiledWorkflow) (key : String) (n : NodeDecl) (b : Body),
    (key, n) ∈ g.nodes → n.args = args → n.body = some b → b.shape = shape →
      ((∀ (i : Nat) parentKey p, args[i]? = some (.promise parentKey) → b.params[i]? = some p →
        p.hint = delivered g parentKey) → compatOf c g (key, n) = []) ∧
      ∀ (i : Nat) parentKey p t t', args[i]? = some (.promise parentKey) → b.params[i]? = some p →
        delivered g parentKey = some t → p.hint = some t' → Unrelated c t t' →
          ∃ e ∈ ruleConsumerCompat c g, e.severity = "error" ∧
            ∃ text, e.message = c.reprText key ++ " consumes " ++ text

def slots (args : List Source) : List (Option String) := none :: args.map Source.promise?

def Body.seen (b : Body) : List (Option Hint) :=
  (b.context :: b.params).map fun p => if p.name = "ctx" then none else p.hint

lemma slots_some {i : Nat} :
    (slots args)[i]? = some (some key) ↔ ∃ i', i = i' + 1 ∧ args[i']? = some (.promise key) := by
  cases i with
  | zero => simp [slots]
  | succ i =>
    rw [slots, getElem?_cons_succ, getElem?_map, map_eq_some_iff]
    constructor
    · rintro ⟨a, ha, hkey⟩
      cases a with
      | promise key' =>
        cases hkey
        exact ⟨i, rfl, ha⟩
      | data value => cases hkey
    · rintro ⟨i', hi, ha⟩
      obtain rfl := Nat.succ.inj hi
      exact ⟨_, ha, rfl⟩

lemma Body.seen_some {i : Nat} : b.seen[i]? = some (some t) ↔
    ∃ p, (b.context :: b.params)[i]? = some p ∧ p.name ≠ "ctx" ∧ p.hint = some t := by
  rw [seen, getElem?_map, map_eq_some_iff]
  constructor
  · rintro ⟨p, hp, ht⟩
    split at ht
    · cases ht
    next hname => exact ⟨p, hp, hname, ht⟩
  · rintro ⟨p, hp, hname, ht⟩
    exact ⟨p, hp, (if_neg hname).trans ht⟩

lemma Body.shape_some {i : Nat} : b.shape[i]? = some (name, annotated) ↔
    ∃ p, (b.context :: b.params)[i]? = some p ∧ p.name = name ∧ p.hint.isSome = annotated := by
  rw [shape, getElem?_map, map_eq_some_iff]
  constructor
  · rintro ⟨p, hp, h⟩
    exact ⟨p, hp, congrArg fst h, congrArg snd h⟩
  · rintro ⟨p, hp, rfl, rfl⟩
    exact ⟨p, hp, rfl⟩

lemma rulePairs_eq : rulePairs args b = (slots args).reduceOption.zip b.seen.reduceOption := by
  have hreturns : ((b.returns.map (mk "return")).toList.filter
      fun e => e.1 ∉ ["return", "ctx"]) = [] := by
    cases b.returns <;> rfl
  have hslots : args.filterMap Source.promise? = (slots args).reduceOption := by
    rw [slots, reduceOption_cons_of_none, reduceOption, filterMap_map]
    rfl
  rw [rulePairs, bodyHints, filter_append, hreturns, append_nil, filter_hints, hslots]
  rfl

lemma Aligned.lined (h : Aligned args b.shape) (ha : Annotated args b.shape) :
    Lined (slots args) b.seen := by
  intro i key hkey
  obtain ⟨i, rfl, hi⟩ := slots_some.mp hkey
  constructor
  · obtain ⟨name, hname⟩ := ha i key hi
    obtain ⟨p, hp, rfl, hhint⟩ := Body.shape_some.mp hname
    obtain ⟨t, ht⟩ := isSome_iff_exists.mp hhint
    refine ⟨t, Body.seen_some.mpr ⟨p, hp, ?_, ht⟩⟩
    intro hctx
    apply h.named i key hi
    rw [hname, hctx]
  · intro j hj t ht
    obtain ⟨p, hp, hname, hhint⟩ := Body.seen_some.mp ht
    have hshape := Body.shape_some.mpr ⟨p, hp, rfl, isSome_iff_exists.mpr ⟨t, hhint⟩⟩
    obtain ⟨i', key', rfl, hi'⟩ := h.first i key hi j (Nat.le_of_lt_succ hj) p.name hshape hname
    exact ⟨key', slots_some.mpr ⟨i', rfl, hi'⟩⟩

lemma Aligned.mem_rulePairs (h : Aligned args b.shape) (ha : Annotated args b.shape) :
    (key, t) ∈ rulePairs args b ↔ ∃ (i : Nat) (p : Param), args[i]? = some (.promise key) ∧
      b.params[i]? = some p ∧ p.hint = some t := by
  rw [rulePairs_eq, (h.lined ha).mem_zip]
  constructor
  · rintro ⟨i, hkey, ht⟩
    obtain ⟨i, rfl, hi⟩ := slots_some.mp hkey
    obtain ⟨p, hp, -, hhint⟩ := Body.seen_some.mp ht
    exact ⟨i, p, hi, hp, hhint⟩
  · rintro ⟨i, p, hi, hp, hhint⟩
    refine ⟨i + 1, slots_some.mpr ⟨i, rfl, hi⟩, Body.seen_some.mpr ⟨p, hp, ?_, hhint⟩⟩
    intro hctx
    apply h.named i key hi
    exact Body.shape_some.mpr ⟨p, hp, hctx, by rw [hhint]; rfl⟩

lemma unrelated_self : c.unrelated m m = false := by simp [Classes.unrelated]

lemma elementCompat_self : elementCompat c key parentKey t (.list t) = [] := by
  cases t with
  | model m => simp [elementCompat, Hint.model?, unrelated_self]
  | list | any | object | cls | form => rfl

lemma produced_of_delivered (h : delivered g parentKey = some t) :
    ∃ parent, g.node parentKey = some parent ∧
      ((∃ m, t = .list (.model m) ∧ parent.body.isSome = false ∧
          produced g parent = some (.model m)) ∨
        parent.body.isSome = true ∧ produced g parent = some t) := by
  obtain ⟨parent, hpar, ht⟩ := Option.bind_eq_some_iff.mp h
  refine ⟨parent, hpar, ?_⟩
  rw [produced]
  cases hb : parent.body with
  | none =>
    rw [hb] at ht
    obtain ⟨m, hm, rfl⟩ := Option.map_eq_some_iff.mp ht
    exact .inl ⟨m, rfl, rfl, congrArg (Option.map Hint.model) hm⟩
  | some b =>
    rw [hb] at ht
    exact .inr ⟨rfl, (returnHint_eq b).trans ht⟩

lemma comparePair_delivered (h : delivered g parentKey = some t) :
    comparePair c g key parentKey t = [] := by
  obtain ⟨parent, hpar, ⟨m, rfl, hbody, hm⟩ | ⟨-, ht⟩⟩ := produced_of_delivered h
  · simp [comparePair, hpar, hm, hbody, unrelated_self]
  simp only [comparePair, hpar, ht]
  cases t with
  | list elem => exact elementCompat_self
  | model m => simp [unrelated_self]
  | any | object | cls | form => rfl

lemma comparePair_unrelated (key : String) (h : delivered g parentKey = some t)
    (hu : Unrelated c t t') : ∃ e ∈ comparePair c g key parentKey t', e.severity = "error" ∧
      ∃ text, e.message = c.reprText key ++ " consumes " ++ text := by
  obtain ⟨parent, hpar, ⟨m, rfl, hbody, hm⟩ | ⟨-, ht⟩⟩ := produced_of_delivered h
  · cases hu with
    | list hu =>
      simp only [comparePair, hpar, hm, hbody, Bool.false_eq_true, if_false, if_pos hu]
      exact ⟨_, mem_singleton_self _, rfl, _, rfl⟩
  · simp only [comparePair, hpar, ht]
    cases hu with
    | model hu =>
      simp only [if_pos hu]
      exact ⟨_, mem_singleton_self _, rfl, _, rfl⟩
    | list hu =>
      simp only [elementCompat, Hint.model?, if_pos hu]
      exact ⟨_, mem_singleton_self _, rfl, _, rfl⟩

lemma comparePair_cls (h : delivered g parentKey = some (.model m)) :
    ∃ e, e ∈ comparePair c g key parentKey (.cls name) := by
  obtain ⟨parent, hpar, ⟨_, hm, -⟩ | ⟨-, ht⟩⟩ := produced_of_delivered h
  · cases hm
  · simp only [comparePair, hpar, ht]
    exact ⟨_, mem_singleton_self _⟩

lemma mem_compatOf (hbody : n.body = some b) : e ∈ compatOf c g (key, n) ↔
    ∃ parentKey t, (parentKey, t) ∈ rulePairs n.args b ∧ e ∈ comparePair c g key parentKey t := by
  simp [compatOf, hbody]

lemma Aligned.pairsOwn (h : Aligned args shape) (ha : Annotated args shape) :
    PairsOwn args shape := by
  rintro c g key n b hn rfl hbody rfl
  constructor
  · intro hown
    rw [eq_nil_iff_forall_not_mem]
    intro e he
    obtain ⟨parentKey, t, hpair, he⟩ := (mem_compatOf hbody).mp he
    obtain ⟨i, p, hi, hp, hhint⟩ := (h.mem_rulePairs ha).mp hpair
    rw [comparePair_delivered ((hown i parentKey p hi hp).symm.trans hhint)] at he
    cases he
  · intro i parentKey p t t' hi hp ht hhint hu
    obtain ⟨e, he, hnamed⟩ := comparePair_unrelated key ht hu
    have hpair := (h.mem_rulePairs ha).mpr ⟨i, p, hi, hp, hhint⟩
    refine ⟨e, mem_flatMap.mpr ⟨_, hn, ?_⟩, hnamed⟩
    exact (mem_compatOf hbody).mpr ⟨parentKey, t', hpair, he⟩

section

def Param.annotate (p : Param) (t : Hint) : Param := { p with hint := p.hint.map fun _ => t }

def Body.annotate (b : Body) (t : Nat → Hint) : Body where
  context := b.context.annotate (t 0)
  params := b.params.mapIdx fun i p => p.annotate (t (i + 1))
  returns := some (.model "Report")

def feed (args : List Source) (b : Body) : CompiledWorkflow where
  nodes := ("node" :: args.filterMap Source.promise?).dedup.map fun key =>
    (key, if key = "node" then { args, body := some b }
      else { body := some ⟨⟨"ctx", none, by decide⟩, [], some (.model "Report")⟩ })
  keyed := by
    rw [List.map_map]
    exact (List.map_id _).symm ▸ List.nodup_dedup _

def flatClasses : Classes where
  nameOf := id
  issubclass m e := m == e
  isRootModel _ := false
  reprHint _ := "list"
  reprText key := "'" ++ key ++ "'"

variable {i : Nat}

section
variable {t : Nat → Hint}

lemma Body.annotate_getElem? : ((b.annotate t).context :: (b.annotate t).params)[i]? =
      (b.context :: b.params)[i]?.map fun p => p.annotate (t i) := by
  cases i with
  | zero => rfl
  | succ i => simp [annotate]

lemma Body.annotate_shape : (b.annotate t).shape = b.shape := by
  apply ext_getElem?
  intro i
  rw [shape, getElem?_map, annotate_getElem?, shape, getElem?_map, Option.map_map]
  congr 1
  funext p
  simp [Param.annotate]

lemma Body.annotate_seen : (b.annotate t).seen[i]? = some (some t') → t' = t i := by
  intro h
  obtain ⟨p, hp, -, ht⟩ := seen_some.mp h
  rw [annotate_getElem?] at hp
  obtain ⟨p, -, rfl⟩ := map_eq_some_iff.mp hp
  obtain ⟨-, -, rfl⟩ := map_eq_some_iff.mp ht
  rfl

lemma Body.annotate_hint (ha : b.shape[i]? = some (name, true))
    (hp : ((b.annotate t).context :: (b.annotate t).params)[i]? = some p) :
    p.hint = some (t i) := by
  rw [annotate_getElem?] at hp
  obtain ⟨q, hq, rfl⟩ := map_eq_some_iff.mp hp
  obtain ⟨q', hq', -, hhint⟩ := shape_some.mp ha
  cases hq.symm.trans hq'
  obtain ⟨s, hs⟩ := isSome_iff_exists.mp hhint
  rw [Param.annotate, hs, map_some]

end

lemma feed_node : ("node", { args, body := some b }) ∈ (feed args b).nodes :=
  mem_map.mpr ⟨"node", mem_dedup.mpr mem_cons_self, rfl⟩

lemma feed_delivered (hb : b.returns = some (.model "Report"))
    (hkey : key ∈ args.filterMap Source.promise?) :
    delivered (feed args b) key = some (.model "Report") := by
  have hmem : key ∈ ("node" :: args.filterMap Source.promise?).dedup :=
    mem_dedup.mpr (mem_cons_of_mem _ hkey)
  rw [delivered, CompiledWorkflow.node_some.mpr (List.mem_map.mpr ⟨key, hmem, rfl⟩), bind_some]
  by_cases hn : key = "node"
  · simp [hn, hb]
  · simp [hn]

lemma feed_quiet (h : compatOf c (feed args b) ("node", { args, body := some b }) = []) :
    ruleConsumerCompat c (feed args b) = [] := by
  rw [ruleConsumerCompat, flatMap_eq_nil_iff]
  intro p hp
  obtain ⟨key, -, rfl⟩ := mem_map.mp hp
  by_cases hn : key = "node"
  · rw [if_pos hn, hn]
    exact h
  · rw [if_neg hn]
    rfl

lemma mem_rulePairs_key (h : (key, t) ∈ rulePairs args b) :
    key ∈ args.filterMap Source.promise? := (of_mem_zip h).1

lemma PairsOwn.named (h : PairsOwn args b.shape)
    (hi : args[i]? = some (.promise key)) : b.shape[i + 1]? ≠ some ("ctx", true) := by
  intro hctx
  let t : Nat → Hint := fun j => if j = i + 1 then .model "Other" else .model "Report"
  obtain ⟨p, hp, hname, -⟩ := Body.shape_some.mp (Body.annotate_shape (t := t) ▸ hctx)
  have hother : p.hint = some (.model "Other") := by
    rw [Body.annotate_hint hctx hp]
    exact congrArg some (if_pos rfl)
  have hquiet : ruleConsumerCompat flatClasses (feed args (b.annotate t)) = [] := by
    apply feed_quiet
    rw [eq_nil_iff_forall_not_mem]
    intro e he
    obtain ⟨parentKey, s, hpair, he⟩ := (mem_compatOf rfl).mp he
    have hseen := hpair
    rw [rulePairs_eq] at hseen
    obtain ⟨j, hj⟩ := getElem?_of_mem
      (reduceOption_mem_iff.mp (of_mem_zip hseen).2)
    have hreport : s = .model "Report" := by
      rw [Body.annotate_seen hj]
      apply if_neg
      rintro rfl
      obtain ⟨q, hq, hctx', -⟩ := Body.seen_some.mp hj
      rw [hp] at hq
      cases hq
      exact hctx' hname
    rw [hreport, comparePair_delivered (feed_delivered rfl (mem_rulePairs_key hpair))] at he
    cases he
  have hkey : key ∈ args.filterMap Source.promise? :=
    mem_filterMap.mpr ⟨_, mem_of_getElem? hi, rfl⟩
  obtain ⟨e, he, -⟩ := (h flatClasses (feed args (b.annotate t)) "node" _ _ feed_node rfl rfl
    Body.annotate_shape).2 i key p _ _ hi hp (feed_delivered rfl hkey) hother
    (.model (m := "Report") (e := "Other") (by decide))
  rw [hquiet] at he
  cases he

lemma PairsOwn.first (h : PairsOwn args b.shape) (ha : Annotated args b.shape) {i j : Nat}
    (hi : args[i]? = some (.promise key)) (hj : j ≤ i) (hshape : b.shape[j]? = some (name, true))
    (hname : name ≠ "ctx") : ∃ i' key', j = i' + 1 ∧ args[i']? = some (.promise key') := by
  by_contra hnot
  have hslot : (slots args)[j]? = some none := by
    have hlt : j < (slots args).length := by
      have := (List.getElem?_eq_some_iff.mp hi).1
      simp only [slots, List.length_cons, List.length_map]
      omega
    rw [getElem?_eq_getElem hlt]
    cases hs : (slots args)[j] with
    | none => rfl
    | some key' =>
      have := slots_some.mp (List.getElem?_eq_some_iff.mpr ⟨hlt, hs⟩)
      obtain ⟨i', hj', hkey'⟩ := this
      exact absurd ⟨i', key', hj', hkey'⟩ hnot
  let t : Nat → Hint := fun k =>
    if (slots args)[k]?.join.isSome then .model "Report" else .cls "int"
  have hliteral : ∀ k : Nat, (slots args)[k]? = some none → t k = .cls "int" := by
    intro k hk
    simp [t, hk]
  have hown : ∀ (i : Nat) parentKey p, args[i]? = some (.promise parentKey) →
      (b.annotate t).params[i]? = some p →
        p.hint = delivered (feed args (b.annotate t)) parentKey := by
    intro i parentKey p hi hp
    have hkey : parentKey ∈ args.filterMap Source.promise? :=
      mem_filterMap.mpr ⟨_, mem_of_getElem? hi, rfl⟩
    rw [feed_delivered rfl hkey]
    obtain ⟨name, hann⟩ := ha i parentKey hi
    have hslot := slots_some.mpr ⟨i, rfl, hi⟩
    rw [Body.annotate_hint hann hp]
    simp [t, hslot]
  have hquiet := (h flatClasses (feed args (b.annotate t)) "node" _ _ feed_node rfl rfl
    Body.annotate_shape).1 hown
  have hseen : (b.annotate t).seen[j]? = some (some (.cls "int")) := by
    rw [← Body.annotate_shape (t := t)] at hshape
    obtain ⟨p, hp, rfl, hhint⟩ := Body.shape_some.mp hshape
    obtain ⟨t', ht'⟩ := isSome_iff_exists.mp hhint
    have hs := Body.seen_some.mpr ⟨p, hp, hname, ht'⟩
    rw [hs, Body.annotate_seen hs, hliteral j hslot]
  obtain ⟨parentKey, hpair⟩ := mem_zip_of_before [] (t := Hint.cls "int")
    (by
      intro k t' hk hs
      rw [Body.annotate_seen hs, hliteral k hk]) hslot hseen (Nat.lt_succ_of_le hj)
    (slots_some.mpr ⟨i, rfl, hi⟩)
  rw [nil_append, ← rulePairs_eq] at hpair
  have hdelivered := feed_delivered (b := b.annotate t) rfl (mem_rulePairs_key hpair)
  obtain ⟨e, he⟩ := comparePair_cls hdelivered
  have hmem := (mem_compatOf (n := { args, body := some (b.annotate t) }) rfl).mpr
    ⟨parentKey, _, hpair, he⟩
  rw [hquiet] at hmem
  cases hmem

end

/-- The rule is right for an arrangement just if the parameters of the promises come first. -/
theorem consumerCompat_pairs_iff (args : List Source) (b : Body) (h : Annotated args b.shape) :
    PairsOwn args b.shape ↔ Aligned args b.shape := by
  constructor
  · intro hp
    exact ⟨fun i key hi => hp.named hi, fun i key hi j hj name => hp.first h hi hj⟩
  · intro ha
    exact ha.pairsOwn h

def pageBody (page item : Hint) : Body where
  context := ⟨"ctx", none, by decide⟩
  params := [⟨"page", some page, by decide⟩, ⟨"item", some item, by decide⟩]
  returns := none

def pageFlow (page item : Hint) : CompiledWorkflow where
  nodes := [("p", { body := some ⟨⟨"ctx", none, by decide⟩, [], some (.model "Report")⟩ }),
    ("use", { parents := ["p"], args := [.data "3", .promise "p"],
              body := some (pageBody page item) })]
  keyed := by simp

/-- The literal's parameter is compared: the matching body is refused, an unrelated one passes. -/
theorem consumerCompat_mispairs :
    delivered (pageFlow (.cls "int") (.model "Report")) "p" = some (.model "Report") ∧
    (ruleConsumerCompat flatClasses (pageFlow (.cls "int") (.model "Report"))).map
      WorkflowValidationError.severity = ["error"] ∧
    delivered (pageFlow (.model "Report") (.model "Other")) "p" = some (.model "Report") ∧
    Unrelated flatClasses (.model "Report") (.model "Other") ∧
    ruleConsumerCompat flatClasses (pageFlow (.model "Report") (.model "Other")) = [] :=
  ⟨by decide, by decide, by decide, .model (by decide), by decide⟩

theorem consumerCompat_pairs_promiseFirst :
    PairsOwn [.promise "p", .data "3"] (pageBody (.model "Report") (.cls "int")).shape := by
  apply (consumerCompat_pairs_iff [.promise "p", .data "3"]
    (pageBody (.model "Report") (.cls "int")) ?_).mpr
  · constructor
    · intro i key hi
      match i with
      | 0 => decide
      | 1 | i + 2 => cases hi
    · intro i key hi j hj name hname hctx
      match i with
      | 0 =>
        obtain rfl | rfl : j = 0 ∨ j = 1 := by omega
        · cases hname
        · exact ⟨0, "p", rfl, rfl⟩
      | 1 | i + 2 => cases hi
  · intro i key hi
    match i with
    | 0 => exact ⟨"page", rfl⟩
    | 1 | i + 2 => cases hi

end

end TaskQ.Validate
