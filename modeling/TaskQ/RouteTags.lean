import Mathlib.Data.List.Induction
import TaskQ.Chain
import TaskQ.Dict

namespace TaskQ.Chain
open List

inductive TypeKind where
  | object | text | enum
  deriving DecidableEq

/-- A class; `id` tells it from another of the same module and qualified name. -/
structure PyType where
  id : Nat
  (module qualname : String)
  kind : TypeKind := .object
  deriving DecidableEq

def typeTag (c : PyType) : String := c.module ++ "." ++ c.qualname

/-- A member of an enum; `text` is `str` of its value. -/
structure Member where
  enum : PyType
  (name text : String)
  deriving DecidableEq

inductive Arm where
  | member (m : Member)
  | cls (c : PyType)
  deriving DecidableEq

def Arm.tag : Arm → String
  | .member m => m.text
  | .cls c => typeTag c

inductive RouteKey where
  | arm (a : Arm)
  | other (text : String)
  deriving DecidableEq

def RouteKey.tag : RouteKey → String
  | .arm a => a.tag
  | .other text => text

abbrev Routes := List (RouteKey × Option String)

/-- `Route.__init__` -/
def Route.ofRoutes (routes : Routes) : Route :=
  ⟨routes.foldl (fun d p => Dict.set p.1.tag p.2 d) []⟩

inductive Vocabulary where
  | enum (members : List Member)
  | union (classes : List PyType)

def Vocabulary.arms : Vocabulary → List Arm
  | .enum members => members.map .member
  | .union classes => classes.map .cls

inductive Returned where
  | member (m : Member)
  | text (s : String)
  | object (c : PyType) (json : String)

def Returned.outcome : Returned → Outcome
  | .member m => .literal m.text
  | .text s => .literal s
  | .object c json => .element (typeTag c) json

inductive Vocabulary.Returns : Vocabulary → Returned → Arm → Prop where
  | member : m ∈ members → Returns (.enum members) (.member m) (.member m)
  | object : c ∈ classes → c.kind = .object → Returns (.union classes) (.object c json) (.cls c)
  | text : c ∈ classes → c.kind = .text → Returns (.union classes) (.text s) (.cls c)
  | enum : m.enum ∈ classes → m.enum.kind = .enum →
    Returns (.union classes) (.member m) (.cls m.enum)

/-- No class of a union is a `str` or an enum. -/
def Vocabulary.Plain : Vocabulary → Prop
  | .enum _ => True
  | .union classes => ∀ c ∈ classes, c.kind = .object

def goal (target : Option String) : Option String := target.filter (· ≠ done)

structure Faithful (c : Chain) (key : String) (routes : Routes) (v : Vocabulary) : Prop where
  sent : ∀ r a, v.Returns r a → ∃ target, routes.lookup (.arm a) = some target ∧
    ∀ payload mapIndex, ∃ child, c.nextChild key r.outcome payload mapIndex = .ok child ∧
      child.map ChildSpec.stepKey = goal target
  apart : ∀ a ∈ v.arms, ∀ b ∈ v.arms, ∀ s t, routes.lookup (.arm a) = some s →
    routes.lookup (.arm b) = some t → goal s ≠ goal t → a.tag ≠ b.tag

/-- Each arm is declared, and the last key of its tag leads where it does. -/
def Unmerged (routes : Routes) (v : Vocabulary) : Prop :=
  ∀ a ∈ v.arms, ∃ target last, routes.lookup (.arm a) = some target ∧
    routes.reverse.find? (fun p => p.1.tag = a.tag) = some last ∧ goal last.2 = goal target

variable {c : Chain} {routes : Routes} {v : Vocabulary} {step : Step}

lemma lookup_ofRoutes (routes : Routes) (tag : String) : (Route.ofRoutes routes).arms.lookup tag =
    (routes.reverse.find? fun p => p.1.tag = tag).map Prod.snd := by
  induction routes using reverseRecOn with
  | nil => rfl
  | append_singleton routes p ih =>
    rw [Route.ofRoutes, foldl_append, foldl_cons, foldl_nil, Dict.lookup_set,
      reverse_append, reverse_singleton, singleton_append, find?_cons]
    by_cases h : tag = p.1.tag
    · rw [if_pos h, decide_eq_true h.symm, Option.map_some]
    · rw [if_neg h, decide_eq_false (Ne.symm h)]
      exact ih

lemma Vocabulary.Plain.returns (h : v.Plain) (hr : v.Returns r a) :
    a ∈ v.arms ∧ r.outcome.tag = a.tag := by
  cases hr with
  | member hm => exact ⟨mem_map_of_mem hm, rfl⟩
  | object hc => exact ⟨mem_map_of_mem hc, rfl⟩
  | text hc hk | enum hc hk => exact absurd ((h _ hc).symm.trans hk) (by decide)

lemma Vocabulary.Plain.exists_returns (h : v.Plain) (ha : a ∈ v.arms) : ∃ r, v.Returns r a := by
  cases v with
  | enum members =>
    obtain ⟨m, hm, rfl⟩ := mem_map.mp ha
    exact ⟨_, .member hm⟩
  | union classes =>
    obtain ⟨c, hc, rfl⟩ := mem_map.mp ha
    exact ⟨.object c "", .object hc (h c hc)⟩

lemma nextChild_iff (hstep : c.steps.lookup key = some step)
    (hroute : step.route = some (.ofRoutes routes)) (o : Outcome) (payload : Option String)
    (mapIndex : Option Nat) : (∃ child, c.nextChild key o payload mapIndex = .ok child ∧
      child.map ChildSpec.stepKey = g) ↔
    ∃ last, routes.reverse.find? (fun p => p.1.tag = o.tag) = some last ∧ goal last.2 = g := by
  simp only [nextChild, hstep, pure_bind, hroute, Route.nextStep, lookup_ofRoutes]
  cases routes.reverse.find? fun p => p.1.tag = o.tag with
  | none =>
    constructor
    · rintro ⟨child, h, -⟩
      cases h
    · rintro ⟨last, h, -⟩
      cases h
  | some last =>
    obtain ⟨k, target⟩ := last
    cases target with
    | none => simp [goal, bind, Except.bind, pure, Except.pure]
    | some next =>
      by_cases hdone : next = done <;>
        simp [goal, hdone, Option.filter, bind, Except.bind, pure, Except.pure]

lemma exists_not_mem (l : List String) : ∃ s : String, s ∉ l := by
  obtain ⟨n, hn⟩ : ∃ n, ∀ s ∈ l, s.length < n := by
    induction l with
    | nil => exact ⟨0, nofun⟩
    | cons s l ih =>
      obtain ⟨n, hn⟩ := ih
      refine ⟨max n (s.length + 1), forall_mem_cons.mpr ⟨by omega, fun t ht => ?_⟩⟩
      exact (hn t ht).trans_le (Nat.le_max_left ..)
  refine ⟨String.ofList (replicate n 'x'), fun h => ?_⟩
  have := hn _ h
  rw [String.length_ofList, length_replicate] at this
  omega

/-- A `str` or a member is looked up by its text, which may be no key's at all. -/
lemma Faithful.plain (h : Faithful c key routes v) (hstep : c.steps.lookup key = some step)
    (hroute : step.route = some (.ofRoutes routes)) : v.Plain := by
  obtain ⟨s, hs⟩ := exists_not_mem (routes.map fun p => p.1.tag)
  have hstray : ∀ r a, v.Returns r a → r.outcome.tag ≠ s := by
    rintro r a hr rfl
    obtain ⟨target, -, hsent⟩ := h.sent r a hr
    obtain ⟨last, hlast, -⟩ := (nextChild_iff hstep hroute _ none none).mp (hsent none none)
    have htag := find?_some hlast
    exact hs (mem_map.mpr ⟨last, mem_reverse.mp (mem_of_find?_eq_some hlast), by simpa using htag⟩)
  cases v with
  | enum members => trivial
  | union classes =>
    intro c hc
    cases hk : c.kind with
    | object => rfl
    | text => exact absurd rfl (hstray (.text s) _ (.text hc hk))
    | enum => exact absurd rfl (hstray (.member ⟨c, "", s⟩) _ (.enum hc hk))

/-- A route is faithful just if no union has a `str` or an enum class and no members are merged. -/
theorem route_faithful_iff (hstep : c.steps.lookup key = some step)
    (hroute : step.route = some (.ofRoutes routes)) :
    Faithful c key routes v ↔ v.Plain ∧ Unmerged routes v := by
  constructor
  · intro h
    have hplain := h.plain hstep hroute
    refine ⟨hplain, fun a ha => ?_⟩
    obtain ⟨r, hr⟩ := hplain.exists_returns ha
    obtain ⟨target, htarget, hsent⟩ := h.sent r a hr
    obtain ⟨last, hlast, hgoal⟩ := (nextChild_iff hstep hroute _ none none).mp (hsent none none)
    rw [(hplain.returns hr).2] at hlast
    exact ⟨target, last, htarget, hlast, hgoal⟩
  · rintro ⟨hplain, h⟩
    constructor
    · intro r a hr
      obtain ⟨ha, htag⟩ := hplain.returns hr
      obtain ⟨target, last, htarget, hlast, hgoal⟩ := h a ha
      refine ⟨target, htarget, fun payload mapIndex => ?_⟩
      exact (nextChild_iff hstep hroute _ payload mapIndex).mpr ⟨last, htag ▸ hlast, hgoal⟩
    · intro a ha b hb s t hs ht hne htag
      obtain ⟨_, last, hs', hlast, hgoal⟩ := h a ha
      obtain ⟨_, last', ht', hlast', hgoal'⟩ := h b hb
      cases hs.symm.trans hs'
      cases ht.symm.trans ht'
      rw [htag, hlast'] at hlast
      cases hlast
      exact hne (hgoal.symm.trans hgoal')

def grade : PyType := ⟨0, "flows", "Grade", .enum⟩

def one : Member := ⟨grade, "ONE", "1"⟩
def text : Member := ⟨grade, "TEXT", "1"⟩

def graded (routes : Routes) (v : Vocabulary) : Chain where
  name := "grading"
  start := "screen"
  steps := [("screen", ⟨v.arms.map Arm.tag, some (.ofRoutes routes)⟩), ("enrich", { outcomes := [] }),
    ("review", { outcomes := [] })]

def toEnrich (m m' : Member) : Routes :=
  [(.arm (.member m), some "enrich"), (.arm (.member m'), some "review")]

theorem merged_member_misrouted :
    (graded (toEnrich one text) (.enum [one, text])).postInit = .ok () ∧
      ¬ Faithful (graded (toEnrich one text) (.enum [one, text])) "screen" (toEnrich one text)
        (.enum [one, text]) := by
  refine ⟨rfl, fun h => ?_⟩
  exact h.apart (.member one) (by decide) (.member text) (by decide) _ _ rfl rfl (by decide) rfl

def clean : Member := ⟨grade, "CLEAN", "clean"⟩

theorem distinct_members_routed :
    (graded (toEnrich one clean) (.enum [one, clean])).postInit = .ok () ∧
      Faithful (graded (toEnrich one clean) (.enum [one, clean])) "screen" (toEnrich one clean)
        (.enum [one, clean]) := by
  refine ⟨rfl, (route_faithful_iff (v := .enum [one, clean]) rfl rfl).mpr ⟨trivial, ?_⟩⟩
  exact forall_mem_cons.mpr ⟨⟨_, _, rfl, rfl, rfl⟩, forall_mem_singleton.mpr ⟨_, _, rfl, rfl, rfl⟩⟩

end TaskQ.Chain
