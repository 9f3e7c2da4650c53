import TaskQ.DiContainers

namespace TaskQ.Di
open Runs List

/-- A container above `TRANSIENT`. A product is the number of the run that made it, or
`none` for `None` and a registered value; `waiting` has the calls suspended before theirs. -/
structure Container where
  cache : PyClass → Option (Option Nat) := fun _ => none
  teardowns : List PyClass := []
  waiting : List PyClass := []
  produced : List PyClass := []
  answered : List (PyClass × Option Nat) := []

/-- `get_or_create` up to its first await, and from its last one by how the factory ends. -/
inductive Turn where
  | call (t : PyClass)
  | resume (t : PyClass) (isNone : Bool)
  | raise (t : PyClass)

/-- `_get_or_create_user_code`. -/
def Container.step (entry : PyClass → ProviderEntry) (s : Container) : Turn → Option Container
  | .call t =>
    match s.cache t with
    | some (some n) => some { s with answered := (t, some n) :: s.answered }
    | _ =>
      if (entry t).shape = .value then
        some { s with
          cache := Function.update s.cache t (some none), answered := (t, none) :: s.answered }
      else some { s with waiting := t :: s.waiting }
  | .resume t isNone =>
    let result := if isNone then none else some s.produced.length
    if t ∈ s.waiting then
      some {
        cache := Function.update s.cache t (some result)
        teardowns := if (entry t).hasTeardown then t :: s.teardowns else s.teardowns
        waiting := s.waiting.erase t, produced := t :: s.produced
        answered := (t, result) :: s.answered }
    else none
  | .raise t => if t ∈ s.waiting then some { s with waiting := s.waiting.erase t } else none

/-- No call starts while another of its type waits, and no factory gives `None`. -/
def Alone (s : Container) : Turn → Prop
  | .call t => t ∉ s.waiting
  | .resume _ isNone => isNone = false
  | .raise _ => True

variable {entry : PyClass → ProviderEntry} {s s' : Container}

structure Container.Sound (entry : PyClass → ProviderEntry) (s : Container) : Prop where
  waiting : s.waiting.Nodup
  missed : ∀ t ∈ s.waiting, s.cache t = none ∧ (entry t).shape ≠ .value
  cached : ∀ t, s.cache t = some none → (entry t).shape = .value
  once : s.produced.Nodup
  produced : ∀ t ∈ s.produced, ∃ p, s.cache t = some p
  answered : ∀ x ∈ s.answered, s.cache x.1 = some x.2
  torn : s.teardowns = s.produced.filter fun t => (entry t).hasTeardown

lemma update_of_missed (hc : s.cache t = none) (hu : s.cache u = some p) :
    Function.update s.cache t q u = some p := by
  refine (Function.update_of_ne ?_ ..).trans hu
  rintro rfl
  cases hc.symm.trans hu

lemma Container.Sound.value (h : s.Sound entry) (hc : s.cache t = none)
    (hv : (entry t).shape = .value) : Sound entry { s with
      cache := Function.update s.cache t (some none)
      answered := (t, none) :: s.answered } :=
  { h with
    missed := fun u hu => by
      obtain ⟨hm, hne⟩ := h.missed u hu
      exact ⟨(Function.update_of_ne (by rintro rfl; exact hne hv) ..).trans hm, hne⟩
    cached := fun u hu => by
      by_cases hut : u = t
      · exact hut ▸ hv
      · exact h.cached u ((Function.update_of_ne hut ..).symm.trans hu)
    produced := fun u hu => (h.produced u hu).imp fun _ => update_of_missed hc
    answered := forall_mem_cons.mpr
      ⟨Function.update_self .., fun x hx => update_of_missed hc (h.answered x hx)⟩ }

lemma Container.Sound.resume (h : s.Sound entry) (ht : t ∈ s.waiting) : Sound entry {
    cache := Function.update s.cache t (some (some s.produced.length))
    teardowns := if (entry t).hasTeardown then t :: s.teardowns else s.teardowns
    waiting := s.waiting.erase t
    produced := t :: s.produced
    answered := (t, some s.produced.length) :: s.answered } := by
  obtain ⟨hc, -⟩ := h.missed t ht
  refine ⟨h.waiting.erase t, fun u hu => ?_, fun u hu => ?_, nodup_cons.mpr ⟨fun hm => ?_, h.once⟩,
    forall_mem_cons.mpr ⟨⟨_, Function.update_self ..⟩, fun u hu => ?_⟩,
    forall_mem_cons.mpr
      ⟨Function.update_self .., fun x hx => update_of_missed hc (h.answered x hx)⟩, ?_⟩
  · obtain ⟨hne, hu⟩ := h.waiting.mem_erase_iff.mp hu
    exact (h.missed u hu).imp_left (Function.update_of_ne hne ..).trans
  · by_cases hut : u = t
    · subst hut
      cases (Function.update_self ..).symm.trans hu
    · exact h.cached u ((Function.update_of_ne hut ..).symm.trans hu)
  · obtain ⟨p, hp⟩ := h.produced t hm
    cases hc.symm.trans hp
  · exact (h.produced u hu).imp fun _ => update_of_missed hc
  · rw [h.torn, filter_cons]

lemma Container.Sound.step (h : s.Sound entry) (hok : Alone s turn)
    (hs : s.step entry turn = some s') : s'.Sound entry := by
  cases turn with
  | call t =>
    rw [Container.step] at hs
    split at hs
    · cases hs
      exact { h with answered := forall_mem_cons.mpr ⟨‹_›, h.answered⟩ }
    rename_i hmiss
    split at hs
    · cases hs
      rcases hc : s.cache t with - | - | n
      · exact h.value hc ‹_›
      · -- a cached `None` is a miss, and its value is cached once more
        rw [← hc, Function.update_eq_self]
        exact { h with answered := forall_mem_cons.mpr ⟨hc, h.answered⟩ }
      · exact (hmiss n hc).elim
    · cases hs
      rcases hc : s.cache t with - | - | n
      · exact { h with
          waiting := nodup_cons.mpr ⟨hok, h.waiting⟩
          missed := forall_mem_cons.mpr ⟨⟨hc, ‹_›⟩, h.missed⟩ }
      · exact (‹¬_› (h.cached t hc)).elim
      · exact (hmiss n hc).elim
  | resume t isNone =>
    obtain rfl : isNone = false := hok
    obtain ⟨ht, rfl⟩ := matched hs
    exact h.resume ht
  | raise t =>
    obtain ⟨-, rfl⟩ := matched hs
    exact { h with
      waiting := h.waiting.erase t
      missed := fun u hu => h.missed u (mem_of_mem_erase hu) }

/-- Without overlapping calls and `None`s a factory runs once, all calls get the same product, and
what is torn down are the products with a teardown. -/
theorem one_instance (h : Reach (Container.step entry) Alone {} s) :
    s.produced.Nodup ∧ (∀ t p q, (t, p) ∈ s.answered → (t, q) ∈ s.answered → p = q) ∧
      s.teardowns = s.produced.filter fun t => (entry t).hasTeardown := by
  have hs : s.Sound entry := h.invariant ⟨.nil, nofun, nofun, .nil, nofun, nofun, rfl⟩
    fun _ _ _ hI hok hs => hI.step hok hs
  refine ⟨hs.once, fun t p q hp hq => ?_, hs.torn⟩
  exact Option.some.inj ((hs.answered _ hp).symm.trans (hs.answered _ hq))

def pool : ProviderEntry := ⟨.process, .asyncGenerator, some .asyncGenerator, []⟩

/-- Two calls before the pool is open make two pools; a factory that gives `None` runs again. -/
theorem overlapping_calls_make_two :
    (∃ s, Reach (Container.step fun _ => pool) (fun _ _ => True) {} s ∧
      s.produced = [.user 0, .user 0] ∧ s.answered = [(.user 0, some 1), (.user 0, some 0)]) ∧
    ∃ s, Reach (Container.step fun _ => pool) (fun _ _ => True) {} s ∧
      s.produced = [.user 0, .user 0] ∧ s.answered = [(.user 0, none), (.user 0, none)] :=
  ⟨⟨_, .of_final (l := [.call (.user 0), .call (.user 0), .resume (.user 0) false,
      .resume (.user 0) false]) rfl, rfl, rfl⟩,
    _, .of_final (l := [.call (.user 0), .resume (.user 0) true, .call (.user 0),
      .resume (.user 0) true]) rfl, rfl, rfl⟩

theorem later_call_gets_the_same :
    ∃ s, Reach (Container.step fun _ => pool) Alone {} s ∧
      s.answered = [(.user 0, some 0), (.user 0, some 0)] ∧ s.produced.Nodup := by
  have h : Reach (Container.step fun _ => pool) Alone {} _ := .of_exec
    (l := [Turn.call (.user 0), .resume (.user 0) false, .call (.user 0)]) rfl
    ⟨not_mem_nil, fun _ hs => ⟨rfl, fun _ hs' => ⟨by cases hs; cases hs'; exact not_mem_nil,
      fun _ _ => trivial⟩⟩⟩
  exact ⟨_, h, rfl, (one_instance h).1⟩

end TaskQ.Di
