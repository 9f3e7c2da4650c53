import TaskQ.DiShadow
import TaskQ.DiLifetimes

namespace TaskQ.Di
open Runs List

section
variable (providers : Providers) (shadow : List PyClass)

def LoopInstance (heap : List Instance) (obj : Obj) : Prop :=
  ∃ t ∈ shadow, scopeOf providers t = .loop ∧
    ∃ entry, providers.lookup t = some entry ∧ Held heap (.worker .loop) t entry obj

inductive Holds (heap : List Instance) : Obj → Prop where
  | here : LoopInstance providers shadow heap obj → Holds heap obj
  | arg {i : Nat} : heap[i]? = some inst → obj ∈ inst.args → Holds heap obj → Holds heap (.made i)

def IsValue (t : PyClass) : Prop := ∃ entry, providers.lookup t = some entry ∧ entry.shape = .value

inductive Shares : PyClass → Scope → Prop where
  | here : t ∈ shadow → scopeOf providers t = .loop → scope = .loop ∨ IsValue providers t →
      Shares t scope
  | dep : Asks providers t r → Shares r.1 (r.scope providers) → Shares t scope

/-- An invocation's containers do, by `PROCESS`, `THREAD` or a registered value as `TRANSIENT`. -/
inductive Leaks : PyClass → Scope → Prop where
  | shared : scope = .process ∨ scope = .thread → Shares providers shadow t scope → Leaks t scope
  | value : t ∈ shadow → scopeOf providers t = .loop → IsValue providers t → Leaks t .transient
  | dep : scope = .transient ∨ scope = .loop ∧ t ∉ shadow → Asks providers t r →
      Leaks r.1 (r.scope providers) → Leaks t scope

variable {providers shadow}

lemma not_holds_slot : ¬ Holds providers shadow heap (.slot n t) := by
  intro h
  cases h with
  | here h =>
    obtain ⟨t', -, -, entry, -, hheld⟩ := h
    rcases hheld with ⟨-, hobj⟩ | ⟨-, i, inst, hobj, -⟩
    · cases hobj
    · cases hobj

lemma Held.unique (h : Held heap place t entry obj) (h' : Held heap place' t' entry' obj) :
    t = t' ∧ (entry.shape = .value ∧ entry'.shape = .value ∨ place = place') := by
  rcases h with ⟨hshape, rfl⟩ | ⟨-, i, inst, rfl, hi, htype, hplace⟩
  · rcases h' with ⟨hshape', hobj⟩ | ⟨-, i, inst, hobj, -⟩
    · cases hobj
      exact ⟨rfl, .inl ⟨hshape, hshape'⟩⟩
    · cases hobj
  · rcases h' with ⟨-, hobj⟩ | ⟨-, i', inst', hobj, hi', htype', hplace'⟩
    · cases hobj
    cases hobj
    rw [hi] at hi'
    cases hi'
    exact ⟨htype.symm.trans htype', .inr (hplace.symm.trans hplace')⟩

section
variable (hw : Wired providers actors s)
include hw

lemma Held.args (h : Held s.heap place t entry (.made i))
    (hi : s.heap[i]? = some inst) (ho : obj ∈ inst.args) :
    ∃ r, Asks providers t r ∧ Answers providers s.heap (s.ctxAt place) r obj := by
  rcases h with ⟨-, hobj⟩ | ⟨-, i', inst', hobj, hi', rfl, rfl⟩
  · cases hobj
  cases hobj
  rw [hi] at hi'
  cases hi'
  obtain ⟨entry', hentry', hshape', hargs⟩ := hw.built i inst hi
  obtain ⟨r, hr, hans⟩ := exists_left hargs ho
  exact ⟨r, ⟨entry', hentry', hshape', hr⟩, hans⟩

lemma Held.of_asks (h : Held s.heap place t entry obj)
    (hentry : providers.lookup t = some entry) (hasks : Asks providers t r) :
    ∃ i inst arg, obj = .made i ∧ s.heap[i]? = some inst ∧ arg ∈ inst.args ∧
      Answers providers s.heap (s.ctxAt place) r arg := by
  obtain ⟨entry', hentry', hshape, hr⟩ := hasks
  rw [hentry] at hentry'
  cases hentry'
  rcases h with ⟨hvalue, -⟩ | ⟨-, i, inst, hobj, hi, rfl, rfl⟩
  · exact absurd hvalue hshape
  obtain ⟨entry', hentry', -, hargs⟩ := hw.built i inst hi
  rw [hentry] at hentry'
  cases hentry'
  obtain ⟨arg, harg, hans⟩ := exists_right hargs hr
  exact ⟨i, inst, arg, hobj, hi, harg, hans⟩

lemma holds_iff_shares (h : Served providers s.heap .worker scope t obj) :
    Holds providers shadow s.heap obj ↔ Shares providers shadow t scope := by
  constructor
  · intro hholds
    induction hholds generalizing t scope with
    | here hloop =>
      obtain ⟨t', ht', hscope, entry', hentry', hheld'⟩ := hloop
      obtain ⟨entry, hentry, hheld⟩ := h
      obtain ⟨rfl, hsame⟩ := Held.unique hheld hheld'
      rcases hsame with ⟨hvalue, -⟩ | hplace
      · exact .here ht' hscope (.inr ⟨entry, hentry, hvalue⟩)
      · cases hplace
        exact .here ht' hscope (.inl rfl)
    | arg hi ho _ ih =>
      obtain ⟨entry, hentry, hheld⟩ := h
      obtain ⟨r, hasks, hans⟩ := Held.args hw hheld hi ho
      exact .dep hasks (ih hans)
  · intro hshare
    induction hshare generalizing obj with
    | here hmem hscope hcase =>
      obtain ⟨entry, hentry, hheld⟩ := h
      refine .here ⟨_, hmem, hscope, entry, hentry, ?_⟩
      rcases hcase with rfl | ⟨entry', hentry', hvalue⟩
      · exact hheld
      rw [hentry] at hentry'
      cases hentry'
      rcases hheld with hheld | ⟨hshape, -⟩
      · exact .inl hheld
      · exact absurd hvalue hshape
    | dep hasks _ ih =>
      obtain ⟨entry, hentry, hheld⟩ := h
      obtain ⟨i, inst, arg, rfl, hi, harg, hans⟩ := Held.of_asks hw hheld hentry hasks
      exact .arg hi harg (ih hans)

end

lemma Shares.derives (h : Shares providers shadow t scope) :
    t ∈ shadow ∨ Derives providers shadow t := by
  induction h with
  | here h => exact .inl h
  | dep hasks _ ih => exact .inr (derives_of_takes ⟨_, hasks⟩ ih)

lemma Leaks.derives (h : Leaks providers shadow t scope) :
    t ∈ shadow ∨ Derives providers shadow t := by
  induction h with
  | shared _ h => exact h.derives
  | value h => exact .inl h
  | dep _ hasks _ ih => exact .inr (derives_of_takes ⟨_, hasks⟩ ih)

lemma Served.invocation_cases
    (h : Served providers heap (.invocation n ⟨shadow, derived⟩) scope t obj) :
    scope = .loop ∧ t ∈ shadow ∧ obj = .slot n t ∨
      (scope = .transient ∨ scope = .loop ∧ t ∉ shadow ∧ t ∈ derived) ∧
        (∃ entry, providers.lookup t = some entry ∧ Held heap (.invocation n) t entry obj) ∨
      ((scope = .process ∨ scope = .thread) ∨ scope = .loop ∧ t ∉ shadow ∧ t ∉ derived) ∧
        Served providers heap .worker scope t obj := by
  cases scope with
  | process => exact .inr (.inr ⟨.inl (.inl rfl), h⟩)
  | thread => exact .inr (.inr ⟨.inl (.inr rfl), h⟩)
  | transient => exact .inr (.inl ⟨.inl rfl, h⟩)
  | loop =>
    obtain ⟨entry, hentry, h⟩ := h
    rw [Ctx.source] at h
    by_cases hsh : t ∈ shadow
    · rw [if_pos hsh] at h
      exact .inl ⟨rfl, hsh, h⟩
    rw [if_neg hsh] at h
    by_cases hder : t ∈ derived
    · rw [if_pos hder] at h
      exact .inr (.inl ⟨.inr ⟨rfl, hsh, hder⟩, entry, hentry, h⟩)
    · rw [if_neg hder] at h
      exact .inr (.inr ⟨.inr ⟨rfl, hsh, hder⟩, entry, hentry, h⟩)

lemma holds_iff_leaks (hw : Wired providers actors s)
    (hat : s.ctxAt (.invocation n) = .invocation n ⟨shadow, derived⟩)
    (hder : ∀ t, t ∈ derived ↔ Derives providers shadow t)
    (h : Served providers s.heap (.invocation n ⟨shadow, derived⟩) scope t obj) :
    Holds providers shadow s.heap obj ↔ Leaks providers shadow t scope := by
  constructor
  · intro hholds
    induction hholds generalizing t scope with
    | @here obj hloop =>
      rcases h.invocation_cases with ⟨-, -, rfl⟩ | ⟨hscope, entry, hentry, hheld⟩ | ⟨hscope, hserv⟩
      · exact absurd (.here hloop) not_holds_slot
      · obtain ⟨t', ht', hloop', entry', hentry', hheld'⟩ := hloop
        obtain ⟨rfl, hsame⟩ := Held.unique hheld hheld'
        rcases hsame with ⟨hvalue, -⟩ | hplace
        · rcases hscope with rfl | ⟨-, hnot, -⟩
          · exact .value ht' hloop' ⟨entry, hentry, hvalue⟩
          · exact absurd ht' hnot
        · cases hplace
      · have hshare := (holds_iff_shares hw hserv).mp (.here hloop)
        rcases hscope with hscope | ⟨-, hsh, hnot⟩
        · exact .shared hscope hshare
        · exact absurd ((hder t).mpr (hshare.derives.resolve_left hsh)) hnot
    | @arg obj inst i hi ho hholds ih =>
      rcases h.invocation_cases with ⟨-, -, hslot⟩ | ⟨hscope, entry, hentry, hheld⟩ | ⟨hscope, hserv⟩
      · cases hslot
      · obtain ⟨r, hasks, hans⟩ := Held.args hw hheld hi ho
        rw [hat] at hans
        refine .dep ?_ hasks (ih hans)
        rcases hscope with rfl | ⟨rfl, hsh, -⟩
        · exact .inl rfl
        · exact .inr ⟨rfl, hsh⟩
      · have hshare := (holds_iff_shares hw hserv).mp (.arg hi ho hholds)
        rcases hscope with hscope | ⟨-, hsh, hnot⟩
        · exact .shared hscope hshare
        · exact absurd ((hder t).mpr (hshare.derives.resolve_left hsh)) hnot
  · intro hleaks
    induction hleaks generalizing obj with
    | shared hscope hshare =>
      rcases hscope with rfl | rfl
      · exact (holds_iff_shares hw h).mpr hshare
      · exact (holds_iff_shares hw h).mpr hshare
    | value hmem hloop hvalue =>
      obtain ⟨entry, hentry, hheld⟩ := h
      obtain ⟨entry', hentry', hvalue⟩ := hvalue
      rw [hentry] at hentry'
      cases hentry'
      rcases hheld with hheld | ⟨hshape, -⟩
      · exact .here ⟨_, hmem, hloop, entry, hentry, .inl hheld⟩
      · exact absurd hvalue hshape
    | @dep scope t r hscope hasks hleaks ih =>
      have hd : t ∈ derived :=
        (hder t).mpr (derives_of_takes ⟨_, hasks⟩ hleaks.derives)
      rcases h.invocation_cases with ⟨rfl, hsh, -⟩ | ⟨-, entry, hentry, hheld⟩ | ⟨hworker, -⟩
      · rcases hscope with hscope | ⟨-, hnot⟩
        · cases hscope
        · exact absurd hsh hnot
      · obtain ⟨i, inst, arg, rfl, hi, harg, hans⟩ := Held.of_asks hw hheld hentry hasks
        rw [hat] at hans
        exact .arg hi harg (ih hans)
      · rcases hworker with (rfl | rfl) | ⟨rfl, -, hnot⟩
        · rcases hscope with hscope | ⟨hscope, -⟩ <;> cases hscope
        · rcases hscope with hscope | ⟨hscope, -⟩ <;> cases hscope
        · exact absurd hd hnot

lemma not_derives_nil : ¬ Derives providers [] t := by
  intro h
  induction h with
  | hit _ _ hd => exact not_mem_nil hd
  | step _ _ _ ih => exact ih

end

/-- An actor is given no shadowed instance of the loop just if nothing leads around its slot. -/
theorem slot_isolated_iff (R : Registry) (actors : List Actor) (oracle : Nat → Outcome)
    (limit : Nat) (s s' : DiState)
    (hreach : Reach (diStep R.providers oracle limit actors) (fun _ _ => True) .empty s)
    (a : Actor) (ha : a ∈ actors) (shadow : List PyClass) (kwargs : List (String × Obj))
    (h : buildActorScope R.providers oracle limit a shadow s = (.ok kwargs, s')) :
    (∀ x ∈ kwargs, ¬ Holds R.providers shadow s'.heap x.2) ↔
      ∀ r ∈ requests actorPassthrough a.params,
        ¬ Leaks R.providers shadow r.1 (r.scope R.providers) := by
  obtain ⟨derived, hderived, hw, hinvocations, hargs⟩ :=
    buildActorScope_kept (reach_wired hreach) ha h
  have hat : s'.ctxAt (.invocation s.invocations.length) =
      .invocation s.invocations.length ⟨shadow, derived⟩ := by
    rw [DiState.ctxAt, hinvocations, getElem?_concat_length]
    rfl
  have hmem : ∀ t, t ∈ derived ↔ Derives R.providers shadow t := by
    intro t
    split at hderived
    next hnil =>
      cases hderived
      refine ⟨fun h => absurd h not_mem_nil, fun hd => ?_⟩
      exact absurd hd (by rw [hnil]; exact not_derives_nil)
    · exact mem_shadowDerivedProviders R.distinct hderived
  constructor
  · intro hkwargs r hr hleaks
    obtain ⟨obj, hobj, hanswers⟩ := exists_right hargs hr
    obtain ⟨x, hx, rfl⟩ := mem_map.mp hobj
    exact hkwargs x hx ((holds_iff_leaks hw hat hmem hanswers).mpr hleaks)
  · intro hparams x hx hholds
    obtain ⟨r, hr, hanswers⟩ := exists_left hargs (mem_map_of_mem hx)
    exact hparams r hr ((holds_iff_leaks hw hat hmem hanswers).mp hholds)

def connectionRegistry : Registry where
  providers :=
    [(.user 0, ⟨.loop, .value, none, []⟩),
      (.user 1, ⟨.loop, .syncCallable, none, [⟨"conn", false, some (.cls (.user 0)), false⟩]⟩)]
  depEdges := [⟨.user 1, .user 0, none⟩]
  distinct := by decide
  collected := by decide

def transientTaker : Actor := takes (.annotated (some (.user 0)) [.transient])

/-- The invocation's own container has the registered connection for it, not that of the slot. -/
theorem registered_connection_injected :
    (∃ plan, runValidation connectionRegistry.providers connectionRegistry.depEdges
      [transientTaker] none = .ok plan) ∧ transientTaker.accepted = true ∧
    scopeOf connectionRegistry.providers (.user 0) = .loop ∧
    ∃ s s' kwargs, Reach (diStep connectionRegistry.providers (fun _ => .object) 9 [transientTaker])
        (fun _ _ => True) .empty s ∧
      buildActorScope connectionRegistry.providers (fun _ => .object) 9 transientTaker [.user 0] s =
        (.ok kwargs, s') ∧
      ∃ x ∈ kwargs, Holds connectionRegistry.providers [.user 0] s'.heap x.2 := by
  refine ⟨takes_valid (by decide) rfl (by decide) (by decide) (by decide) (by decide), by decide,
    by decide, ?_⟩
  let step := diStep connectionRegistry.providers (fun _ => .object) 9 [transientTaker]
  refine ⟨final step .empty openAll, _, [("a", .value (.user 0))],
    .of_exec (exec_final (by decide)) (meets_true _ _), rfl, _, mem_cons_self, ?_⟩
  exact .here ⟨.user 0, mem_cons_self, by decide, _, rfl, .inl ⟨rfl, rfl⟩⟩

def helperTaker : Actor := takes (.cls (.user 1))

lemma not_leaks_connection : ¬ Leaks connectionRegistry.providers [.user 0] (.user 0) .loop := by
  intro h
  cases h with
  | shared hscope => rcases hscope with h | h <;> cases h
  | dep hscope =>
    rcases hscope with h | ⟨-, h⟩
    · cases h
    · exact h mem_cons_self

lemma not_leaks_helper : ¬ Leaks connectionRegistry.providers [.user 0] (.user 1) .loop := by
  intro h
  cases h with
  | shared hscope => rcases hscope with h | h <;> cases h
  | dep _ hasks hleaks =>
    obtain ⟨entry, hentry, -, hr⟩ := hasks
    cases hentry
    cases mem_singleton.mp hr
    exact not_leaks_connection hleaks

theorem slot_connection_injected :
    ∃ s s', Reach (diStep connectionRegistry.providers (fun _ => .object) 9 [helperTaker])
        (fun _ _ => True) .empty s ∧
      buildActorScope connectionRegistry.providers (fun _ => .object) 9 helperTaker [.user 0] s =
        (.ok [("a", .made 0)], s') ∧
      s'.heap = [⟨.user 1, .invocation 0, [.slot 0 (.user 0)], false⟩] ∧
      ∀ x ∈ [("a", Obj.made 0)], ¬ Holds connectionRegistry.providers [.user 0] s'.heap x.2 := by
  let step := diStep connectionRegistry.providers (fun _ => .object) 9 [helperTaker]
  have hreach : Reach step (fun _ _ => True) .empty (final step .empty openAll) :=
    .of_exec (exec_final (by decide)) (meets_true _ _)
  refine ⟨final step .empty openAll, _, hreach, rfl, by decide, ?_⟩
  refine (slot_isolated_iff _ _ _ _ _ _ hreach helperTaker mem_cons_self [.user 0] _ rfl).mpr ?_
  intro r hr
  cases mem_singleton.mp hr
  exact not_leaks_helper

end TaskQ.Di
