import TaskQ.DiWiring

namespace TaskQ.Di
open Relation Runs List

def Uses (heap : List Instance) (i j : Nat) : Prop :=
  ∃ inst, heap[i]? = some inst ∧ .made j ∈ inst.args

def BuiltFrom (heap : List Instance) (obj : Obj) (j : Nat) : Prop :=
  ∃ i, obj = .made i ∧ TransGen (Uses heap) i j

/-- Nothing an open container caches was built from an instance already torn down. -/
def Outlived (s : DiState) : Prop :=
  ∀ scope t obj, s.cache.lookup (scope, t) = some obj → .worker scope ∉ s.closed →
    ∀ j, BuiltFrom s.heap obj j → j ∉ s.torn

def Overrides (providers : Providers) (actors : List Actor) (t : PyClass) (scope : Scope) : Prop :=
  (∃ owner, Asks providers owner (t, some scope)) ∨
    ∃ a ∈ actors, (t, some scope) ∈ requests actorPassthrough a.params

/-- What validation does not see keeps to the containers. -/
structure Contained (R : Registry) (actors : List Actor) : Prop where
  unrecorded : ∀ t r, Asks R.providers t r → ⟨t, r.1, r.2⟩ ∉ R.depEdges →
    (r.scope R.providers).value ≤ (scopeOf R.providers t).value
  overridden : ∀ t scope, Overrides R.providers actors t scope → scope ≠ .transient →
    ∀ r, Asks R.providers t r → (r.scope R.providers).value ≤ scope.value

lemma solverScope_le_owner (h : runValidation providers edges actors names = .ok plan)
    (he : e ∈ edges) : (solverScope e.override (scopeOf providers e.dep)).value ≤
      (scopeOf providers e.owner).value := by
  have hnone : edges.findSome? (checkEdge providers) = none := by
    rw [runValidation] at h
    repeat' split at h
    all_goals first | assumption | cases h
  have hcheck := findSome?_eq_none_iff.mp hnone e he
  rw [checkEdge] at hcheck
  split at hcheck
  next howner hdep =>
    rw [scopeOf_eq howner, scopeOf_eq hdep]
    dsimp only at hcheck
    split at hcheck
    · cases hcheck
    next hle => exact Nat.le_trans (solverScope_le _ _) (Nat.not_lt.mp hle)
  · cases hcheck
  · cases hcheck

section
variable {R : Registry} {actors : List Actor}

section
variable (hvalid : runValidation R.providers R.depEdges actors names = .ok plan)
  (hcontained : Contained R actors)
include hvalid hcontained

lemma asks_scope_le (hasks : Asks R.providers t r)
    (hpl : Placement R.providers actors t scope) (hscope : scope ≠ .transient) :
    (r.scope R.providers).value ≤ scope.value := by
  rcases hpl with rfl | hover
  · by_cases hedge : ⟨t, r.1, r.2⟩ ∈ R.depEdges
    · exact solverScope_le_owner hvalid hedge
    · exact hcontained.unrecorded t r hasks hedge
  · exact hcontained.overridden t scope hover hscope r hasks

lemma uses_scope_le (hw : Wired R.providers actors s)
    (hi : s.heap[i]? = some inst) (hplace : inst.place = .worker scope) (huses : Uses s.heap i j) :
    ∃ inst' scope', s.heap[j]? = some inst' ∧ inst'.place = .worker scope' ∧
      scope'.value ≤ scope.value := by
  obtain ⟨inst0, hi0, hj⟩ := huses
  rw [hi] at hi0
  cases hi0
  obtain ⟨entry, hentry, hshape, hargs⟩ := hw.built i inst hi
  obtain ⟨hscope, hpl⟩ := hw.placed i inst hi scope hplace
  obtain ⟨r, hr, entry', -, hheld⟩ := exists_left hargs hj
  rw [hplace] at hheld
  rcases hheld with ⟨-, hobj⟩ | ⟨-, j', inst', hobj, hj', -, hplace'⟩
  · cases hobj
  cases hobj
  exact ⟨inst', _, hj', hplace',
    asks_scope_le hvalid hcontained ⟨entry, hentry, hshape, hr⟩ hpl hscope⟩

lemma builtFrom_scope_le (hw : Wired R.providers actors s)
    (hi : s.heap[i]? = some inst) (hplace : inst.place = .worker scope)
    (huses : TransGen (Uses s.heap) i j) :
    ∃ inst' scope', s.heap[j]? = some inst' ∧ inst'.place = .worker scope' ∧
      scope'.value ≤ scope.value := by
  induction huses with
  | single h => exact uses_scope_le hvalid hcontained hw hi hplace h
  | tail _ h ih =>
    obtain ⟨inst', scope', hj, hplace', hle⟩ := ih
    obtain ⟨inst'', scope'', hk, hplace'', hle'⟩ :=
      uses_scope_le hvalid hcontained hw hj hplace' h
    exact ⟨inst'', scope'', hk, hplace'', Nat.le_trans hle' hle⟩

end

end

structure InOrder (s : DiState) : Prop where
  thread : .worker .thread ∈ s.closed → .worker .loop ∈ s.closed
  process : .worker .process ∈ s.closed → .worker .thread ∈ s.closed
  torn : ∀ i ∈ s.torn, ∃ inst, s.heap[i]? = some inst ∧ inst.place ∈ s.closed

lemma mem_teardowns (h : i ∈ teardowns p heap) :
    ∃ inst, heap[i]? = some inst ∧ inst.place = p := by
  have hany := (mem_filter.mp h).2
  cases hi : heap[i]? with
  | none =>
    rw [hi] at hany
    cases hany
  | some inst =>
    rw [hi, Option.any_some, Bool.and_eq_true, decide_eq_true_eq] at hany
    exact ⟨inst, rfl, hany.1⟩

lemma InOrder.step (h : InOrder s) (hw : Wired providers actors s)
    (hs : diStep providers oracle limit actors s e = some s') : InOrder s' := by
  rcases (diStep_cases hw hs).2 with ⟨hheap, hcl, htorn⟩ | ⟨p, hp, rfl⟩
  · refine ⟨?_, ?_, fun i hi => ?_⟩
    · rw [hcl]
      exact h.thread
    · rw [hcl]
      exact h.process
    rw [htorn] at hi
    obtain ⟨inst, hinst, hplace⟩ := h.torn i hi
    exact ⟨inst, hheap i inst hinst, hcl ▸ hplace⟩
  · refine ⟨fun hmem => ?_, fun hmem => ?_, fun i hi => ?_⟩
    · rcases mem_cons.mp hmem with rfl | hmem
      · exact mem_cons_of_mem _ hp
      · exact mem_cons_of_mem _ (h.thread hmem)
    · rcases mem_cons.mp hmem with rfl | hmem
      · exact mem_cons_of_mem _ hp
      · exact mem_cons_of_mem _ (h.process hmem)
    · rcases mem_append.mp hi with hi | hi
      · obtain ⟨inst, hinst, hplace⟩ := mem_teardowns hi
        exact ⟨inst, hinst, hplace ▸ mem_cons_self⟩
      · obtain ⟨inst, hinst, hplace⟩ := h.torn i hi
        exact ⟨inst, hinst, mem_cons_of_mem _ hplace⟩

lemma reach_inOrder
    (h : Reach (diStep providers oracle limit actors) (fun _ _ => True) .empty s) :
    Wired providers actors s ∧ InOrder s := by
  induction h with
  | start =>
    refine ⟨wired_empty, ⟨fun h => ?_, fun h => ?_, fun i hi => ?_⟩⟩
    · cases h
    · cases h
    · cases hi
  | next _ _ hs ih => exact ⟨(diStep_cases ih.1 hs).1, ih.2.step ih.1 hs⟩

lemma InOrder.closed_of_le (h : InOrder s) (hcl : .worker scope' ∈ s.closed)
    (hle : scope'.value ≤ scope.value) (hscope : scope ≠ .transient) :
    .worker scope ∈ s.closed := by
  cases scope with
  | transient => exact absurd rfl hscope
  | process =>
    obtain rfl := Scope.value_eq_zero.mp (Nat.le_zero.mp hle)
    exact hcl
  | thread =>
    cases scope' with
    | process => exact h.process hcl
    | thread => exact hcl
    | loop | transient => exact absurd hle (by decide)
  | loop =>
    cases scope' with
    | process => exact h.thread (h.process hcl)
    | thread => exact h.thread hcl
    | loop => exact hcl
    | transient => exact absurd hle (by decide)

/-- With a contained, validated registry, what is cached is closed before its dependencies. -/
theorem cached_outlived_by_dependencies (R : Registry) (actors : List Actor)
    (names : Option RateLimitNames) (plan : List ((String × Scope) × List PyClass))
    (hvalid : runValidation R.providers R.depEdges actors names = .ok plan)
    (hcontained : Contained R actors) (oracle : Nat → Outcome) (limit : Nat) (s : DiState)
    (hreach : Reach (diStep R.providers oracle limit actors) (fun _ _ => True) .empty s) :
    Outlived s := by
  obtain ⟨hw, horder⟩ := reach_inOrder hreach
  intro scope t obj hcached hopen j hbuilt htorn
  obtain ⟨i, rfl, huses⟩ := hbuilt
  obtain ⟨hscope, entry, -, hheld⟩ := hw.cached scope t _ hcached
  rcases hheld with ⟨-, hobj⟩ | ⟨-, i', inst, hobj, hi, -, hplace⟩
  · cases hobj
  cases hobj
  obtain ⟨inst', scope', hj, hplace', hle⟩ :=
    builtFrom_scope_le hvalid hcontained hw hi hplace huses
  obtain ⟨inst0, hj0, hclosed⟩ := horder.torn j htorn
  rw [hj] at hj0
  cases hj0
  rw [hplace'] at hclosed
  exact hopen (horder.closed_of_le hclosed hle hscope)

def takes (hint : Hint) : Actor :=
  ⟨"job", [⟨"payload", false, some (.cls (.model 0)), false⟩, ⟨"a", false, some hint, false⟩],
    [], []⟩

lemma takes_valid {e : DepEdge} (hne : e.owner ≠ e.dep)
    (hedge : Param.edge actorPassthrough ⟨"a", false, some hint, false⟩ = .ok (some r))
    (hr : (providers.lookup r.1).isSome) (hcheck : checkEdge providers e = none)
    (howner : (providers.lookup e.owner).isSome) (hdep : (providers.lookup e.dep).isSome) :
    ∃ plan, runValidation providers [e] [takes hint] none = .ok plan := by
  have hparam : ∀ p ∈ (takes hint).params,
      p.edge actorPassthrough = .ok none ∨ p.edge actorPassthrough = .ok (some r) := by
    intro p hp
    rcases mem_cons.mp hp with rfl | hp
    · exact .inl rfl
    · obtain rfl := mem_singleton.mp hp
      exact .inr hedge
  have hadmissible : Admissible providers [e] [takes hint] none := by
    refine ⟨?_, ?_, ?_, ?_, ?_, acyclic_singleton hne⟩
    · exact forall_mem_singleton.mpr howner
    · exact forall_mem_singleton.mpr hdep
    · intro a ha p hp err herr
      obtain rfl := mem_singleton.mp ha
      rcases hparam p hp with h | h
      all_goals
        rw [h] at herr
        cases herr
    · intro a ha p hp r' hr'
      obtain rfl := mem_singleton.mp ha
      rcases hparam p hp with h | h
      all_goals
        rw [h] at hr'
        cases hr'
      exact hr
    · intro n hn
      cases hn
  refine ⟨planCache providers [e] [takes hint], ?_⟩
  rw [hadmissible.runValidation, findSome?_cons, hcheck]
  rfl

def sharedRegistry : Registry where
  providers :=
    [(.user 0, ⟨.loop, .syncCallable, none, [⟨"b", false, some (.cls (.user 1)), false⟩]⟩),
      (.user 1, ⟨.loop, .asyncGenerator, none, []⟩)]
  depEdges := [⟨.user 0, .user 1, none⟩]
  distinct := by decide
  collected := by decide

def overridingTaker : Actor := takes (.annotated (some (.user 0)) [.process])

def openAll : List DiEvent := [.openScope .process, .openScope .thread, .openScope .loop]

/-- The generator is closed with the loop, while the process still holds what was built from it. -/
theorem torn_down_before_dependent :
    (∃ plan, runValidation sharedRegistry.providers sharedRegistry.depEdges [overridingTaker] none =
      .ok plan) ∧
    ∃ s, Reach (diStep sharedRegistry.providers (fun _ => .object) 9 [overridingTaker])
        (fun _ _ => True) .empty s ∧ ¬ Outlived s := by
  refine ⟨takes_valid (by decide) rfl (by decide) (by decide) (by decide) (by decide), ?_⟩
  let events : List DiEvent := openAll ++
    [.invoke overridingTaker [], .close (.invocation 0), .close (.worker .loop)]
  let step := diStep sharedRegistry.providers (fun _ => .object) 9 [overridingTaker]
  refine ⟨final step .empty events, .of_exec (exec_final (by decide)) (meets_true _ _), fun h => ?_⟩
  refine h .process (.user 0) (.made 1) (by decide) (by decide) 0 ⟨1, rfl, .single ?_⟩ (by decide)
  exact ⟨⟨.user 0, .worker .process, [.made 0], false⟩, by decide, by decide⟩

def plainTaker : Actor := takes (.cls (.user 0))

lemma asks_shared (h : Asks sharedRegistry.providers t r) : t = .user 0 ∧ r = (.user 1, none) := by
  obtain ⟨entry, hentry, -, hr⟩ := h
  rcases mem_cons.mp ((Dict.mem_iff_lookup sharedRegistry.distinct).mpr hentry) with heq | hmem
  · cases heq
    exact ⟨rfl, mem_singleton.mp hr⟩
  · cases mem_singleton.mp hmem
    cases hr

lemma shared_contained : Contained sharedRegistry [plainTaker] where
  unrecorded t r h hedge := by
    obtain ⟨rfl, rfl⟩ := asks_shared h
    exact absurd mem_cons_self hedge
  overridden t scope h _ _ _ := by
    rcases h with ⟨owner, h⟩ | ⟨a, ha, hmem⟩
    · cases (asks_shared h).2
    · obtain rfl := mem_singleton.mp ha
      cases mem_singleton.mp hmem

theorem torn_down_together :
    ∃ s, Reach (diStep sharedRegistry.providers (fun _ => .object) 9 [plainTaker])
        (fun _ _ => True) .empty s ∧
      s.cache.lookup (.loop, .user 0) = some (.made 1) ∧ Uses s.heap 1 0 ∧ Outlived s := by
  obtain ⟨plan, hplan⟩ : ∃ plan, runValidation sharedRegistry.providers sharedRegistry.depEdges
      [plainTaker] none = .ok plan :=
    takes_valid (by decide) rfl (by decide) (by decide) (by decide) (by decide)
  let step := diStep sharedRegistry.providers (fun _ => .object) 9 [plainTaker]
  let events : List DiEvent := openAll ++ [.invoke plainTaker [], .close (.invocation 0)]
  have hreach : Reach step (fun _ _ => True) .empty (final step .empty events) :=
    .of_exec (exec_final (by decide)) (meets_true _ _)
  refine ⟨final step .empty events, hreach, by decide, ?_, ?_⟩
  · exact ⟨⟨.user 0, .worker .loop, [.made 0], false⟩, by decide, by decide⟩
  · exact cached_outlived_by_dependencies _ _ none plan hplan shared_contained _ _ _ hreach

/-- In every run a cached object was made where it is cached by its class's provider, instances were
given what their parameters ask for, and only a container's own instances go with it. -/
theorem resolved_as_declared
    (h : Reach (diStep providers oracle limit actors) (fun _ _ => True) .empty s) :
    (∀ scope t obj, s.cache.lookup (scope, t) = some obj →
      ∃ entry, providers.lookup t = some entry ∧ Held s.heap (.worker scope) t entry obj) ∧
    (∀ (i : Nat) (inst : Instance), s.heap[i]? = some inst →
      ∃ entry, providers.lookup inst.type = some entry ∧
        List.Forall₂ (Answers providers s.heap (s.ctxAt inst.place)) (requests [] entry.params)
          inst.args) ∧
    ∀ i ∈ s.torn, ∃ inst, s.heap[i]? = some inst ∧ inst.place ∈ s.closed := by
  obtain ⟨hw, horder⟩ := reach_inOrder h
  refine ⟨fun scope t obj hc => (hw.cached scope t obj hc).2, fun i inst hi => ?_, horder.torn⟩
  obtain ⟨entry, hentry, -, hargs⟩ := hw.built i inst hi
  exact ⟨entry, hentry, hargs⟩

theorem resolved_as_declared_taken : ∃ entry,
    sharedRegistry.providers.lookup (.user 0) = some entry ∧
      Held (final (diStep sharedRegistry.providers (fun _ => .object) 9 [plainTaker]) .empty
        (openAll ++ [.invoke plainTaker []])).heap (.worker .loop) (.user 0) entry (.made 1) :=
  (resolved_as_declared (.of_final (by decide))).1 .loop (.user 0) (.made 1) (by decide)

end TaskQ.Di
