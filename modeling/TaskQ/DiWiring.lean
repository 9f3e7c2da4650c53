import TaskQ.DiContainers

namespace TaskQ.Di
open List

lemma exists_left (h : List.Forall₂ R l l') (hb : b ∈ l') : ∃ a ∈ l, R a b := by
  induction h with
  | nil => cases hb
  | cons hab _ ih =>
    rcases mem_cons.mp hb with rfl | hb
    · exact ⟨_, mem_cons_self, hab⟩
    · obtain ⟨a, ha, h⟩ := ih hb
      exact ⟨a, mem_cons_of_mem _ ha, h⟩

lemma exists_right (h : List.Forall₂ R l l') (ha : a ∈ l) : ∃ b ∈ l', R a b :=
  exists_left (R := flip R) h.flip ha

def requests (passthrough : List String) (params : List Param) : List Request :=
  params.filterMap fun p =>
    match p.request passthrough with
    | .ok r => r
    | .error _ => none

def Asks (providers : Providers) (t : PyClass) (r : Request) : Prop :=
  ∃ entry, providers.lookup t = some entry ∧ entry.shape ≠ .value ∧ r ∈ requests [] entry.params

def Request.scope (providers : Providers) (r : Request) : Scope :=
  solverScope r.2 (scopeOf providers r.1)

def Held (heap : List Instance) (place : Place) (t : PyClass) (entry : ProviderEntry) (obj : Obj) :
    Prop :=
  entry.shape = .value ∧ obj = .value t ∨
    entry.shape ≠ .value ∧ ∃ i inst, obj = .made i ∧ heap[i]? = some inst ∧
      inst.type = t ∧ inst.place = place

def Served (providers : Providers) (heap : List Instance) (ctx : Ctx) (scope : Scope) (t : PyClass)
    (obj : Obj) : Prop :=
  ∃ entry, providers.lookup t = some entry ∧
    match ctx.source scope t with
    | .slot n => obj = .slot n t
    | .container place => Held heap place t entry obj

def Answers (providers : Providers) (heap : List Instance) (ctx : Ctx) (r : Request) (obj : Obj) :
    Prop :=
  Served providers heap ctx (r.scope providers) r.1 obj

def DiState.ctxAt (s : DiState) : Place → Ctx
  | .worker _ => .worker
  | .invocation n => (s.invocations[n]?).elim .worker (.invocation n)

def Placement (providers : Providers) (actors : List Actor) (t : PyClass) (scope : Scope) : Prop :=
  scopeOf providers t = scope ∨ (∃ owner, Asks providers owner (t, some scope)) ∨
    ∃ a ∈ actors, (t, some scope) ∈ requests actorPassthrough a.params

variable (providers : Providers) (actors : List Actor)

structure Wired (s : DiState) : Prop where
  built : ∀ (i : Nat) (inst : Instance), s.heap[i]? = some inst →
    ∃ entry, providers.lookup inst.type = some entry ∧ entry.shape ≠ .value ∧
      List.Forall₂ (Answers providers s.heap (s.ctxAt inst.place)) (requests [] entry.params)
        inst.args
  invocation : ∀ (i : Nat) (inst : Instance), s.heap[i]? = some inst → ∀ n, inst.place = .invocation n →
    n < s.invocations.length
  placed : ∀ (i : Nat) (inst : Instance), s.heap[i]? = some inst → ∀ scope, inst.place = .worker scope →
    scope ≠ .transient ∧ Placement providers actors inst.type scope
  cached : ∀ scope t obj, s.cache.lookup (scope, t) = some obj →
    scope ≠ .transient ∧ ∃ entry, providers.lookup t = some entry ∧
      Held s.heap (.worker scope) t entry obj
  opened : .transient ∉ s.opened

structure Grows (s s' : DiState) : Prop where
  heap : ∃ l, s'.heap = s.heap ++ l
  opened : s'.opened = s.opened
  invocations : s'.invocations = s.invocations
  closed : s'.closed = s.closed
  torn : s'.torn = s.torn

variable {providers actors}

lemma Grows.refl (s : DiState) : Grows s s := ⟨⟨[], (append_nil _).symm⟩, rfl, rfl, rfl, rfl⟩

lemma Grows.trans (h : Grows s s') (h' : Grows s' s'') : Grows s s'' := by
  obtain ⟨l, hl⟩ := h.heap
  obtain ⟨l', hl'⟩ := h'.heap
  refine ⟨⟨l ++ l', by rw [hl', hl, append_assoc]⟩, ?_, ?_, ?_, ?_⟩
  · exact h'.opened.trans h.opened
  · exact h'.invocations.trans h.invocations
  · exact h'.closed.trans h.closed
  · exact h'.torn.trans h.torn

def Within (heap heap' : List Instance) : Prop :=
  ∀ (i : Nat) (inst : Instance), heap[i]? = some inst → heap'[i]? = some inst

lemma Grows.within (h : Grows s s') : Within s.heap s'.heap := by
  intro i inst hi
  obtain ⟨l, hl⟩ := h.heap
  rw [hl, List.getElem?_append_left (List.getElem?_eq_some_iff.mp hi).1, hi]

lemma Grows.ctxAt (h : Grows s s') (place : Place) : s'.ctxAt place = s.ctxAt place := by
  cases place with
  | worker => rfl
  | invocation n => rw [DiState.ctxAt, DiState.ctxAt, h.invocations]

lemma Held.mono (hsub : Within heap heap') (h : Held heap place t entry obj) :
    Held heap' place t entry obj := by
  rcases h with h | ⟨hshape, i, inst, hobj, hi, h⟩
  · exact .inl h
  · exact .inr ⟨hshape, i, inst, hobj, hsub i inst hi, h⟩

lemma Served.mono (hsub : Within heap heap') (h : Served providers heap ctx scope t obj) :
    Served providers heap' ctx scope t obj := by
  obtain ⟨entry, hentry, h⟩ := h
  refine ⟨entry, hentry, ?_⟩
  split at h
  · exact h
  · exact h.mono hsub

structure Kept (providers : Providers) (actors : List Actor) (s : DiState)
    (r : Except DiError α × DiState) (Q : List Instance → α → Prop) : Prop where
  wired : Wired providers actors r.2
  grows : Grows s r.2
  result : ∀ a, r.1 = .ok a → Q r.2.heap a

def Ctx.Current (s : DiState) : Ctx → Prop
  | .worker => True
  | .invocation n slots => s.invocations[n]? = some slots

variable {ctx : Ctx}

lemma Ctx.Current.grows (h : ctx.Current s) (hg : Grows s s') : ctx.Current s' := by
  cases ctx with
  | worker => exact h
  | invocation n slots => exact (congrArg (·[n]?) hg.invocations).trans h

def Serves (providers : Providers) (actors : List Actor) (ctx : Ctx)
    (resolve : Scope → PyClass → ProviderEntry → Resolve Obj) : Prop :=
  ∀ scope t entry s, Wired providers actors s → ctx.Current s → providers.lookup t = some entry →
    Placement providers actors t scope →
    Kept providers actors s (resolve scope t entry s) fun heap =>
      Served providers heap ctx scope t

lemma Kept.error (h : Kept providers actors s r Q) (e : DiError) :
    Kept providers actors s ((.error e : Except DiError β), r.2) Q' :=
  ⟨h.wired, h.grows, fun _ ha => by cases ha⟩

lemma scopeOf_eq (h : providers.lookup t = some entry) : scopeOf providers t = entry.scope := by
  rw [scopeOf, h]
  rfl

lemma requests_cons (h : p.request passthrough = .ok o) :
    requests passthrough (p :: ps) = o.toList ++ requests passthrough ps := by
  rw [requests, filterMap_cons, h]
  cases o with
  | none => rfl
  | some => rfl

lemma solveHints_kept (hserv : Serves providers actors ctx resolve)
    (hpl : ∀ r ∈ requests passthrough params, Placement providers actors r.1 (r.scope providers))
    (hw : Wired providers actors s) (hctx : ctx.Current s) :
    Kept providers actors s (solveHints providers resolve passthrough params s) fun heap kwargs =>
      List.Forall₂ (Answers providers heap ctx) (requests passthrough params)
        (kwargs.map Prod.snd) := by
  induction params generalizing s with
  | nil => exact ⟨hw, .refl s, fun _ ha => by cases ha; exact .nil⟩
  | cons p ps ih =>
    rw [solveHints]
    cases hp : p.request passthrough with
    | error e => exact ⟨hw, .refl s, fun _ ha => by cases ha⟩
    | ok o =>
      rw [requests_cons hp] at hpl ⊢
      cases o with
      | none => exact ih hpl hw hctx
      | some r =>
        obtain ⟨hr, hps⟩ := forall_mem_cons.mp hpl
        dsimp only
        cases hentry : providers.lookup r.1 with
        | none => exact ⟨hw, .refl s, fun _ ha => by cases ha⟩
        | some entry =>
          rw [Request.scope, scopeOf_eq hentry] at hr
          have hfirst := hserv _ r.1 entry s hw hctx hentry hr
          dsimp only
          split
          next e s' heq =>
            rw [heq] at hfirst
            exact hfirst.error e
          next obj s' heq =>
            rw [heq] at hfirst
            have hrest := ih hps hfirst.wired (hctx.grows hfirst.grows)
            have hgrows := hfirst.grows.trans hrest.grows
            split
            next e s'' heq' =>
              rw [heq'] at hrest hgrows
              exact ⟨hrest.wired, hgrows, fun _ ha => by cases ha⟩
            next rest s'' heq' =>
              rw [heq'] at hrest hgrows
              refine ⟨hrest.wired, hgrows, fun _ ha => ?_⟩
              cases ha
              refine .cons ?_ (hrest.result rest rfl)
              rw [Answers, Request.scope, scopeOf_eq hentry]
              exact Served.mono hrest.grows.within (hfirst.result obj rfl)

lemma solveDependencies_kept (hserv : Serves providers actors ctx resolve)
    (hpl : ∀ r ∈ requests passthrough params, Placement providers actors r.1 (r.scope providers))
    (hw : Wired providers actors s) (hctx : ctx.Current s) :
    Kept providers actors s (solveDependencies providers resolve passthrough params s)
      fun heap kwargs => List.Forall₂ (Answers providers heap ctx) (requests passthrough params)
        (kwargs.map Prod.snd) := by
  have h := solveHints_kept hserv hpl hw hctx
  rw [solveDependencies]
  split
  next heq =>
    rw [heq] at h
    exact h.error _
  next heq =>
    rw [heq] at h
    split
    · exact h.error _
    · exact h

lemma Wired.calls (h : Wired providers actors s) (n : Nat) :
    Wired providers actors { s with calls := n } :=
  ⟨h.built, h.invocation, h.placed, h.cached, h.opened⟩

lemma callFactory_kept (oracle : Nat → Outcome) (hw : Wired providers actors s)
    (hentry : providers.lookup t = some entry) (hshape : entry.shape ≠ .value)
    (hargs : List.Forall₂ (Answers providers s.heap (s.ctxAt place)) (requests [] entry.params) args)
    (hinv : ∀ n, place = .invocation n → n < s.invocations.length)
    (hpl : ∀ scope, place = .worker scope →
      scope ≠ .transient ∧ Placement providers actors t scope) :
    Kept providers actors s (callFactory oracle t entry place args s) fun heap =>
      Held heap place t entry := by
  have hcalls : Grows s { s with calls := s.calls + 1 } :=
    ⟨⟨[], (append_nil _).symm⟩, rfl, rfl, rfl, rfl⟩
  rw [callFactory]
  split
  · exact ⟨hw.calls _, hcalls, fun _ ha => by cases ha⟩
  split
  · exact ⟨hw.calls _, hcalls, fun _ ha => by cases ha⟩
  have hgrows : Grows s { s with
      calls := s.calls + 1
      heap := s.heap ++ [⟨t, place, args, entry.hasTeardown⟩] } :=
    ⟨⟨_, rfl⟩, rfl, rfl, rfl, rfl⟩
  refine ⟨⟨?_, ?_, ?_, ?_, hw.opened⟩, hgrows, ?_⟩
  · intro i inst hi
    rcases Positions.of_concat hi with hi | ⟨-, rfl⟩
    · obtain ⟨entry', hentry', hshape', hargs'⟩ := hw.built i inst hi
      exact ⟨entry', hentry', hshape', hargs'.imp fun r o => Served.mono hgrows.within⟩
    · exact ⟨entry, hentry, hshape, hargs.imp fun r o => Served.mono hgrows.within⟩
  · intro i inst hi
    rcases Positions.of_concat hi with hi | ⟨-, rfl⟩
    · exact hw.invocation i inst hi
    · exact hinv
  · intro i inst hi
    rcases Positions.of_concat hi with hi | ⟨-, rfl⟩
    · exact hw.placed i inst hi
    · exact hpl
  · intro scope t' obj hobj
    obtain ⟨hscope, entry', hentry', hheld⟩ := hw.cached scope t' obj hobj
    exact ⟨hscope, entry', hentry', hheld.mono hgrows.within⟩
  · intro obj hobj
    cases hobj
    refine .inr ⟨hshape, _, _, rfl, getElem?_concat_length, rfl, rfl⟩

lemma build_kept (oracle : Nat → Outcome) (place : Place) (hat : s.ctxAt place = ctx)
    (hserv : Serves providers actors ctx resolve) (hw : Wired providers actors s)
    (hctx : ctx.Current s) (hentry : providers.lookup t = some entry)
    (hinv : ∀ n, place = .invocation n → n < s.invocations.length)
    (hpl : ∀ scope, place = .worker scope →
      scope ≠ .transient ∧ Placement providers actors t scope) :
    Kept providers actors s (build providers oracle resolve t entry place s) fun heap =>
      Held heap place t entry := by
  rw [build]
  split
  next hvalue => exact ⟨hw, .refl s, fun _ ha => by cases ha; exact .inl ⟨hvalue, rfl⟩⟩
  next hshape =>
    have hasks : ∀ r ∈ requests [] entry.params,
        Placement providers actors r.1 (r.scope providers) := by
      intro r hr
      obtain ⟨d, o⟩ := r
      cases o with
      | none => exact .inl rfl
      | some scope => exact .inr (.inl ⟨t, entry, hentry, hshape, hr⟩)
    have hsolve := solveDependencies_kept hserv hasks hw hctx
    split
    next heq =>
      rw [heq] at hsolve
      exact hsolve.error _
    next kwargs s' heq =>
      rw [heq] at hsolve
      have hargs := hsolve.result kwargs rfl
      rw [← hat, ← hsolve.grows.ctxAt place] at hargs
      have hcall := callFactory_kept oracle hsolve.wired hentry hshape hargs
        (fun n hn => by rw [hsolve.grows.invocations]; exact hinv n hn) hpl
      exact ⟨hcall.wired, hsolve.grows.trans hcall.grows, hcall.result⟩

lemma Wired.store (h : Wired providers actors s) (hscope : scope ≠ .transient)
    (hentry : providers.lookup t = some entry) (hheld : Held s.heap (.worker scope) t entry obj) :
    Wired providers actors (store oracle scope t entry obj s) := by
  rw [Di.store]
  split
  · exact h
  refine ⟨h.built, h.invocation, h.placed, fun scope' t' obj' hobj => ?_, h.opened⟩
  rw [Dict.lookup_set] at hobj
  split at hobj
  next heq =>
    cases heq
    cases hobj
    exact ⟨hscope, entry, hentry, hheld⟩
  · exact h.cached scope' t' obj' hobj

lemma grows_store (oracle : Nat → Outcome) : Grows s (store oracle scope t entry obj s) := by
  rw [store]
  split
  · exact .refl s
  · exact ⟨⟨[], (append_nil _).symm⟩, rfl, rfl, rfl, rfl⟩

lemma heap_store : (store oracle scope t entry obj s).heap = s.heap := by
  rw [store]
  split <;> rfl

section
variable (h : ctx.source scope t = .container (.worker scope'))
include h

lemma Ctx.source_eq_worker : scope' = scope := by
  cases ctx with
  | worker =>
    cases h
    rfl
  | invocation n slots =>
    cases scope with
    | process | thread =>
      cases h
      rfl
    | transient => cases h
    | loop =>
      rw [source] at h
      split at h
      · cases h
      split at h
      · cases h
      · cases h
        rfl

lemma Ctx.source_ne_transient
    (hhas : ctx.has opened scope = true) (hopened : .transient ∉ opened) : scope ≠ .transient := by
  rintro rfl
  cases ctx with
  | worker => exact hopened (of_decide_eq_true hhas)
  | invocation n slots => cases h

end

lemma Ctx.source_eq_invocation (h : ctx.source scope t = .container (.invocation n)) :
    ∃ slots, ctx = .invocation n slots := by
  cases ctx with
  | worker => cases h
  | invocation m slots =>
    cases scope with
    | process | thread => cases h
    | transient =>
      cases h
      exact ⟨slots, rfl⟩
    | loop =>
      rw [source] at h
      split at h
      · cases h
      split at h
      · cases h
        exact ⟨slots, rfl⟩
      · cases h

lemma getOrCreate_serves (oracle : Nat → Outcome) (depth : Nat) (ctx : Ctx) :
    Serves providers actors ctx (getOrCreate providers oracle depth ctx) := by
  induction depth generalizing ctx with
  | zero => exact fun scope t entry s hw _ _ _ => ⟨hw, .refl s, fun _ ha => by cases ha⟩
  | succ depth ih =>
    intro scope t entry s hw hctx hentry hpl
    rw [getOrCreate]
    split
    next hhas =>
      split
      next n hsrc =>
        refine ⟨hw, .refl s, fun _ ha => ?_⟩
        cases ha
        refine ⟨entry, hentry, ?_⟩
        rw [hsrc]
      next n hsrc =>
        obtain ⟨slots, rfl⟩ := Ctx.source_eq_invocation hsrc
        have hat : s.ctxAt (.invocation n) = .invocation n slots := by
          rw [DiState.ctxAt, hctx]
          rfl
        have hbuild := build_kept oracle (.invocation n) hat (ih _) hw hctx hentry
          (fun m hm => by cases hm; exact (List.getElem?_eq_some_iff.mp hctx).1)
          (fun _ h => by cases h)
        refine ⟨hbuild.wired, hbuild.grows, fun obj hobj => ⟨entry, hentry, ?_⟩⟩
        rw [hsrc]
        exact hbuild.result obj hobj
      next scope' hsrc =>
        obtain rfl := Ctx.source_eq_worker hsrc
        have hscope := Ctx.source_ne_transient hsrc hhas hw.opened
        have hserv : ∀ heap obj, Held heap (.worker scope') t entry obj →
            Served providers heap ctx scope' t obj := by
          intro heap obj hheld
          refine ⟨entry, hentry, ?_⟩
          rw [hsrc]
          exact hheld
        split
        next obj hcache =>
          refine ⟨hw, .refl s, fun _ ha => ?_⟩
          cases ha
          obtain ⟨-, entry', hentry', hheld⟩ := hw.cached _ _ _ hcache
          rw [hentry] at hentry'
          cases hentry'
          exact hserv _ _ hheld
        · have hbuild := build_kept oracle (.worker scope') rfl (ih .worker) hw True.intro hentry
            (fun m hm => by cases hm) (fun _ h => by cases h; exact ⟨hscope, hpl⟩)
          split
          next heq =>
            rw [heq] at hbuild
            exact hbuild.error _
          next obj s' heq =>
            rw [heq] at hbuild
            have hheld := hbuild.result obj rfl
            refine ⟨hbuild.wired.store hscope hentry hheld,
              hbuild.grows.trans (grows_store oracle), fun _ ha => ?_⟩
            cases ha
            rw [heap_store]
            exact hserv _ _ hheld
    · exact ⟨hw, .refl s, fun _ ha => by cases ha⟩

lemma Wired.invoke (h : Wired providers actors s) (slots : Slots) :
    Wired providers actors { s with invocations := s.invocations ++ [slots] } := by
  have hlen : ∀ n, n < s.invocations.length → n < (s.invocations ++ [slots]).length := by
    intro n hn
    rw [length_append]
    exact Nat.lt_add_right _ hn
  refine ⟨fun i inst hi => ?_, fun i inst hi n hn => hlen n (h.invocation i inst hi n hn),
    h.placed, h.cached, h.opened⟩
  obtain ⟨entry, hentry, hshape, hargs⟩ := h.built i inst hi
  refine ⟨entry, hentry, hshape, ?_⟩
  have hat : DiState.ctxAt { s with invocations := s.invocations ++ [slots] } inst.place =
      s.ctxAt inst.place := by
    cases hplace : inst.place with
    | worker => rfl
    | invocation n =>
      rw [DiState.ctxAt, DiState.ctxAt, getElem?_append_left (h.invocation i inst hi n hplace)]
  rw [hat]
  exact hargs

lemma actor_placed {a : Actor} (ha : a ∈ actors) (r : Request)
    (hr : r ∈ requests actorPassthrough a.params) :
    Placement providers actors r.1 (r.scope providers) := by
  obtain ⟨d, o⟩ := r
  cases o with
  | none => exact .inl rfl
  | some scope => exact .inr (.inr ⟨a, ha, hr⟩)

lemma buildActorScope_kept {a : Actor} (hw : Wired providers actors s) (ha : a ∈ actors)
    (h : buildActorScope providers oracle limit a shadow s = (.ok kwargs, s')) :
    ∃ derived, (if shadow = [] then .ok [] else shadowDerivedProviders providers shadow) =
        .ok derived ∧ Wired providers actors s' ∧
      s'.invocations = s.invocations ++ [⟨shadow, derived⟩] ∧
      List.Forall₂ (Answers providers s'.heap (.invocation s.invocations.length ⟨shadow, derived⟩))
        (requests actorPassthrough a.params) (kwargs.map Prod.snd) := by
  rw [buildActorScope] at h
  split at h
  · cases h
  next derived hder =>
    refine ⟨derived, hder, ?_⟩
    have hkept := solveDependencies_kept
      (getOrCreate_serves oracle limit (.invocation s.invocations.length ⟨shadow, derived⟩))
      (actor_placed ha) (hw.invoke ⟨shadow, derived⟩) getElem?_concat_length
    rw [h] at hkept
    exact ⟨hkept.wired, hkept.grows.invocations, hkept.result kwargs rfl⟩

lemma diStep_cases (hw : Wired providers actors s)
    (h : diStep providers oracle limit actors s e = some s') : Wired providers actors s' ∧
      (Within s.heap s'.heap ∧ s'.closed = s.closed ∧ s'.torn = s.torn ∨
        ∃ p, s.closable p ∧ s' = { s with
          closed := p :: s.closed
          torn := teardowns p s.heap ++ s.torn }) := by
  cases e with
  | openScope scope =>
    obtain ⟨hscope, h⟩ := Option.ite_none_right_eq_some.mp h
    cases h
    refine ⟨⟨hw.built, hw.invocation, hw.placed, hw.cached, fun hmem => ?_⟩,
      .inl ⟨fun _ _ hi => hi, rfl, rfl⟩⟩
    rcases mem_cons.mp hmem with heq | hmem
    · exact hscope.1 heq.symm
    · exact hw.opened hmem
  | bootstrap t =>
    obtain ⟨entry, hentry, rfl⟩ := Option.map_eq_some_iff.mp h
    have hserv : Serves providers actors .worker _ := getOrCreate_serves oracle limit .worker
    have hkept := hserv entry.scope t entry s hw True.intro hentry (.inl (scopeOf_eq hentry))
    exact ⟨hkept.wired, .inl ⟨hkept.grows.within, hkept.grows.closed, hkept.grows.torn⟩⟩
  | invoke a shadow =>
    obtain ⟨ha, h⟩ := Option.ite_none_right_eq_some.mp h
    cases h
    rw [buildActorScope]
    split
    · exact ⟨hw, .inl ⟨fun _ _ hi => hi, rfl, rfl⟩⟩
    next derived _ =>
      have hkept := solveDependencies_kept
        (getOrCreate_serves oracle limit (.invocation s.invocations.length ⟨shadow, derived⟩))
        (actor_placed ha) (hw.invoke ⟨shadow, derived⟩) getElem?_concat_length
      exact ⟨hkept.wired, .inl ⟨hkept.grows.within, hkept.grows.closed, hkept.grows.torn⟩⟩
  | close p =>
    obtain ⟨hp, rfl⟩ := Runs.matched h
    exact ⟨⟨hw.built, hw.invocation, hw.placed, hw.cached, hw.opened⟩, .inr ⟨p, hp.1, rfl⟩⟩

lemma wired_empty : Wired providers actors .empty where
  built _ _ h := by cases h
  invocation _ _ h := by cases h
  placed _ _ h := by cases h
  cached _ _ _ h := by cases h
  opened h := by cases h

lemma reach_wired
    (h : Runs.Reach (diStep providers oracle limit actors) (fun _ _ => True) .empty s) :
    Wired providers actors s :=
  h.invariant wired_empty fun _ _ _ hw _ hs => (diStep_cases hw hs).1

end TaskQ.Di
