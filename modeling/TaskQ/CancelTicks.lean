import TaskQ.ActiveJobs
import TaskQ.Jobs

namespace TaskQ.Cancel
open ActiveJobs Runs List Function ActiveJobRegistry

/-- `CancelPhase`, of which the column holds the first three. -/
inductive LocalPhase where
  | none | cooperative | forced | abandonPending
  deriving DecidableEq

/-- `_ActiveJob` and its task; ghosts: its claim's row was polled, a verdict is owed, the cancels.
-/
structure Entry where
  phase : LocalPhase := .none
  observedAt : Option Int := none
  cancelling : Nat := 0
  done : Bool := false
  polled : Bool := false
  owed : Bool := false
  delivered : Nat := 0
  deriving DecidableEq

/-- A row of the poll; `claim` is the claim it is of, which the controller does not read. -/
structure PolledRow where
  id : JobId
  phase : Jobs.CancelPhase
  claim : ClaimId

structure Graces where
  (cancel cleanup : Int)

/-- The controller and its registry; `run_in_tx` has the walks left, `run_post_tx` has `drained`. -/
structure Controller where
  registry : ActiveJobRegistry := {}
  entry : ClaimId → Entry := fun _ => {}
  rows : List PolledRow := []
  walk : List ClaimId := []
  unheldObservedAt : List (JobId × Int) := []
  unheldWalk : List JobId := []
  unheldNow : Int := 0
  pendingAbandons : List (JobId × Option ClaimId) := []
  drained : Option (JobId × Option ClaimId) := none

/-- `tag` is what an escalation answers, `reply` what a write and the read after a refusal do. -/
inductive Event where
  | call (c : ClaimId) (call : Call)
  | finish (c : ClaimId)
  | poll (rows : List PolledRow)
  | visit (now : Int) (tag : Option Bool)
  | unheld (now : Int)
  | visitUnheld (tag : Option Bool)
  | endTx
  | pop
  | verdict (reply : Option (Bool × Option JobStatus))

variable (job : ClaimId → JobId) (g : Graces)

namespace Controller
variable (s : Controller)

def get (j : JobId) : Option ClaimId := s.registry.byId.lookup j

def dbPhase (j : JobId) : Jobs.CancelPhase :=
  ((s.rows.find? (·.id = j)).map PolledRow.phase).getD .none

def setEntry (c : ClaimId) (e : Entry) : Controller :=
  { s with entry := Function.update s.entry c e }

def called (c : ClaimId) : Call → ActiveJobRegistry
  | .markEnqueued => s.registry.markEnqueued (job c)
  | .markClaimed => s.registry.markClaimed (job c) c
  | .resolveClaim => s.registry.resolveClaim (job c) c
  | .register => s.registry.register (job c) c
  | .deregister => s.registry.deregister (job c) c

def queueAbandon (c : ClaimId) (e : Entry) : Controller :=
  { s.setEntry c { e with phase := .abandonPending, owed := true } with
    pendingAbandons := s.pendingAbandons ++ [(job c, some c)] }

end Controller

/-- Phase 1: the first observation of the row's request; `own` says the row is of the claim. -/
def Entry.observe (e : Entry) (db : Jobs.CancelPhase) (now : Int) (own : Bool) : Entry :=
  let e := { e with polled := e.polled || own }
  if db ≠ .none ∧ e.phase = .none then { e with phase := .cooperative, observedAt := some now }
  else e

def Entry.past (e : Entry) (now grace : Int) : Bool := e.observedAt.any fun t => grace ≤ now - t

def Entry.deliver (e : Entry) : Entry :=
  if !e.done && e.cancelling = 0 then
    { e with cancelling := e.cancelling + 1, delivered := e.delivered + 1 }
  else e

namespace Controller
variable (s : Controller)

def visited (c : ClaimId) (db : Jobs.CancelPhase) (e : Entry) (now : Int) (one : Bool) :
    Controller :=
  if db = .forced ∧ (e.phase = .none ∨ e.phase = .cooperative) then
    s.setEntry c { e with phase := .forced }
  else if (e.phase = .cooperative ∨ (e.phase = .forced ∨ e.phase = .abandonPending) ∧
      db = .cooperative) ∧ e.past now g.cancel then
    if !one then s.setEntry c e
    else if e.past now (g.cancel + g.cleanup) then s.queueAbandon job c e
    else s.setEntry c { e with phase := .forced, cancelling := e.cancelling + 1 }
  -- phase 3 asks for a row at FORCED, which phase 2 excludes
  else if e.phase = .forced ∧ db = .forced ∧ e.past now (g.cancel + g.cleanup) then
    s.queueAbandon job c e
  else s.setEntry c e

def endTx : Controller := { s with rows := [], walk := [], unheldWalk := [] }

def unheldObserved (id : JobId) : Int := (s.unheldObservedAt.lookup id).getD s.unheldNow

def stampUnheld (id : JobId) : Controller :=
  { s with unheldObservedAt := Dict.set id (s.unheldObserved id) s.unheldObservedAt }

def visitedUnheld (id : JobId) : Controller :=
  if s.dbPhase id = .forced ∧ g.cancel + g.cleanup ≤ s.unheldNow - s.unheldObserved id then
    { s with
      unheldObservedAt := Dict.erase id s.unheldObservedAt
      pendingAbandons := s.pendingAbandons ++ [(id, none)] }
  else s.stampUnheld id

def deliverAbandon (j : JobId) (queued : Option ClaimId) : Controller :=
  match queued.or (s.get j) with
  | none => s
  | some c => { s.setEntry c (s.entry c).deliver with registry := s.registry.deregister j c }

def settle (queued : Option ClaimId) : Controller :=
  { s with entry := fun c =>
      if queued = some c then { s.entry c with owed := false } else s.entry c }

/-- The write did not apply and the row is not at a verdict: any entry of the id goes back
to FORCED. -/
def refused (j : JobId) : Controller :=
  match s.get j with
  | none => s
  | some c => s.setEntry c { s.entry c with phase := .forced }

end Controller

def landed (r : Bool × Option JobStatus) : Bool :=
  r.1 || r.2 = some .abandoned || r.2 = some .cancelled

def Controller.step (s : Controller) : Event → Option Controller
  -- the entry a claim registers is a new one
  | .call c call =>
    if call = .register → (s.entry c).phase = .none then
      some { s with registry := s.called job c call } else none
  | .finish c => some (s.setEntry c { s.entry c with done := true })
  | .poll rows =>
    if s.drained = none ∧ s.walk = [] ∧ s.unheldWalk = [] then
      some { s with rows, walk := s.registry.byId.map Prod.snd } else none
  | .visit now tag =>
    match s.walk with
    | [] => none
    | c :: l =>
      let db := s.dbPhase (job c)
      let e := (s.entry c).observe db now (s.rows.any fun r => r.id = job c && r.claim = c)
      match tag with
      | none => some (s.setEntry c e).endTx
      | some one => some { s.visited job g c db e now one with walk := l }
  | .unheld now =>
    if s.walk = [] then
      let owned := s.registry.heldIds ++ s.registry.queuedIds
      let unheld := (s.rows.map PolledRow.id).filter (· ∉ owned)
      some { s with
        unheldObservedAt := s.unheldObservedAt.filter (·.1 ∈ unheld), unheldWalk := unheld
        unheldNow := now }
    else none
  | .visitUnheld tag =>
    match s.unheldWalk, tag with
    | [], _ => none
    | id :: _, none => some (s.stampUnheld id).endTx
    | id :: l, some _ => some { s.visitedUnheld g id with unheldWalk := l }
  | .endTx => some s.endTx
  | .pop =>
    match s.pendingAbandons with
    | [] => none
    | x :: l =>
      if s.drained = none ∧ s.walk = [] ∧ s.unheldWalk = [] then
        some { s with pendingAbandons := l, drained := some x }
      else none
  | .verdict reply =>
    match s.drained, reply with
    | none, _ => none
    | some x, none => some { s with drained := none, pendingAbandons := x :: s.pendingAbandons }
    | some x, some r =>
      let s := { s with drained := none }
      some ((if landed r then s.deliverAbandon x.1 x.2 else s.refused x.1).settle x.2)

def Controller.queue (s : Controller) : List (JobId × Option ClaimId) :=
  s.drained.toList ++ s.pendingAbandons

variable (own : Prop) (q : List (JobId × Option ClaimId)) (get : JobId → Option ClaimId)

structure Fine (c : ClaimId) (e : Entry) : Prop where
  owed : e.owed = true → (job c, some c) ∈ q
  pending : get (job c) = some c → e.phase = .abandonPending → e.owed = true
  once : e.delivered ≤ 1 ∧ (e.cancelling = 0 → e.delivered = 0)
  earned : own → e.phase ≠ .none → e.polled = true ∧ e.observedAt.isSome = true

structure Sound (entry : ClaimId → Entry) : Prop where
  queued : ∀ x ∈ q, ∀ c, x.2 = some c → job c = x.1 ∧ (entry c).phase ≠ .none
  fine : ∀ c, Fine job own q get c (entry c)

abbrev Controller.Sound (s : Controller) : Prop := Cancel.Sound job own s.queue s.get s.entry

/-- The row matched by its id is one of the entry's claim, and a refused verdict finds no entry
but the queued one. -/
def OwnEntries (s : Controller) : Event → Prop
  | .visit _ _ => ∀ c ∈ s.walk.head?, ∀ r ∈ s.rows, r.id = job c → r.claim = c
  | .verdict (some r) => landed r = false → ∀ x ∈ s.drained, ∀ c ∈ s.get x.1, x.2 = some c
  | _ => True

variable {job g own q get} {s s' : Controller} {e : Entry} {get' : JobId → Option ClaimId}
  {entry entry' : ClaimId → Entry}

section
variable (hs : Sound job own q get entry)
include hs

lemma Sound.update (h : Fine job own q get c e)
    (hphase : e.phase = .none → (entry c).phase = .none) :
    Sound job own q get (Function.update entry c e) := by
  constructor
  · intro x hx d hd
    obtain ⟨hj, hp⟩ := hs.queued x hx d hd
    by_cases hdc : d = c
    · subst hdc
      exact ⟨hj, by rw [update_self]; exact fun hn => hp (hphase hn)⟩
    · exact ⟨hj, by rwa [update_of_ne hdc]⟩
  · intro d
    by_cases hdc : d = c
    · subst hdc
      rwa [update_self]
    · rw [update_of_ne hdc]
      exact hs.fine d

lemma Sound.relook (h : ∀ c, get' (job c) = some c →
    get (job c) = some c ∨ (entry c).phase = .none) : Sound job own q get' entry := by
  refine ⟨hs.queued, fun c => { hs.fine c with pending := fun hc hp => ?_ }⟩
  refine (hs.fine c).pending ((h c hc).resolve_right fun hn => ?_) hp
  cases hn.symm.trans hp

lemma Sound.append (hx : ∀ c, x.2 = some c → job c = x.1 ∧ (entry c).phase ≠ .none) :
    Sound job own (q ++ [x]) get entry := by
  refine ⟨fun y hy => ?_, fun c =>
    { hs.fine c with owed := fun h => mem_append_left _ ((hs.fine c).owed h) }⟩
  rcases mem_append.mp hy with hy | hy
  · exact hs.queued y hy
  · exact mem_singleton.mp hy ▸ hx

end

lemma Sound.queueAbandon (hs : s.Sound job own) (h : Fine job own s.queue s.get c e)
    (hphase : e.phase ≠ .none) : (s.queueAbandon job c e).Sound job own := by
  have hmem : (job c, some c) ∈ s.queue ++ [(job c, some c)] :=
    mem_append_right _ (mem_singleton_self _)
  have happ := (hs.update h fun hn => absurd hn hphase).append (x := (job c, some c))
    fun d hd => by cases hd; exact ⟨rfl, by rwa [update_self]⟩
  have hset := happ.update (c := c) (e := { e with phase := .abandonPending, owed := true })
    ⟨fun _ => hmem, fun _ _ => rfl, h.once, fun ho _ => h.earned ho hphase⟩ nofun
  rw [update_idem] at hset
  rw [Controller.Sound, Controller.queue, Controller.queueAbandon, ← append_assoc]
  exact hset

lemma Sound.visited (hs : s.Sound job own) (h : Fine job own s.queue s.get c e)
    (hphase : e.phase = .none → (s.entry c).phase = .none ∧ db ≠ .forced) :
    (s.visited job g c db e now one).Sound job own := by
  have hset := hs.update h fun hn => (hphase hn).1
  unfold Controller.visited
  split
  next hfast =>
    refine hs.update ⟨h.owed, nofun, h.once, fun ho _ => h.earned ho fun hn => ?_⟩ nofun
    exact (hphase hn).2 hfast.1
  · split
    next hdue =>
      have hne : e.phase ≠ .none := by
        rcases hdue.1 with hp | ⟨hp | hp, -⟩ <;> simp [hp]
      split
      · exact hset
      split
      · exact hs.queueAbandon h hne
      · exact hs.update ⟨h.owed, nofun, ⟨h.once.1, nofun⟩, fun ho _ => h.earned ho hne⟩ nofun
    · split
      next hforce => exact hs.queueAbandon h (by simp [hforce.1])
      · exact hset

lemma queue_of_drained (h : s.drained = some x) : s.queue = x :: s.pendingAbandons := by
  rw [Controller.queue, h, Option.toList_some, singleton_append]

lemma Sound.visitedUnheld (hs : s.Sound job own) : (s.visitedUnheld g j).Sound job own := by
  unfold Controller.visitedUnheld
  split
  · have happ := hs.append (x := (j, none)) nofun
    rwa [Controller.queue, append_assoc] at happ
  · exact hs

lemma dbPhase_ne_none (h : s.dbPhase j ≠ .none) : ∃ r ∈ s.rows, r.id = j := by
  unfold Controller.dbPhase at h
  cases hf : s.rows.find? (·.id = j) with
  | none => simp [hf] at h
  | some r => exact ⟨r, mem_of_find?_eq_some hf, by simpa using find?_some hf⟩

lemma Sound.observe (hs : s.Sound job own) (now : Int)
    (hown : own → ∀ r ∈ s.rows, r.id = job c → r.claim = c) :
    let e := (s.entry c).observe (s.dbPhase (job c)) now
      (s.rows.any fun r => r.id = job c && r.claim = c)
    Fine job own s.queue s.get c e ∧
      (e.phase = .none → (s.entry c).phase = .none ∧ s.dbPhase (job c) ≠ .forced) := by
  have hfine := hs.fine c
  dsimp only [Entry.observe]
  split
  next hdb =>
    refine ⟨⟨hfine.owed, nofun, hfine.once, fun ho _ => ⟨?_, rfl⟩⟩, nofun⟩
    obtain ⟨r, hr, hid⟩ := dbPhase_ne_none hdb.1
    have hany : (s.rows.any fun r => r.id = job c && r.claim = c) = true :=
      any_eq_true.mpr ⟨r, hr, by simp [hid, hown ho r hr hid]⟩
    simp [hany]
  next hdb =>
    refine ⟨{ hfine with earned := fun ho hp => ?_ }, fun hn => ⟨hn, fun hf => ?_⟩⟩
    · obtain ⟨hpolled, hat⟩ := hfine.earned ho hp
      exact ⟨by simp [hpolled], hat⟩
    · exact hdb ⟨by simp [hf], hn⟩

lemma lookup_deregister {r : ActiveJobRegistry} (h : (r.deregister j c).byId.lookup i = some d) :
    r.byId.lookup i = some d ∧ (i = j → d ≠ c) := by
  unfold deregister at h
  split at h
  · rw [Dict.lookup_erase] at h
    split at h
    · cases h
    next hi => exact ⟨h, fun hij => absurd hij hi⟩
  next hn =>
    refine ⟨h, ?_⟩
    rintro rfl rfl
    exact hn h

lemma Sound.call {call : Call} (hs : s.Sound job own)
    (hnew : call = .register → (s.entry c).phase = .none) :
    ({ s with registry := s.called job c call } : Controller).Sound job own := by
  cases call with
  | markEnqueued => exact hs
  | markClaimed => exact hs
  | resolveClaim =>
    refine hs.relook fun d hd => .inl ?_
    simp only [Controller.get, Controller.called, resolveClaim] at hd
    split at hd <;> exact hd
  | register =>
    refine hs.relook fun d hd => ?_
    rw [Controller.get, Controller.called, register, Dict.lookup_set] at hd
    split at hd
    · cases hd
      exact .inr (hnew rfl)
    · exact .inl hd
  | deregister => exact hs.relook fun d hd => .inl (lookup_deregister hd).1

lemma Sound.settle (hs : Sound job own (x :: q) get entry)
    (h : ∀ c, x.2 = some c → get (job c) = some c → (entry c).phase ≠ .abandonPending) :
    Sound job own q get fun c =>
      if x.2 = some c then { entry c with owed := false } else entry c := by
  constructor
  · intro y hy c hc
    obtain ⟨hj, hp⟩ := hs.queued y (mem_cons_of_mem _ hy) c hc
    exact ⟨hj, by split <;> exact hp⟩
  · intro c
    have hfine := hs.fine c
    split
    next hx =>
      exact ⟨Bool.noConfusion, fun hc hp => absurd hp (h c hx hc), hfine.once, hfine.earned⟩
    next hx =>
      refine { hfine with owed := fun ho => ?_ }
      exact (mem_cons.mp (hfine.owed ho)).resolve_left fun hxc => hx (hxc ▸ rfl)

lemma Sound.deliver (hs : Sound job own (x :: s.queue) s.get s.entry) :
    ((s.deliverAbandon x.1 x.2).settle x.2).Sound job own := by
  unfold Controller.deliverAbandon
  split
  next hn =>
    have hx : x.2 = none := (Option.or_eq_none_iff.mp hn).1
    exact hs.settle fun c hc => by cases hx.symm.trans hc
  next c hc =>
    have hfine : Fine job own (x :: s.queue) s.get c (s.entry c).deliver := by
      unfold Entry.deliver
      split
      next hfirst =>
        obtain ⟨-, hzero⟩ := (Bool.and_eq_true _ _).mp hfirst
        refine { hs.fine c with once := ⟨?_, nofun⟩ }
        exact Nat.succ_le_succ ((hs.fine c).once.2 (of_decide_eq_true hzero)).le
      · exact hs.fine c
    have hphase : (s.entry c).deliver.phase = (s.entry c).phase := by
      unfold Entry.deliver
      split <;> rfl
    refine Sound.settle ((hs.update hfine fun hn => hphase ▸ hn).relook fun d hget =>
      .inl (lookup_deregister hget).1) fun d hd hget => ?_
    rw [hd, Option.some_or] at hc
    cases hc
    exact absurd rfl ((lookup_deregister hget).2 (hs.queued x mem_cons_self _ hd).1)

lemma Sound.refuse (hs : Sound job own (x :: s.queue) s.get s.entry)
    (hown : own → ∀ c ∈ s.get x.1, x.2 = some c) : ((s.refused x.1).settle x.2).Sound job own := by
  unfold Controller.refused
  split
  next hn =>
    refine hs.settle fun c hc hget => ?_
    rw [(hs.queued x mem_cons_self c hc).1, hn] at hget
    cases hget
  next d hd =>
    refine (hs.update (e := { s.entry d with phase := .forced }) ⟨(hs.fine d).owed, nofun,
      (hs.fine d).once, fun ho _ => ?_⟩ nofun).settle fun c hc hget => ?_
    · exact (hs.fine d).earned ho (hs.queued x mem_cons_self d (hown ho d hd)).2
    rw [(hs.queued x mem_cons_self c hc).1] at hget
    cases hget.symm.trans hd
    rw [update_self]
    exact LocalPhase.noConfusion

lemma sound_step (hs : s.Sound job own) (hok : own → OwnEntries job s a)
    (h : s.step job g a = some s') : s'.Sound job own := by
  cases a with
  | call c call =>
    obtain ⟨hnew, rfl⟩ := matched h
    exact hs.call hnew
  | finish c =>
    cases h
    exact hs.update { hs.fine c with } id
  | poll rows =>
    obtain ⟨-, rfl⟩ := matched h
    exact hs
  | visit now tag =>
    simp only [Controller.step] at h
    split at h
    · cases h
    next c l hwalk =>
      obtain ⟨hfine, hphase⟩ := hs.observe now fun ho => hok ho c (by simp [hwalk])
      cases tag with
      | none =>
        cases h
        exact hs.update hfine fun hn => (hphase hn).1
      | some one =>
        cases h
        exact hs.visited hfine hphase
  | unheld now =>
    obtain ⟨-, rfl⟩ := matched h
    exact hs
  | visitUnheld tag =>
    simp only [Controller.step] at h
    split at h
    · cases h
    · cases h
      exact hs
    · cases h
      exact hs.visitedUnheld
  | endTx =>
    cases h
    exact hs
  | pop =>
    simp only [Controller.step] at h
    split at h
    · cases h
    next x l hq =>
      obtain ⟨hg, rfl⟩ := matched h
      rwa [Controller.Sound, Controller.queue, hg.1, hq] at hs
  | verdict reply =>
    simp only [Controller.step] at h
    split at h
    · cases h
    next x hx =>
      cases h
      exact queue_of_drained hx ▸ hs
    next x r hx =>
      cases h
      rw [Controller.Sound, queue_of_drained hx] at hs
      split
      · exact Sound.deliver hs
      next hr => exact Sound.refuse hs fun ho => hok ho (Bool.eq_false_iff.mpr hr) x hx

lemma reach_sound (own : Prop) (h : Reach (Controller.step job g) ok {} s)
    (hok : ∀ s a, own → ok s a → OwnEntries job s a) : s.Sound job own := by
  refine h.invariant ⟨nofun, fun c => ⟨Bool.noConfusion, nofun, ⟨Nat.zero_le _, fun _ => rfl⟩, ?_⟩⟩
    fun s a s' hs ha => sound_step hs fun ho => hok s a ho ha
  exact fun _ hn => absurd rfl hn

/-- In every run whose ticks meet their own entries, a row of the entry's claim earned its phase. -/
theorem local_phase_earned (h : Reach (Controller.step job g) (OwnEntries job) {} s)
    (hc : (s.entry c).phase ≠ .none) :
    (s.entry c).polled = true ∧ (s.entry c).observedAt.isSome = true :=
  ((reach_sound True h fun _ _ _ ha => ha).fine c).earned trivial hc

instance (s : Controller) : (a : Event) → Decidable (OwnEntries job s a)
  | .visit _ _ => inferInstanceAs (Decidable (∀ c ∈ s.walk.head?, _))
  | .verdict (some r) => inferInstanceAs (Decidable (landed r = false → _))
  | .verdict none | .call _ _ | .finish _ | .poll _ | .unheld _ | .visitUnheld _ | .endTx | .pop =>
    isTrue trivial

def graces : Graces := ⟨1, 1⟩

def ignored : List Event :=
  [.call 1 .register, .poll [⟨7, .cooperative, 1⟩], .visit 0 (some true), .endTx,
    .poll [⟨7, .cooperative, 1⟩], .visit 5 (some true), .endTx]

theorem local_phase_earned_ignored :
    ((final (Controller.step (fun _ => 7) graces) {} ignored).entry 1).polled = true ∧
      ((final (Controller.step (fun _ => 7) graces) {} ignored).entry 1).observedAt.isSome =
        true :=
  local_phase_earned (.of_decide (by decide) (by decide)) (by decide)

/-- The refused verdict of claim 1 stamps the entry that claim 2 has registered since. -/
theorem verdict_stamps_later_claim : (exec (Controller.step (fun _ => 7) graces) {} (ignored ++
      [.call 1 .deregister, .call 2 .register, .pop, .verdict (some (false, some .running))])).map
        (·.entry 2) = some { phase := .forced } := by
  decide

/-- In every run an entry owed a verdict is queued or in hand, and a landed verdict has its task
cancelled and removes this registration only. -/
theorem abandon_drain_keeps (h : Reach (Controller.step job g) (fun _ _ => True) {} s) :
    (∀ c, (s.entry c).owed = true → (job c, some c) ∈ s.queue) ∧
    (∀ c, s.get (job c) = some c → (s.entry c).phase = .abandonPending →
      (job c, some c) ∈ s.queue) ∧ (∀ c, (s.entry c).delivered ≤ 1) ∧
    ∀ c j r s', s.drained = some (j, some c) → landed r = true →
      s.step job g (.verdict (some r)) = some s' →
        ((s'.entry c).done = true ∨ 1 ≤ (s'.entry c).cancelling) ∧
        (∀ d, d ≠ c → s'.entry d = s.entry d) ∧
        ∀ i, s'.get i = if i = j ∧ s.get j = some c then none else s.get i := by
  have hs := reach_sound False h fun _ _ ho => ho.elim
  refine ⟨fun c => (hs.fine c).owed, fun c hc hp => (hs.fine c).owed ((hs.fine c).pending hc hp),
    fun c => (hs.fine c).once.1, ?_⟩
  intro c j r s' hx hr hstep
  simp only [Controller.step, hx, hr, if_true, Controller.deliverAbandon, Option.some_or,
    Option.some.injEq] at hstep
  subst hstep
  refine ⟨?_, fun d hd => ?_, fun i => ?_⟩
  · simp only [Controller.settle, Controller.setEntry, update_self, if_true, Entry.deliver]
    split
    · exact .inr (Nat.le_add_left _ _)
    next hn =>
      by_cases hdone : (s.entry c).done = true
      · exact .inl hdone
      · exact .inr (Nat.one_le_iff_ne_zero.mpr fun h0 => hn (by simp [hdone, h0]))
  · simp [Controller.settle, Controller.setEntry, hd, hd.symm]
  · simp only [Controller.settle, Controller.get, Controller.setEntry, deregister]
    split
    next hj => simp [Dict.lookup_erase, hj]
    next hj => simp [hj]

theorem abandon_drain_keeps_ignored :
    (7, some 1) ∈ (final (Controller.step (fun _ => 7) graces) {} ignored).queue :=
  (abandon_drain_keeps (.of_final (by decide))).1 1 (by decide)

end TaskQ.Cancel
