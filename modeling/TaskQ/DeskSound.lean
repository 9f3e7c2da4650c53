import TaskQ.Desk

namespace TaskQ
open RowLocks List Option

variable {b : Board}

lemma held_of_mem_batch {q : SignalRow → Bool} {le : HoldId → HoldId → Prop}
    [DecidableRel le] (hq : ∀ r, q r = true → r.status = .held)
    (h : k ∈ ((b.holds.filter fun h => !b.locked h && (b.signals h).any q).insertionSort
      le).take batch) : ∃ r, b.signals k = some r ∧ r.status = .held := by
  have hm := mem_of_mem_take h
  simp only [mem_insertionSort, mem_filter, Bool.and_eq_true, Option.any_eq_true] at hm
  obtain ⟨-, -, r, hr, hs⟩ := hm
  exact ⟨r, hr, hq r hs⟩

def DeskSession.delivers : DeskSession → Option HoldId
  | .sweep _ _ (.deliver _ ((h, _) :: _)) => some h
  | _ => none

def Board.Resolves (b : Board) (w : HoldId → Option SignalRow) : Prop :=
  ∀ k r, w k = some r → r.status ≠ .held ∧ ∃ r0, b.signals k = some r0 ∧ r0.status = .held

lemma Resolution.Guarded.resolves {f : Resolution} (hf : f.Guarded) :
    b.Resolves (b.resolving f) := by
  intro k r hr
  obtain ⟨r0, hr0, hr⟩ := bind_eq_some_iff.mp hr
  obtain ⟨hheld, hleft, -⟩ := hf _ _ _ hr
  exact ⟨hleft, r0, hr0, hheld⟩

lemma resolves_batch {due : List HoldId} {g : SignalRow → SignalRow}
    (hg : ∀ r, (g r).status ≠ .held)
    (hdue : ∀ k ∈ due, ∃ r, b.signals k = some r ∧ r.status = .held) :
    b.Resolves (b.resolving fun h r => if h ∈ due then some (g r) else none) := by
  intro k r hr
  obtain ⟨r0, hr0, hr⟩ := bind_eq_some_iff.mp hr
  obtain ⟨hm, rfl⟩ := Runs.matched hr
  obtain ⟨r1, hr1, hs⟩ := hdue k hm
  cases hr0.symm.trans hr1
  exact ⟨hg r0, r0, hr0, hs⟩

inductive HandReads (b : Board) (c : HandCall) : HandPc → HandPc → Prop where
  | boundary : HandReads b c .childJoin .boundary
  | cas : HandReads b c .boundary (.cas none)
  | select : HandReads b c .boundary .select
  | lockNode : HandReads b c .select (.lockNode nodeKey flow)
  | lost : res ≠ .delivered → HandReads b c pc (.finish res)
  | node : k ∈ heldNodeByHold b.db nodeKey flow c.hold →
      HandReads b c (.lookup nodeKey flow) (.resume k)

inductive CasWon : Option JobId → HandPc → Prop where
  | refused : CasWon node (.finish .refused)
  | lookup : CasWon node (.lookup nodeKey flow)
  | resume : CasWon (some k) (.resume k)

inductive DeskRuns (env : DeskEnv) (b : Board) : DeskSession → DeskEffect → Prop where
  | refused : DeskRuns env b (.hand c pc) { next := none }
  | read : HandReads b c pc pc' → DeskRuns env b (.hand c pc) { next := some (.hand c pc') }
  | lockNode : (∀ k, node = some k → k ∈ heldNodeByHold b.db nodeKey flow c.hold) →
      DeskRuns env b (.hand c (.lockNode nodeKey flow))
        { jobs := fun k => if some k = node then b.db.jobs k else none
          next := some (.hand c (.cas node)) }
  | cas : b.Resolves w → (w c.hold).isSome = true → CasWon node pc' →
      DeskRuns env b (.hand c (.cas node)) { signals := w, next := some (.hand c pc') }
  | resume : w = deliverResume b.db env.now node →
      DeskRuns env b (.hand c (.resume node))
        { jobs := w
          next := some (.hand c (.finish (if (w node).isSome then .delivered else .refused))) }
  | finish : DeskRuns env b (.hand c (.finish res))
      { commits := true, report := if res = .delivered then some c.hold else none, next := none }
  | cancel : DeskRuns env b (.cancel flow reason .jobs)
      { jobs := cancelOneRun b.db flow reason, next := some (.cancel flow reason .signals) }
  | signals : b.Resolves w → DeskRuns env b (.cancel flow reason .signals)
      { signals := w, next := some (.cancel flow reason .commit) }
  | ended : DeskRuns env b (.cancel flow reason pc) { commits := true, next := none }
  | fetched : b.Resolves w → DeskRuns env b (.sweep kind batch (.fetch n))
      { signals := w
        commits := true, next := some (.sweep kind batch (.lookup (n + 1) full (returned due w))) }
  | verdicts : DeskRuns env b (.sweep kind batch (.fetch n))
      { next := some (.sweep kind batch (.deliver [] vs)) }
  | deliver : w = b.resolving (childWakeDeliver env.now h v) →
      DeskRuns env b (.sweep kind batch (.deliver done ((h, v) :: todo)))
        { signals := w
          next := some (.sweep kind batch (.deliver (done ++ returned [h] w) todo)) }
  | delivered : DeskRuns env b (.sweep kind batch (.deliver done []))
      { commits := true, next := some (.sweep kind batch (.lookup 1 false done)) }
  | node : k ∈ kind.nodes b.db h r →
      DeskRuns env b (.sweep kind batch (.lookup n full ((h, r) :: rows)))
        { next := some (.sweep kind batch (.resume n full k h rows)) }
  | passed : DeskRuns env b (.sweep kind batch (.lookup n full (p :: rows)))
      { next := some (.sweep kind batch (.lookup n full rows)) }
  | again : DeskRuns env b (.sweep kind batch (.lookup n full []))
      { next := if kind.again n full then some (.sweep kind batch (.fetch n)) else none }
  | wake : DeskRuns env b (.sweep kind batch (.resume n full node hold rows))
      { jobs := deliverResume b.db env.now node
        commits := true, next := some (.sweep kind batch (.lookup n full rows)) }

lemma staleStatus_ne_delivered (r : Option SignalRow) : staleStatus r ≠ .delivered := by
  unfold staleStatus
  split <;> nofun

lemma execDesk_runs : DeskRuns env b x (execDesk env b x) := by
  cases x with
  | hand c pc =>
    cases pc with
    | childJoin =>
      simp only [execDesk, execHand]
      split
      · exact .refused
      · exact .read .boundary
    | boundary =>
      simp only [execDesk, execHand]
      split
      · exact .refused
      split
      · exact .read .cas
      · exact .read .select
    | select =>
      simp only [execDesk, execHand]
      split
      · split
        · exact .read .lockNode
        · exact .read (.lost (staleStatus_ne_delivered _))
      · exact .read (.lost nofun)
    | lockNode nodeKey flow => exact .lockNode fun k hk => mem_of_getElem? hk
    | cas node =>
      simp only [execDesk, execHand]
      split
      next r hr =>
        refine .cas ?_ (isSome_iff_exists.mpr ⟨r, hr⟩) ?_
        · cases c.workflow <;> exact guarded_signalCas.resolves
        split
        · exact .refused
        split
        · exact .lookup
        split
        · exact .resume
        · exact .refused
      · exact .read (.lost (staleStatus_ne_delivered _))
    | lookup nodeKey flow =>
      simp only [execDesk, execHand]
      split
      next k hk => exact .read (.node (mem_of_getElem? hk))
      · exact .read (.lost nofun)
    | resume node => exact .resume rfl
    | finish res => exact .finish
  | cancel flow reason pc =>
    cases pc with
    | jobs =>
      simp only [execDesk, execCancel]
      split
      · exact .ended
      · exact .cancel
    | signals => exact .signals guarded_cancelRunSignals.resolves
    | commit => exact .ended
  | sweep kind batch pc =>
    cases pc with
    | fetch n =>
      cases kind with
      | expired | dueTimers =>
        exact .fetched (resolves_batch (fun _ => nofun)
          fun k hk => held_of_mem_batch (by simp +contextual) hk)
      | childJoins => exact .verdicts
    | deliver done todo =>
      cases todo with
      | nil => exact .delivered
      | cons p todo => exact .deliver rfl
    | lookup n full rows =>
      cases rows with
      | nil => exact .again
      | cons p rows =>
        simp only [execDesk, execSignalSweep]
        split
        next k hk => exact .node (mem_of_getElem? hk)
        · exact .passed
    | resume => exact .wake

section
variable (hrun : DeskRuns env b x e)
include hrun

lemma DeskRuns.signals_held (h : e.signals k = some r) :
    r.status ≠ .held ∧ ∃ r0, b.signals k = some r0 ∧ (r0.status = .held ∨ x.delivers = some k) := by
  cases hrun with
  | cas hw | signals hw | fetched hw =>
    obtain ⟨hleft, r0, hr0, hheld⟩ := hw k r h
    exact ⟨hleft, r0, hr0, .inl hheld⟩
  | deliver hw =>
    subst hw
    obtain ⟨r0, hr0, hr⟩ := bind_eq_some_iff.mp h
    obtain ⟨rfl, rfl⟩ := Runs.matched hr
    exact ⟨nofun, r0, hr0, .inr rfl⟩
  | _ => cases h

end

def HandPc.won : HandPc → Bool
  | .lookup _ _ | .resume _ | .finish .delivered => true
  | _ => false

def DeskSession.locks : DeskSession → List HoldId
  | .hand c pc => if pc.won then [c.hold] else []
  | .sweep _ _ (.deliver done _) => done.map Prod.fst
  | _ => []

def DeskSession.owed : DeskSession → List HoldId
  | .sweep _ _ (.lookup _ _ rows) => rows.map Prod.fst
  | .sweep _ _ (.resume _ _ _ hold rows) => hold :: rows.map Prod.fst
  | _ => []

lemma mem_returned (h : k ∈ (returned holds w).map Prod.fst) : (w k).isSome = true := by
  obtain ⟨⟨_, r⟩, hm, rfl⟩ := mem_map.mp h
  obtain ⟨h', -, hr⟩ := mem_filterMap.mp hm
  obtain ⟨r', hr', he⟩ := map_eq_some_iff.mp hr
  obtain ⟨rfl, rfl⟩ := Prod.mk.inj he
  exact isSome_iff_exists.mpr ⟨r', hr'⟩

section
variable (hrun : DeskRuns env b x e)
include hrun

lemma DeskRuns.reports (h : e.report = some k) : k ∈ x.locks ∧ e.commits = true := by
  cases hrun with
  | finish =>
    obtain ⟨rfl, rfl⟩ := Runs.matched h
    exact ⟨mem_singleton_self _, rfl⟩
  | _ => cases h

lemma DeskRuns.locks (h : e.next = some y) (hk : k ∈ y.locks) :
    e.commits = false ∧ ((e.signals k).isSome = true ∨ k ∈ x.locks) := by
  have hand : ∀ {c pc}, k ∈ (DeskSession.hand c pc).locks → pc.won = true ∧ k = c.hold := by
    intro c pc hk
    simpa only [DeskSession.locks, mem_ite_nil_right, mem_singleton] using hk
  cases hrun with
  | read hread =>
    cases h
    obtain ⟨hwon, rfl⟩ := hand hk
    cases hread with
    | node => exact ⟨rfl, .inr (mem_singleton_self _)⟩
    | @lost res _ hres => cases res <;> first | exact absurd rfl hres | cases hwon
    | _ => cases hwon
  | lockNode | signals | verdicts | delivered | fetched | node | passed | wake =>
    cases h
    cases hk
  | cas _ hw =>
    cases h
    obtain ⟨-, rfl⟩ := hand hk
    exact ⟨rfl, .inl hw⟩
  | resume =>
    cases h
    obtain ⟨-, rfl⟩ := hand hk
    exact ⟨rfl, .inr (mem_singleton_self _)⟩
  | deliver =>
    cases h
    refine ⟨rfl, ?_⟩
    simp only [DeskSession.locks, map_append, mem_append] at hk ⊢
    exact hk.symm.imp_left mem_returned
  | again =>
    obtain ⟨-, rfl⟩ := Runs.matched h
    cases hk
  | cancel =>
    cases h
    cases hk
  | refused | finish | ended => cases h

lemma DeskRuns.owed (h : e.next = some y) (hk : k ∈ y.owed) :
    k ∈ x.owed ∨ e.commits = true ∧ ((e.signals k).isSome = true ∨ k ∈ x.locks) := by
  cases hrun with
  | fetched =>
    cases h
    exact .inr ⟨rfl, .inl (mem_returned hk)⟩
  | delivered =>
    cases h
    exact .inr ⟨rfl, .inr hk⟩
  | node =>
    cases h
    exact .inl hk
  | passed | wake =>
    cases h
    exact .inl (mem_cons_of_mem _ hk)
  | again =>
    obtain ⟨-, rfl⟩ := Runs.matched h
    cases hk
  | refused | finish | ended => cases h
  | _ =>
    cases h
    cases hk

end

inductive Desk.Moves (s : Desk) : DeskEvent → Desk → Prop where
  | call : s.sessions t = none → s.Moves (.call t c)
      { s with sessions := Function.update s.sessions t (some c.start) }
  | exec : s.sessions t = some x → s.admits t (execDesk env (s.board t) x) = true →
      s.Moves (.exec t env) (s.apply t (execDesk env (s.board t) x))
  | crash : s.sessions t = some x → s.Moves (.crash t) (s.rollback t)

lemma Desk.moves_of_step {s : Desk} (h : s.step a = some s') : s.Moves a s' := by
  cases a with
  | call t c =>
    simp only [Desk.step, ite_none_right_eq_some, isNone_iff_eq_none, some.injEq] at h
    obtain ⟨hn, rfl⟩ := h
    exact .call hn
  | exec t env =>
    obtain ⟨x, hx, h⟩ := bind_eq_some_iff.mp h
    obtain ⟨ha, rfl⟩ := Runs.matched h
    exact .exec hx ha
  | crash t =>
    obtain ⟨x, hx, rfl⟩ := map_eq_some_iff.mp h
    exact .crash hx

structure Tracked (s : Desk) : Prop where
  absent : h ∉ s.holds → s.signals h = ⟨none, none⟩
  resolves : (s.signals h).draft = some (t, r) → r.status ≠ .held
  locks : s.sessions t = some x → h ∈ x.locks → ∃ r, (s.signals h).draft = some (t, r)
  owed : s.sessions t = some x → h ∈ x.owed →
    ∃ r, (s.signals h).base = some r ∧ r.status ≠ .held

section

variable (hT : Tracked s) (hx : s.sessions t = some x)

include hT in
lemma Tracked.locked (ha : s.admits t e = true) (hd : (s.signals h).draft = some (u, r))
    (hu : u ≠ t) : (s.apply t e).signals h = s.signals h := by
  have hm : h ∈ s.holds := by
    by_contra hn
    rw [hT.absent hn] at hd
    cases hd
  have hw : e.signals h = none := by
    simp only [Desk.admits, Bool.and_eq_true, List.all_eq_true] at ha
    have hf := ha.2 h hm
    simpa [Slot.free, hd, hu] using hf
  refine statement_untouched hw fun r' hr' => hu ?_
  rw [hd] at hr'
  exact (Prod.mk.inj (some.inj hr')).1

include hT in
lemma Tracked.commits (hh : ((execDesk env b x).signals h).isSome = true ∨
      ∃ r, (s.signals h).draft = some (t, r)) (hc : (execDesk env b x).commits = true) :
    ∃ r, ((s.apply t (execDesk env b x)).signals h).base = some r ∧ r.status ≠ .held := by
  obtain ⟨r, hb, hr⟩ := statement_commits hh
  refine ⟨r, by simpa only [Desk.apply, hc] using hb, ?_⟩
  rcases hr with hw | ⟨-, hd⟩
  · exact (execDesk_runs.signals_held hw).1
  · exact hT.resolves hd

include hT in
lemma Tracked.resolved_exec (hb : ∃ r, (s.signals h).base = some r ∧ r.status ≠ .held) :
    ∃ r, ((s.apply t (execDesk env b x)).signals h).base = some r ∧ r.status ≠ .held := by
  obtain ⟨r, hb, hr⟩ := hb
  cases hc : (execDesk env b x).commits with
  | false =>
    refine ⟨r, ?_, hr⟩
    simpa only [Desk.apply, hc, statement, put_base] using hb
  | true =>
    by_cases hh : ((execDesk env b x).signals h).isSome = true ∨
        ∃ r, (s.signals h).draft = some (t, r)
    · exact hT.commits hh hc
    · rw [not_or, Bool.not_eq_true, isSome_eq_false_iff, isNone_iff_eq_none, not_exists] at hh
      exact ⟨r, (congrArg Slot.base (statement_untouched hh.1 hh.2)).trans hb, hr⟩

include hT hx in
lemma Tracked.exec (ha : s.admits t (execDesk env (s.board t) x) = true) :
    Tracked (s.apply t (execDesk env (s.board t) x)) where
  absent {h} hn := by
    have hs := hT.absent hn
    have hw : (execDesk env (s.board t) x).signals h = none := by
      rw [eq_none_iff_forall_ne_some]
      intro r hw
      obtain ⟨-, r0, hr0, -⟩ := execDesk_runs.signals_held hw
      have hv : (s.signals h).view t = some r0 := hr0
      rw [hs] at hv
      cases hv
    refine (statement_untouched hw fun r hr => ?_).trans hs
    rw [hs] at hr
    cases hr
  resolves hd := by
    rcases (statement_draft hd).2.2 with ⟨hw, -⟩ | ⟨-, hd⟩
    · exact (execDesk_runs.signals_held hw).1
    · exact hT.resolves hd
  locks {u y h} hu hk := by
    rcases update_sessions hu with ⟨rfl, hn⟩ | ⟨hne, hu⟩
    · obtain ⟨hc, hh⟩ := execDesk_runs.locks hn hk
      simpa only [Desk.apply, hc] using statement_locks (hh.imp_right (hT.locks hx))
    · obtain ⟨r, hd⟩ := hT.locks hu hk
      exact ⟨r, (congrArg Slot.draft (hT.locked ha hd hne)).trans hd⟩
  owed {u y h} hu hk := by
    rcases update_sessions hu with ⟨rfl, hn⟩ | ⟨-, hu⟩
    · rcases execDesk_runs.owed hn hk with ho | ⟨hc, hh⟩
      · exact hT.resolved_exec (hT.owed hx ho)
      · exact hT.commits (hh.imp_right (hT.locks hx)) hc
    · exact hT.resolved_exec (hT.owed hu hk)

end

lemma start_idle (c : DeskCall) : c.start.locks = [] ∧ c.start.owed = [] := by
  cases c <;> exact ⟨rfl, rfl⟩

lemma Tracked.call (hT : Tracked s) (t : Tx) (c : DeskCall) :
    Tracked { s with sessions := Function.update s.sessions t (some c.start) } where
  absent := hT.absent
  resolves := hT.resolves
  locks hu hk := by
    rcases update_sessions hu with ⟨-, hs⟩ | ⟨-, hu⟩
    · rw [← some.inj hs, (start_idle c).1] at hk
      cases hk
    · exact hT.locks hu hk
  owed hu hk := by
    rcases update_sessions hu with ⟨-, hs⟩ | ⟨-, hu⟩
    · rw [← some.inj hs, (start_idle c).2] at hk
      cases hk
    · exact hT.owed hu hk

lemma Tracked.crash (hT : Tracked s) (t : Tx) : Tracked (s.rollback t) where
  absent hn := by
    simp only [Desk.rollback, hT.absent hn]
    rfl
  resolves hd := hT.resolves (Slot.rollback_draft_some.mp hd).1
  locks hu hk := by
    rcases update_sessions hu with ⟨-, hs⟩ | ⟨hne, hu⟩
    · cases hs
    · obtain ⟨r, hd⟩ := hT.locks hu hk
      exact ⟨r, Slot.rollback_draft_some.mpr ⟨hd, hne⟩⟩
  owed hu hk := by
    rcases update_sessions hu with ⟨-, hs⟩ | ⟨-, hu⟩
    · cases hs
    · simp only [Desk.rollback, Slot.rollback_base]
      exact hT.owed hu hk

lemma Tracked.resolved_step (hT : Tracked s) (h : s.step a = some s')
    (hb : ∃ r, (s.signals hold).base = some r ∧ r.status ≠ .held) :
    ∃ r, (s'.signals hold).base = some r ∧ r.status ≠ .held := by
  cases Desk.moves_of_step h with
  | call => exact hb
  | exec hx ha => exact hT.resolved_exec hb
  | crash =>
    simp only [Desk.rollback, Slot.rollback_base]
    exact hb

structure Desk.Closed (s : Desk) : Prop where
  sessions : s.sessions t = none
  jobs : (s.jobs k).draft = none
  signals : (s.signals h).draft = none
  absent : h ∉ s.holds → (s.signals h).base = none
  reported : s.reported = []

lemma Tracked.of_closed (hc : s.Closed) : Tracked s where
  absent hn := congrArg₂ Slot.mk (hc.absent hn) hc.signals
  resolves hd := by
    rw [hc.signals] at hd
    cases hd
  locks hx := by
    rw [hc.sessions] at hx
    cases hx
  owed hx := by
    rw [hc.sessions] at hx
    cases hx

def Desk.ofRows (jobs : List JobRow) (signals : List SignalRow) : Desk where
  ids := List.range jobs.length
  jobs k := ⟨jobs[k]?, none⟩
  holds := List.range signals.length
  signals h := ⟨signals[h]?, none⟩

lemma Desk.closed_ofRows (jobs : List JobRow) (signals : List SignalRow) :
    (Desk.ofRows jobs signals).Closed where
  sessions := rfl
  jobs := rfl
  signals := rfl
  absent h := by
    rw [Desk.ofRows, mem_range, not_lt] at h
    exact getElem?_eq_none h
  reported := rfl

end TaskQ
