import TaskQ.Engine

namespace TaskQ
open RowLocks Option

inductive Call where
  | finalizeNode (c : FinalizeCall) (fork : Option ForkSpec)
  | sweepJoinRederive (batch : Nat)
  | drainOutbox (batch : Nat)

def Call.start : Call → Session
  | .finalizeNode c fork => .finalize c fork .terminalMark
  | .sweepJoinRederive batch => .sweep batch .rederive
  | .drainOutbox batch => .drain batch .fetch

inductive Event where
  | call (t : Tx) (c : Call)
  | exec (t : Tx) (env : Env)
  | commit (t : Tx)
  /-- `_deadlock_retry`: the transaction is rolled back and run again. -/
  | deadlock (t : Tx)
  | crash (t : Tx)
  | claim (t : Tx) (job : JobId) (worker : WorkerId) (now : Time)
  | reclaim (t : Tx) (job : JobId) (now grace due : Time)

/-- The session after a commit and its final decrements; `none` while statements are left. -/
def Session.afterCommit : Session → Option (Option Session × List (JobId × JobId))
  | .finalize c fork (.tx1Commit true) => some (some (.finalize c fork c.tx2Start), [])
  | .finalize _ _ (.tx1Commit false) => some (none, [])
  | .finalize c _ (.fire hits []) => some (none, hits.map fun h => (c.job, h.joinJob))
  | .sweep _ .commit => some (none, [])
  | .drain _ .commit => some (none, [])
  | _ => none

/-- The session a deadlock victim restarts in; only `finalize_node` retries. -/
def Session.restart : Session → Option Session
  | .finalize c fork pc => some (.finalize c fork (if pc.inTx2 then c.tx2Start else .terminalMark))
  | _ => none

def Sys.store (s : Sys) (w : Writes) : Sys := { s with jobs := RowLocks.store w s.jobs }

@[simp] lemma Sys.store_jobs (s : Sys) : (s.store w).jobs k = RowLocks.store w s.jobs k := rfl

def Sys.autocommit (s : Sys) (t : Tx) (w : Writes) : Option Sys :=
  if (s.sessions t).isNone && s.ids.all (fun k => (w k).isNone || (s.jobs k).draft.isNone) then
    some (s.store w)
  else none

lemma Sys.autocommit_some {s : Sys} (h : s.autocommit t w = some s') :
    s.sessions t = none ∧ (∀ k ∈ s.ids, w k = none ∨ (s.jobs k).draft = none) ∧ s' = s.store w := by
  simp only [Sys.autocommit, Bool.and_eq_true, isNone_iff_eq_none, List.all_eq_true,
    Bool.or_eq_true, ite_none_right_eq_some, some.injEq] at h
  obtain ⟨⟨hn, hl⟩, rfl⟩ := h
  exact ⟨hn, hl, rfl⟩

def Sys.step (s : Sys) : Event → Option Sys
  | .call t c =>
    if (s.sessions t).isNone then
      some { s with sessions := Function.update s.sessions t (some c.start) }
    else none
  | .exec t env => (s.sessions t).bind fun x =>
    (execStmt env (s.snapshot t) s.fresh x).bind fun e =>
      if s.admits t e then some (s.apply t e) else none
  | .commit t => (s.sessions t).bind fun x =>
    x.afterCommit.map fun p => s.commit t p.1 p.2
  | .deadlock t => (s.sessions t).bind fun x => x.restart.map fun x' => s.rollback t (some x')
  | .crash t => (s.sessions t).map fun _ => s.rollback t none
  | .claim t job worker now => s.autocommit t (nodeClaim (s.snapshot t) now job worker)
  | .reclaim t job now grace due =>
    s.autocommit t (sweepReclaim (s.snapshot t) now grace due job)

inductive Sys.Moves (s : Sys) : Event → Sys → Prop where
  | call : s.sessions t = none →
      s.Moves (.call t c) { s with sessions := Function.update s.sessions t (some c.start) }
  | exec : s.sessions t = some x → execStmt env (s.snapshot t) s.fresh x = some e →
      s.admits t e = true → s.Moves (.exec t env) (s.apply t e)
  | commit : s.sessions t = some x → x.afterCommit = some (x', new) →
      s.Moves (.commit t) (s.commit t x' new)
  | deadlock : s.sessions t = some x → x.restart = some x' →
      s.Moves (.deadlock t) (s.rollback t (some x'))
  | crash : s.sessions t = some x → s.Moves (.crash t) (s.rollback t none)
  | claim : s.autocommit t (nodeClaim (s.snapshot t) now job worker) = some s' →
      s.Moves (.claim t job worker now) s'
  | reclaim : s.autocommit t (sweepReclaim (s.snapshot t) now grace due job) = some s' →
      s.Moves (.reclaim t job now grace due) s'

lemma Sys.moves_of_step {s : Sys} (h : s.step a = some s') : s.Moves a s' := by
  cases a with
  | call t c =>
    simp only [Sys.step, ite_none_right_eq_some, isNone_iff_eq_none, some.injEq] at h
    obtain ⟨hn, rfl⟩ := h
    exact .call hn
  | exec t env =>
    obtain ⟨x, hx, h⟩ := bind_eq_some_iff.mp h
    obtain ⟨e, he, h⟩ := bind_eq_some_iff.mp h
    obtain ⟨ha, rfl⟩ := Runs.matched h
    exact .exec hx he ha
  | commit t =>
    obtain ⟨x, hx, h⟩ := bind_eq_some_iff.mp h
    obtain ⟨⟨x', new⟩, hp, rfl⟩ := map_eq_some_iff.mp h
    exact .commit hx hp
  | deadlock t =>
    obtain ⟨x, hx, h⟩ := bind_eq_some_iff.mp h
    obtain ⟨x', hp, rfl⟩ := map_eq_some_iff.mp h
    exact .deadlock hx hp
  | crash t =>
    obtain ⟨x, hx, rfl⟩ := map_eq_some_iff.mp h
    exact .crash hx
  | claim t job worker now => exact .claim h
  | reclaim t job now grace due => exact .reclaim h

lemma update_sessions {f : Tx → α} (h : Function.update f t x u = y) :
    u = t ∧ x = y ∨ u ≠ t ∧ f u = y := by
  by_cases hu : u = t
  · subst hu
    rw [Function.update_self] at h
    exact .inl ⟨rfl, h⟩
  · rw [Function.update_of_ne hu] at h
    exact .inr ⟨hu, h⟩

def Sys.inFlight (s : Sys) (p : JobId) : Prop :=
  ∃ t c fork pc, s.sessions t = some (.finalize c fork pc) ∧ c.job = p ∧ pc.inTx2 = true

def Sys.hasFire (s : Sys) (j : JobId) : Prop :=
  ∃ sl ∈ s.fires, ∃ f, (sl.base = some f ∨ ∃ t, sl.draft = some (t, f)) ∧ f.joinJob = j

end TaskQ
