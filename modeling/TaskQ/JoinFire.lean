import TaskQ.JoinCounter

namespace TaskQ
open RowLocks Countdown Sys

lemma Bounded.clear (hB : Bounded D ρ j es s) (hu : s.unfired j)
    (hr : (s.jobs j).view t = some r) (h0 : r.depsPending = 0) :
    ρ = 0 ∧ ∀ e ∈ es, D.owes s e → e.parent ∈ s.discharged t j := by
  have hc := hB.view hu hr
  rw [h0] at hc
  obtain ⟨hρ, ho⟩ := hc.zero
  refine ⟨hρ, fun e he howes => ?_⟩
  have hm := Debt.mem_owed.mpr ⟨e, he, howes, rfl⟩
  exact Finset.sdiff_eq_empty_iff_subset.mp ho hm

def Sys.parentDone (s : Sys) (e : Edge) : Prop :=
  ∃ p, (s.jobs e.parent).base = some p ∧ p.status.terminal = true

lemma Debt.done_of_not_owes {D : Debt} (h : ¬ D.owes s e) :
    ∃ p, (s.jobs e.parent).base = some p ∧ p.status.terminal = true ∧
      ¬ D.extra s.counted p.status e := by
  simp only [Debt.owes, not_or, not_forall] at h
  obtain ⟨-, p, hp, hs, he⟩ := h
  exact ⟨p, hp, by simpa using hs, he⟩

lemma Sound.done_of_discharged (hS : Sound s)
    (h : e.parent ∈ s.discharged t j) : s.parentDone e := by
  obtain ⟨c, fork, pc, hx, hp, hit, hh, -⟩ := mem_discharged.mp h
  obtain ⟨b, hb, hs⟩ := hS.flight hx (FinalizePc.inTx2_of_hits hh)
  exact ⟨b, hp ▸ hb, hs ▸ c.outcome.2⟩

lemma Bounded.done_of_zero (hS : Sound s) (hB : Bounded D ρ j es s) (hu : s.unfired j)
    (hr : (s.jobs j).view t = some r) (h0 : r.depsPending = 0) : ∀ e ∈ es, s.parentDone e := by
  intro e he
  by_cases ho : D.owes s e
  · exact hS.done_of_discharged ((hB.clear hu hr h0).2 e he ho)
  · obtain ⟨p, hp, ht, -⟩ := Debt.done_of_not_owes ho
    exact ⟨p, hp, ht⟩

lemma Bounded.done_of_firable (hS : Sound s) (hB : Bounded D ρ j es s)
    (hx : s.sessions t = some (.sweep batch (.sweepFire n)))
    (h : firable (s.snapshot t) j = true) (he : e ∈ es) :
    ∃ p, (s.jobs e.parent).base = some p ∧ p.status.terminal = true ∧
      (e.failurePolicy = .failClosed → p.status ≠ .failed) := by
  simp only [firable, Bool.and_eq_true, decide_eq_true_eq] at h
  obtain ⟨⟨⟨-, hm⟩, hu⟩, hf⟩ := h
  have he' := hB.visible (t := t) ▸ he
  obtain ⟨p, hp⟩ := parent_of_missingParents hm he'
  obtain ⟨b, hb, hs⟩ := hS.swept hx (by simp) hp
  refine ⟨b, hb, hs ▸ terminal_of_unterminal hu he' hp, fun hpol => ?_⟩
  rw [hs]
  exact not_failed_of_failedRequired hf he' hp hpol

lemma Bounded.done_of_fire (hS : Sound s) (hB : Bounded D ρ j es s)
    (hx : s.sessions t = some x) (h : execStmt env (s.snapshot t) s.fresh x = some e)
    (hf : f ∈ e.fires) (hj : f.joinJob = j) : ∀ d ∈ es, s.parentDone d := by
  obtain ⟨hc, hg⟩ := (execStmt_spec h).fires hf
  subst hj
  intro d hd
  cases hc with
  | zero hr h0 => exact hB.done_of_zero hS (hB.unfired_of_visible hg) hr h0 d hd
  | firable hs _ hfir =>
    obtain ⟨p, hp, ht, -⟩ := hB.done_of_firable hS (hs ▸ hx) hfir hd
    exact ⟨p, hp, ht⟩

lemma Debt.owed_card_le {D : Debt} (h : ∀ e ∈ es, D.owes s e → q e = true) :
    (D.owed s es).card ≤ es.countP q := by
  classical
  have hle : ((es.filter fun e => D.owes s e).map Edge.parent).toFinset.card ≤
      ((es.filter fun e => D.owes s e).map Edge.parent).length := List.toFinset_card_le _
  rw [List.length_map, ← List.countP_eq_length_filter] at hle
  refine hle.trans (List.countP_mono_left fun e he ho => ?_)
  exact h e he (of_decide_eq_true ho)

lemma Bounded.recount_covers (hS : Sound s) (hB : Bounded D ρ j es s)
    (hx : s.sessions t = some (.sweep batch .rederive))
    (hrec : reconciles (s.snapshot t) locked j r = true) (hfl : ∀ e ∈ es, ¬ s.inFlight e.parent)
    (hex : ∀ e ∈ es, ∀ p, (s.jobs e.parent).base = some p →
      (e.failurePolicy = .failClosed → p.status ≠ .failed) → ¬ D.extra s.counted p.status e) :
    Covers 0 (counts (s.snapshot t) j).unterminal (D.owed s es) := by
  obtain ⟨-, hm, hf⟩ := counts_of_reconciles hrec
  rw [Covers, Nat.zero_add, counts_unterminal, hB.visible]
  refine Debt.owed_card_le fun e he ho => ?_
  have he' := hB.visible (t := t) ▸ he
  obtain ⟨p, hp⟩ := parent_of_missingParents hm he'
  obtain ⟨b, hb, hs⟩ := hS.swept hx (by simp) hp
  rcases ho with ho | ho
  · exact absurd ho (hfl e he)
  rcases ho b hb with ht | hext
  · rw [hp, Option.any_some, ← hs, ht]
    rfl
  refine absurd hext (hex e he b hb fun hpol => ?_)
  rw [hs]
  exact not_failed_of_failedRequired hf he' hp hpol

lemma Sys.hasFire_step {s : Sys} (h : s.step a = some s') (hf : s'.hasFire j) :
    s.hasFire j ∨ ∃ t env x e f, a = .exec t env ∧ s.sessions t = some x ∧
      execStmt env (s.snapshot t) s.fresh x = some e ∧ f ∈ e.fires ∧ f.joinJob = j := by
  have hend : ∀ {t}, Ended t s.fires s'.fires → s.hasFire j := by
    intro t he
    obtain ⟨sl, hm, f, hr, hj⟩ := hf
    rcases he.mem hm hr with ⟨sl0, hm0, hr0⟩
    exact ⟨sl0, hm0, f, hr0, hj⟩
  cases moves_of_step h with
  | call hn => exact .inl hf
  | @exec t x env e hx he ha =>
    obtain ⟨sl, hm, f, hr, hj⟩ := hf
    rcases List.mem_append.mp hm with hm | hm
    · exact .inl ⟨sl, hm, f, hr, hj⟩
    obtain ⟨g, hg, rfl⟩ := List.mem_map.mp hm
    rcases hr with hr | ⟨u, hr⟩
    · cases hr
    · obtain ⟨-, rfl⟩ := Prod.mk.inj (Option.some.inj hr)
      exact .inr ⟨t, env, x, e, g, rfl, hx, he, hg, hj⟩
  | commit hx hc => exact .inl (hend (.inr (.inl rfl)))
  | deadlock | crash => exact .inl (hend (.inr (.inr rfl)))
  | claim hc =>
    obtain ⟨-, -, rfl⟩ := autocommit_some hc
    exact .inl hf
  | reclaim hr =>
    obtain ⟨-, -, rfl⟩ := autocommit_some hr
    exact .inl hf

def Sys.version (s : Sys) (k : JobId) (r : JobRow) : Prop :=
  (s.jobs k).base = some r ∨ ∃ t, (s.jobs k).draft = some (t, r)

lemma Sys.version_of_view {s : Sys} (h : (s.jobs k).view t = some r) : s.version k r := by
  rcases Slot.draft_or_base h with hd | ⟨-, hb⟩
  · exact .inr ⟨t, hd⟩
  · exact .inl hb

lemma Sys.version_step {s : Sys} (h : s.step a = some s') (hr : s'.version k r) : s.version k r ∨
      (∃ t env x e, a = .exec t env ∧ s.sessions t = some x ∧
        execStmt env (s.snapshot t) s.fresh x = some e ∧ e.jobs k = some r) ∨
      (∃ t job worker now, a = .claim t job worker now ∧
        nodeClaim (s.snapshot t) now job worker k = some r) ∨
      ∃ t job now grace due, a = .reclaim t job now grace due ∧
        sweepReclaim (s.snapshot t) now grace due job k = some r := by
  have hrel : ∀ {t x}, Released t s s' x → s.version k r := by
    intro t x hrel
    rcases hr with hb | ⟨u, hd⟩
    · rcases hrel.base (k := k) with hv | hv
      · exact version_of_view (hv.symm.trans hb)
      · exact .inl (hv.symm.trans hb)
    · exact .inr ⟨u, (hrel.draft.mp hd).1⟩
  have hauto : ∀ {t w}, s.autocommit t w = some s' → s.version k r ∨ w k = some r := by
    intro t w hs
    obtain ⟨-, -, rfl⟩ := autocommit_some hs
    cases hw : w k with
    | none =>
      rw [version, store_jobs, store_of_none hw] at hr
      exact .inl hr
    | some r' =>
      rw [version, store_jobs, store_of_some hw] at hr
      rcases hr with hb | ⟨u, hd⟩
      · exact .inr hb
      · cases hd
  cases moves_of_step h with
  | call hn => exact .inl hr
  | @exec t x env e hx he ha =>
    rcases hr with hb | ⟨u, hd⟩
    · exact .inl (.inl (put_base.symm.trans hb))
    rcases put_draft_some.mp hd with ⟨hw, -⟩ | ⟨-, hd'⟩
    · exact .inr (.inl ⟨t, env, x, e, rfl, hx, he, hw⟩)
    · exact .inl (.inr ⟨u, hd'⟩)
  | commit hx hc => exact .inl (hrel s.released_commit)
  | deadlock | crash => exact .inl (hrel s.released_rollback)
  | @claim t now job worker _ hc =>
    rcases hauto hc with hv | hw
    · exact .inl hv
    · exact .inr (.inr (.inl ⟨t, job, worker, now, rfl, hw⟩))
  | @reclaim t now grace due job _ hc =>
    rcases hauto hc with hv | hw
    · exact .inl hv
    · exact .inr (.inr (.inr ⟨t, job, now, grace, due, rfl, hw⟩))

end TaskQ
