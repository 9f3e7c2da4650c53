import Mathlib.Data.List.Pairwise
import TaskQ.Inserted
import TaskQ.Sound

namespace TaskQ
open RowLocks Slot

structure Arbited (s : Sys) : Prop where
  same : (s.jobs k).holds r → (s.jobs k).holds r' → r.idempotency = r'.idempotency
  unique : (s.jobs k).holds r → (s.jobs k').holds r' → r.idempotency = some key →
    r'.idempotency = some key → k = k'

lemma Arbited.mono (hA : Arbited s)
    (h : ∀ k r, (s'.jobs k).holds r → ∃ r0, (s.jobs k).holds r0 ∧ r.idempotency = r0.idempotency) :
    Arbited s' where
  same hr hr' := by
    obtain ⟨r0, hr0, he⟩ := h _ _ hr
    obtain ⟨r₀', hr₀', he'⟩ := h _ _ hr'
    rw [he, he']
    exact hA.same hr0 hr₀'
  unique hr hr' hk hk' := by
    obtain ⟨r0, hr0, he⟩ := h _ _ hr
    obtain ⟨r₀', hr₀', he'⟩ := h _ _ hr'
    exact hA.unique hr0 hr₀' (he ▸ hk) (he' ▸ hk')

structure SameClaim (r0 r : JobRow) : Prop where
  idempotency : r.idempotency = r0.idempotency
  attempt : r.attempt = r0.attempt

lemma SameClaim.refl (r : JobRow) : SameClaim r r := ⟨rfl, rfl⟩

structure Births (db : Snapshot) (e : Effect) (rows : List (JobId × JobRow)) : Prop where
  jobs : e.jobs = insertJobs rows
  born : e.born = rows.map Prod.fst
  free : ∀ p ∈ rows, p.2.idempotency.any (idempotencyTaken db) = false
  distinct : rows.Pairwise fun p q => p.2.idempotency ≠ q.2.idempotency

variable {db : Snapshot}

lemma execTx1_births (h : execTx1 env db fresh c fork pc = some e) :
    e.born = [] ∨ ∃ rows, Births db e rows := by
  cases execTx1_runs h with
  | children _ hfree hnd => exact .inr ⟨_, rfl, rfl, hfree, List.pairwise_map.mp hnd⟩
  | join hfree =>
    refine .inr ⟨_, rfl, rfl, fun p hp => ?_, List.pairwise_singleton ..⟩
    obtain rfl := List.mem_singleton.mp hp
    exact hfree
  | mark | adopt | bornZero | plain => exact .inl rfl

lemma execTx2_born (h : execTx2 env db fresh c fork pc = some e) : e.born = [] := by
  cases execTx2_runs h <;> rfl

lemma pairwise_drainConsumers : (drainConsumers db now priority fresh rows).Pairwise
      fun p q => p.2.idempotency ≠ q.2.idempotency := by
  induction rows generalizing fresh with
  | nil => exact .nil
  | cons o os ih =>
    rw [drainConsumers]
    split
    · exact ih
    · refine List.pairwise_cons.mpr ⟨fun p hp => ?_, ih.filter _⟩
      exact Ne.symm (of_decide_eq_true (List.mem_filter.mp hp).2)

lemma execStmt_births (h : execStmt env db fresh x = some e) :
    e.born = [] ∨ ∃ rows, Births db e rows := by
  cases x with
  | finalize c fork pc =>
    simp only [execStmt] at h
    split at h
    · exact .inl (execTx2_born h)
    · exact execTx1_births h
  | sweep batch pc => exact .inl (execSweep_born h)
  | drain batch pc =>
    cases pc with
    | fetch | flip =>
      cases h
      exact .inl rfl
    | consumers rows =>
      cases h
      refine .inr ⟨_, rfl, rfl, fun p hp => ?_, pairwise_drainConsumers⟩
      obtain ⟨-, -, o, -, -, hfree⟩ := mem_drainConsumers hp
      exact hfree
    | commit => cases h

section

variable (hS : Sound s) (hA : Arbited s)
  (h : execStmt env (s.snapshot t) s.fresh x = some e)

include h in
lemma Sys.holds_apply (hr : ((s.apply t e).jobs k).holds r) :
    (∃ r0, (s.jobs k).holds r0 ∧ SameClaim r0 r) ∨ k ∈ e.born ∧ e.jobs k = some r := by
  rcases hr with hb | ⟨u, hd⟩
  · exact .inl ⟨r, .inl (put_base.symm.trans hb), .refl r⟩
  rcases put_draft_some.mp hd with ⟨hw, -⟩ | ⟨-, hd'⟩
  · rcases (execStmt_wrote h hw).identity with ⟨r0, hr0, hi⟩ | hb
    · exact .inl ⟨r0, holds_of_view hr0, congrArg (·.1) hi, congrArg (·.2.1) hi⟩
    · exact .inr ⟨hb, hw⟩
  · exact .inl ⟨r, .inr ⟨u, hd'⟩, .refl r⟩

include hS hA h in
lemma Arbited.refused (ha : s.admits t e = true) (hb : k ∈ e.born) (hk : e.jobs k = some r)
    (hr' : (s.jobs k').holds r') (hi : r.idempotency = some key) : r'.idempotency ≠ some key := by
  intro hi'
  rcases execStmt_births h with hnil | ⟨rows, hrows⟩
  · rw [hnil] at hb
    cases hb
  have hfree : idempotencyTaken (s.snapshot t) key = false := by
    have hm := insertJobs_some (hrows.jobs ▸ hk)
    simpa [hi] using hrows.free _ hm
  have hids : k' ∈ s.ids := by
    by_contra hn
    rw [hS.absent hn] at hr'
    rcases hr' with hb | ⟨u, hd⟩
    · cases hb
    · cases hd
  -- a version the statement sees would have been found by the index
  have hseen : ∀ {v}, (s.jobs k').view t = some v → False := by
    intro v hv
    have hvi := (hA.same (holds_of_view hv) hr').trans hi'
    have htaken : idempotencyTaken (s.snapshot t) key = true :=
      List.any_eq_true.mpr ⟨k', hids, (Option.any_eq_true ..).mpr ⟨v, hv, decide_eq_true hvi⟩⟩
    rw [hfree] at htaken
    cases htaken
  rcases hr' with hb' | ⟨u, hd⟩
  · obtain ⟨v, hv⟩ := exists_view hb' t
    exact hseen hv
  by_cases hu : u = t
  · subst hu
    exact hseen (view_of_draft hd)
  simp only [Sys.admits, Bool.and_eq_true, List.all_eq_true] at ha
  have hwait := ha.2 k hb k' hids
  simp [free, hd, hu, hk, hi, hi'] at hwait

include hS hA h in
lemma Arbited.exec (ha : s.admits t e = true) : Arbited (s.apply t e) where
  same {k r r'} hr hr' := by
    rcases Sys.holds_apply h hr with ⟨r0, hr0, hi⟩ | ⟨hb, hk⟩
    · rcases Sys.holds_apply h hr' with ⟨r₀', hr₀', hi'⟩ | ⟨hb', -⟩
      · rw [hi.idempotency, hi'.idempotency]
        exact hA.same hr0 hr₀'
      · rw [hS.born (execStmt_spec h) hb'] at hr0
        rcases hr0 with hn | ⟨u, hn⟩ <;> cases hn
    · rcases Sys.holds_apply h hr' with ⟨r₀', hr₀', -⟩ | ⟨-, hk'⟩
      · rw [hS.born (execStmt_spec h) hb] at hr₀'
        rcases hr₀' with hn | ⟨u, hn⟩ <;> cases hn
      · rw [Option.some.inj (hk.symm.trans hk')]
  unique {k r k' r' key} hr hr' hi hi' := by
    rcases Sys.holds_apply h hr with ⟨r0, hr0, he⟩ | ⟨hb, hk⟩
    · rcases Sys.holds_apply h hr' with ⟨r₀', hr₀', he'⟩ | ⟨hb', hk'⟩
      · exact hA.unique hr0 hr₀' (he.idempotency ▸ hi) (he'.idempotency ▸ hi')
      · exact absurd (he.idempotency ▸ hi) (hA.refused hS h ha hb' hk' hr0 hi')
    · rcases Sys.holds_apply h hr' with ⟨r₀', hr₀', he'⟩ | ⟨hb', hk'⟩
      · exact absurd (he'.idempotency ▸ hi') (hA.refused hS h ha hb hk hr₀' hi)
      rcases execStmt_births h with hnil | ⟨rows, hrows⟩
      · rw [hnil] at hb
        cases hb
      rw [hrows.jobs] at hk hk'
      by_contra hne
      have hsymm : Std.Symm fun p q : JobId × JobRow => p.2.idempotency ≠ q.2.idempotency :=
        ⟨fun _ _ h => h.symm⟩
      have hpq := hrows.distinct.forall (insertJobs_some hk) (insertJobs_some hk')
        fun heq => hne (congrArg Prod.fst heq)
      exact hpq (hi.trans hi'.symm)

end

lemma Sys.holds_store {s : Sys} (hr : ((s.store w).jobs k).holds r) :
    (s.jobs k).holds r ∨ w k = some r := by
  cases hk : w k with
  | none =>
    rw [Sys.store_jobs, store_of_none hk] at hr
    exact .inl hr
  | some r' =>
    rw [Sys.store_jobs, store_of_some hk] at hr
    rcases hr with hb | ⟨u, hd⟩
    · exact .inr hb
    · cases hd

lemma Arbited.step (hS : Sound s) (hA : Arbited s) (h : s.step a = some s') : Arbited s' := by
  have hauto : ∀ {t w}, (∀ k r, w k = some r →
      ∃ r0, (s.snapshot t).jobs k = some r0 ∧ r.idempotency = r0.idempotency) →
      s.autocommit t w = some s' → Arbited s' := by
    intro t w hw hs
    obtain ⟨-, -, rfl⟩ := Sys.autocommit_some hs
    refine hA.mono fun k r hr => ?_
    rcases Sys.holds_store hr with hr | hk
    · exact ⟨r, hr, rfl⟩
    · obtain ⟨r0, hr0, hi⟩ := hw k r hk
      exact ⟨r0, holds_of_view hr0, hi⟩
  cases Sys.moves_of_step h with
  | call hn => exact hA.mono fun k r hr => ⟨r, hr, rfl⟩
  | exec hx he ha => exact hA.exec hS he ha
  | commit hx hc => exact hA.mono fun k r hr => ⟨r, holds_of_commit hr, rfl⟩
  | deadlock hx hr => exact hA.mono fun k r hr => ⟨r, holds_of_rollback hr, rfl⟩
  | crash hx => exact hA.mono fun k r hr => ⟨r, holds_of_rollback hr, rfl⟩
  | claim hc =>
    refine hauto (fun k r hr => ?_) hc
    obtain ⟨r0, hr0, -, rfl⟩ := update_some.mp hr
    exact ⟨r0, hr0, rfl⟩
  | reclaim hr =>
    refine hauto (fun k r hr => ?_) hr
    obtain ⟨r0, hr0, -, rfl⟩ := update_some.mp hr
    exact ⟨r0, hr0, rfl⟩

end TaskQ
