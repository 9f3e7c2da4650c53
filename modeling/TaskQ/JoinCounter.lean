import Mathlib.Data.Finset.Card
import TaskQ.Sound

namespace Countdown
open Finset

def Covers (ρ n : Nat) (owed : Finset α) : Prop := ρ + owed.card ≤ n

lemma Covers.mono (h : Covers ρ n owed) (ho : owed' ⊆ owed) (hn : n ≤ n') :
    Covers ρ n' owed' := by
  have hc := card_le_card ho
  unfold Covers at *
  omega

lemma Covers.pay [DecidableEq α] {owed : Finset α} (h : Covers ρ n owed) (hp : p ∈ owed) :
    Covers ρ (n - 1) (owed \ {p}) := by
  have hc := card_sdiff_of_subset (singleton_subset_iff.mpr hp)
  have hpos := card_pos.mpr ⟨p, hp⟩
  rw [card_singleton] at hc
  unfold Covers at *
  omega

lemma Covers.zero (h : Covers ρ 0 owed) : ρ = 0 ∧ owed = ∅ := by
  unfold Covers at h
  rw [← card_eq_zero]
  omega

lemma Covers.pos (h : Covers ρ n owed) (hr : 0 < ρ) : 0 < n := by
  unfold Covers at h
  omega

end Countdown

namespace TaskQ
open RowLocks Countdown List Function Option Session

structure Debt where
  extra : List (JobId × JobId) → JobStatus → Edge → Prop
  anti : extra (cs ++ new) st e → extra cs st e

def Debt.owes (D : Debt) (s : Sys) (e : Edge) : Prop :=
  s.inFlight e.parent ∨ ∀ p, (s.jobs e.parent).base = some p →
    p.status.terminal = false ∨ D.extra s.counted p.status e

open Classical in
noncomputable def Debt.owed (D : Debt) (s : Sys) (es : List Edge) : Finset JobId :=
  ((es.filter fun e => D.owes s e).map Edge.parent).toFinset

lemma Debt.mem_owed {D : Debt} : p ∈ D.owed s es ↔ ∃ e ∈ es, D.owes s e ∧ e.parent = p := by
  simp only [Debt.owed, List.mem_toFinset, List.mem_map, mem_filter, decide_eq_true_eq, and_assoc]

lemma Debt.owed_mono {D : Debt} (h : ∀ e ∈ es, D.owes s' e → D.owes s e) :
    D.owed s' es ⊆ D.owed s es := by
  intro p hp
  obtain ⟨e, he, ho, rfl⟩ := Debt.mem_owed.mp hp
  exact Debt.mem_owed.mpr ⟨e, he, h e he ho, rfl⟩

def Session.discharged (j : JobId) : Session → Finset JobId
  | .finalize c _ pc => if ∃ h ∈ pc.hits, h.joinJob = j then {c.job} else ∅
  | _ => ∅

def Sys.discharged (s : Sys) (t : Tx) (j : JobId) : Finset JobId :=
  (s.sessions t).elim ∅ (Session.discharged j)

lemma Sys.mem_discharged {s : Sys} : p ∈ s.discharged t j ↔
    ∃ c fork pc, s.sessions t = some (.finalize c fork pc) ∧ p = c.job ∧
      ∃ h ∈ pc.hits, h.joinJob = j := by
  unfold Sys.discharged
  cases hx : s.sessions t with
  | none => simp
  | some x =>
    cases x with
    | finalize c fork pc =>
      simp only [elim_some, Session.discharged, some.injEq, Session.finalize.injEq]
      constructor
      · intro hp
        split at hp
        · rename_i hh
          exact ⟨c, fork, pc, ⟨rfl, rfl, rfl⟩, mem_singleton.mp hp, hh⟩
        · cases hp
      · rintro ⟨c', fork', pc', ⟨rfl, rfl, rfl⟩, rfl, hh⟩
        rw [if_pos hh]
        exact mem_singleton_self _
    | sweep | drain => simp [Session.discharged]

def Sys.edgesOf (s : Sys) (j : JobId) : List Edge :=
  (committed s.edges).filter fun e => e.child = j

def Sys.unfired (s : Sys) (j : JobId) : Prop := ∀ f ∈ committed s.fires, f.joinJob ≠ j

structure Bounded (D : Debt) (ρ : Nat) (j : JobId) (es : List Edge) (s : Sys) : Prop where
  present : j ∈ s.ids
  edges : InsertOnly s.edges
  fires : InsertOnly s.fires
  wired : s.edgesOf j = es
  closed : sl ∈ s.edges → sl.draft = some d → d.2.child ≠ j
  base : s.unfired j → (s.jobs j).base = some r → Covers ρ r.depsPending (D.owed s es)
  draft : s.unfired j → (s.jobs j).draft = some (t, r) →
    Covers ρ r.depsPending (D.owed s es \ s.discharged t j)
  hit : s.sessions t = some (.finalize c fork pc) → h ∈ pc.hits → h.joinJob = j →
    ∃ e ∈ es, e.parent = c.job ∧ c.countedPolicy e.failurePolicy = true

lemma Bounded.view (hB : Bounded D ρ j es s) (hu : s.unfired j)
    (hr : (s.jobs j).view t = some r) :
    Covers ρ r.depsPending (D.owed s es \ s.discharged t j) := by
  rcases Slot.draft_or_base hr with hd | ⟨-, hb⟩
  · exact hB.draft hu hd
  · exact (hB.base hu hb).mono Finset.sdiff_subset le_rfl

lemma Bounded.visible (hB : Bounded D ρ j es s) :
    (s.snapshot t).edges.filter (fun e => e.child = j) = es := by
  rw [← hB.wired]
  exact hB.edges.filter_visible fun sl hm d hd => decide_eq_false (hB.closed hm hd)

lemma Bounded.mem_edges (hB : Bounded D ρ j es s) :
    e ∈ es ↔ e ∈ (s.snapshot t).edges ∧ e.child = j := by
  rw [← hB.visible (t := t), mem_filter, decide_eq_true_eq]

lemma Bounded.child_eq (hB : Bounded D ρ j es s) (he : e ∈ es) : e.child = j := by
  rw [← hB.wired] at he
  exact of_decide_eq_true (mem_filter.mp he).2

lemma Bounded.unfired_of_visible (hB : Bounded D ρ j es s)
    (h : ∀ f ∈ (s.snapshot t).fires, f.joinJob ≠ j) : s.unfired j :=
  fun f hf => h f (hB.fires.mem_visible hf)

section

variable (hS : Sound s) (hB : Bounded D ρ j es s) (h : Released t s s' x)

include hS h in
lemma Debt.owes_release (hf : ∀ c fork pc, x = some (.finalize c fork pc) → pc.inTx2 = true →
      s.inFlight c.job ∨ ∀ b, (s.jobs c.job).base = some b → b.status.terminal = false)
    (ho : D.owes s' e) : D.owes s e := by
  rcases ho with ⟨u, c, fork, pc, hx, hc, hp⟩ | ho
  · rw [h.sessions] at hx
    rcases update_sessions hx with ⟨-, hy⟩ | ⟨-, hy⟩
    · rcases hf c fork pc hy hp with hfl | hn
      · exact .inl (hc ▸ hfl)
      · exact .inr fun p hb => .inl (hn p (hc ▸ hb))
    · exact .inl ⟨u, c, fork, pc, hy, hc, hp⟩
  · refine .inr fun p hb => ?_
    cases ht : p.status.terminal with
    | false => exact .inl rfl
    | true =>
      obtain ⟨p', hp', hs⟩ := h.terminal hS hb ht
      obtain ⟨new, hn⟩ := h.counted
      rcases ho p' hp' with ho | ho
      · rw [hs, ht] at ho
        cases ho
      · rw [hn, hs] at ho
        exact .inr (D.anti ho)

include hS hB h in
lemma Bounded.release (hi : ∀ y, x = some y → y.Idle)
    (hf : ∀ c fork pc, x = some (.finalize c fork pc) → pc.inTx2 = true →
      s.inFlight c.job ∨ ∀ b, (s.jobs c.job).base = some b → b.status.terminal = false)
    (hp : (s'.jobs j).base = (s.jobs j).base ∨
      D.owed s' es ⊆ D.owed s es \ s.discharged t j) : Bounded D ρ j es s' := by
  have hsub : D.owed s' es ⊆ D.owed s es := Debt.owed_mono fun e _ => Debt.owes_release hS h hf
  have hun : s'.unfired j → s.unfired j := fun hu f hm => hu f (h.fires.mem_committed hB.fires hm)
  refine ⟨?present, ?edges, ?fires, ?wired, ?closed, ?base, ?draft, ?hit⟩
  case present => exact h.ids ▸ hB.present
  case edges => exact h.edges.insertOnly hB.edges
  case fires => exact h.fires.insertOnly hB.fires
  case wired =>
    rw [← hB.wired]
    refine h.edges.filter_committed hB.edges fun sl hm d hd => ?_
    exact decide_eq_false (hB.closed hm hd)
  case closed =>
    intro sl d hm hd
    obtain ⟨sl0, hm0, hd0⟩ := h.edges.draft hm hd
    exact hB.closed hm0 hd0
  case base =>
    intro r hu hb
    rcases hp with hp | hp
    · exact (hB.base (hun hu) (hp ▸ hb)).mono hsub le_rfl
    rcases h.base (k := j) with hv | hv
    · exact (hB.view (hun hu) (hv ▸ hb)).mono hp le_rfl
    · exact (hB.base (hun hu) (hv ▸ hb)).mono hsub le_rfl
  case draft =>
    intro u r hu hd
    obtain ⟨hd, hut⟩ := h.draft.mp hd
    have hdis : s'.discharged u j = s.discharged u j := by
      simp only [Sys.discharged, h.sessions, update_of_ne hut]
    rw [hdis]
    exact (hB.draft (hun hu) hd).mono (Finset.sdiff_subset_sdiff hsub (Finset.Subset.refl _))
      le_rfl
  case hit =>
    intro u c fork pc hit hx hh hj
    rw [h.sessions] at hx
    rcases update_sessions hx with ⟨-, hy⟩ | ⟨-, hy⟩
    · rw [(hi _ hy).2] at hh
      cases hh
    · exact hB.hit hy hh hj

end

lemma Bounded.store (hB : Bounded D ρ j es s)
    (hd : ∀ r, w j = some r → ∃ r0, (s.jobs j).base = some r0 ∧ r.depsPending = r0.depsPending)
    (ho : s.unfired j → ∀ e ∈ es, D.owes (s.store w) e → D.owes s e) :
    Bounded D ρ j es (s.store w) := by
  have hsub : s.unfired j → D.owed (s.store w) es ⊆ D.owed s es := fun hu =>
    Debt.owed_mono (ho hu)
  refine ⟨hB.present, hB.edges, hB.fires, hB.wired, hB.closed, ?base, ?draft, hB.hit⟩
  case base =>
    intro r hu hb
    cases hk : w j with
    | none =>
      have hb' := (congrArg Slot.base (store_of_none hk)).symm.trans hb
      exact (hB.base hu hb').mono (hsub hu) le_rfl
    | some r' =>
      obtain ⟨r0, hr0, hd⟩ := hd r' hk
      cases (congrArg Slot.base (store_of_some hk)).symm.trans hb
      exact (hB.base hu hr0).mono (hsub hu) (Nat.le_of_eq hd.symm)
  case draft =>
    intro u r hu hd
    exact (hB.draft hu (store_draft_some hd).2).mono
      (Finset.sdiff_subset_sdiff (hsub hu) (Finset.Subset.refl _)) le_rfl

lemma Bounded.autocommit (hS : Sound s) (hB : Bounded D ρ j es s)
    (hw : Keeps (s.snapshot t) w) (h : s.autocommit t w = some s') : Bounded D ρ j es s' := by
  obtain ⟨hn, -, rfl⟩ := Sys.autocommit_some h
  have hview := hS.view_eq_base hn
  refine hB.store (fun r hk => ?_) fun _ e _ ho => ?_
  · obtain ⟨r0, hr0, -, hd⟩ := hw _ _ hk
    exact ⟨r0, (hview j).symm.trans hr0, hd⟩
  rcases ho with hfl | ho
  · exact .inl hfl
  refine .inr fun p hb => ?_
  cases hk : w e.parent with
  | none => exact ho p ((congrArg Slot.base (store_of_none hk)).trans hb)
  | some r =>
    obtain ⟨r0, hr0, hs, -⟩ := hw _ _ hk
    obtain rfl : p = r0 := some.inj ((hview _ ▸ hb : _).symm.trans hr0)
    exact .inl hs

structure Respects (D : Debt) (ρ : Nat) (j : JobId) (es : List Edge) (s : Sys) (a : Event) :
    Prop where
  edges : a = .exec t env → s.sessions t = some x →
    execStmt env (s.snapshot t) s.fresh x = some e → ∀ d ∈ e.edges, d.child ≠ j
  recount : a = .exec t env → s.sessions t = some (.sweep batch .rederive) →
    (s.snapshot t).jobs j = some r →
    reconciles (s.snapshot t) (rederiveLocked (s.snapshot t) env.now batch) j r = true →
    Covers ρ (counts (s.snapshot t) j).unterminal (D.owed s es)
  commit : a = .commit t → s.sessions t = some (.finalize c fork (.fire hs [])) → hit ∈ hs →
    hit.joinJob = j → e ∈ es → e.parent = c.job →
    ¬ D.extra (s.counted ++ hs.map fun h => (c.job, h.joinJob)) c.outcome.1 e

lemma Bounded.commit (hS : Sound s) (hB : Bounded D ρ j es s)
    (hR : Respects D ρ j es s (.commit t)) (hx : s.sessions t = some x)
    (h : x.afterCommit = some (x', new)) : Bounded D ρ j es (s.commit t x' new) := by
  have hf : ∀ c fork pc, x' = some (.finalize c fork pc) → pc.inTx2 = true →
      s.inFlight c.job ∨ ∀ b, (s.jobs c.job).base = some b → b.status.terminal = false := by
    intro c fork pc hy _
    rcases afterCommit_cases h with ⟨c', fork', rfl, rfl, -⟩ | ⟨-, -, -, -, rfl, -⟩ |
      ⟨rfl, -⟩
    · cases hy
      obtain ⟨r, -, -, hn⟩ := hS.marked hx rfl
      exact .inr hn
    · cases hy
    · cases hy
  refine hB.release hS s.released_commit (idle_of_afterCommit h) hf (.inr fun p hp => ?_)
  have hrel := Debt.owed_mono (fun e _ => Debt.owes_release hS s.released_commit hf) hp
  refine Finset.mem_sdiff.mpr ⟨hrel, fun hd => ?_⟩
  obtain ⟨c, fork, pc, hx', rfl, hit, hh, hj⟩ := Sys.mem_discharged.mp hd
  cases hx.symm.trans hx'
  -- only tx2 has counted anything down, and its commit leaves its parent terminal and counted
  rcases afterCommit_cases h with ⟨c', fork', hc, -⟩ | ⟨c', fork', hs, hc, rfl, rfl⟩ |
    ⟨-, -, hpc⟩
  · cases hc
    cases hh
  · cases hc
    obtain ⟨e, he, ho, hep⟩ := Debt.mem_owed.mp hp
    obtain ⟨b, hb, hs'⟩ := hS.flight hx rfl
    rcases ho with ⟨u, c', fork', pc', hu, hc', hp'⟩ | ho
    · rcases update_sessions hu with ⟨-, hy⟩ | ⟨hut, hy⟩
      · cases hy
      · exact hut (hS.single hx rfl hy hp' (hc'.trans hep))
    · have hrel : Released t s (s.commit t none (hs.map fun h => (c.job, h.joinJob))) none :=
        s.released_commit
      obtain ⟨b', hb', hbs⟩ := hrel.terminal hS hb (hs' ▸ c.outcome.2)
      rcases ho b' (hep ▸ hb') with ho | ho
      · rw [hbs, hs', c.outcome.2] at ho
        cases ho
      · rw [hbs, hs'] at ho
        exact hR.commit rfl hx hh hj he hep ho
  · obtain rfl := hpc c fork pc rfl
    cases hh

lemma Bounded.deadlock (hS : Sound s) (hB : Bounded D ρ j es s) (hx : s.sessions t = some x)
    (h : x.restart = some x') : Bounded D ρ j es (s.rollback t (some x')) := by
  cases x with
  | finalize c fork pc =>
    have hi := idle_of_restart h
    cases h
    refine hB.release hS s.released_rollback hi ?_ (.inl Slot.rollback_base)
    intro c' fork' pc' hy hp
    cases hy
    by_cases hpc : pc.inTx2 = true
    · exact .inl ⟨t, c, fork, pc, hx, rfl, hpc⟩
    · rw [if_neg hpc] at hp
      cases hp
  | sweep batch pc => cases h
  | drain batch pc => cases h

lemma Bounded.crash (hS : Sound s) (hB : Bounded D ρ j es s) :
    Bounded D ρ j es (s.rollback t none) :=
  hB.release hS s.released_rollback (fun _ hy => by cases hy) (fun _ _ _ hy => by cases hy)
    (.inl Slot.rollback_base)

lemma Bounded.call (hS : Sound s) (hB : Bounded D ρ j es s) (hn : s.sessions t = none)
    (c : Call) :
    Bounded D ρ j es { s with sessions := Function.update s.sessions t (some c.start) } := by
  refine hB.release hS (hS.released_call hn c.start) ?_ ?_ (.inl rfl)
  · intro y hy
    rw [← some.inj hy]
    exact idle_start c
  · intro c' fork pc hy hp
    cases c with
    | finalizeNode c fork' =>
      cases hy
      cases hp
    | sweepJoinRederive batch => cases hy
    | drainOutbox batch => cases hy

lemma execStmt_decrement (h : execStmt env db fresh (.finalize c fork .decrement) = some e) :
    e.jobs = decrementWhere db c.job c.flow c.countedPolicy := by
  cases h
  exact decrement_eq_where

section

variable (hS : Sound s) (hB : Bounded D ρ j es s) (hx : s.sessions t = some x)
  (h : execStmt env (s.snapshot t) s.fresh x = some e)

include hx h in
lemma Debt.owed_apply : D.owed (s.apply t e) es ⊆ D.owed s es := by
  refine Debt.owed_mono fun d _ ho => ?_
  rcases ho with ⟨u, c, fork, pc, hu, hc, hp⟩ | ho
  · rcases update_sessions hu with ⟨-, hy⟩ | ⟨-, hy⟩
    · obtain ⟨pc0, rfl, hp0, -⟩ := (execStmt_spec h).next.of_finalize (some.inj hy)
      exact .inl ⟨t, c, fork, pc0, hx, hc, hp0 ▸ hp⟩
    · exact .inl ⟨u, c, fork, pc, hy, hc, hp⟩
  · exact .inr fun p hb => ho p (put_base.trans hb)

include hx h in
lemma Sys.discharged_apply (hp : p ∈ s.discharged u j) : p ∈ (s.apply t e).discharged u j := by
  obtain ⟨c, fork, pc, hu, rfl, hit, hh, hj⟩ := Sys.mem_discharged.mp hp
  by_cases hut : u = t
  · subst hut
    rw [hx] at hu
    cases hu
    obtain ⟨pc', hn, -, hh', -⟩ := (execStmt_spec h).next.to_finalize
    refine Sys.mem_discharged.mpr ⟨c, fork, pc', ?_, rfl, hit, ?_, hj⟩
    · exact (update_self ..).trans (congrArg some hn)
    rcases hh' with hh' | ⟨rfl, -⟩
    · exact hh' ▸ hh
    · cases hh
  · exact Sys.mem_discharged.mpr
      ⟨c, fork, pc, (update_of_ne hut ..).trans hu, rfl, hit, hh, hj⟩

include hB hx in
lemma Bounded.counts_debtor (hc : x = .finalize c fork .decrement)
    (he : hasEdge (s.snapshot t) c.job j c.countedPolicy = true) :
    ∃ d ∈ es, d.parent = c.job ∧ c.countedPolicy d.failurePolicy = true ∧ c.job ∈ D.owed s es := by
  obtain ⟨d, hd, hp, hj, hpol⟩ := hasEdge_iff.mp he
  have hm : d ∈ es := hB.mem_edges.mpr ⟨hd, hj⟩
  refine ⟨d, hm, hp, hpol, Debt.mem_owed.mpr ⟨d, hm, .inl ?_, hp⟩⟩
  exact ⟨t, c, fork, .decrement, hc ▸ hx, hp.symm, rfl⟩

include hx h in
lemma Sys.discharged_counted (hj : j ∈ s.ids) (hc : x = .finalize c fork .decrement)
    (hw : e.jobs j = some r) : c.job ∈ (s.apply t e).discharged t j := by
  subst hc
  cases h
  refine Sys.mem_discharged.mpr ⟨c, fork, _, update_self .., rfl, ⟨j, r.depsPending⟩, ?_, rfl⟩
  exact mem_hits.mpr ⟨hj, r, hw, rfl⟩

include hS hB hx h in
lemma Bounded.written (hR : Respects D ρ j es s (.exec t env)) (hu : s.unfired j)
    (hw : e.jobs j = some r) :
    Covers ρ r.depsPending (D.owed (s.apply t e) es \ (s.apply t e).discharged t j) := by
  have he := execStmt_spec h
  have howed : D.owed (s.apply t e) es ⊆ D.owed s es := Debt.owed_apply hx h
  have hsub := Finset.sdiff_subset_sdiff howed fun p (hp : p ∈ s.discharged t j) =>
    Sys.discharged_apply hx h hp
  rcases he.row hw with ⟨r0, hr0, hc⟩ | hk
  · have hv := hB.view hu hr0
    cases hc.counter with
    | kept hd => exact hv.mono hsub (Nat.le_of_eq hd.symm)
    | adopted _ hd => exact hv.mono hsub hd
    | @counted c fork hxc hedge hpos hd =>
      obtain ⟨d, -, -, -, hdebt⟩ := hB.counts_debtor hx hxc hedge
      have hmem : c.job ∈ D.owed s es \ s.discharged t j := by
        refine Finset.mem_sdiff.mpr ⟨hdebt, fun hp => ?_⟩
        obtain ⟨c', fork', pc, hx', -, hit, hh, -⟩ := Sys.mem_discharged.mp hp
        rw [hx, hxc] at hx'
        cases hx'
        cases hh
      have hdis := Sys.discharged_counted hx h hB.present hxc hw
      refine (hv.pay hmem).mono (fun p hp => ?_) (Nat.le_of_eq hd.symm)
      obtain ⟨ho, hn⟩ := Finset.mem_sdiff.mp hp
      refine Finset.mem_sdiff.mpr ⟨hsub hp, fun hpc => ?_⟩
      rw [Finset.mem_singleton.mp hpc] at hn
      exact hn hdis
    | reconciled hxc hrec hd =>
      subst hxc
      have hcov := hR.recount rfl hx hr0 hrec
      exact hcov.mono (Finset.sdiff_subset.trans howed) (Nat.le_of_eq hd.symm)
  · have hb := hS.below j hB.present
    have hf := (he.born j hk).1
    omega

end

lemma Bounded.exec (hS : Sound s) (hB : Bounded D ρ j es s)
    (hR : Respects D ρ j es s (.exec t env)) (hx : s.sessions t = some x)
    (h : execStmt env (s.snapshot t) s.fresh x = some e) (ha : s.admits t e = true) :
    Bounded D ρ j es (s.apply t e) := by
  have he := execStmt_spec h
  have hun : (s.apply t e).unfired j → s.unfired j := by
    intro hu f hm
    refine hu f ?_
    rw [Sys.apply, committed_insertRows]
    exact hm
  refine ⟨mem_append_left _ hB.present, hB.edges.insertRows, hB.fires.insertRows, ?wired,
    ?closed, ?base, ?draft, ?hit⟩
  case wired =>
    rw [← hB.wired]
    exact congrArg (filter _) committed_insertRows
  case closed =>
    intro sl d hm hd
    rcases mem_append.mp hm with hm | hm
    · exact hB.closed hm hd
    obtain ⟨d', hd', rfl⟩ := mem_map.mp hm
    cases hd
    exact hR.edges rfl hx h d' hd'
  case base =>
    intro r hu hb
    exact (hB.base (hun hu) (put_base.symm.trans hb)).mono (Debt.owed_apply hx h) le_rfl
  case draft =>
    intro u r hu hd
    rcases put_draft_some.mp hd with ⟨hw, rfl⟩ | ⟨-, hd'⟩
    · exact hB.written hS hx h hR (hun hu) hw
    · exact (hB.draft (hun hu) hd').mono (Finset.sdiff_subset_sdiff (Debt.owed_apply hx h)
        fun p => Sys.discharged_apply hx h) le_rfl
  case hit =>
    intro u c fork pc hit hu hh hj
    rcases update_sessions hu with ⟨-, hy⟩ | ⟨-, hy⟩
    · obtain ⟨pc0, rfl, -, hh', -⟩ := he.next.of_finalize (some.inj hy)
      rcases hh' with hh' | ⟨rfl, hh'⟩
      · exact hB.hit hx (hh' ▸ hh) hj
      rw [hh'] at hh
      obtain ⟨-, r, hr, -⟩ := mem_hits.mp hh
      rw [execStmt_decrement h, hj] at hr
      obtain ⟨-, -, -, -, -, hedge⟩ := decrementWhere_row hr
      obtain ⟨d, hm, hp, hpol, -⟩ := hB.counts_debtor hx rfl hedge
      exact ⟨d, hm, hp, hpol⟩
    · exact hB.hit hy hh hj

lemma Bounded.step (hS : Sound s) (hB : Bounded D ρ j es s) (hR : Respects D ρ j es s a)
    (h : s.step a = some s') : Bounded D ρ j es s' := by
  cases Sys.moves_of_step h with
  | call hn => exact hB.call hS hn _
  | exec hx he ha => exact hB.exec hS hR hx he ha
  | commit hx hc => exact hB.commit hS hR hx hc
  | deadlock hx hr => exact hB.deadlock hS hx hr
  | crash hx => exact hB.crash hS
  | claim hc => exact hB.autocommit hS (keeps_nodeClaim _) hc
  | reclaim hr => exact hB.autocommit hS (keeps_sweepReclaim _) hr

lemma Bounded.unfired_step (hB : Bounded D ρ j es s) (h : s.step a = some s')
    (hu : s'.unfired j) : s.unfired j := by
  have hend : ∀ {t}, Ended t s.fires s'.fires → s.unfired j := fun he f hf =>
    hu f (he.mem_committed hB.fires hf)
  cases Sys.moves_of_step h with
  | call hn => exact hu
  | exec hx he ha =>
    intro f hf
    refine hu f ?_
    rw [Sys.apply, committed_insertRows]
    exact hf
  | commit hx hc => exact hend (.inr (.inl rfl))
  | deadlock | crash => exact hend (.inr (.inr rfl))
  | claim hc =>
    obtain ⟨-, -, rfl⟩ := Sys.autocommit_some hc
    exact hu
  | reclaim hr =>
    obtain ⟨-, -, rfl⟩ := Sys.autocommit_some hr
    exact hu

lemma Sys.hits_step {s : Sys} (h : s.step a = some s')
    (hx : s'.sessions t = some (.finalize c fork pc)) (hh : hit ∈ pc.hits) :
    (∃ pc0, s.sessions t = some (.finalize c fork pc0) ∧ pc.hits = pc0.hits) ∨
      ∃ env e, a = .exec t env ∧ s.sessions t = some (.finalize c fork .decrement) ∧
        execStmt env (s.snapshot t) s.fresh (.finalize c fork .decrement) = some e ∧
        pc.hits = hits (s.snapshot t) e.jobs := by
  have hidle : ∀ {u x}, (∀ y, x = some y → y.Idle) → s'.sessions = Function.update s.sessions u x →
      ∃ pc0, s.sessions t = some (.finalize c fork pc0) ∧ pc.hits = pc0.hits := by
    intro u x hi hs
    rw [hs] at hx
    rcases update_sessions hx with ⟨-, hy⟩ | ⟨-, hy⟩
    · rw [(hi _ hy).2] at hh
      cases hh
    · exact ⟨pc, hy, rfl⟩
  cases Sys.moves_of_step h with
  | @call u c' hn =>
    refine .inl (hidle (fun y hy => ?_) rfl)
    rw [← some.inj hy]
    exact idle_start c'
  | @exec u x env e hu he ha =>
    rcases update_sessions hx with ⟨rfl, hy⟩ | ⟨-, hy⟩
    · obtain ⟨pc0, rfl, -, hh', -⟩ := (execStmt_spec he).next.of_finalize (some.inj hy)
      rcases hh' with hh' | ⟨rfl, hh'⟩
      · exact .inl ⟨pc0, hu, hh'⟩
      · exact .inr ⟨env, e, rfl, hu, he, hh'⟩
    · exact .inl ⟨pc, hy, rfl⟩
  | commit hu hc => exact .inl (hidle (idle_of_afterCommit hc) rfl)
  | deadlock hu hr => exact .inl (hidle (idle_of_restart hr) rfl)
  | crash hu => exact .inl (hidle (fun _ hy => by cases hy) rfl)
  | claim hc =>
    obtain ⟨-, -, rfl⟩ := Sys.autocommit_some hc
    exact .inl ⟨pc, hx, rfl⟩
  | reclaim hr =>
    obtain ⟨-, -, rfl⟩ := Sys.autocommit_some hr
    exact .inl ⟨pc, hx, rfl⟩

lemma Sys.counted_step {s : Sys} (h : s.step a = some s') :
    s'.counted = s.counted ∨ ∃ t c fork hs, a = .commit t ∧
      s.sessions t = some (.finalize c fork (.fire hs [])) ∧
      s' = s.commit t none (hs.map fun h => (c.job, h.joinJob)) := by
  cases Sys.moves_of_step h with
  | call hn | exec hx he ha | deadlock hx hr | crash hx => exact .inl rfl
  | @commit t x x' new hx hc =>
    rcases afterCommit_cases hc with ⟨c, fork, -, -, rfl⟩ | ⟨c, fork, hs, rfl, rfl, rfl⟩ |
      ⟨-, rfl, -⟩
    · exact .inl (append_nil _)
    · exact .inr ⟨t, c, fork, hs, rfl, hx, rfl⟩
    · exact .inl (append_nil _)
  | claim hc =>
    obtain ⟨-, -, rfl⟩ := Sys.autocommit_some hc
    exact .inl rfl
  | reclaim hr =>
    obtain ⟨-, -, rfl⟩ := Sys.autocommit_some hr
    exact .inl rfl

lemma Sound.inFlight_step (hS : Sound s) (h : s.step a = some s') (hf : s'.inFlight p) :
    s.inFlight p ∨ ∀ b, (s.jobs p).base = some b → b.status.terminal = false := by
  obtain ⟨u, c, fork, pc, hx, rfl, hp⟩ := hf
  cases Sys.moves_of_step h with
  | @call t c' hn =>
    rcases update_sessions hx with ⟨-, hy⟩ | ⟨-, hy⟩
    · cases c' with
      | finalizeNode c'' fork' =>
        cases hy
        cases hp
      | sweepJoinRederive batch => cases hy
      | drainOutbox batch => cases hy
    · exact .inl ⟨u, c, fork, pc, hy, rfl, hp⟩
  | @exec t x env e hx0 he ha =>
    rcases update_sessions hx with ⟨-, hy⟩ | ⟨-, hy⟩
    · obtain ⟨pc0, rfl, hp0, -⟩ := (execStmt_spec he).next.of_finalize (some.inj hy)
      exact .inl ⟨t, c, fork, pc0, hx0, rfl, hp0 ▸ hp⟩
    · exact .inl ⟨u, c, fork, pc, hy, rfl, hp⟩
  | @commit t x x' new hx0 hc =>
    rcases update_sessions hx with ⟨-, hy⟩ | ⟨-, hy⟩
    · rcases afterCommit_cases hc with ⟨c', fork', rfl, rfl, -⟩ | ⟨-, -, -, -, rfl, -⟩ |
        ⟨rfl, -⟩
      · cases hy
        obtain ⟨r, -, -, hn⟩ := hS.marked hx0 rfl
        exact .inr hn
      · cases hy
      · cases hy
    · exact .inl ⟨u, c, fork, pc, hy, rfl, hp⟩
  | @deadlock t x x' hx0 hr =>
    rcases update_sessions hx with ⟨-, hy⟩ | ⟨-, hy⟩
    · cases x with
      | finalize c' fork' pc' =>
        cases hr
        obtain ⟨rfl, rfl, rfl⟩ := finalize.inj (some.inj hy)
        by_cases hpc : pc'.inTx2 = true
        · exact .inl ⟨t, c', fork', pc', hx0, rfl, hpc⟩
        · rw [if_neg hpc] at hp
          cases hp
      | sweep batch pc => cases hr
      | drain batch pc => cases hr
    · exact .inl ⟨u, c, fork, pc, hy, rfl, hp⟩
  | @crash t x hx0 =>
    rcases update_sessions hx with ⟨-, hy⟩ | ⟨-, hy⟩
    · cases hy
    · exact .inl ⟨u, c, fork, pc, hy, rfl, hp⟩
  | claim hc =>
    obtain ⟨-, -, rfl⟩ := Sys.autocommit_some hc
    exact .inl ⟨u, c, fork, pc, hx, rfl, hp⟩
  | reclaim hr =>
    obtain ⟨-, -, rfl⟩ := Sys.autocommit_some hr
    exact .inl ⟨u, c, fork, pc, hx, rfl, hp⟩

end TaskQ
