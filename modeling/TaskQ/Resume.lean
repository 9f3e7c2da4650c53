import TaskQ.PrematureFire
import TaskQ.Retry

namespace TaskQ
open RowLocks Countdown Runs List Slot

structure Drained (j : JobId) (s : Sys) : Prop where
  row : ∃ b, (s.jobs j).base = some b ∧
    ∀ t r, (s.jobs j).draft = some (t, r) → r.depsPending ≤ b.depsPending
  spent : ¬ s.unfired j → (s.jobs j).base = some b → b.depsPending = 0
  zero : sl ∈ s.fires → sl.draft = some (t, f) → f.joinJob = j → (s.jobs j).view t = some r →
    r.depsPending = 0

lemma Drained.view_le (h : Drained j s) (hr : (s.jobs j).view t = some r)
    (hb : (s.jobs j).base = some b) : r.depsPending ≤ b.depsPending := by
  obtain ⟨b', hb', hd⟩ := h.row
  cases hb.symm.trans hb'
  rcases draft_or_base hr with hr | ⟨-, hr⟩
  · exact hd t r hr
  · exact Nat.le_of_eq (congrArg JobRow.depsPending (Option.some.inj (hr.symm.trans hb)))

lemma Drained.seen (h : Drained j s) (hf : f ∈ visible t s.fires) (hj : f.joinJob = j)
    (hr : (s.jobs j).view t = some r) : r.depsPending = 0 := by
  obtain ⟨sl, hm, hv⟩ := mem_filterMap.mp hf
  rcases draft_or_base hv with hd | ⟨-, hb⟩
  · exact h.zero hm hd hj hr
  obtain ⟨b, hb', -⟩ := h.row
  have hu : ¬ s.unfired j := fun hu => hu f (mem_filterMap.mpr ⟨sl, hm, hb⟩) hj
  have hle := h.view_le hr hb'
  rw [h.spent hu hb'] at hle
  exact Nat.le_zero.mp hle

lemma Drained.commit (h : Drained j s) : Drained j (s.commit t x new) := by
  have hrel : Released t s (s.commit t x new) x := s.released_commit
  obtain ⟨b, hb, hle⟩ := h.row
  obtain ⟨v, hv⟩ := exists_view hb t
  have hbase : ((s.commit t x new).jobs j).base = some v := commit_base.trans hv
  refine ⟨⟨v, hbase, fun u r hd => ?row⟩, fun hu hb' => ?spent, fun hm hd hj hr => ?zero⟩
  case row =>
    obtain ⟨hd, hu⟩ := hrel.draft.mp hd
    rw [hrel.base_of_draft hd hu, hb] at hbase
    rw [← Option.some.inj hbase]
    exact hle u r hd
  case spent =>
    cases hbase.symm.trans hb'
    simp only [Sys.unfired, not_forall, not_not] at hu
    obtain ⟨f, hf, hj⟩ := hu
    rw [Sys.commit, committed_map_commit] at hf
    exact h.seen hf hj hv
  case zero =>
    obtain ⟨sl, hm0, rfl⟩ := mem_map.mp hm
    obtain ⟨hd, hu⟩ := commit_draft_some.mp hd
    rcases draft_or_base hr with hr | ⟨hn, hr⟩
    · exact h.zero hm0 hd hj (view_of_draft (hrel.draft.mp hr).1)
    have hview := view_undrafted fun r hd' => hn r (hrel.draft.mpr ⟨hd', hu⟩)
    have h0 := h.zero hm0 hd hj (hview.trans hb)
    have hvb := h.view_le hv hb
    cases hbase.symm.trans hr
    omega

lemma Drained.rollback (h : Drained j s) : Drained j (s.rollback t x) := by
  have hrel : Released t s (s.rollback t x) x := s.released_rollback
  have hbase : ((s.rollback t x).jobs j).base = (s.jobs j).base := rollback_base
  obtain ⟨b, hb, hle⟩ := h.row
  refine ⟨⟨b, hbase.trans hb, fun u r hd => hle u r (hrel.draft.mp hd).1⟩, fun hu hb' => ?spent,
    fun hm hd hj hr => ?zero⟩
  case spent =>
    refine h.spent (fun hun => hu fun f hf => hun f ?_) (hbase.symm.trans hb')
    rwa [Sys.rollback, committed_map_rollback] at hf
  case zero =>
    obtain ⟨sl, hm0, rfl⟩ := mem_map.mp hm
    obtain ⟨hd, hu⟩ := rollback_draft_some.mp hd
    refine h.zero hm0 hd hj ?_
    rcases draft_or_base hr with hr | ⟨hn, hr⟩
    · exact view_of_draft (hrel.draft.mp hr).1
    · have hview := view_undrafted fun r hd' => hn r (hrel.draft.mpr ⟨hd', hu⟩)
      exact hview.trans (hbase.symm.trans hr)

lemma Drained.store (h : Drained j s)
    (hd : ∀ r, w j = some r → ∃ r0, (s.jobs j).base = some r0 ∧ r.depsPending = r0.depsPending)
    (hl : ∀ d, (s.jobs j).draft = some d → w j = none) : Drained j (s.store w) := by
  cases hw : w j with
  | none =>
    have hj : (s.store w).jobs j = s.jobs j := store_of_none hw
    refine ⟨?_, fun hu hb => h.spent hu (hj ▸ hb), fun hm hf hj' hr => h.zero hm hf hj' (hj ▸ hr)⟩
    rw [hj]
    exact h.row
  | some r =>
    have hj : (s.store w).jobs j = ⟨some r, none⟩ := store_of_some hw
    obtain ⟨r0, hr0, hdeps⟩ := hd r hw
    have hfree : (s.jobs j).draft = none := by
      by_contra hn
      obtain ⟨d, hd'⟩ := Option.ne_none_iff_exists'.mp hn
      rw [hl d hd'] at hw
      cases hw
    have hview : ∀ t, (s.jobs j).view t = some r0 := fun t =>
      (view_undrafted fun _ hd' => by rw [hfree] at hd'; cases hd').trans hr0
    refine ⟨?_, fun hu hb => ?_, fun hm hf hj' hr => ?_⟩
    · rw [hj]
      exact ⟨r, rfl, fun _ _ hd' => by cases hd'⟩
    · rw [hj] at hb
      cases hb
      exact hdeps.trans (h.spent hu hr0)
    · rw [hj] at hr
      cases hr
      exact hdeps.trans (h.zero hm hf hj' (hview _))

lemma Drained.exec (hS : Sound s) (h : Drained j s)
    (he : EffectSpec env (s.snapshot t) fresh x e) (ha : s.admits t e = true)
    (hlow : ∀ r, e.jobs j = some r →
      ∃ r0, (s.jobs j).view t = some r0 ∧ r.depsPending ≤ r0.depsPending)
    (hfire : ∀ f ∈ e.fires, f.joinJob = j →
      ∃ r0, (s.jobs j).view t = some r0 ∧ r0.depsPending = 0) : Drained j (s.apply t e) := by
  have hbase : ((s.apply t e).jobs j).base = (s.jobs j).base := put_base
  -- what a transaction sees of the counter never rises
  have hview : ∀ {u r}, ((s.apply t e).jobs j).view u = some r →
      ∃ r0, (s.jobs j).view u = some r0 ∧ r.depsPending ≤ r0.depsPending := by
    intro u r hr
    rcases draft_or_base hr with hd | ⟨hn, hb⟩
    · rcases put_draft_some.mp hd with ⟨hw, rfl⟩ | ⟨-, hd⟩
      · exact hlow r hw
      · exact ⟨r, view_of_draft hd, le_rfl⟩
    · refine ⟨r, (view_undrafted fun r' hd => ?_).trans (hbase.symm.trans hb),
        le_rfl⟩
      by_cases hu : u = t
      · obtain ⟨r'', hd'⟩ := draft_apply_own (e := e) (hu ▸ hd)
        exact hn r'' (hu ▸ hd')
      · exact hn r' (hS.draft_apply he ha hd hu)
  obtain ⟨b, hb, hle⟩ := h.row
  refine ⟨⟨b, hbase.trans hb, fun u r hd => ?row⟩, fun hu hb' => ?spent, fun hm hd hj hr => ?zero⟩
  case row =>
    obtain ⟨r0, hr0, hle0⟩ := hview (view_of_draft hd)
    exact hle0.trans (h.view_le hr0 hb)
  case spent =>
    refine h.spent (fun hun => hu fun f hf => hun f ?_) (hbase.symm.trans hb')
    rwa [Sys.apply, committed_insertRows] at hf
  case zero =>
    obtain ⟨r0, hr0, hle0⟩ := hview hr
    have h0 : r0.depsPending = 0 := by
      rcases mem_append.mp hm with hm | hm
      · exact h.zero hm hd hj hr0
      obtain ⟨f, hf, rfl⟩ := mem_map.mp hm
      obtain ⟨rfl, rfl⟩ := Prod.mk.inj (Option.some.inj hd)
      obtain ⟨r1, hr1, h0⟩ := hfire f hf hj
      rwa [Option.some.inj (hr0.symm.trans hr1)]
    omega

structure Accounts (j : JobId) (es : List Edge) (s : Sys) : Prop where
  counted : (p, j) ∈ s.counted → s.unfired j → ¬ s.inFlight p ∧ ∃ e ∈ es, e.parent = p ∧
    ∃ b, (s.jobs p).base = some b ∧ b.status.terminal = true ∧
      (b.status = .failed → e.failurePolicy.absorbing = true)
  hits : s.sessions t = some (.finalize c fork pc) → h ∈ pc.hits → h.joinJob = j →
    (c.job, j) ∉ s.counted
  distinct : s.sessions t = some (.finalize c fork pc) →
    (pc.hits.map DecrementHit.joinJob).Nodup
  once : s.counted.count (p, j) ≤ 1

lemma Bounded.counted_commit (hS : Sound s) (hB : Bounded D ρ j es s)
    (hx : s.sessions t = some (.finalize c fork (.fire hs []))) (hh : h ∈ hs) (hj : h.joinJob = j)
    (hstep : s.step (.commit t) = some (s.commit t none new)) :
    ¬ (s.commit t none new).inFlight c.job ∧ ∃ e ∈ es, e.parent = c.job ∧
      ∃ b, ((s.commit t none new).jobs c.job).base = some b ∧ b.status.terminal = true ∧
        (b.status = .failed → e.failurePolicy.absorbing = true) := by
  constructor
  · rintro ⟨u, c', fork', pc', hu, hc', hp'⟩
    rcases update_sessions hu with ⟨-, hy⟩ | ⟨hut, hy⟩
    · cases hy
    · exact hut (hS.single hx rfl hy hp' hc')
  · obtain ⟨e, he, hp, hpol⟩ := hB.hit hx hh hj
    obtain ⟨b, hb, hs⟩ := hS.flight hx rfl
    have ht := hs ▸ c.outcome.2
    obtain ⟨b', hb', hs'⟩ := hS.terminal_step hstep hb ht
    refine ⟨e, he, hp, b', hb', hs' ▸ ht, fun hf => ?_⟩
    rwa [FinalizeCall.countedPolicy, if_pos (hs.symm.trans (hs'.symm.trans hf))] at hpol

lemma Accounts.step (hS : Sound s) (hB : Bounded D ρ j es s) (hD : Drained j s)
    (hA : Accounts j es s) (h : s.step a = some s') : Accounts j es s' := by
  refine ⟨?counted, ?hits, ?distinct, ?once⟩
  case counted =>
    intro p hp hu
    have hold : (p, j) ∈ s.counted → ¬ s'.inFlight p ∧ ∃ e ∈ es, e.parent = p ∧
        ∃ b, (s'.jobs p).base = some b ∧ b.status.terminal = true ∧
          (b.status = .failed → e.failurePolicy.absorbing = true) := by
      intro hp
      obtain ⟨hn, e, he, hep, b, hb, ht, hpol⟩ := hA.counted hp (hB.unfired_step h hu)
      refine ⟨fun hf => ?_, ?_⟩
      · rcases hS.inFlight_step h hf with hf | hf
        · exact hn hf
        · rw [hf b hb] at ht
          cases ht
      · obtain ⟨b', hb', hs⟩ := hS.terminal_step h hb ht
        rw [← hs] at ht hpol
        exact ⟨e, he, hep, b', hb', ht, hpol⟩
    rcases Sys.counted_step h with hc | ⟨t, c, fork, hs, rfl, hx, rfl⟩
    · exact hold (hc ▸ hp)
    rcases mem_append.mp hp with hp | hp
    · exact hold hp
    obtain ⟨hit, hh, heq⟩ := mem_map.mp hp
    obtain ⟨rfl, hj⟩ := Prod.mk.inj heq
    exact hB.counted_commit hS hx hh hj h
  case hits =>
    intro t c fork pc hit hx hh hj hm
    rcases Sys.hits_step h hx hh with ⟨pc0, hx0, hh0⟩ | ⟨env, e, rfl, hx0, he, hh0⟩
    · have hn := hA.hits hx0 (hh0 ▸ hh) hj
      rcases Sys.counted_step h with hc | ⟨u, c', fork', hs, rfl, hu, rfl⟩
      · exact hn (hc ▸ hm)
      rcases mem_append.mp hm with hm | hm
      · exact hn hm
      obtain ⟨hit', -, heq⟩ := mem_map.mp hm
      -- the two finalizes of one node would both be in tx2
      have hpc := FinalizePc.inTx2_of_hits (hh0 ▸ hh)
      obtain rfl := hS.single hx0 hpc hu rfl (Prod.mk.inj heq).1
      rcases update_sessions hx with ⟨-, hy⟩ | ⟨hut, -⟩
      · cases hy
      · exact hut rfl
    · rw [hh0] at hh
      obtain ⟨-, r, hr, -⟩ := mem_hits.mp hh
      rw [execStmt_decrement he, hj] at hr
      obtain ⟨r0, hr0, -, hpos, -⟩ := decrementWhere_row hr
      have hm0 : (c.job, j) ∈ s.counted := by
        rcases Sys.counted_step h with hc | ⟨u, c', fork', hs, ha, -⟩
        · exact hc ▸ hm
        · cases ha
      by_cases hu : s.unfired j
      · exact (hA.counted hm0 hu).1 ⟨t, c, fork, .decrement, hx0, rfl, rfl⟩
      -- a fired join has nothing left to count
      simp only [Sys.unfired, not_forall, not_not] at hu
      obtain ⟨f, hf, hfj⟩ := hu
      have h0 := hD.seen (hB.fires.mem_visible hf) hfj hr0
      omega
  case distinct =>
    intro t c fork pc hx
    cases hp : pc.hits with
    | nil => exact nodup_nil
    | cons hit rest =>
      have hh := hp ▸ mem_cons_self
      rw [← hp]
      rcases Sys.hits_step h hx hh with ⟨pc0, hx0, hh0⟩ | ⟨env, e, -, -, -, hh0⟩
      · rw [hh0]
        exact hA.distinct hx0
      · rw [hh0]
        exact nodup_hits hS.nodup
  case once =>
    intro p
    rcases Sys.counted_step h with hc | ⟨t, c, fork, hs, rfl, hx, rfl⟩
    · rw [hc]
      exact hA.once
    have hcount : (s.commit t none (hs.map fun h => (c.job, h.joinJob))).counted.count (p, j) =
        s.counted.count (p, j) + (hs.map fun h => (c.job, h.joinJob)).count (p, j) :=
      count_append
    rw [hcount]
    by_cases hm : (p, j) ∈ hs.map fun h => (c.job, h.joinJob)
    · obtain ⟨hit, hh, heq⟩ := mem_map.mp hm
      obtain ⟨rfl, hj⟩ := Prod.mk.inj heq
      have hnew : (hs.map fun h => (c.job, h.joinJob)).Nodup := by
        have hmap := (hA.distinct hx).map (Prod.mk_right_injective c.job)
        rwa [map_map] at hmap
      rw [count_eq_zero_of_not_mem (hA.hits hx hh hj), Nat.zero_add]
      exact nodup_iff_count_le_one.mp hnew _
    · rw [count_eq_zero_of_not_mem hm, Nat.add_zero]
      exact hA.once

def countedDebt : Debt where
  extra cs _ e := (e.parent, e.child) ∉ cs
  anti h hm := h (List.mem_append_left _ hm)

/-- A join as its run was created: its counter has a unit for each of its edges. -/
structure Unpaid (j : JobId) (s : Sys) : Prop where
  quiet : s.Quiet
  listed : s.Listed
  row : ∃ r, (s.jobs j).base = some r ∧ (s.edgesOf j).length ≤ r.depsPending
  unfired : s.unfired j
  uncounted : ∀ p, (p, j) ∉ s.counted

/-- The statement belongs to no sweep pass, and to no fork that adopts `j`. -/
def Unswept (j : JobId) (s : Sys) : Event → Prop
  | .exec t _ => (∀ batch pc, s.sessions t ≠ some (.sweep batch pc)) ∧
      ∀ c fork children, s.sessions t ≠ some (.finalize c fork (.joinAdopt children j))
  | _ => True

/-- Finalizes and manual resumes over a wired join; no retry splits a finalize it re-arms. -/
def Resuming (j : JobId) (s : Sys) : Operation → Prop
  | .engine a => EdgesWritten j s a ∧ Unswept j s a
  | .retry t now flow nodeKey => s.Spares t (retryWorkflowNode (s.snapshot t) now flow nodeKey)

/-- While `j` has not fired, a retry re-arms a counted parent only if it failed on a fail-closed
edge. -/
def RearmsClosed (j : JobId) (s : Sys) : Operation → Prop
  | .engine _ => True
  | .retry t now flow nodeKey => s.unfired j → ∀ e ∈ s.edgesOf j, (e.parent, j) ∈ s.counted →
      ∀ r0 r, (s.snapshot t).jobs e.parent = some r0 →
      retryWorkflowNode (s.snapshot t) now flow nodeKey e.parent = some r →
      r.status ≠ r0.status → r0.status = .failed ∧ e.failurePolicy = .failClosed

structure Resumed (j : JobId) (es : List Edge) (s : Sys) : Prop where
  sound : Sound s
  bounded : Bounded countedDebt 0 j es s
  drained : Drained j s
  accounts : Accounts j es s

lemma Unpaid.resumed (h : Unpaid j s) : Resumed j (s.edgesOf j) s := by
  obtain ⟨r, hr, hd⟩ := h.row
  have hS : Sound s := .of_quiet h.quiet h.listed
  have hx : ∀ {t x}, s.sessions t ≠ some x := by
    intro t x hx
    rw [h.quiet.sessions] at hx
    cases hx
  refine ⟨hS, ?bounded, ⟨⟨r, hr, fun t r' hd' => ?_⟩, fun hu => absurd h.unfired hu, ?_⟩,
    ⟨fun hc => absurd hc (h.uncounted _), fun h => absurd h hx, fun h => absurd h hx, ?_⟩⟩
  case bounded =>
    refine Bounded.of_quiet h.quiet (h.listed.mem hr) fun r' hr' => ?_
    cases hr.symm.trans hr'
    have hcard := Debt.owed_card_le (D := countedDebt) (s := s) (q := fun _ => true)
      fun e (_ : e ∈ s.edgesOf j) _ => rfl
    rw [countP_true] at hcard
    rw [Covers, Nat.zero_add]
    exact hcard.trans hd
  · rw [h.quiet.jobs] at hd'
    cases hd'
  · intro sl t f r' hm hd'
    rw [h.quiet.fires hm] at hd'
    cases hd'
  · intro p
    rw [count_eq_zero_of_not_mem (h.uncounted p)]
    exact Nat.zero_le _

lemma Resumed.child (hR : Resumed j es s) (he : e ∈ es) : e.child = j := by
  rw [← hR.bounded.wired] at he
  exact of_decide_eq_true (mem_filter.mp he).2

lemma Resumed.respects (hR : Resumed j es s) (he : EdgesWritten j s a) (hu : Unswept j s a) :
    Respects countedDebt 0 j es s a where
  edges ha hx h := by
    subst ha
    exact he _ _ hx h
  recount ha hx := by
    subst ha
    exact absurd hx (hu.1 _ _)
  commit := by
    intro t c fork hs hit e _ hx hh hj hm hp hn
    refine hn (mem_append_right _ (mem_map.mpr ⟨hit, hh, ?_⟩))
    rw [hp, hR.child hm, hj]

lemma Resumed.drained_step (hR : Resumed j es s) (hu : Unswept j s a)
    (h : s.step a = some s') : Drained j s' := by
  have hS := hR.sound
  have hauto : ∀ {t w}, Keeps (s.snapshot t) w → s.autocommit t w = some s' → Drained j s' := by
    intro t w hw hs
    obtain ⟨hn, hl, rfl⟩ := Sys.autocommit_some hs
    refine hR.drained.store (fun r hr => ?_) fun d hd => ?_
    · obtain ⟨r0, hr0, -, hd⟩ := hw _ _ hr
      exact ⟨r0, (hS.view_eq_base hn j).symm.trans hr0, hd⟩
    rcases hl j hR.bounded.present with hw | hd'
    · exact hw
    · rw [hd'] at hd
      cases hd
  cases Sys.moves_of_step h with
  | call hn => exact ⟨hR.drained.row, hR.drained.spent, hR.drained.zero⟩
  | @exec t x env e hx he ha =>
    have hspec := execStmt_spec he
    refine hR.drained.exec hS hspec ha (fun r hr => ?_) fun f hf hj => ?_
    · rcases hspec.row hr with ⟨r0, hr0, hc⟩ | hk
      · refine ⟨r0, hr0, ?_⟩
        cases hc.counter with
        | kept hd => exact Nat.le_of_eq hd
        | adopted hxa hd => exact absurd (hxa ▸ hx) (hu.2 _ _ _)
        | counted hxc hedge hpos hd => omega
        | reconciled hxs => exact absurd (hxs ▸ hx) (hu.1 _ _)
      · have hb := hS.below j hR.bounded.present
        have hf := (hspec.born j hk).1
        omega
    · cases (hspec.fires hf).1 with
      | zero hr h0 => exact ⟨_, hj ▸ hr, h0⟩
      | firable hxs => exact absurd (hxs ▸ hx) (hu.1 _ _)
  | commit hx hc => exact hR.drained.commit
  | deadlock | crash => exact hR.drained.rollback
  | claim hc => exact hauto (keeps_nodeClaim _) hc
  | reclaim hr => exact hauto (keeps_sweepReclaim _) hr

lemma Resumed.uncounted (hR : Resumed j es s) (hc : RearmsClosed j s (.retry t now flow key))
    (hn : s.sessions t = none) (hu : s.unfired j) (hb : (s.jobs p).base = some b)
    (hw : retryWorkflowNode (s.snapshot t) now flow key p = some r) (hs : r.status ≠ b.status) :
    (p, j) ∉ s.counted := by
  intro hm
  obtain ⟨-, e, he, rfl, b', hb', -, hpol⟩ := hR.accounts.counted hm hu
  cases hb.symm.trans hb'
  rw [← hR.bounded.wired] at he
  have hv := (hR.sound.view_eq_base hn e.parent).trans hb
  obtain ⟨hf, hcl⟩ := hc hu e he hm b r hv hw hs
  rw [hcl] at hpol
  cases hpol hf

lemma Resumed.retry (hR : Resumed j es s) (ho : Resuming j s (.retry t now flow key))
    (hc : RearmsClosed j s (.retry t now flow key)) (h : s.retry t now flow key = some s') :
    Resumed j es s' := by
  have ha := Sys.retry_some h
  have hS := hR.sound.autocommit ho ha
  obtain ⟨hn, hl, rfl⟩ := Sys.autocommit_some ha
  have hview := hR.sound.view_eq_base hn
  have hkept : ∀ {k r}, retryWorkflowNode (s.snapshot t) now flow key k = some r →
      ∃ r0, (s.jobs k).base = some r0 ∧ Resumes r0 r := by
    intro k r hr
    obtain ⟨r0, hr0, hres⟩ := resumes_retryWorkflowNode hr
    exact ⟨r0, (hview k).symm.trans hr0, hres⟩
  have hdeps : ∀ r, retryWorkflowNode (s.snapshot t) now flow key j = some r →
      ∃ r0, (s.jobs j).base = some r0 ∧ r.depsPending = r0.depsPending := by
    intro r hr
    obtain ⟨r0, hr0, hres⟩ := hkept hr
    exact ⟨r0, hr0, hres.deps⟩
  refine ⟨hS, hR.bounded.store hdeps fun hu e he howes => ?bounded,
    hR.drained.store hdeps fun d hd => ?drained, fun hm hu => ?counted, hR.accounts.hits,
    hR.accounts.distinct, hR.accounts.once⟩
  case bounded =>
    rcases howes with hfl | howes
    · exact .inl hfl
    refine .inr fun p hp => ?_
    cases hw : retryWorkflowNode (s.snapshot t) now flow key e.parent with
    | none => exact howes p ((congrArg base (store_of_none hw)).trans hp)
    | some r =>
      by_cases hs : r.status = p.status
      · rcases howes r (congrArg base (store_of_some hw)) with ht | hx
        · exact .inl (hs ▸ ht)
        · exact .inr hx
      · -- a re-armed parent was a debtor all along
        refine .inr ?_
        show (e.parent, e.child) ∉ s.counted
        rw [hR.child he]
        exact hR.uncounted hc hn hu hp hw hs
  case drained =>
    rcases hl j hR.bounded.present with hw | hd'
    · exact hw
    · rw [hd'] at hd
      cases hd
  case counted =>
    obtain ⟨hfl, e, he, hep, b, hb, ht, hpol⟩ := hR.accounts.counted hm hu
    refine ⟨hfl, e, he, hep, ?_⟩
    cases hw : retryWorkflowNode (s.snapshot t) now flow key _ with
    | none => exact ⟨b, (congrArg base (store_of_none hw)).trans hb, ht, hpol⟩
    | some r =>
      have hs : r.status = b.status := by
        by_contra hs
        exact hR.uncounted hc hn hu hb hw hs hm
      exact ⟨r, congrArg base (store_of_some hw), hs ▸ ht, hs ▸ hpol⟩

lemma Resumed.step (hR : Resumed j es s) (ho : Resuming j s a) (hc : RearmsClosed j s a)
    (h : s.operate a = some s') : Resumed j es s' := by
  cases a with
  | engine a =>
    exact ⟨hR.sound.step h, hR.bounded.step hR.sound (hR.respects ho.1 ho.2) h,
      hR.drained_step ho.2 h, hR.accounts.step hR.sound hR.bounded hR.drained h⟩
  | retry t now flow nodeKey => exact hR.retry ho hc h

/-- If no counted parent is re-armed, each counts once and the join fires over terminal parents. -/
theorem resume_keeps_order (hw : Unpaid j s0)
    (h : Reach Sys.operate (fun s a => Resuming j s a ∧ RearmsClosed j s a) s0 s) :
    (∀ p, s.counted.count (p, j) ≤ 1) ∧
      ∀ a s', s.operate a = some s' → ¬ s.hasFire j → s'.hasFire j → s.parentsDone j := by
  have hR : Resumed j (s0.edgesOf j) s :=
    h.invariant hw.resumed fun _ _ _ hI hok hs => hI.step hok.1 hok.2 hs
  refine ⟨fun p => hR.accounts.once, fun a s' hs hn hf e he => ?_⟩
  rw [hR.bounded.wired] at he
  cases a with
  | engine a =>
    rcases Sys.hasFire_step hs hf with hf0 | ⟨t, env, x, ef, f, rfl, hx, hex, hfm, hj⟩
    · exact absurd hf0 hn
    · exact hR.bounded.done_of_fire hR.sound hx hex hfm hj e he
  | retry t now flow nodeKey =>
    obtain ⟨-, -, rfl⟩ := Sys.autocommit_some (Sys.retry_some hs)
    exact absurd hf hn

def twoPolicies (policy : EdgeFailurePolicy) : Sys :=
  .ofRows [rootRow, claimedRow "p" 1, claimedRow "q" 2, joinRow 2]
    [{ child := 3, parent := 1, flow := 0, failurePolicy := policy },
      { child := 3, parent := 2, flow := 0 }]

lemma unpaid_twoPolicies (policy : EdgeFailurePolicy) : Unpaid 3 (twoPolicies policy) where
  quiet := Sys.quiet_ofRows _ _
  listed := Sys.listed_ofRows _ _
  row := ⟨joinRow 2, rfl, by cases policy <;> decide⟩
  unfired _ h := by cases h
  uncounted _ h := by cases h

def failFirst (n : Nat) : List Event :=
  [.call 1 (.finalizeNode { succeed 1 "p" 1 with outcome := failedOutcome } none), .exec 1 {},
    .exec 1 {}, .commit 1] ++ List.replicate n (.exec 1 {}) ++ [.commit 1]

def succeedAgain : List Event :=
  [.claim 1 1 1 0, .call 1 (.finalizeNode { succeed 1 "p" 1 with attempt := 2 } none), .exec 1 {},
    .exec 1 {}, .commit 1, .exec 1 {}]

def resuming (j : JobId) (s : Sys) : Operation → Bool
  | .engine (.exec t env) => edgesWritten j s (.exec t env) &&
      match s.sessions t with
      | some (.sweep _ _) => false
      | some (.finalize _ _ (.joinAdopt _ k)) => k ≠ j
      | _ => true
  | .engine _ => true
  | .retry _ _ _ _ => false

lemma Resuming.of_check (h : resuming j s a = true) : Resuming j s a ∧ RearmsClosed j s a := by
  cases a with
  | engine a =>
    refine ⟨?_, trivial⟩
    cases a with
    | exec t env =>
      rw [resuming, Bool.and_eq_true] at h
      refine ⟨.of_check h.1, fun batch pc hx => ?_, fun c fork children hx => ?_⟩
      · simp [hx] at h
      · simp [hx] at h
    | call | commit | deadlock | crash | claim | reclaim => exact ⟨trivial, trivial⟩
  | retry => cases h

def rearmsClosed (j : JobId) (s : Sys) (t : Tx) (now : Time) (flow : JobId) (nodeKey : String) :
    Bool :=
  (s.edgesOf j).all fun e => ((s.snapshot t).jobs e.parent).all fun r0 =>
    (retryWorkflowNode (s.snapshot t) now flow nodeKey e.parent).all fun r =>
      r.status = r0.status || (r0.status = .failed && e.failurePolicy = .failClosed)

lemma RearmsClosed.of_check (h : rearmsClosed j s t now flow key = true) :
    RearmsClosed j s (.retry t now flow key) := by
  intro _ e he _ r0 r hr0 hr hs
  have hc := all_eq_true.mp h e he
  simpa [hr0, hr, hs] using hc

lemma Sys.spares_of_exec {s : Sys} (hs : s.Quiet) (h : exec Sys.operate s l = some s')
    (hl : ∀ a ∈ l, a.tx = t) (ht : s'.sessions t = none) :
    s'.Spares t (retryWorkflowNode (s'.snapshot t) now flow key) := by
  have hcl : ∀ u, u ≠ t → s'.sessions u = none := by
    refine exec_invariant (I := fun s => ∀ u, u ≠ t → s.sessions u = none) h
      (fun _ _ => hs.sessions) fun s a s' ha hI hstep u hu => ?_
    rw [Sys.sessions_operate hstep ((hl a ha).symm ▸ hu)]
    exact hI u hu
  intro k r hr
  obtain ⟨r0, hr0, -⟩ := resumes_retryWorkflowNode hr
  refine ⟨r0, hr0, ?_⟩
  rintro ⟨u, c, fork, pc, hx, -⟩
  by_cases hu : u = t
  · rw [hu, ht] at hx
    cases hx
  · rw [hcl u hu] at hx
    cases hx

lemma reach_around_retry {s : Sys} {ok : Sys → Operation → Prop} (hs : s.Quiet)
    (hok : ∀ s a, Resuming j s a ∧ RearmsClosed j s a → ok s a)
    (h1 : (exec Sys.operate s l1).isSome = true)
    (hc1 : checks Sys.operate (resuming j) s l1 = true) (hl : ∀ a ∈ l1, a.tx = t)
    (ht : ((final Sys.operate s l1).sessions t).isNone = true)
    (h : (exec Sys.operate (final Sys.operate s l1) [.retry t now flow key]).isSome = true)
    (hr : Resuming j (final Sys.operate s l1) (.retry t now flow key) →
      ok (final Sys.operate s l1) (.retry t now flow key))
    (h2 : (exec Sys.operate (final Sys.operate (final Sys.operate s l1)
      [.retry t now flow key]) l2).isSome = true)
    (hc2 : checks Sys.operate (resuming j) (final Sys.operate (final Sys.operate s l1)
      [.retry t now flow key]) l2 = true) :
    Reach Sys.operate ok s (final Sys.operate (final Sys.operate (final Sys.operate s l1)
      [.retry t now flow key]) l2) := by
  have hseg : ∀ {s l}, (exec Sys.operate s l).isSome = true →
      checks Sys.operate (resuming j) s l = true → Reach Sys.operate ok s (final Sys.operate s l) :=
    fun h hc => .of_exec (exec_final h) (.of_checks _ hc fun _ _ hr => hok _ _ (Resuming.of_check hr))
  refine ((hseg h1 hc1).trans (.of_exec (exec_final h) ⟨hr ?_, fun _ _ => trivial⟩)).trans
    (hseg h2 hc2)
  exact Sys.spares_of_exec hs (exec_final h1) hl (Option.isNone_iff_eq_none.mp ht)

def resumed (policy : EdgeFailurePolicy) (n : Nat) (l : List Event) : Sys :=
  final Sys.operate (final Sys.operate (final Sys.operate (twoPolicies policy)
    ((failFirst n).map .engine)) [.retry 1 0 0 "p"]) ((succeedAgain ++ l).map .engine)

lemma tx_failFirst : ∀ a ∈ (failFirst n).map Operation.engine, a.tx = 1 := by
  simp only [failFirst, map_append, map_cons, map_nil, map_replicate]
  simp only [mem_append, mem_cons, mem_replicate, not_mem_nil, or_false]
  rintro a (((rfl | rfl | rfl | rfl) | ⟨-, rfl⟩) | rfl) <;> rfl

lemma Sys.hasFire_of_draft {s : Sys}
    (h : s.fires.any (fun sl => sl.draft.any fun d => d.2.joinJob = j) = true) : s.hasFire j := by
  obtain ⟨sl, hm, hd⟩ := any_eq_true.mp h
  obtain ⟨⟨t, f⟩, hd, hj⟩ := (Option.any_eq_true ..).mp hd
  exact ⟨sl, hm, f, .inr ⟨t, hd⟩, of_decide_eq_true hj⟩

/-- Job 1 fails, is resumed and succeeds: counted twice, the join fires while job 2 still runs. -/
theorem resume_counts_twice : Unpaid 3 (twoPolicies .collect) ∧
    (∃ s a s', Reach Sys.operate (Resuming 3) (twoPolicies .collect) s ∧
      s.operate a = some s' ∧ ¬ s.hasFire 3 ∧ s'.hasFire 3 ∧ ¬ s.parentsDone 3) ∧
    ∃ s, Reach Sys.operate (Resuming 3) (twoPolicies .collect) s ∧ s.counted.count (1, 3) = 2 := by
  have hreach : ∀ l, (exec Sys.operate (final Sys.operate (final Sys.operate (twoPolicies .collect)
        ((failFirst 6).map .engine)) [.retry 1 0 0 "p"])
        ((succeedAgain ++ l).map .engine)).isSome = true →
      checks Sys.operate (resuming 3) (final Sys.operate (final Sys.operate (twoPolicies .collect)
        ((failFirst 6).map .engine)) [.retry 1 0 0 "p"])
        ((succeedAgain ++ l).map .engine) = true →
      Reach Sys.operate (Resuming 3) (twoPolicies .collect) (resumed .collect 6 l) :=
    fun l => reach_around_retry (Sys.quiet_ofRows _ _) (fun _ _ h => h.1) (by decide) (by decide)
      tx_failFirst (by decide) (by decide) id
  refine ⟨unpaid_twoPolicies _, ⟨resumed .collect 6 [], .engine (.exec 1 {}),
    ((resumed .collect 6 []).operate (.engine (.exec 1 {}))).get (by decide),
    hreach [] (by decide) (by decide), (Option.some_get _).symm, ?_, ?_, ?_⟩,
    resumed .collect 6 [.exec 1 {}, .exec 1 {}, .exec 1 {}, .commit 1],
    hreach _ (by decide) (by decide), by decide⟩
  · rintro ⟨sl, hm, -⟩
    cases hm
  · apply Sys.hasFire_of_draft
    decide
  · intro hd
    obtain ⟨p, hp, ht⟩ := hd { child := 3, parent := 2, flow := 0 } (by decide)
    have hs : ((resumed .collect 6 []).jobs 2).base.map JobRow.status = some .running := by decide
    rw [hp, Option.map_some, Option.some.injEq] at hs
    rw [hs] at ht
    cases ht

theorem resume_keeps_order_closed :
    (∀ p, (resumed .failClosed 4 [.exec 1 {}, .commit 1]).counted.count (p, 3) ≤ 1) ∧
      ∀ a s', (resumed .failClosed 4 [.exec 1 {}, .commit 1]).operate a = some s' →
        ¬ (resumed .failClosed 4 [.exec 1 {}, .commit 1]).hasFire 3 → s'.hasFire 3 →
        (resumed .failClosed 4 [.exec 1 {}, .commit 1]).parentsDone 3 := by
  refine resume_keeps_order (unpaid_twoPolicies .failClosed) ?_
  refine reach_around_retry (Sys.quiet_ofRows _ _) (fun _ _ h => h) (by decide) (by decide)
    tx_failFirst (by decide) (by decide) (fun h => ⟨h, ?_⟩) (by decide) (by decide)
  exact .of_check (by decide)

end TaskQ
