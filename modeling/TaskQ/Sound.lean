import TaskQ.Effects

namespace TaskQ
open RowLocks List Function Option Slot Session

structure Sound (s : Sys) : Prop where
  absent : k ∉ s.ids → s.jobs k = ⟨none, none⟩
  below : ∀ k : Nat, k ∈ s.ids → k < s.fresh
  nodup : s.ids.Nodup
  owner : (s.jobs k).draft = some (t, r) → s.sessions t ≠ none
  settled : (s.jobs k).draft = some (t, r) → (s.jobs k).base = some b →
    b.status.terminal = true → r.status = b.status
  flight : s.sessions t = some (.finalize c fork pc) → pc.inTx2 = true →
    ∃ b, (s.jobs c.job).base = some b ∧ b.status = c.outcome.1
  marked : s.sessions t = some (.finalize c fork pc) → pc.marked = true →
    ∃ r, (s.jobs c.job).draft = some (t, r) ∧ r.status = c.outcome.1 ∧
      ∀ b, (s.jobs c.job).base = some b → b.status.terminal = false
  single : s.sessions t = some (.finalize c fork pc) → pc.inTx2 = true →
    s.sessions t' = some (.finalize c' fork' pc') → pc'.inTx2 = true → c'.job = c.job → t' = t
  sweeping : s.sessions t = some (.sweep batch pc) → pc ≠ .commit →
    (s.jobs k).draft = some (t, r) → ∃ b, (s.jobs k).base = some b ∧ b.status = r.status
  hits : s.sessions t = some (.finalize c fork pc) → h ∈ pc.hits →
    ∃ r, (s.jobs h.joinJob).draft = some (t, r)

variable {s : Sys}

lemma Sound.mem_ids (hS : Sound s) (h : (s.jobs k).view t = some r) : k ∈ s.ids := by
  by_contra hk
  rw [hS.absent hk] at h
  cases h

lemma Sound.free (hS : Sound s) (he : EffectSpec env (s.snapshot t) fresh x e)
    (ha : s.admits t e = true) (hk : e.jobs k = some r) : (s.jobs k).free t = true := by
  have hm : k ∈ s.ids ++ e.born := by
    rcases he.row hk with ⟨r0, hr0, -⟩ | hb
    · exact mem_append_left _ (hS.mem_ids hr0)
    · exact mem_append_right _ hb
  simp only [Sys.admits, Bool.and_eq_true, List.all_eq_true] at ha
  have hf := ha.1.1.1.1 k hm
  simpa [hk] using hf

lemma Sound.born (hS : Sound s) (he : EffectSpec env db s.fresh x e)
    (hk : k ∈ e.born) : s.jobs k = ⟨none, none⟩ := by
  apply hS.absent
  intro hm
  have h1 := hS.below k hm
  have h2 := (he.born k hk).1
  omega

def Session.Idle : Session → Prop
  | .finalize _ _ pc => pc.marked = false ∧ pc.hits = []
  | _ => True

lemma idle_start (c : Call) : c.start.Idle := by
  cases c with
  | finalizeNode c fork => exact ⟨rfl, rfl⟩
  | sweepJoinRederive batch => trivial
  | drainOutbox batch => trivial

lemma idle_tx2Start (c : FinalizeCall) (fork : Option ForkSpec) :
    (finalize c fork c.tx2Start).Idle := by
  unfold FinalizeCall.tx2Start
  split <;> exact ⟨rfl, rfl⟩

structure Released (t : Tx) (s s' : Sys) (x : Option Session) : Prop where
  ids : s'.ids = s.ids
  fresh : s'.fresh = s.fresh
  draft : (s'.jobs k).draft = some (u, r) ↔ (s.jobs k).draft = some (u, r) ∧ u ≠ t
  base : (s'.jobs k).base = (s.jobs k).view t ∨ (s'.jobs k).base = (s.jobs k).base
  edges : Ended t s.edges s'.edges
  fires : Ended t s.fires s'.fires
  counted : ∃ new, s'.counted = s.counted ++ new
  sessions : s'.sessions = Function.update s.sessions t x

lemma Sys.released_commit (s : Sys) : Released t s (s.commit t x new) x :=
  ⟨rfl, rfl, commit_draft_some, .inl commit_base, .inr (.inl rfl), .inr (.inl rfl),
    ⟨new, rfl⟩, rfl⟩

lemma Sys.released_rollback (s : Sys) : Released t s (s.rollback t x) x :=
  ⟨rfl, rfl, rollback_draft_some, .inr rollback_base, .inr (.inr rfl),
    .inr (.inr rfl), ⟨[], (append_nil _).symm⟩, rfl⟩

lemma Sound.released_call (hS : Sound s) (hn : s.sessions t = none) (x : Session) :
    Released t s { s with sessions := Function.update s.sessions t (some x) } (some x) := by
  refine ⟨rfl, rfl, ⟨fun hd => ⟨hd, ?_⟩, And.left⟩, .inr rfl, .inl rfl, .inl rfl,
    ⟨[], (append_nil _).symm⟩, rfl⟩
  rintro rfl
  exact hS.owner hd hn

lemma Released.base_of_draft (h : Released t s s' x) (hd : (s.jobs k).draft = some (u, r))
    (hu : u ≠ t) : (s'.jobs k).base = (s.jobs k).base := by
  rcases h.base (k := k) with hb | hb
  · rw [hb, view_undrafted]
    intro r' hr'
    rw [hd, some.injEq, Prod.mk.injEq] at hr'
    exact hu hr'.1
  · exact hb

lemma Released.terminal (h : Released t s s' x) (hS : Sound s)
    (hb : (s.jobs k).base = some b) (ht : b.status.terminal = true) :
    ∃ b', (s'.jobs k).base = some b' ∧ b'.status = b.status := by
  rcases h.base (k := k) with hv | hv
  · cases hw : (s.jobs k).view t with
    | some r =>
      rcases draft_or_base hw with hd | ⟨-, hb'⟩
      · exact ⟨r, hv.trans hw, hS.settled hd hb ht⟩
      · cases hb.symm.trans hb'
        exact ⟨b, hv.trans hw, rfl⟩
    | none =>
      have hn : ∀ r, (s.jobs k).draft ≠ some (t, r) := by
        intro r hr
        rw [view_of_draft hr] at hw
        cases hw
      rw [view_undrafted hn, hb] at hw
      cases hw
  · exact ⟨b, hv.trans hb, rfl⟩

lemma Sound.release (hS : Sound s) (h : Released t s s' x) (hi : ∀ y, x = some y → y.Idle)
    (hf : ∀ c fork pc, x = some (.finalize c fork pc) → pc.inTx2 = true →
      (∃ b, (s'.jobs c.job).base = some b ∧ b.status = c.outcome.1) ∧
      ∀ u c' fork' pc', u ≠ t → s.sessions u = some (.finalize c' fork' pc') →
        pc'.inTx2 = true → c'.job ≠ c.job) : Sound s' where
  absent {k} hk := by
    rw [h.ids] at hk
    have ha := hS.absent hk
    have hb : (s'.jobs k).base = none := by
      rcases h.base (k := k) with hb | hb <;> rw [hb, ha]
      rfl
    have hd : (s'.jobs k).draft = none := by
      cases hd : (s'.jobs k).draft with
      | none => rfl
      | some p =>
        have hd' := (h.draft.mp hd).1
        rw [ha] at hd'
        cases hd'
    exact congrArg₂ Slot.mk hb hd
  below k hk := by
    rw [h.ids] at hk
    rw [h.fresh]
    exact hS.below k hk
  nodup := h.ids ▸ hS.nodup
  owner hd hn := by
    obtain ⟨hd, hu⟩ := h.draft.mp hd
    rw [h.sessions, update_of_ne hu] at hn
    exact hS.owner hd hn
  settled hd hb ht := by
    obtain ⟨hd, hu⟩ := h.draft.mp hd
    rw [h.base_of_draft hd hu] at hb
    exact hS.settled hd hb ht
  flight hx hp := by
    rw [h.sessions] at hx
    rcases update_sessions hx with ⟨rfl, hy⟩ | ⟨hu, hy⟩
    · exact (hf _ _ _ hy hp).1
    obtain ⟨b, hb, hs⟩ := hS.flight hy hp
    obtain ⟨b', hb', hs'⟩ := h.terminal hS hb
      (hs ▸ Subtype.prop (p := fun st : JobStatus => st.terminal = true) _)
    exact ⟨b', hb', hs'.trans hs⟩
  marked hx hp := by
    rw [h.sessions] at hx
    rcases update_sessions hx with ⟨rfl, hy⟩ | ⟨hu, hy⟩
    · rw [(hi _ hy).1] at hp
      cases hp
    obtain ⟨r, hd, hr, hb⟩ := hS.marked hy hp
    rw [h.base_of_draft hd hu]
    exact ⟨r, h.draft.mpr ⟨hd, hu⟩, hr, hb⟩
  single hx hp hx' hp' hj := by
    rw [h.sessions] at hx hx'
    rcases update_sessions hx with ⟨rfl, hy⟩ | ⟨hu, hy⟩
    · rcases update_sessions hx' with ⟨rfl, -⟩ | ⟨hu', hy'⟩
      · rfl
      · exact absurd hj ((hf _ _ _ hy hp).2 _ _ _ _ hu' hy' hp')
    · rcases update_sessions hx' with ⟨rfl, hy'⟩ | ⟨-, hy'⟩
      · exact absurd hj.symm ((hf _ _ _ hy' hp').2 _ _ _ _ hu hy hp)
      · exact hS.single hy hp hy' hp' hj
  sweeping hx hp hd := by
    obtain ⟨hd, hu⟩ := h.draft.mp hd
    rw [h.sessions, update_of_ne hu] at hx
    obtain ⟨b, hb, hs⟩ := hS.sweeping hx hp hd
    exact ⟨b, (h.base_of_draft hd hu).trans hb, hs⟩
  hits hx hh := by
    rw [h.sessions] at hx
    rcases update_sessions hx with ⟨rfl, hy⟩ | ⟨hu, hy⟩
    · rw [(hi _ hy).2] at hh
      cases hh
    · obtain ⟨r, hr⟩ := hS.hits hy hh
      exact ⟨r, h.draft.mpr ⟨hr, hu⟩⟩

lemma Sound.close (hS : Sound s) (h : Released t s s' none) : Sound s' :=
  hS.release h (fun _ hy => by cases hy) fun _ _ _ hy => by cases hy

variable {x : Session}

lemma Session.afterCommit_cases (h : x.afterCommit = some (x', new)) :
    (∃ c fork, x = .finalize c fork (.tx1Commit true) ∧
      x' = some (.finalize c fork c.tx2Start) ∧ new = []) ∨
    (∃ c fork hits, x = .finalize c fork (.fire hits []) ∧ x' = none ∧
      new = hits.map fun h => (c.job, h.joinJob)) ∨
    x' = none ∧ new = [] ∧ ∀ c fork pc, x = .finalize c fork pc → pc = .tx1Commit false := by
  unfold afterCommit at h
  split at h
  · cases h
    exact .inl ⟨_, _, rfl, rfl, rfl⟩
  · cases h
    exact .inr (.inr ⟨rfl, rfl, fun _ _ _ hx => (finalize.inj hx).2.2.symm⟩)
  · cases h
    exact .inr (.inl ⟨_, _, _, rfl, rfl, rfl⟩)
  · cases h
    exact .inr (.inr ⟨rfl, rfl, fun _ _ _ hx => by cases hx⟩)
  · cases h
    exact .inr (.inr ⟨rfl, rfl, fun _ _ _ hx => by cases hx⟩)
  · cases h

lemma Session.idle_of_afterCommit (h : x.afterCommit = some (x', new)) :
    ∀ y, x' = some y → y.Idle := by
  intro y hy
  rcases afterCommit_cases h with ⟨c, fork, -, rfl, -⟩ | ⟨-, -, -, -, rfl, -⟩ | ⟨rfl, -⟩
  · cases hy
    exact idle_tx2Start c fork
  · cases hy
  · cases hy

lemma Session.idle_of_restart (h : x.restart = some x') : ∀ y, some x' = some y → y.Idle := by
  intro y hy
  cases hy
  cases x with
  | finalize c fork pc =>
    cases h
    split
    · exact idle_tx2Start c fork
    · exact ⟨rfl, rfl⟩
  | sweep batch pc => cases h
  | drain batch pc => cases h

lemma Sound.commit (hS : Sound s) (hx : s.sessions t = some x)
    (h : x.afterCommit = some (x', new)) : Sound (s.commit t x' new) := by
  rcases afterCommit_cases h with ⟨c, fork, rfl, rfl, rfl⟩ | ⟨c, fork, hits, rfl, rfl, -⟩ |
    ⟨rfl, -, -⟩
  · obtain ⟨r, hd, hr, hb⟩ := hS.marked hx rfl
    refine hS.release s.released_commit (idle_of_afterCommit h) ?_
    intro c' fork' pc' hy hp
    cases hy
    refine ⟨⟨r, commit_base.trans (view_of_draft hd), hr⟩, ?_⟩
    intro u c' fork' pc' hu hx' hp' hj
    obtain ⟨b', hb', hs'⟩ := hS.flight hx' hp'
    have ht := c'.outcome.2
    rw [← hs', hb b' (hj ▸ hb')] at ht
    cases ht
  · exact hS.close s.released_commit
  · exact hS.close s.released_commit

lemma Sound.deadlock (hS : Sound s) (hx : s.sessions t = some x) (h : x.restart = some x') :
    Sound (s.rollback t (some x')) := by
  cases x with
  | finalize c fork pc =>
    have hi := idle_of_restart h
    cases h
    refine hS.release s.released_rollback hi ?_
    intro c' fork' pc' hy hp
    cases hy
    have hpc : pc.inTx2 = true := by
      by_contra hn
      rw [if_neg hn] at hp
      cases hp
    obtain ⟨b, hb, hs⟩ := hS.flight hx hpc
    refine ⟨⟨b, rollback_base.trans hb, hs⟩, ?_⟩
    intro u c' fork' pc' hu hx' hp' hj
    exact hu (hS.single hx hpc hx' hp' hj)
  | sweep batch pc => cases h
  | drain batch pc => cases h

lemma Sound.crash (hS : Sound s) : Sound (s.rollback t none) :=
  hS.close s.released_rollback

lemma execSweep_born (h : execSweep env db fresh batch pc = some e) : e.born = [] := by
  unfold execSweep at h
  split at h <;> first | (cases h; rfl) | cases h

lemma Sound.view_status (hS : Sound s) (hr : (s.jobs k).view t = some r)
    (hb : (s.jobs k).base = some b) (ht : b.status.terminal = true) : r.status = b.status := by
  rcases draft_or_base hr with hd | ⟨-, hb'⟩
  · exact hS.settled hd hb ht
  · rw [some.inj (hb.symm.trans hb')]

lemma Sound.draft_apply (hS : Sound s) (he : EffectSpec env (s.snapshot t) fresh x e)
    (ha : s.admits t e = true) (hd : (s.jobs k).draft = some (u, r)) (hu : u ≠ t) :
    ((s.apply t e).jobs k).draft = some (u, r) := by
  refine put_draft_some.mpr (.inr ⟨?_, hd⟩)
  cases hw : e.jobs k with
  | none => rfl
  | some r' => exact absurd (owner_of_free (hS.free he ha hw) hd) hu

lemma Sound.view_apply (hS : Sound s) (he : EffectSpec env (s.snapshot t) fresh x e)
    (ha : s.admits t e = true) (hut : u ≠ t) : ((s.apply t e).jobs k).view u = (s.jobs k).view u := by
  by_cases hd : ∃ r, (s.jobs k).draft = some (u, r)
  · obtain ⟨r, hd⟩ := hd
    rw [view_of_draft hd, view_of_draft (hS.draft_apply he ha hd hut)]
  have hn : ∀ r, (s.jobs k).draft ≠ some (u, r) := fun r hr => hd ⟨r, hr⟩
  have hn' : ∀ r, ((s.apply t e).jobs k).draft ≠ some (u, r) := by
    intro r hr
    rcases put_draft_some.mp hr with ⟨-, hu⟩ | ⟨-, hr'⟩
    · exact hut hu
    · exact hn r hr'
  rw [view_undrafted hn, view_undrafted hn']
  exact put_base

lemma Sound.terminal_apply (hS : Sound s)
    (he : EffectSpec env (s.snapshot t) s.fresh x e) (hk : k ∈ s.ids)
    (ht : ∀ r, (s.jobs k).view t = some r → r.status.terminal = true)
    (hr : ((s.apply t e).jobs k).view t = some r) : r.status.terminal = true := by
  cases hw : e.jobs k with
  | none => exact ht r ((congrArg (view t) (put_of_none hw)).symm.trans hr)
  | some r' =>
    have hd : ((s.apply t e).jobs k).draft = some (t, r') := put_draft_some.mpr (.inl ⟨hw, rfl⟩)
    cases (view_of_draft hd).symm.trans hr
    rcases he.row hw with ⟨r0, hr0, hc⟩ | hb
    · have hterm := ht r0 hr0
      rw [hc.terminal hterm]
      exact hterm
    · have hlt := hS.below k hk
      have hge := (he.born k hb).1
      omega

lemma draft_apply_own (hd : (s.jobs k).draft = some (t, r)) :
    ∃ r', ((s.apply t e).jobs k).draft = some (t, r') := by
  cases hw : e.jobs k with
  | none => exact ⟨r, put_draft_some.mpr (.inr ⟨hw, hd⟩)⟩
  | some r' => exact ⟨r', put_draft_some.mpr (.inl ⟨hw, rfl⟩)⟩

lemma Sound.swept (hS : Sound s) (hx : s.sessions t = some (.sweep batch pc))
    (hp : pc ≠ .commit) (hr : (s.jobs k).view t = some r) :
    ∃ b, (s.jobs k).base = some b ∧ b.status = r.status := by
  rcases draft_or_base hr with hd | ⟨-, hb⟩
  · exact hS.sweeping hx hp hd
  · exact ⟨r, hb, rfl⟩

lemma Sound.marked_exec (hS : Sound s) (hx : s.sessions t = some (.finalize c fork pc))
    (h : execStmt env (s.snapshot t) s.fresh (.finalize c fork pc) = some e)
    (ha : s.admits t e = true)
    (hm : pc.marked = true ∨ pc = .terminalMark ∧ (e.jobs c.job).isSome = true) :
    ∃ r, ((s.apply t e).jobs c.job).draft = some (t, r) ∧ r.status = c.outcome.1 ∧
      ∀ b, (s.jobs c.job).base = some b → b.status.terminal = false := by
  have he := execStmt_spec h
  rcases hm with hm | ⟨rfl, hm⟩
  · obtain ⟨r, hd, hr, hb⟩ := hS.marked hx hm
    cases hw : e.jobs c.job with
    | none => exact ⟨r, put_draft_some.mpr (.inr ⟨hw, hd⟩), hr, hb⟩
    | some r' =>
      refine ⟨r', put_draft_some.mpr (.inl ⟨hw, rfl⟩), ?_, hb⟩
      rcases he.row hw with ⟨r0, hr0, hc⟩ | hk
      · cases (view_of_draft hd).symm.trans hr0
        rw [hc.terminal (hr ▸ c.outcome.2), hr]
      · rw [hS.born he hk] at hd
        cases hd
  · obtain ⟨r, hr⟩ := isSome_iff_exists.mp hm
    have hjobs : e.jobs = terminalMark (s.snapshot t) c := by
      cases h
      rfl
    obtain ⟨-, hs, r0, hr0, hrun, -⟩ := terminalMark_row (hjobs ▸ hr)
    refine ⟨r, put_draft_some.mpr (.inl ⟨hr, rfl⟩), hs, fun b hb => ?_⟩
    rw [← Bool.not_eq_true]
    intro ht
    have hbs := hS.view_status hr0 hb ht
    rw [← hbs, hrun] at ht
    cases ht

lemma Sound.exec (hS : Sound s) (hx : s.sessions t = some x)
    (h : execStmt env (s.snapshot t) s.fresh x = some e) (ha : s.admits t e = true) :
    Sound (s.apply t e) := by
  have he := execStmt_spec h
  have hsess : ∀ {u y}, (s.apply t e).sessions u = y → u = t ∧ some e.next = y ∨
      u ≠ t ∧ s.sessions u = y := fun hu => update_sessions hu
  have hbase : ∀ {k}, ((s.apply t e).jobs k).base = (s.jobs k).base := put_base
  refine ⟨?absent, ?below, ?nodup, ?owner, ?settled, ?flight, ?marked, ?single, ?sweeping, ?hits⟩
  case absent =>
    intro k hk
    have hk' := fun hm => hk (mem_append.mpr hm)
    have hw : e.jobs k = none := by
      cases hw : e.jobs k with
      | none => rfl
      | some r =>
        rcases he.row hw with ⟨r0, hr0, -⟩ | hb
        · exact absurd (.inl (hS.mem_ids hr0)) hk'
        · exact absurd (.inr hb) hk'
    have hk0 := hS.absent fun hm => hk' (.inl hm)
    exact (put_of_none hw).trans hk0
  case below =>
    intro k hk
    show k < s.fresh + e.minted
    rcases mem_append.mp hk with hk | hk
    · have hlt := hS.below k hk
      omega
    · exact (he.born k hk).2
  case nodup =>
    refine nodup_append.mpr ⟨hS.nodup, he.nodup, ?_⟩
    intro k (hk : k ∈ s.ids) k' hk' heq
    subst heq
    have hlt := hS.below k hk
    have hge := (he.born k hk').1
    omega
  case owner =>
    intro k u r hd hn
    rcases hsess hn with ⟨-, hy⟩ | ⟨hu, hy⟩
    · cases hy
    rcases put_draft_some.mp hd with ⟨-, hu'⟩ | ⟨-, hd'⟩
    · exact hu hu'
    · exact hS.owner hd' hy
  case settled =>
    intro k u r b hd hb ht
    rw [hbase] at hb
    rcases put_draft_some.mp hd with ⟨hw, -⟩ | ⟨-, hd'⟩
    · rcases he.row hw with ⟨r0, hr0, hc⟩ | hk
      · have hs := hS.view_status hr0 hb ht
        rw [hc.terminal (hs ▸ ht), hs]
      · rw [hS.born he hk] at hb
        cases hb
    · exact hS.settled hd' hb ht
  case flight =>
    intro u c fork pc hy hp
    rw [hbase]
    rcases hsess hy with ⟨-, hn⟩ | ⟨-, hy'⟩
    · obtain ⟨pc0, rfl, hp0, -⟩ := he.next.of_finalize (some.inj hn)
      exact hS.flight hx (hp0 ▸ hp)
    · exact hS.flight hy' hp
  case marked =>
    intro u c fork pc hy hm
    rw [hbase]
    rcases hsess hy with ⟨rfl, hn⟩ | ⟨hu, hy'⟩
    · obtain ⟨pc0, rfl, -, -, hm'⟩ := he.next.of_finalize (some.inj hn)
      exact hS.marked_exec hx h ha (hm' hm)
    · obtain ⟨r, hd, hr, hb⟩ := hS.marked hy' hm
      exact ⟨r, hS.draft_apply he ha hd hu, hr, hb⟩
  case single =>
    intro u c fork pc u' c' fork' pc' hy hp hy' hp' hj
    rcases hsess hy with ⟨hu, hn⟩ | ⟨-, hz⟩
    · rcases hsess hy' with ⟨hu', -⟩ | ⟨-, hz'⟩
      · exact hu'.trans hu.symm
      · obtain ⟨pc0, rfl, hp0, -⟩ := he.next.of_finalize (some.inj hn)
        exact (hS.single hx (hp0 ▸ hp) hz' hp' hj).trans hu.symm
    · rcases hsess hy' with ⟨hu', hn⟩ | ⟨-, hz'⟩
      · obtain ⟨pc0, rfl, hp0, -⟩ := he.next.of_finalize (some.inj hn)
        exact hu'.trans (hS.single hz hp hx (hp0 ▸ hp') hj)
      · exact hS.single hz hp hz' hp' hj
  case sweeping =>
    intro u batch pc k r hy hp hd
    rw [hbase]
    rcases hsess hy with ⟨rfl, hn⟩ | ⟨hu, hy'⟩
    · obtain ⟨pc0, rfl, hp0, hr0⟩ := he.next.of_sweep (some.inj hn)
      have hpr : pc0 ≠ .rootMaintain := fun hpr => hp (hr0 hpr)
      rcases put_draft_some.mp hd with ⟨hw, -⟩ | ⟨-, hd'⟩
      · rcases he.row hw with ⟨r0, hr0, hc⟩ | hk
        · obtain ⟨b, hb, hs⟩ := hS.swept hx hp0 hr0
          exact ⟨b, hb, hs.trans (hc.sweep rfl hpr).symm⟩
        · rw [execSweep_born h] at hk
          cases hk
      · exact hS.sweeping hx hp0 hd'
    · rcases put_draft_some.mp hd with ⟨-, hu'⟩ | ⟨-, hd'⟩
      · exact absurd hu' hu
      · exact hS.sweeping hy' hp hd'
  case hits =>
    intro u c fork pc hit hy hm
    rcases hsess hy with ⟨rfl, hn⟩ | ⟨hu, hy'⟩
    · obtain ⟨pc0, rfl, -, hh, -⟩ := he.next.of_finalize (some.inj hn)
      rcases hh with hh | ⟨-, hh⟩
      · obtain ⟨r, hr⟩ := hS.hits hx (hh ▸ hm)
        exact draft_apply_own hr
      rw [hh] at hm
      obtain ⟨-, r, hr, -⟩ := mem_hits.mp hm
      exact ⟨r, put_draft_some.mpr (.inl ⟨hr, rfl⟩)⟩
    · obtain ⟨r, hr⟩ := hS.hits hy' hm
      exact ⟨r, hS.draft_apply he ha hr hu⟩

lemma Sound.call (hS : Sound s) (hn : s.sessions t = none) (c : Call) :
    Sound { s with sessions := Function.update s.sessions t (some c.start) } := by
  refine hS.release (hS.released_call hn c.start) ?_ ?_
  · intro y hy
    rw [← some.inj hy]
    exact idle_start c
  · intro c' fork pc hy hp
    cases c with
    | finalizeNode c fork' =>
      cases hy
      cases hp
    | sweepJoinRederive batch => cases hy
    | drainOutbox batch => cases hy

def Keeps (db : Snapshot) (w : Writes) : Prop :=
  ∀ k r, w k = some r → ∃ r0, db.jobs k = some r0 ∧ r0.status.terminal = false ∧
    r.depsPending = r0.depsPending

lemma Sound.view_eq_base (hS : Sound s) (hn : s.sessions t = none) (k : JobId) :
    (s.jobs k).view t = (s.jobs k).base :=
  view_undrafted fun _ hd => hS.owner hd hn

lemma Sound.store_terminal (hS : Sound s) (hn : s.sessions t = none)
    (hw : Keeps (s.snapshot t) w) (hb : (s.jobs k).base = some b)
    (ht : b.status.terminal = true) : (s.store w).jobs k = s.jobs k := by
  cases hk : w k with
  | none => exact store_of_none hk
  | some r =>
    obtain ⟨r0, hr0, hs, -⟩ := hw k r hk
    have hb' := (hS.view_eq_base hn k).trans hb
    rw [some.inj (hb'.symm.trans hr0), hs] at ht
    cases ht

def Sys.Spares (s : Sys) (t : Tx) (w : Writes) : Prop :=
  ∀ k r, w k = some r → ∃ r0, (s.snapshot t).jobs k = some r0 ∧
    (s.inFlight k → r.status = r0.status)

lemma Keeps.spares (hw : Keeps (s.snapshot t) w) (hS : Sound s) (hn : s.sessions t = none) :
    s.Spares t w := by
  intro k r hk
  obtain ⟨r0, hr0, hs, -⟩ := hw k r hk
  refine ⟨r0, hr0, ?_⟩
  rintro ⟨u, c, fork, pc, hx, rfl, hp⟩
  obtain ⟨b, hb, hbs⟩ := hS.flight hx hp
  cases ((hS.view_eq_base hn _).trans hb).symm.trans hr0
  have ht := c.outcome.2
  rw [← hbs, hs] at ht
  cases ht

lemma Sound.autocommit (hS : Sound s) (hw : s.Spares t w)
    (h : s.autocommit t w = some s') : Sound s' := by
  obtain ⟨hn, hl, rfl⟩ := Sys.autocommit_some h
  have hwn : ∀ {k u r}, (s.jobs k).draft = some (u, r) → w k = none := by
    intro k u r hd
    have hk : k ∈ s.ids := by
      by_contra hk
      rw [hS.absent hk] at hd
      cases hd
    rcases hl k hk with hw | hd'
    · exact hw
    · rw [hd'] at hd
      cases hd
  have hdraft : ∀ {k u r}, (s.jobs k).draft = some (u, r) → (s.store w).jobs k = s.jobs k :=
    fun hd => store_of_none (hwn hd)
  refine ⟨?absent, hS.below, hS.nodup, ?owner, ?settled, ?flight, ?marked, hS.single, ?sweeping,
    ?hits⟩
  case absent =>
    intro k hk
    have ha := hS.absent hk
    cases hwk : w k with
    | none => exact (store_of_none hwk).trans ha
    | some r =>
      obtain ⟨r0, hr0, -⟩ := hw k r hwk
      exact absurd (hS.mem_ids hr0) hk
  case owner =>
    intro k u r hd
    exact hS.owner (store_draft_some hd).2
  case settled =>
    intro k u r b hd hb
    have hd' := (store_draft_some hd).2
    exact hS.settled hd' (hdraft hd' ▸ hb)
  case flight =>
    intro u c fork pc hx hp
    obtain ⟨b, hb, hs⟩ := hS.flight hx hp
    cases hk : w c.job with
    | none => exact ⟨b, (congrArg base (store_of_none hk)).trans hb, hs⟩
    | some r =>
      obtain ⟨r0, hr0, hsr⟩ := hw _ _ hk
      cases ((hS.view_eq_base hn _).trans hb).symm.trans hr0
      exact ⟨r, congrArg base (store_of_some hk), (hsr ⟨u, c, fork, pc, hx, rfl, hp⟩).trans hs⟩
  case marked =>
    intro u c fork pc hx hp
    obtain ⟨r, hd, hr⟩ := hS.marked hx hp
    refine ⟨r, ?_⟩
    rw [hdraft hd]
    exact ⟨hd, hr⟩
  case sweeping =>
    intro u batch pc k r hx hp hd
    have hd' := (store_draft_some hd).2
    rw [hdraft hd']
    exact hS.sweeping hx hp hd'
  case hits =>
    intro u c fork pc hit hx hh
    obtain ⟨r, hr⟩ := hS.hits hx hh
    exact ⟨r, (hdraft hr).symm ▸ hr⟩

lemma keeps_nodeClaim (db : Snapshot) : Keeps db (nodeClaim db now job worker) := by
  intro k r h
  obtain ⟨r0, hr0, hs, hd, -⟩ := nodeClaim_row h
  exact ⟨r0, hr0, hs, hd⟩

lemma keeps_sweepReclaim (db : Snapshot) : Keeps db (sweepReclaim db now grace due job) := by
  intro k r h
  obtain ⟨r0, hr0, hs, rfl, -⟩ := sweepReclaim_row h
  exact ⟨r0, hr0, by rw [hs]; rfl, rfl⟩

lemma Sound.step (hS : Sound s) (h : s.step a = some s') : Sound s' := by
  cases Sys.moves_of_step h with
  | call hn => exact hS.call hn _
  | exec hx he ha => exact hS.exec hx he ha
  | commit hx hc => exact hS.commit hx hc
  | deadlock hx hr => exact hS.deadlock hx hr
  | crash hx => exact hS.crash
  | claim hc =>
    exact hS.autocommit ((keeps_nodeClaim _).spares hS (Sys.autocommit_some hc).1) hc
  | reclaim hr =>
    exact hS.autocommit ((keeps_sweepReclaim _).spares hS (Sys.autocommit_some hr).1) hr

lemma Sound.terminal_autocommit (hS : Sound s) (hw : Keeps (s.snapshot t) w)
    (h : s.autocommit t w = some s') (hb : (s.jobs k).base = some b)
    (ht : b.status.terminal = true) : ∃ b', (s'.jobs k).base = some b' ∧ b'.status = b.status := by
  obtain ⟨hn, -, rfl⟩ := Sys.autocommit_some h
  exact ⟨b, (congrArg base (hS.store_terminal hn hw hb ht)).trans hb, rfl⟩

lemma Sound.terminal_step (hS : Sound s) (h : s.step a = some s')
    (hb : (s.jobs k).base = some b) (ht : b.status.terminal = true) :
    ∃ b', (s'.jobs k).base = some b' ∧ b'.status = b.status := by
  cases Sys.moves_of_step h with
  | call hn => exact ⟨b, hb, rfl⟩
  | exec hx he ha => exact ⟨b, put_base.trans hb, rfl⟩
  | commit hx hc => exact s.released_commit.terminal hS hb ht
  | deadlock | crash => exact s.released_rollback.terminal hS hb ht
  | claim hc => exact hS.terminal_autocommit (keeps_nodeClaim _) hc hb ht
  | reclaim hr => exact hS.terminal_autocommit (keeps_sweepReclaim _) hr hb ht

lemma Sys.base_step (h : s.step a = some s') (hb : (s.jobs k).base = some b) :
    ∃ b', (s'.jobs k).base = some b' := by
  have hauto : ∀ {t w}, s.autocommit t w = some s' → ∃ b', (s'.jobs k).base = some b' := by
    intro t w hs
    obtain ⟨-, -, rfl⟩ := Sys.autocommit_some hs
    cases hw : w k with
    | none => exact ⟨b, (congrArg base (store_of_none hw)).trans hb⟩
    | some r => exact ⟨r, congrArg base (store_of_some hw)⟩
  cases Sys.moves_of_step h with
  | call hn => exact ⟨b, hb⟩
  | exec hx he ha => exact ⟨b, put_base.trans hb⟩
  | @commit t x x' new hx hc =>
    obtain ⟨r, hr⟩ := exists_view hb t
    exact ⟨r, commit_base.trans hr⟩
  | deadlock | crash => exact ⟨b, rollback_base.trans hb⟩
  | claim hc => exact hauto hc
  | reclaim hr => exact hauto hr

structure Sys.Quiet (s : Sys) : Prop where
  sessions : s.sessions t = none
  jobs : (s.jobs k).draft = none
  edges : sl ∈ s.edges → sl.draft = none
  fires : sl ∈ s.fires → sl.draft = none

structure Sys.Listed (s : Sys) : Prop where
  absent : k ∉ s.ids → (s.jobs k).base = none
  below : ∀ k : Nat, k ∈ s.ids → k < s.fresh
  nodup : s.ids.Nodup

lemma Sys.Listed.mem (h : s.Listed) (hb : (s.jobs k).base = some b) : k ∈ s.ids := by
  by_contra hk
  rw [h.absent hk] at hb
  cases hb

lemma Sound.of_quiet (hq : s.Quiet) (hl : s.Listed) : Sound s := by
  have hn : ∀ {t x}, s.sessions t ≠ some x := by
    intro t x hx
    rw [hq.sessions] at hx
    cases hx
  have hd : ∀ {k d}, (s.jobs k).draft ≠ some d := by
    intro k d hd
    rw [hq.jobs] at hd
    cases hd
  refine ⟨?_, hl.below, hl.nodup, ?_, ?_, ?_, ?_, ?_, ?_, ?_⟩
  · exact fun hk => congrArg₂ Slot.mk (hl.absent hk) hq.jobs
  · exact fun h => absurd h hd
  · exact fun h => absurd h hd
  · exact fun h => absurd h hn
  · exact fun h => absurd h hn
  · exact fun h => absurd h hn
  · exact fun h => absurd h hn
  · exact fun h => absurd h hn

/-- The state with the given rows, numbered from zero, and edges, before anything has run. -/
def Sys.ofRows (rows : List JobRow) (edges : List Edge) : Sys where
  ids := List.range rows.length
  jobs k := ⟨rows[k]?, none⟩
  edges := edges.map fun e => ⟨some e, none⟩
  fires := []
  outbox := []
  ledger := []
  fired := []
  counted := []
  fresh := rows.length
  sessions _ := none

lemma Sys.quiet_ofRows (rows : List JobRow) (edges : List Edge) : (ofRows rows edges).Quiet where
  sessions := rfl
  jobs := rfl
  edges h := by
    obtain ⟨e, -, rfl⟩ := mem_map.mp h
    rfl
  fires h := by cases h

lemma Sys.listed_ofRows (rows : List JobRow) (edges : List Edge) :
    (ofRows rows edges).Listed where
  absent h := by
    rw [Sys.ofRows, mem_range, not_lt] at h
    exact getElem?_eq_none h
  below _ h := mem_range.mp h
  nodup := nodup_range

end TaskQ
