import TaskQ.Arbiter
import TaskQ.PrematureFire

namespace TaskQ
open RowLocks Runs Function Option Slot FiredJoin List Session

def OutboxRow.target (o : OutboxRow) : JobId × String × Option Nat :=
  (o.joinJob, o.consumerStepKey, o.mapIndex)

def FiredJoin.targets (f : FiredJoin) : List (JobId × String × Option Nat) :=
  f.consumers.map fun c => (f.joinJob, c.stepKey, c.mapIndex)

def dues (l : List FiredJoin) : Multiset (JobId × String × Option Nat) :=
  (l.flatMap FiredJoin.targets : List _)

@[simp] lemma dues_nil : dues [] = 0 := rfl

@[simp] lemma dues_append : dues (l ++ l') = dues l + dues l' := by
  simp [dues]

def Session.undelivered : Session → Multiset (JobId × String × Option Nat)
  | .finalize _ _ (.deliver _ _ rows) => keys OutboxRow.target rows
  | .sweep _ (.bodies ws _) => dues (ws.map fun w => ⟨w.fire.joinJob, w.consumers⟩)
  | .sweep _ (.outbox rows) => keys OutboxRow.target rows
  | _ => 0

lemma map_mapIdx_congr {f : Nat → α → β} {g : β → γ} {h : α → γ} {l : List α}
    (hf : ∀ i a, g (f i a) = h a) : (l.mapIdx f).map g = l.map h :=
  ext_getElem (by simp) fun i _ _ => by simp [hf]

lemma keys_finalizeOutbox : keys OutboxRow.target (finalizeOutbox fresh w) =
    dues [⟨w.fire.joinJob, w.consumers⟩] := by
  have hmap : (finalizeOutbox fresh w).map OutboxRow.target =
      w.consumers.map fun c => (w.fire.joinJob, c.stepKey, c.mapIndex) :=
    map_mapIdx_congr fun _ _ => rfl
  rw [RowLocks.keys, hmap, dues, flatMap_cons, flatMap_nil, append_nil]
  rfl

lemma keys_sweepOutbox : keys OutboxRow.target (sweepOutbox fresh ws) =
    dues (ws.map fun w => ⟨w.fire.joinJob, w.consumers⟩) := by
  refine congrArg _ ((map_mapIdx_congr (h := fun p => (p.1.fire.joinJob, p.2.stepKey, p.2.mapIndex))
    fun _ _ => rfl).trans ?_)
  simp only [List.map_flatMap, List.flatMap_map, List.map_map]
  rfl

variable {db : Snapshot}

lemma nodup_sweepFire (h : db.ids.Nodup) :
    ((sweepFire db now batch fresh n).map fun w => w.fire.joinJob).Nodup := by
  have hL : (((sweepFireLocked db now batch).filter (firable db)).take n).Nodup := by
    refine List.Nodup.sublist (take_sublist ..) (List.Nodup.filter _ ?_)
    refine List.Nodup.sublist (take_sublist ..) ?_
    exact (perm_insertionSort ..).nodup_iff.mpr (h.filter _)
  rw [List.Nodup, pairwise_map, sweepFire, pairwise_filterMap]
  refine List.Pairwise.filter _ ?_
  rw [← zipIdx_map_fst 0 (((sweepFireLocked db now batch).filter (firable db)).take n),
    List.Nodup, pairwise_map] at hL
  refine hL.imp fun {p q} hne w hw w' hw' => ?_
  obtain ⟨r, -, hr⟩ := bind_eq_some_iff.mp hw
  obtain ⟨r', -, hr'⟩ := bind_eq_some_iff.mp hw'
  obtain ⟨flow, -, rfl⟩ := map_eq_some_iff.mp hr
  obtain ⟨flow', -, rfl⟩ := map_eq_some_iff.mp hr'
  exact hne

def ledgered (l : List JoinFire) : List JoinFire := l.filter fun f => f.firedBy ≠ .bornZero

structure Delivers (db : Snapshot) (x : Session) (e : Effect) : Prop where
  distinct : (e.fires.map JoinFire.joinJob).Nodup
  due : keys OutboxRow.target e.outbox + e.next.undelivered = x.undelivered + dues e.fired
  receipt : keys FiredJoin.joinJob e.fired = keys JoinFire.joinJob (ledgered e.fires)
  target : e.outboxWrites o = some o' → o'.target = o.target
  declared : F ∈ e.fired → ∃ r, db.jobs F.joinJob = some r ∧ r.metadata.consumers = F.consumers

lemma Delivers.unfired (hw : e.outboxWrites = fun _ => none) (hr : e.fired = [])
    (hf : e.fires = []) (h : keys OutboxRow.target e.outbox + e.next.undelivered = x.undelivered) :
    Delivers db x e where
  distinct := by rw [hf]; exact nodup_nil
  due := by rw [h, hr, dues_nil, Multiset.add_zero]
  receipt := by rw [hr, hf]; rfl
  target h := by rw [hw] at h; cases h
  declared h := by rw [hr] at h; cases h

lemma Delivers.quiet (ho : e.outbox = []) (hw : e.outboxWrites = fun _ => none)
    (hr : e.fired = []) (hf : e.fires = []) (hn : e.next.undelivered = x.undelivered) :
    Delivers db x e :=
  .unfired hw hr hf (by rw [ho, hn]; exact Multiset.zero_add _)

lemma undelivered_tx1 {pc : FinalizePc} (h : pc.inTx2 = false) :
    (finalize c fork pc).undelivered = 0 := by
  cases pc <;> first | rfl | cases h

lemma execTx1_delivers (h : execTx1 env db fresh c fork pc = some e) :
    Delivers db (.finalize c fork pc) e := by
  cases execTx1_runs h with
  | mark hn => exact .quiet rfl rfl rfl rfl (undelivered_tx1 hn)
  | children | adopt | join => exact .quiet rfl rfl rfl rfl rfl
  | bornZero =>
    refine ⟨?_, rfl, ?_, nofun, nofun⟩
    · cases fire db _ c.flow fresh .bornZero with
      | none => exact nodup_nil
      | some w => exact nodup_singleton _
    · rw [ledgered, filter_eq_nil_iff.mpr fun f hf => ?_]
      · rfl
      · obtain ⟨w, hw, rfl⟩ := map_eq_some_iff.mp (mem_toList.mp hf)
        simp [(fire_some hw).2.1]
  | plain hp hn =>
    exact .quiet rfl rfl rfl rfl ((undelivered_tx1 hn).trans (undelivered_tx1 hp).symm)

lemma execTx2_delivers (h : execTx2 env db fresh c fork pc = some e) :
    Delivers db (.finalize c fork pc) e := by
  cases execTx2_runs h with
  | cascade | append | decrement => exact .quiet rfl rfl rfl rfl rfl
  | fire hw =>
    obtain ⟨hj, hby, -, r, hr, -, -, hc⟩ := fire_some hw
    refine ⟨nodup_singleton _, ?_, ?_, (fun hw => by cases hw), fun hF => ?_⟩
    · rw [← hj]
      exact (Multiset.zero_add _).trans (keys_finalizeOutbox.trans (Multiset.zero_add _).symm)
    · simp [RowLocks.keys, ledgered, hby, hj]
    · obtain rfl := mem_singleton.mp hF
      exact ⟨r, hr, hc.symm⟩
  | deliver => exact .unfired rfl rfl rfl RowLocks.keys_append.symm
  | plain hread => cases hread <;> exact .quiet rfl rfl rfl rfl rfl

lemma execSweep_delivers (hn : db.ids.Nodup) (h : execSweep env db fresh batch pc = some e) :
    Delivers db (.sweep batch pc) e := by
  cases pc with
  | rederive =>
    cases h
    refine .quiet rfl rfl rfl rfl ?_
    split <;> rfl
  | sweepFire n =>
    cases h
    refine ⟨?_, rfl, ?_, (fun hw => by cases hw), fun hF => ?_⟩
    · rw [List.map_map]
      exact nodup_sweepFire hn
    · have hall : ledgered ((sweepFire db env.now batch fresh n).map Winner.fire) =
          (sweepFire db env.now batch fresh n).map Winner.fire := by
        rw [ledgered, List.filter_eq_self]
        intro f hf
        obtain ⟨w, hw, rfl⟩ := List.mem_map.mp hf
        simp [(mem_sweepFire hw).2.2.1]
      rw [hall]
      simp only [RowLocks.keys, List.map_map]
      rfl
    · obtain ⟨w, hw, rfl⟩ := List.mem_map.mp hF
      obtain ⟨-, -, -, -, r, hr, hc⟩ := mem_sweepFire hw
      exact ⟨r, hr, hc.symm⟩
  | bodies ws todo =>
    cases todo with
    | nil =>
      cases h
      exact .unfired rfl rfl rfl ((Multiset.zero_add _).trans keys_sweepOutbox)
    | cons w todo =>
      cases h
      exact .quiet rfl rfl rfl rfl rfl
  | outbox rows =>
    cases rows with
    | nil =>
      cases h
      exact .quiet rfl rfl rfl rfl rfl
    | cons o rows =>
      cases h
      exact .unfired rfl rfl rfl RowLocks.keys_append.symm
  | rootMaintain =>
    cases h
    exact .quiet rfl rfl rfl rfl rfl
  | commit => cases h

lemma execDrain_delivers (h : execDrain env db fresh batch pc = some e) :
    Delivers db (.drain batch pc) e := by
  cases pc with
  | fetch =>
    cases h
    refine ⟨nodup_nil, rfl, rfl, fun {o o'} hw => ?_, nofun⟩
    simp only [ite_none_right_eq_some, some.injEq] at hw
    rw [hw.2]
  | consumers rows =>
    cases h
    exact .quiet rfl rfl rfl rfl rfl
  | flip rows =>
    cases h
    refine ⟨nodup_nil, rfl, rfl, fun {o o'} hw => ?_, nofun⟩
    simp only [ite_none_right_eq_some, some.injEq] at hw
    rw [← hw.2]
    rfl
  | commit => cases h

lemma execStmt_delivers (hn : db.ids.Nodup) (h : execStmt env db fresh x = some e) :
    Delivers db x e := by
  cases x with
  | finalize c fork pc =>
    simp only [execStmt] at h
    split at h
    · exact execTx2_delivers h
    · exact execTx1_delivers h
  | sweep batch pc => exact execSweep_delivers hn h
  | drain batch pc => exact execDrain_delivers h

def Sys.undelivered (s : Sys) (t : Tx) : Multiset (JobId × String × Option Nat) :=
  (s.sessions t).elim 0 Session.undelivered

structure Delivered (s : Sys) : Prop where
  fires : InsertOnly s.fires
  fired : InsertOnly s.fired
  outbox : Keyed OutboxRow.target s.outbox
  once : Distinct JoinFire.joinJob s.fires
  receipts : keys FiredJoin.joinJob (committed s.fired) =
    keys JoinFire.joinJob (ledgered (committed s.fires))
  receiptsOf : keys FiredJoin.joinJob (inserted t s.fired) =
    keys JoinFire.joinJob (ledgered (inserted t s.fires))
  paid : keys OutboxRow.target (committed s.outbox) = dues (committed s.fired)
  paying : keys OutboxRow.target (inserted t s.outbox) + s.undelivered t =
    dues (inserted t s.fired)

lemma keys_perm {key : ρ → κ} {l l' : List ρ} (h : l.Perm l') : keys key l = keys key l' :=
  Multiset.coe_eq_coe.mpr (h.map key)

lemma dues_perm (h : l.Perm l') : dues l = dues l' :=
  Multiset.coe_eq_coe.mpr (h.flatMap_right _)

lemma Session.undelivered_of_afterCommit {x : Session} (h : x.afterCommit = some (x', new)) :
    x.undelivered = 0 ∧ x'.elim 0 undelivered = 0 := by
  unfold afterCommit at h
  split at h
  · cases h
    refine ⟨rfl, ?_⟩
    rw [FinalizeCall.tx2Start, elim_some]
    split <;> rfl
  · cases h
    exact ⟨rfl, rfl⟩
  · cases h
    exact ⟨rfl, rfl⟩
  · cases h
    exact ⟨rfl, rfl⟩
  · cases h
    exact ⟨rfl, rfl⟩
  · cases h

lemma Session.undelivered_of_restart {x : Session} (h : x.restart = some x') :
    x'.undelivered = 0 := by
  cases x with
  | finalize c fork pc =>
    cases h
    unfold FinalizeCall.tx2Start
    split
    · split <;> rfl
    · rfl
  | sweep batch pc => cases h
  | drain batch pc => cases h

namespace Delivered

lemma commit (hD : Delivered s) (hx : s.sessions t = some x)
    (h : x.afterCommit = some (x', new)) : Delivered (s.commit t x' new) := by
  have hins : ∀ {ρ : Type} {u} {l : List (Slot Tx ρ)},
      inserted u (l.map (Slot.commit t)) = if u = t then [] else inserted u l :=
    inserted_ended fun _ => Slot.added_commit
  obtain ⟨hzero, hzero'⟩ := undelivered_of_afterCommit h
  have hrows := hD.paying (t := t)
  rw [Sys.undelivered, hx, elim_some, hzero, Multiset.add_zero] at hrows
  refine ⟨hD.fires.commit, hD.fired.commit, keyed_commit hD.outbox,
    hD.once.map fun _ _ => holds_of_commit, ?receipts, fun {u} => ?receiptsOf, ?paid,
    fun {u} => ?paying⟩
  case receipts =>
    simp only [Sys.commit, committed_map_commit]
    rw [keys_perm (hD.fired.visible_perm t), RowLocks.keys_append, hD.receipts, hD.receiptsOf,
      ← RowLocks.keys_append]
    refine keys_perm ?_
    rw [ledgered, ledgered, ← filter_append]
    exact ((hD.fires.visible_perm t).filter _).symm
  case receiptsOf =>
    simp only [Sys.commit, hins]
    split
    · rfl
    · exact hD.receiptsOf
  case paid =>
    simp only [Sys.commit, committed_map_commit]
    rw [hD.outbox.visible, dues_perm (hD.fired.visible_perm t), dues_append, hD.paid, hrows]
  case paying =>
    simp only [Sys.commit, hins, Sys.undelivered]
    by_cases hu : u = t
    · rw [if_pos hu, if_pos hu, hu, update_self, hzero']
      rfl
    · rw [if_neg hu, if_neg hu, update_of_ne hu]
      exact hD.paying

lemma rollback (hD : Delivered s) (h : x.elim 0 undelivered = 0) :
    Delivered (s.rollback t x) := by
  have hins : ∀ {ρ : Type} {u} {l : List (Slot Tx ρ)},
      inserted u (l.map (Slot.rollback t)) = if u = t then [] else inserted u l :=
    inserted_ended fun _ => Slot.added_rollback
  refine ⟨hD.fires.rollback, hD.fired.rollback, keyed_rollback hD.outbox,
    hD.once.map fun _ _ => holds_of_rollback, ?receipts, fun {u} => ?receiptsOf, ?paid,
    fun {u} => ?paying⟩
  case receipts =>
    simp only [Sys.rollback, committed_map_rollback]
    exact hD.receipts
  case receiptsOf =>
    simp only [Sys.rollback, hins]
    split
    · rfl
    · exact hD.receiptsOf
  case paid =>
    simp only [Sys.rollback, committed_map_rollback]
    exact hD.paid
  case paying =>
    simp only [Sys.rollback, hins, Sys.undelivered]
    by_cases hu : u = t
    · rw [if_pos hu, if_pos hu, hu, update_self, h]
      rfl
    · rw [if_neg hu, if_neg hu, update_of_ne hu]
      exact hD.paying

lemma refused (hD : Delivered s) (h : execStmt env (s.snapshot t) s.fresh x = some e)
    (ha : s.admits t e = true) (hm : sl ∈ s.fires) (hf : f ∈ e.fires) (hg : sl.holds g) :
    g.joinJob ≠ f.joinJob := by
  have hguard := ((execStmt_shape h).fires hf).2
  rcases hg with hb | ⟨u, hd⟩
  · exact hguard g (hD.fires.mem_visible (List.mem_filterMap.mpr ⟨sl, hm, hb⟩))
  by_cases hu : u = t
  · subst hu
    exact hguard g (List.mem_filterMap.mpr ⟨sl, hm, view_of_draft hd⟩)
  simp only [Sys.admits, Bool.and_eq_true, List.all_eq_true] at ha
  have hfree := ha.1.2 f hf sl hm
  simpa [free, hd, hu] using hfree

lemma exec (hS : Sound s) (hD : Delivered s) (hx : s.sessions t = some x)
    (h : execStmt env (s.snapshot t) s.fresh x = some e) (ha : s.admits t e = true) :
    Delivered (s.apply t e) := by
  have he := execStmt_delivers hS.nodup h
  have hkey : ∀ o o', e.outboxWrites o = some o' → o'.target = o.target := fun _ _ => he.target
  refine ⟨hD.fires.insertRows, hD.fired.insertRows, (hD.outbox.rewrite hkey).insertRows,
    hD.once.insertRows he.distinct fun sl hm f hf g hg => hD.refused h ha hm hf hg, ?receipts,
    fun {u} => ?receiptsOf, ?paid, fun {u} => ?paying⟩
  case receipts =>
    simp only [Sys.apply, committed_insertRows]
    exact hD.receipts
  case receiptsOf =>
    simp only [Sys.apply, inserted_insertRows, RowLocks.keys_append, hD.receiptsOf]
    split
    · rw [he.receipt, ← RowLocks.keys_append, ledgered, ledgered, ← filter_append]
      rfl
    · simp
  case paid =>
    simp only [Sys.apply, committed_insertRows, committed_rewrite]
    exact hD.paid
  case paying =>
    simp only [Sys.apply, inserted_insertRows, RowLocks.keys_append, keys_inserted_rewrite hkey,
      Sys.undelivered]
    by_cases hu : u = t
    · have hrows := hD.paying (t := t)
      rw [Sys.undelivered, hx, elim_some] at hrows
      rw [if_pos hu, if_pos hu, hu, update_self, elim_some, dues_append, ← hrows,
        Multiset.add_assoc, he.due, Multiset.add_assoc]
    · rw [if_neg hu, if_neg hu, update_of_ne hu, RowLocks.keys_nil, Multiset.add_zero, append_nil]
      exact hD.paying

lemma call (hD : Delivered s) (hn : s.sessions t = none) (c : Call) :
    Delivered { s with sessions := Function.update s.sessions t (some c.start) } := by
  refine ⟨hD.fires, hD.fired, hD.outbox, hD.once, hD.receipts, hD.receiptsOf, hD.paid,
    fun {u} => ?_⟩
  simp only [Sys.undelivered]
  by_cases hu : u = t
  · have hrows := hD.paying (t := t)
    rw [Sys.undelivered, hn] at hrows
    rw [hu, update_self, elim_some, ← hrows]
    cases c <;> rfl
  · rw [update_of_ne hu]
    exact hD.paying

lemma step (hS : Sound s) (hD : Delivered s) (h : s.step a = some s') :
    Delivered s' := by
  have hauto : ∀ {t w}, s.autocommit t w = some s' → Delivered s' := by
    intro t w hs
    obtain ⟨-, -, rfl⟩ := Sys.autocommit_some hs
    exact ⟨hD.fires, hD.fired, hD.outbox, hD.once, hD.receipts, hD.receiptsOf, hD.paid, hD.paying⟩
  cases Sys.moves_of_step h with
  | call hn => exact hD.call hn _
  | exec hx he ha => exact hD.exec hS hx he ha
  | commit hx hc => exact hD.commit hx hc
  | deadlock hx hr => exact hD.rollback (undelivered_of_restart hr)
  | crash hx => exact hD.rollback rfl
  | claim hc => exact hauto hc
  | reclaim hr => exact hauto hr

end Delivered

structure Undelivered (s : Sys) : Prop where
  quiet : s.Quiet
  listed : s.Listed
  arbited : Arbited s
  fires : s.fires = []
  fired : s.fired = []
  outbox : s.outbox = []

lemma Undelivered.delivered (h : Undelivered s) : Delivered s := by
  have hun : ∀ t, s.undelivered t = 0 := by
    intro t
    rw [Sys.undelivered, h.quiet.sessions]
    rfl
  refine ⟨?_, ?_, ?_, ?_, ?_, fun {t} => ?_, ?_, fun {t} => ?_⟩
  · rw [h.fires]
    exact fun _ hm => absurd hm not_mem_nil
  · rw [h.fired]
    exact fun _ hm => absurd hm not_mem_nil
  · rw [h.outbox]
    exact fun _ hm => absurd hm not_mem_nil
  · rw [h.fires]
    exact .nil
  · rw [h.fires, h.fired]; rfl
  · rw [h.fires, h.fired]; rfl
  · rw [h.outbox, h.fired]; rfl
  · rw [h.outbox, h.fired, hun]; rfl

lemma filter_targets {l : List FiredJoin} (hn : (l.map FiredJoin.joinJob).Nodup) (hF : F ∈ l) :
    (l.flatMap FiredJoin.targets).filter (fun p => p.1 = F.joinJob) = F.targets := by
  have hown : ∀ G : FiredJoin, G.joinJob = F.joinJob →
      G.targets.filter (fun p => p.1 = F.joinJob) = G.targets := by
    intro G hG
    rw [filter_eq_self]
    intro p hp
    obtain ⟨c, -, rfl⟩ := mem_map.mp hp
    exact decide_eq_true hG
  have hother : ∀ G : FiredJoin, G.joinJob ≠ F.joinJob →
      G.targets.filter (fun p => p.1 = F.joinJob) = [] := by
    intro G hG
    rw [filter_eq_nil_iff]
    intro p hp
    obtain ⟨c, -, rfl⟩ := mem_map.mp hp
    simpa using hG
  induction l with
  | nil => cases hF
  | cons G l ih =>
    rw [map_cons, nodup_cons] at hn
    rw [flatMap_cons, filter_append]
    rcases mem_cons.mp hF with rfl | hF
    · have hrest : (l.flatMap targets).filter (fun p => p.1 = F.joinJob) = [] := by
        rw [filter_flatMap, flatMap_eq_nil_iff]
        intro G hG
        refine hother G fun heq => hn.1 ?_
        exact heq ▸ mem_map_of_mem hG
      rw [hown F rfl, hrest, append_nil]
    · have hG : G.joinJob ≠ F.joinJob := fun heq => hn.1 (heq ▸ mem_map_of_mem hF)
      rw [hother G hG, nil_append]
      exact ih hn.2 hF

lemma Delivered.rows_of_fire (hD : Delivered s) (hf : f ∈ committed s.fires)
    (hb : f.firedBy ≠ .bornZero) : ∃ F ∈ committed s.fired, F.joinJob = f.joinJob ∧
      (((committed s.outbox).filter fun o => o.joinJob = f.joinJob).map fun o =>
        (o.consumerStepKey, o.mapIndex)).Perm (F.consumers.map fun c => (c.stepKey, c.mapIndex)) := by
  have hkey : f.joinJob ∈ keys joinJob (committed s.fired) := by
    rw [hD.receipts]
    exact mem_keys.mpr ⟨f, List.mem_filter.mpr ⟨hf, decide_eq_true hb⟩, rfl⟩
  obtain ⟨F, hF, hj⟩ := mem_keys.mp hkey
  have hn : ((committed s.fired).map joinJob).Nodup := by
    have hperm := Multiset.coe_eq_coe.mp hD.receipts
    refine hperm.nodup_iff.mpr (List.Nodup.sublist ?_ hD.once.nodup_committed)
    exact List.filter_sublist.map _
  have hpaid := (Multiset.coe_eq_coe.mp hD.paid).filter fun p => p.1 = F.joinJob
  rw [filter_targets hn hF, List.filter_map] at hpaid
  refine ⟨F, hF, hj, ?_⟩
  have hsnd := hpaid.map Prod.snd
  rw [List.map_map, targets, List.map_map, hj] at hsnd
  exact hsnd

lemma Sys.fired_step {s : Sys} (hS : Sound s) (h : s.step a = some s') (hm : sl ∈ s'.fired)
    (hF : sl.holds F) : (∃ sl0 ∈ s.fired, sl0.holds F) ∨
      ∃ t r, (s.jobs F.joinJob).view t = some r ∧ r.metadata.consumers = F.consumers := by
  cases Sys.moves_of_step h with
  | call hn => exact .inl ⟨sl, hm, hF⟩
  | @exec t x env e hx he ha =>
    rcases mem_append.mp hm with hm | hm
    · exact .inl ⟨sl, hm, hF⟩
    obtain ⟨G, hG, rfl⟩ := mem_map.mp hm
    obtain rfl : F = G := by
      rcases hF with hb | ⟨u, hd⟩
      · cases hb
      · exact (Prod.mk.inj (some.inj hd)).2.symm
    obtain ⟨r, hr, hc⟩ := (execStmt_delivers hS.nodup he).declared hG
    exact .inr ⟨t, r, hr, hc⟩
  | commit hx hc =>
    obtain ⟨sl0, hm0, rfl⟩ := mem_map.mp hm
    exact .inl ⟨sl0, hm0, holds_of_commit hF⟩
  | deadlock hx hr | crash hx =>
    obtain ⟨sl0, hm0, rfl⟩ := mem_map.mp hm
    exact .inl ⟨sl0, hm0, holds_of_rollback hF⟩
  | claim hc =>
    obtain ⟨-, -, rfl⟩ := Sys.autocommit_some hc
    exact .inl ⟨sl, hm, hF⟩
  | reclaim hr =>
    obtain ⟨-, -, rfl⟩ := Sys.autocommit_some hr
    exact .inl ⟨sl, hm, hF⟩

/-- The pair `drain_outbox` inserts a consumer row under; a static row of that step has it too. -/
def consumerKey (flow : JobId) (stepKey : String) (mapIndex : Option Nat) : String × String :=
  (idempotencyScope flow, stepIdempotencyKey stepKey mapIndex)

/-- In every run a join fires once, with one outbox row for each consumer it declared, and at most
one job row has the key the consumer is inserted under. -/
theorem delivers_once (hs : Undelivered s0) (h : Reach Sys.step (fun _ _ => True) s0 s) :
    ((committed s.fires).map JoinFire.joinJob).Nodup ∧
      (∀ f ∈ committed s.fires, f.firedBy ≠ .bornZero →
        ∃ F ∈ committed s.fired, F.joinJob = f.joinJob ∧
          (((committed s.outbox).filter fun o => o.joinJob = f.joinJob).map fun o =>
            (o.consumerStepKey, o.mapIndex)).Perm
              (F.consumers.map fun c => (c.stepKey, c.mapIndex))) ∧
      (∀ a s', s.step a = some s' → ∀ sl ∈ s'.fired, ∀ F, sl.holds F →
        (∃ sl0 ∈ s.fired, sl0.holds F) ∨
          ∃ t r, (s.jobs F.joinJob).view t = some r ∧ r.metadata.consumers = F.consumers) ∧
      ∀ flow stepKey mapIndex k r k' r', (s.jobs k).holds r → (s.jobs k').holds r' →
        r.idempotency = some (consumerKey flow stepKey mapIndex) →
        r'.idempotency = some (consumerKey flow stepKey mapIndex) → k = k' := by
  have hinv : Sound s ∧ Delivered s ∧ Arbited s := by
    refine h.invariant (I := fun s => Sound s ∧ Delivered s ∧ Arbited s)
      ⟨.of_quiet hs.quiet hs.listed, hs.delivered, hs.arbited⟩ ?_
    rintro s a s' ⟨hS, hD, hA⟩ - hstep
    exact ⟨hS.step hstep, hD.step hS hstep, hA.step hS hstep⟩
  obtain ⟨hS, hD, hA⟩ := hinv
  exact ⟨hD.once.nodup_committed, fun f hf hb => hD.rows_of_fire hf hb,
    fun _ _ hstep _ hm _ hF => Sys.fired_step hS hstep hm hF,
    fun _ _ _ _ _ _ _ hr hr' hi hi' => hA.unique hr hr' hi hi'⟩

lemma undelivered_ofRows (hi : ∀ r ∈ rows, JobRow.idempotency r = none) (edges : List Edge) :
    Undelivered (.ofRows rows edges) := by
  have hnone : ∀ {k r}, ((Sys.ofRows rows edges).jobs k).holds r → r.idempotency = none := by
    rintro k r (hb | ⟨u, hd⟩)
    · exact hi r (mem_of_getElem? hb)
    · cases hd
  refine ⟨Sys.quiet_ofRows _ _, Sys.listed_ofRows _ _, ⟨fun hr hr' => ?_, fun hr _ hk => ?_⟩, rfl,
    rfl, rfl⟩
  · rw [hnone hr, hnone hr']
  · rw [hnone hr] at hk
    cases hk

def forkNothing : List Event :=
  [.call 1 (.finalizeNode (succeed 1 "src" 1) (some
    { children := []
      join := some
        { stepKey := "join", actor := "pack", queue := "default"
          consumers := [{ stepKey := "use", actor := "use", queue := "default" }] } }))] ++
    replicate 9 (.exec 1 {}) ++ [.commit 1]

def forkUse : List Event :=
  [.call 1 (.finalizeNode (succeed 1 "p" 1) (some
    { children := [{ stepKey := "use", actor := "use", queue := "default" }], join := none }))] ++
    replicate 4 (.exec 1 {}) ++ [.commit 1, .exec 1 {}, .exec 1 {}, .commit 1,
      .call 1 (.finalizeNode (succeed 2 "q" 2) none), .exec 1 {}, .exec 1 {}, .commit 1] ++
    replicate 4 (.exec 1 {}) ++ [.commit 1, .call 2 (.drainOutbox 10), .exec 2 {}, .exec 2 {},
      .exec 2 {}, .commit 2]

/-- A join fires at its birth with no outbox row, and the step key of a fan-out child is inserted
again by the drain. -/
theorem bornZero_and_twice_inserted :
    (Undelivered (.ofRows [rootRow, claimedRow "src" 1] []) ∧
      ∃ s, Reach Sys.step (fun _ _ => True) (.ofRows [rootRow, claimedRow "src" 1] []) s ∧
        ∃ f ∈ committed s.fires, (∃ r, (s.jobs f.joinJob).base = some r ∧
          r.metadata.consumers.length = 1) ∧ committed s.outbox = []) ∧
    Undelivered twoParents ∧ ∃ s, Reach Sys.step (fun _ _ => True) twoParents s ∧
      ∀ k ∈ [4, 7], (s.jobs k).base.map (fun r => (r.metadata.flowId, r.stepKey, r.mapIndex)) =
        some (some 0, "use", none) := by
  refine ⟨⟨undelivered_ofRows (by decide) _,
    final Sys.step (.ofRows [rootRow, claimedRow "src" 1] []) forkNothing,
    .of_exec (exec_final (by decide)) (meets_true _ _), ⟨3, 2, 0, "join", .bornZero⟩, by decide, ?_,
    by decide⟩, undelivered_ofRows (by decide) _, final Sys.step twoParents forkUse,
    .of_exec (exec_final (by decide +kernel)) (meets_true _ _), by decide +kernel⟩
  exact map_eq_some_iff.mp (show ((final Sys.step (.ofRows [rootRow, claimedRow "src" 1] [])
    forkNothing).jobs 2).base.map (fun r => r.metadata.consumers.length) = some 1 by decide)

def finishAndDrain : List Event :=
  inTurn ++ [.call 2 (.drainOutbox 10), .exec 2 {}, .exec 2 {}, .exec 2 {}, .commit 2]

theorem delivers_once_drained :
    ∃ F ∈ committed (final Sys.step twoParents finishAndDrain).fired, F.joinJob = 3 ∧
      (((committed (final Sys.step twoParents finishAndDrain).outbox).filter fun o =>
        o.joinJob = 3).map fun o => (o.consumerStepKey, o.mapIndex)).Perm
          (F.consumers.map fun c => (c.stepKey, c.mapIndex)) :=
  (delivers_once (undelivered_ofRows (by decide) _)
    (.of_exec (exec_final (by decide)) (meets_true _ _))).2.1
      ⟨4, 3, 0, "join", .finalize⟩ (by decide) (by decide)

end TaskQ
