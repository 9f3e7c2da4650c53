import TaskQ.JoinFire

namespace TaskQ
open RowLocks Countdown Runs List Function FinalizePc Slot

def ItemOf (j p : JobId) (item : FailureInfo) : Prop :=
  ∃ db c, c.job = p ∧ c.outcome.1 = .failed ∧ (j, item) ∈ collectFanIn db c

def Failures.Logs (j : JobId) : Failures → List JobId → Prop
  | .items l, ps => List.Forall₂ (ItemOf j) ps l
  | .truncated n, ps => n = ps.length

def Failures.Accounts (j : JobId) (f : Failures) (ps : List JobId) : Prop :=
  ∃ qs, qs.Perm ps ∧ f.Logs j qs

lemma Failures.Logs.append {f : Failures} (h : f.Logs j ps) (hi : ItemOf j p item) :
    (f.append bytes item).Logs j (ps ++ [p]) := by
  cases f with
  | items l =>
    have hl := List.Forall₂.length_eq h
    simp only [Failures.append]
    split
    · exact rel_append h (.cons hi .nil)
    · simp [Failures.Logs, hl]
  | truncated n =>
    obtain rfl := h
    simp [Failures.append, Failures.Logs]

def JobRow.Waits (r : JobRow) : Prop :=
  r.status = .pending ∨ r.status.terminal = true ∨ r.depsPending = 0

lemma JobRow.Waits.same {r0 r : JobRow} (h : r0.Waits) (hs : r.status = r0.status)
    (hd : r.depsPending = r0.depsPending) : r.Waits := by
  rwa [JobRow.Waits, hs, hd]

lemma JobRow.Waits.zero {r0 : JobRow} (h : r0.Waits) (hs : r0.status = .running) :
    r0.depsPending = 0 := by
  rcases h with h | h | h
  · rw [hs] at h
    cases h
  · rw [hs] at h
    cases h
  · exact h

variable {db : Snapshot}

lemma failClosedCascade_kept (h : failClosedCascade db c k = some r) :
    ∃ r0, db.jobs k = some r0 ∧ (r0.Waits → r.Waits) ∧
      r.metadata.failures = r0.metadata.failures := by
  obtain ⟨r0, hr0, -, rfl⟩ := update_some.mp h
  refine ⟨r0, hr0, ?_⟩
  split
  · exact ⟨fun hw => hw.same rfl rfl, rfl⟩
  split
  · exact ⟨fun _ => .inr (.inl rfl), rfl⟩
  · exact ⟨fun _ => .inr (.inl rfl), rfl⟩

lemma rederiveSweep_kept (h : rederiveSweep db now batch k = some r) :
    ∃ r0, db.jobs k = some r0 ∧ (r0.Waits → r.Waits) ∧
      r.metadata.failures = r0.metadata.failures := by
  have hf : ∀ r0, db.jobs k = some r0 → r.metadata.failures = r0.metadata.failures := by
    intro r0 hr0
    rw [rederiveSweep, rederiveArms] at h
    obtain ⟨r1, hr1, -, rfl⟩ := update_some.mp h
    cases hr0.symm.trans hr1
    simp [stampReason, apply_ite JobRow.metadata, apply_ite Metadata.failures]
  obtain ⟨r0, hr0, hs, hd | ⟨hrec, -⟩⟩ := rederiveSweep_row h
  · exact ⟨r0, hr0, fun hw => hw.same hs hd, hf r0 hr0⟩
  -- only a waiting join is recounted
  obtain ⟨-, r1, hr1, hj⟩ := mem_lockBatch (counts_of_reconciles hrec).1
  cases hr0.symm.trans hr1
  simp only [joinWait, Bool.and_eq_true, decide_eq_true_eq] at hj
  exact ⟨r0, hr0, fun _ => .inl (hs.trans hj.1.1.1), hf r0 hr0⟩

def NotAdopted (j : JobId) (s : Sys) : Event → Prop
  | .exec t _ => ∀ c fork children, s.sessions t ≠ some (.finalize c fork (.joinAdopt children j))
  | _ => True

lemma Wrote.kept (h : Wrote env db born x k r) (hk : k ∉ born)
    (ha : ∀ c fork children, x ≠ .finalize c fork (.joinAdopt children k)) :
    ∃ r0, db.jobs k = some r0 ∧ (r0.Waits → r.Waits) ∧
      (r.metadata.failures = r0.metadata.failures ∨ ∃ c fork item rows,
        x = .finalize c fork (.fanInAppend ((k, item) :: rows)) ∧
        r.metadata.failures = r0.metadata.failures.append env.bytes item) := by
  cases h with
  | @mark c _ _ _ hw =>
    obtain ⟨r0, hr0, -, rfl⟩ := update_some.mp hw
    exact ⟨r0, hr0, fun _ => .inr (.inl c.outcome.2), .inl rfl⟩
  | forkChild hb | forkJoin hb | consumer hb => exact absurd hb hk
  | adopt hw =>
    obtain ⟨rfl, -⟩ := adoptJoin_row hw
    exact absurd rfl (ha _ _ _)
  | cascade hw =>
    obtain ⟨r0, hr0, hwt, hf⟩ := failClosedCascade_kept hw
    exact ⟨r0, hr0, hwt, .inl hf⟩
  | fanIn hw =>
    obtain ⟨r0, hr0, hj, rfl⟩ := update_some.mp hw
    obtain rfl := of_decide_eq_true hj
    exact ⟨r0, hr0, fun h => h.same rfl rfl, .inr ⟨_, _, _, _, rfl, rfl⟩⟩
  | decrement hw =>
    obtain ⟨r0, hr0, hc, rfl⟩ := update_some.mp hw
    simp only [countsDown, Bool.and_eq_true, decide_eq_true_eq] at hc
    exact ⟨r0, hr0, fun _ => .inl hc.1.2, .inl rfl⟩
  | rederive hw =>
    obtain ⟨r0, hr0, hwt, hf⟩ := rederiveSweep_kept hw
    exact ⟨r0, hr0, hwt, .inl hf⟩
  | sweepFire hw => exact ⟨_, sweepFireLocks_row hw, id, .inl rfl⟩
  | body hw =>
    obtain ⟨r0, hr0, -, rfl⟩ := update_some.mp hw
    exact ⟨r0, hr0, fun h => h.same rfl rfl, .inl rfl⟩
  | rootMaintain hw =>
    obtain ⟨r0, hr0, hd, hs⟩ := workflowRootMaintain_row hw
    obtain ⟨r1, hr1, -, rfl⟩ := update_some.mp hw
    cases hr0.symm.trans hr1
    refine ⟨r0, hr0, fun h => .inr (.inr (hd.trans (h.zero hs))), .inl ?_⟩
    split <;> rfl

def collectDebt : Debt where
  extra cs st e := st = .failed ∧ e.failurePolicy.absorbing = true ∧ (e.parent, e.child) ∉ cs
  anti := fun ⟨hs, hp, hc⟩ => ⟨hs, hp, fun hm => hc (List.mem_append_left _ hm)⟩

def Sys.FailedOn (s : Sys) (es : List Edge) (p : JobId) : Prop :=
  (∃ e ∈ es, e.parent = p ∧ e.failurePolicy.absorbing = true) ∧
    ∃ b, (s.jobs p).base = some b ∧ b.status = .failed

def FinalizeCall.Absorbed (c : FinalizeCall) (es : List Edge) : Prop :=
  c.outcome.1 = .failed ∧ ∃ e ∈ es, e.parent = c.job ∧ e.failurePolicy.absorbing = true

def FinalizePc.resolving : FinalizePc → Bool
  | .cascade | .fanIn | .fanInAppend _ => true
  | _ => false

def FinalizePc.appended (j : JobId) : FinalizePc → Bool
  | .fanInAppend rows => j ∉ rows.map Prod.fst
  | .decrement | .fire _ _ | .deliver _ _ _ => true
  | _ => false

structure Posted (j : JobId) (es : List Edge) (ps : List JobId) (s : Sys) : Prop where
  nodup : ps.Nodup
  failed : p ∈ ps → s.FailedOn es p ∧ ¬ s.inFlight p
  counted : e ∈ es → e.failurePolicy.absorbing = true → (e.parent, j) ∈ s.counted →
    ∃ b, (s.jobs e.parent).base = some b ∧ b.status.terminal = true ∧
      (b.status = .failed → e.parent ∈ ps)

structure Absorbing (j : JobId) (es : List Edge) (v : Option JobRow) (own : List JobId)
    (c : FinalizeCall) (pc : FinalizePc) : Prop where
  held : own ≠ [] → own = [c.job] ∧ pc.appended j = true ∧ c.Absorbed es
  failing : pc.resolving = true → c.outcome.1 = .failed
  queue : pc = .fanInAppend rows → (j, item) ∈ rows → ItemOf j c.job item ∧ c.Absorbed es
  once : pc = .fanInAppend rows → (rows.map Prod.fst).count j ≤ 1
  passed : pc.appended j = true → c.Absorbed es →
    own = [c.job] ∨ ∀ r, v = some r → r.status.terminal = true
  hit : h ∈ pc.hits → h.joinJob = j → c.Absorbed es → own = [c.job]

structure Records (j : JobId) (es : List Edge) (ps : List JobId) (own : Tx → List JobId)
    (s : Sys) : Prop where
  base : (s.jobs j).base = some r → r.metadata.failures.Logs j ps
  draft : (s.jobs j).draft = some (t, r) → r.metadata.failures.Logs j (ps ++ own t)
  idle : (∀ r, (s.jobs j).draft ≠ some (t, r)) → own t = []
  session : s.sessions t = some (.finalize c fork pc) →
    Absorbing j es ((s.jobs j).view t) (own t) c pc
  writer : own t ≠ [] → ∃ c fork pc, s.sessions t = some (.finalize c fork pc)

lemma Records.view (hR : Records j es ps own s) (hr : (s.jobs j).view t = some r) :
    r.metadata.failures.Logs j (ps ++ own t) := by
  rcases draft_or_base hr with hd | ⟨hn, hb⟩
  · exact hR.draft hd
  · rw [hR.idle hn, append_nil]
    exact hR.base hb

lemma Records.owner (hR : Records j es ps own s) (hp : p ∈ own t) :
    ∃ c fork pc, s.sessions t = some (.finalize c fork pc) ∧ p = c.job ∧ own t = [c.job] ∧
      pc.appended j = true ∧ c.Absorbed es := by
  have hne := ne_nil_of_mem hp
  obtain ⟨c, fork, pc, hx⟩ := hR.writer hne
  obtain ⟨ho, ha, hc⟩ := (hR.session hx).held hne
  rw [ho] at hp
  exact ⟨c, fork, pc, hx, mem_singleton.mp hp, ho, ha, hc⟩

lemma FinalizePc.inTx2_of_appended {pc : FinalizePc} (h : pc.appended j = true) :
    pc.inTx2 = true := by
  cases pc <;> first | rfl | cases h

lemma Absorbing.start (ha : pc.appended j = true → c.outcome.1 ≠ .failed)
    (hf : pc.resolving = true → c.outcome.1 = .failed) (hq : ∀ rows, pc ≠ .fanInAppend rows)
    (hh : pc.hits = []) : Absorbing j es v [] c pc where
  held h := absurd rfl h
  failing := hf
  queue h := absurd h (hq _)
  once h := absurd h (hq _)
  passed h hc := absurd hc.1 (ha h)
  hit h := by
    rw [hh] at h
    cases h

lemma Absorbing.tx1 (h : pc.inTx2 = false) : Absorbing j es v [] c pc := by
  refine .start ?_ ?_ ?_ ?_
  · intro ha
    rw [inTx2_of_appended ha] at h
    cases h
  · intro hr
    cases pc <;> cases hr <;> cases h
  · rintro rows rfl
    cases h
  · cases pc <;> first | rfl | cases h

lemma Absorbing.tx2Start : Absorbing j es v [] c c.tx2Start := by
  unfold FinalizeCall.tx2Start
  split
  · rename_i hf
    exact .start (fun h => by cases h) (fun _ => hf) (fun _ h => by cases h) rfl
  · rename_i hf
    exact .start (fun _ => hf) (fun h => by cases h) (fun _ h => by cases h) rfl

lemma Absorbing.mono (h : Absorbing j es v own c pc)
    (hv : (∀ r, v = some r → r.status.terminal = true) → ∀ r, v' = some r → r.status.terminal = true) :
    Absorbing j es v' own c pc :=
  ⟨h.held, h.failing, h.queue, h.once, fun ha hc => (h.passed ha hc).imp id hv, h.hit⟩

lemma collectFanInAppend_self (bytes : List FailureInfo → Nat)
    (item : FailureInfo) (h : db.jobs j = some r0) :
    ∃ r, collectFanInAppend db bytes j item j = some r ∧
      r.metadata.failures = r0.metadata.failures.append bytes item := by
  exact ⟨_, update_some.mpr ⟨r0, h, decide_eq_true rfl, rfl⟩, rfl⟩

lemma mem_collectFanIn (h : (j, item) ∈ collectFanIn db c) :
    ∃ e ∈ db.edges, e.parent = c.job ∧ e.failurePolicy.absorbing = true ∧ e.child = j := by
  obtain ⟨e, he, hj⟩ := mem_map.mp h
  simp only [mem_filter, Bool.and_eq_true, decide_eq_true_eq] at he
  exact ⟨e, he.1, he.2.1.1, he.2.1.2, (Prod.mk.inj hj).1⟩

lemma Bounded.collectFanIn_count (hB : Bounded D ρ j es s) (hk : (es.map Edge.parent).Nodup)
    (c : FinalizeCall) : ((collectFanIn (s.snapshot t) c).map Prod.fst).count j ≤ 1 := by
  have hle : ((collectFanIn (s.snapshot t) c).map Prod.fst).count j ≤
      (es.map Edge.parent).count c.job := by
    rw [← hB.visible (t := t), collectFanIn, map_map]
    simp only [count, countP_map, countP_filter]
    refine countP_mono_left fun e _ he => ?_
    simp only [comp_apply, Bool.and_eq_true, beq_iff_eq, decide_eq_true_eq] at he ⊢
    exact ⟨he.2.1.1, he.1⟩
  exact hle.trans (nodup_iff_count_le_one.mp hk c.job)

lemma Bounded.done_of_not_collected (hB : Bounded D 0 j es s) (hu : s.unfired j)
    (hw : ∀ r, s.version j r → r.Waits) (hx : s.sessions t = some (.finalize c fork .fanIn))
    (hc : c.Absorbed es) (hn : j ∉ (collectFanIn (s.snapshot t) c).map Prod.fst)
    (hr : (s.jobs j).view t = some r) : r.status.terminal = true := by
  obtain ⟨-, e, he, hp, ha⟩ := hc
  obtain ⟨he', hj⟩ := (hB.mem_edges (t := t)).mp he
  have hpos : r.depsPending ≠ 0 := by
    intro h0
    have hd := (hB.clear hu hr h0).2 e he (.inl ⟨t, c, fork, .fanIn, hx, hp.symm, rfl⟩)
    obtain ⟨c', fork', pc, hx', -, h, hh, -⟩ := Sys.mem_discharged.mp hd
    cases hx.symm.trans hx'
    cases hh
  rcases hw r (Sys.version_of_view hr) with hs | hs | hs
  · refine absurd (mem_map.mpr ⟨_, mem_map_of_mem (mem_filter.mpr ⟨he', ?_⟩), hj⟩) hn
    have hr' : (s.snapshot t).jobs e.child = some r := hj ▸ hr
    simp [hp, ha, hr', hs, Nat.pos_of_ne_zero hpos]
  · exact hs
  · exact absurd hs hpos

lemma Absorbing.own_nil (h : Absorbing j es v own c pc) (ha : pc.appended j = false) :
    own = [] := by
  by_contra hne
  have ht := (h.held hne).2.1
  rw [ha] at ht
  cases ht

lemma Absorbing.move (h : Absorbing j es v own c pc) (ha : pc'.appended j = pc.appended j)
    (hf : pc'.resolving = true → pc.resolving = true)
    (hq : ∀ rows, pc' = .fanInAppend rows → ∃ p, pc = .fanInAppend (p :: rows))
    (hh : ∀ h ∈ pc'.hits, h.joinJob = j → c.Absorbed es → own = [c.job]) :
    Absorbing j es v own c pc' where
  held hne := ha ▸ h.held hne
  failing hr := h.failing (hf hr)
  queue hp hm := by
    obtain ⟨p, hp⟩ := hq _ hp
    exact h.queue hp (mem_cons_of_mem _ hm)
  once hp := by
    obtain ⟨p, hp⟩ := hq _ hp
    exact (count_le_count_cons ..).trans (h.once hp)
  passed hp := h.passed (ha ▸ hp)
  hit := hh _

lemma Absorbing.exec (hB : Bounded D 0 j es s) (hu : s.unfired j)
    (hk : (es.map Edge.parent).Nodup) (hw : ∀ r, s.version j r → r.Waits)
    (hx : s.sessions t = some (.finalize c fork pc))
    (he : execTx2 env (s.snapshot t) s.fresh c fork pc = some e)
    (hn : e.next = .finalize c fork pc') (hA : Absorbing j es ((s.jobs j).view t) own c pc)
    (hno : ∀ item rows, pc ≠ .fanInAppend ((j, item) :: rows)) :
    Absorbing j es ((s.jobs j).view t) own c pc' := by
  cases execTx2_runs he with
  | cascade =>
    cases hn
    rw [hA.own_nil rfl]
    exact .start (fun h => by cases h) (fun _ => hA.failing rfl) (fun _ h => by cases h) rfl
  | @append k item rows =>
    cases hn
    have hkj : j ≠ k := fun h => hno item rows (h ▸ rfl)
    refine hA.move ?_ (fun _ => rfl) (fun rows' h => ?_) (fun _ h => by cases h)
    · simp [appended, hkj]
    · exact ⟨(k, item), by rw [fanInAppend.inj h]⟩
  | decrement hwrite =>
    cases hn
    refine hA.move rfl (fun h => by cases h) (fun _ h => by cases h) fun h hm hj hc => ?_
    -- the counted row is pending, so its item has been appended
    obtain ⟨-, r, hr, -⟩ := mem_hits.mp hm
    rw [hj, hwrite] at hr
    obtain ⟨r0, hr0, hcd, -⟩ := update_some.mp hr
    simp only [countsDown, Bool.and_eq_true, decide_eq_true_eq] at hcd
    rcases hA.passed rfl hc with ho | ht
    · exact ho
    have hterm := ht r0 hr0
    rw [hcd.1.2] at hterm
    cases hterm
  | fire | deliver =>
    cases hn
    exact hA.move rfl (fun h => by cases h) (fun _ h => by cases h) fun _ hm => hA.hit hm
  | plain hread =>
    cases hn
    cases hread with
    | fanIn =>
      have hf := hA.failing rfl
      rw [hA.own_nil rfl]
      refine ⟨fun h => absurd rfl h, fun _ => hf, ?queue, ?once, ?passed, fun h => by cases h⟩
      case queue =>
        intro rows item hp hm
        cases hp
        obtain ⟨e, he, hp, ha, hj⟩ := mem_collectFanIn hm
        exact ⟨⟨_, c, rfl, hf, hm⟩, hf, e, hB.mem_edges.mpr ⟨he, hj⟩, hp, ha⟩
      case once =>
        intro rows hp
        cases hp
        exact hB.collectFanIn_count hk c
      case passed =>
        intro ha hc
        exact .inr fun r hr => hB.done_of_not_collected hu hw hx hc (of_decide_eq_true ha) hr
    | appended =>
      exact hA.move rfl (fun _ => rfl) (fun _ h => by cases h) (fun _ h => by cases h)
    | unfired | delivered =>
      exact hA.move rfl (fun h => by cases h) (fun _ h => by cases h) fun _ hm => hA.hit hm

lemma Absorbing.append (hA : Absorbing j es v own c (.fanInAppend ((j, item) :: rows))) :
    ItemOf j c.job item ∧ own = [] ∧ ∀ v', Absorbing j es v' [c.job] c (.fanInAppend rows) := by
  have hlast : j ∉ rows.map Prod.fst := by
    have hle := hA.once rfl
    rw [map_cons, count_cons_self] at hle
    exact count_eq_zero.mp (by omega)
  have hnot : (fanInAppend ((j, item) :: rows)).appended j = false := by
    simp [appended]
  obtain ⟨hi, hc⟩ := hA.queue rfl mem_cons_self
  refine ⟨hi, hA.own_nil hnot, fun v' => ?_⟩
  refine ⟨fun _ => ⟨rfl, decide_eq_true hlast, hc⟩, fun _ => hc.1, ?_, ?_, fun _ _ => .inl rfl,
    fun _ _ _ => rfl⟩
  · intro rows' item' hp hm
    cases hp
    exact absurd (mem_map_of_mem (f := Prod.fst) hm) hlast
  · intro rows' hp
    cases hp
    exact (count_eq_zero.mpr hlast).le.trans (Nat.zero_le _)

lemma Sys.FailedOn.step (hf : s.FailedOn es p) (hS : Sound s) (h : s.step a = some s') :
    s'.FailedOn es p := by
  obtain ⟨he, b, hb, hs⟩ := hf
  obtain ⟨b', hb', hs'⟩ := hS.terminal_step h hb (by rw [hs]; rfl)
  exact ⟨he, b', hb', hs'.trans hs⟩

section

variable (hP : Posted j es ps s) (hS : Sound s)

include hP hS in
lemma Posted.failed_step (h : s.step a = some s') (hp : p ∈ ps) :
    s'.FailedOn es p ∧ ¬ s'.inFlight p := by
  obtain ⟨hf, hn⟩ := hP.failed hp
  refine ⟨hf.step hS h, fun hfl => ?_⟩
  rcases hS.inFlight_step h hfl with hfl | hfl
  · exact hn hfl
  obtain ⟨-, b, hb, hs⟩ := hf
  have ht := hfl b hb
  rw [hs] at ht
  cases ht

include hP hS in
lemma Posted.counted_step (h : s.step a = some s') (he : e ∈ es)
    (ha : e.failurePolicy.absorbing = true) (hc : (e.parent, j) ∈ s.counted) :
    ∃ b, (s'.jobs e.parent).base = some b ∧ b.status.terminal = true ∧
      (b.status = .failed → e.parent ∈ ps) := by
  obtain ⟨b, hb, ht, hf⟩ := hP.counted he ha hc
  obtain ⟨b', hb', hs⟩ := hS.terminal_step h hb ht
  rw [← hs] at ht hf
  exact ⟨b', hb', ht, hf⟩

include hP hS in
lemma Posted.kept (h : s.step a = some s') (hc : s'.counted = s.counted) : Posted j es ps s' :=
  ⟨hP.nodup, hP.failed_step hS h, fun he ha hm => hP.counted_step hS h he ha (hc ▸ hm)⟩

include hS in
lemma Records.failedOn (hR : Records j es ps own s) (hp : p ∈ own t) :
    s.FailedOn es p ∧ s.inFlight p := by
  obtain ⟨c, fork, pc, hx, rfl, -, ha, hc⟩ := hR.owner hp
  have hpc := inTx2_of_appended ha
  obtain ⟨b, hb, hs⟩ := hS.flight hx hpc
  exact ⟨⟨hc.2, b, hb, hs.trans hc.1⟩, t, c, fork, pc, hx, rfl, hpc⟩

include hP hS in
lemma Posted.nodup_append (hR : Records j es ps own s) (t : Tx) : (ps ++ own t).Nodup := by
  refine List.nodup_append.mpr ⟨hP.nodup, ?_, ?_⟩
  · cases ho : own t with
    | nil => exact List.nodup_nil
    | cons p l =>
      obtain ⟨c, fork, pc, -, -, hown, -⟩ := hR.owner (ho ▸ mem_cons_self)
      rw [← ho, hown]
      exact nodup_singleton _
  · rintro p hp q hq rfl
    exact (hP.failed hp).2 (hR.failedOn hS hq).2

include hP hS in
lemma Posted.commit (hR : Records j es ps own s) (hx : s.sessions t = some x)
    (hc : x.afterCommit = some (x', new)) : Posted j es (ps ++ own t) (s.commit t x' new) := by
  have h : s.step (.commit t) = some (s.commit t x' new) := by simp [Sys.step, hx, hc]
  refine ⟨hP.nodup_append hS hR t, ?failed, ?counted⟩
  case failed =>
    intro p hp
    rcases mem_append.mp hp with hp | hp
    · exact hP.failed_step hS h hp
    refine ⟨(hR.failedOn hS hp).1.step hS h, ?_⟩
    obtain ⟨c, fork, pc, hx', rfl, -, ha, -⟩ := hR.owner hp
    cases hx.symm.trans hx'
    have hpc := inTx2_of_appended ha
    rintro ⟨u, c', fork', pc', hu, hj, hp'⟩
    rcases update_sessions hu with ⟨-, hy⟩ | ⟨hut, hy⟩
    · rcases Session.afterCommit_cases hc with ⟨c1, fork1, hx1, -⟩ | ⟨-, -, -, -, rfl, -⟩ |
        ⟨rfl, -⟩
      · cases hx1
        cases hpc
      · cases hy
      · cases hy
    · exact hut (hS.single hx hpc hy hp' hj)
  case counted =>
    intro e he ha hm
    rcases mem_append.mp hm with hm' | hm'
    · obtain ⟨b, hb, ht, hf⟩ := hP.counted_step hS h he ha hm'
      exact ⟨b, hb, ht, fun hs => mem_append_left _ (hf hs)⟩
    rcases Session.afterCommit_cases hc with ⟨c, fork, -, -, rfl⟩ | ⟨c, fork, hs, rfl, rfl, rfl⟩ |
      ⟨-, rfl, -⟩
    · cases hm'
    · obtain ⟨hit, hh, heq⟩ := mem_map.mp hm'
      obtain ⟨hcj, hj⟩ := Prod.mk.inj heq
      obtain ⟨b, hb, hbs⟩ := hS.flight hx rfl
      obtain ⟨b', hb', hs'⟩ := hS.terminal_step h hb (hbs ▸ c.outcome.2)
      rw [hcj] at hb'
      refine ⟨b', hb', ?_, fun hfail => ?_⟩
      · rw [hs', hbs]
        exact c.outcome.2
      have hout := hbs.symm.trans (hs'.symm.trans hfail)
      have hown := (hR.session hx).hit hh hj ⟨hout, e, he, hcj.symm, ha⟩
      rw [hown, hcj]
      exact mem_append_right _ (mem_singleton_self _)
    · cases hm'

end

section

variable (hR : Records j es ps own s) (hS : Sound s)

include hR hS in
lemma Records.release (h : Released t s s' x) (hrow : (s.jobs j).base = some b)
    (hx : ∀ c fork pc, x = some (.finalize c fork pc) → ∀ v, Absorbing j es v [] c pc)
    (hps : (s'.jobs j).base = (s.jobs j).base ∧ ps' = ps ∨
      (s'.jobs j).base = (s.jobs j).view t ∧ ps' = ps ++ own t) :
    Records j es ps' (Function.update own t []) s' := by
  refine ⟨?base, ?draft, ?idle, ?session, ?writer⟩
  case base =>
    intro r hr
    rcases hps with ⟨hb, rfl⟩ | ⟨hb, rfl⟩
    · exact hR.base (hb ▸ hr)
    · exact hR.view (hb ▸ hr)
  case draft =>
    intro u r hd
    obtain ⟨hd, hut⟩ := h.draft.mp hd
    rw [update_of_ne hut]
    rcases hps with ⟨-, rfl⟩ | ⟨-, rfl⟩
    · exact hR.draft hd
    have hnil : own t = [] := by
      refine hR.idle fun r' hd' => hut ?_
      rw [hd] at hd'
      exact (Prod.mk.inj (Option.some.inj hd')).1
    rw [hnil, append_nil]
    exact hR.draft hd
  case idle =>
    intro u hd
    by_cases hut : u = t
    · rw [hut, update_self]
    · rw [update_of_ne hut]
      exact hR.idle fun r hr => hd r (h.draft.mpr ⟨hr, hut⟩)
  case session =>
    intro u c fork pc hu
    rw [h.sessions] at hu
    rcases update_sessions hu with ⟨rfl, hy⟩ | ⟨hut, hy⟩
    · rw [update_self]
      exact hx c fork pc hy _
    rw [update_of_ne hut]
    refine (hR.session hy).mono fun ht r hr => ?_
    by_cases hd : ∃ r', (s.jobs j).draft = some (u, r')
    · obtain ⟨r', hd⟩ := hd
      obtain rfl : r' = r := Option.some.inj
        ((view_of_draft (h.draft.mpr ⟨hd, hut⟩)).symm.trans hr)
      exact ht r' (view_of_draft hd)
    · have hn : ∀ r', (s.jobs j).draft ≠ some (u, r') := fun r' hr' => hd ⟨r', hr'⟩
      have htb := ht b ((view_undrafted hn).trans hrow)
      obtain ⟨b', hb', hs⟩ := h.terminal hS hrow htb
      have hn' : ∀ r', (s'.jobs j).draft ≠ some (u, r') := fun r' hr' => hn r' (h.draft.mp hr').1
      rw [view_undrafted hn', hb'] at hr
      rw [← Option.some.inj hr, hs]
      exact htb
  case writer =>
    intro u ho
    by_cases hut : u = t
    · rw [hut, update_self] at ho
      exact absurd rfl ho
    rw [update_of_ne hut] at ho
    rw [h.sessions, update_of_ne hut]
    exact hR.writer ho

include hR hS in
lemma Records.autocommit (hw : Keeps (s.snapshot t) w) (hrow : (s.jobs j).base = some b)
    (hf : ∀ r r0, w j = some r → (s.snapshot t).jobs j = some r0 →
      r.metadata.failures = r0.metadata.failures)
    (h : s.autocommit t w = some s') : Records j es ps own s' := by
  obtain ⟨hn, hl, rfl⟩ := Sys.autocommit_some h
  have hview := hS.view_eq_base hn j
  cases hwj : w j with
  | none =>
    have hsame : (s.store w).jobs j = s.jobs j := store_of_none hwj
    refine ⟨?_, ?_, ?_, ?_, hR.writer⟩
    · exact fun hb => hR.base (hsame ▸ hb)
    · exact fun hd => hR.draft (hsame ▸ hd)
    · exact fun hd => hR.idle (hsame ▸ hd)
    · exact fun hu => hsame ▸ hR.session hu
  | some r =>
    have hdraft : (s.jobs j).draft = none := by
      have hj := hS.mem_ids (hview.trans hrow)
      rcases hl j hj with hw' | hd
      · rw [hwj] at hw'
        cases hw'
      · exact hd
    have hslot : (s.store w).jobs j = ⟨some r, none⟩ := store_of_some hwj
    have hbase := hf r b hwj (hview.trans hrow)
    refine ⟨?_, ?_, ?_, ?_, hR.writer⟩
    · intro r' hb
      rw [hslot] at hb
      rw [← Option.some.inj hb, hbase]
      exact hR.base hrow
    · intro u r' hd
      rw [hslot] at hd
      cases hd
    · intro u _
      refine hR.idle fun r' hr' => ?_
      rw [hdraft] at hr'
      cases hr'
    · intro u c fork pc hu
      refine (hR.session hu).mono fun ht => ?_
      -- a row that is rewritten was not terminal
      obtain ⟨r0, hr0, hnt, -⟩ := hw j r hwj
      cases (hview.trans hrow).symm.trans hr0
      have hvb : (s.jobs j).view u = some b := by
        refine (view_undrafted fun r' hr' => ?_).trans hrow
        rw [hdraft] at hr'
        cases hr'
      rw [ht b hvb] at hnt
      cases hnt

variable (hrow : (s.jobs j).base = some b) (hx : s.sessions t = some x)
  (he : execStmt env (s.snapshot t) s.fresh x = some e) (ha : s.admits t e = true)

include hR hS hrow hx he ha in
lemma Records.exec_append (hxa : x = .finalize c fork (.fanInAppend ((j, item) :: rows))) :
    Records j es ps (Function.update own t [c.job]) (s.apply t e) := by
  have hspec := execStmt_spec he
  subst hxa
  obtain ⟨hi, hnil, hnext⟩ := (hR.session hx).append
  obtain ⟨r0, hr0⟩ := exists_view hrow t
  have hnx : e.next = .finalize c fork (.fanInAppend rows) := by
    cases he
    rfl
  obtain ⟨r, hr, hlog⟩ : ∃ r, e.jobs j = some r ∧
      r.metadata.failures.Logs j (ps ++ [c.job]) := by
    cases he
    obtain ⟨r, hr, hf⟩ :=
      collectFanInAppend_self env.bytes item (show (s.snapshot t).jobs j = some r0 from hr0)
    have hlog := hR.view hr0
    rw [hnil, append_nil] at hlog
    exact ⟨r, hr, hf ▸ hlog.append hi⟩
  have hdraft : ((s.apply t e).jobs j).draft = some (t, r) := put_draft_some.mpr (.inl ⟨hr, rfl⟩)
  refine ⟨fun hb => hR.base (put_base.symm.trans hb), ?draft, ?idle, ?session, ?writer⟩
  case draft =>
    intro u r' hd
    rw [hdraft] at hd
    cases hd
    rw [update_self]
    exact hlog
  case idle =>
    intro u hd
    have hut : u ≠ t := fun h => hd r (h ▸ hdraft)
    rw [update_of_ne hut]
    exact hR.idle fun r' hr' => hd r' (hS.draft_apply hspec ha hr' hut)
  case session =>
    intro u c' fork' pc' hu
    rcases update_sessions hu with ⟨rfl, hy⟩ | ⟨hut, hy⟩
    · cases hnx.symm.trans (Option.some.inj hy)
      rw [update_self]
      exact hnext _
    · rw [update_of_ne hut, hS.view_apply hspec ha hut]
      exact hR.session hy
  case writer =>
    intro u ho
    by_cases hut : u = t
    · subst hut
      exact ⟨c, fork, _, (update_self ..).trans (congrArg some hnx)⟩
    rw [update_of_ne hut] at ho
    obtain ⟨c', fork', pc', hu⟩ := hR.writer ho
    exact ⟨c', fork', pc', (update_of_ne hut ..).trans hu⟩

include hR hS hx he ha in
lemma Records.exec_other (hB : Bounded D 0 j es s) (hu : s.unfired j)
    (hk : (es.map Edge.parent).Nodup) (hw : ∀ r, s.version j r → r.Waits)
    (hna : ∀ c fork children, x ≠ .finalize c fork (.joinAdopt children j))
    (hno : ∀ c fork item rows, x ≠ .finalize c fork (.fanInAppend ((j, item) :: rows))) :
    Records j es ps own (s.apply t e) := by
  have hspec := execStmt_spec he
  refine ⟨fun hb => hR.base (put_base.symm.trans hb), ?draft, ?idle, ?session, ?writer⟩
  case draft =>
    intro u r hd
    rcases put_draft_some.mp hd with ⟨hr, rfl⟩ | ⟨-, hd'⟩
    · have hborn : j ∉ e.born := by
        intro hb
        have hlt := hS.below j hB.present
        have hge := (hspec.born j hb).1
        omega
      obtain ⟨r0, hr0, -, hf | ⟨c, fork, item, rows, hxa, -⟩⟩ :=
        (execStmt_wrote he hr).kept hborn hna
      · rw [hf]
        exact hR.view hr0
      · exact absurd hxa (hno c fork item rows)
    · exact hR.draft hd'
  case idle =>
    intro u hd
    refine hR.idle fun r hr => ?_
    by_cases hut : u = t
    · subst hut
      obtain ⟨r', hr'⟩ := draft_apply_own hr
      exact hd r' hr'
    · exact hd r (hS.draft_apply hspec ha hr hut)
  case session =>
    intro u c fork pc hus
    rcases update_sessions hus with ⟨rfl, hy⟩ | ⟨hut, hy⟩
    · have hnx := Option.some.inj hy
      obtain ⟨pc0, rfl, htx, -⟩ := hspec.next.of_finalize hnx
      have hA := hR.session hx
      by_cases hpc : pc0.inTx2 = true
      · simp only [execStmt, if_pos hpc] at he
        have hA' := hA.exec hB hu hk hw hx he hnx
          fun item rows hp => hno c fork item rows (by rw [hp])
        exact hA'.mono fun ht r hr => hS.terminal_apply hspec hB.present ht hr
      · have hnil : own u = [] := hA.own_nil (by
          rw [← Bool.not_eq_true]
          exact fun happ => hpc (inTx2_of_appended happ))
        rw [hnil]
        exact .tx1 (htx.trans (Bool.not_eq_true _ ▸ hpc))
    · rw [hS.view_apply hspec ha hut]
      exact hR.session hy
  case writer =>
    intro u ho
    obtain ⟨c, fork, pc, hus⟩ := hR.writer ho
    by_cases hut : u = t
    · subst hut
      cases hx.symm.trans hus
      obtain ⟨pc', hnx, -⟩ := hspec.next.to_finalize
      exact ⟨c, fork, pc', (update_self ..).trans (congrArg some hnx)⟩
    · exact ⟨c, fork, pc, (update_of_ne hut ..).trans hus⟩

end

end TaskQ
