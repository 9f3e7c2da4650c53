import TaskQ.LoopWaits

namespace TaskQ
open Runs Option

section
variable (w0 : WaitCall) (holds : List (HoldId × SignalRow)) (k : Nat) (marks : List (String × Nat))
  (attempt : Nat)

def Asking (w : WaitCall) : Prop :=
  w.site = w0.site ∧ ∀ p, holds[k]? = some p → p.2.status = .abandoned →
    marks.lookup (faceKey attempt w.signalName) ≠ some p.2.holdEpoch

def PcAligned : WaitPc → Prop
  | .readCursor w => Asking w0 holds k marks attempt w
  | .readQueue w loop cursor => Asking w0 holds k marks attempt w ∧ loop = true ∧ cursor = k
  | .answered _ loop _ p => loop = true ∧ holds[k]? = some p ∧ p.2.status = .delivered
  | .readHeld w | .readAbandoned w => Asking w0 holds k marks attempt w ∧
      ∀ p, holds[k]? = some p → p.2.status ≠ .delivered
  | .readFace w epoch => Asking w0 holds k marks attempt w ∧
      ∃ p, holds[k]? = some p ∧ p.2.status = .abandoned ∧ p.2.holdEpoch = epoch
  | .writeFace _ epoch => ∃ p, holds[k]? = some p ∧ p.2.status = .abandoned ∧ p.2.holdEpoch = epoch
  | .readEpoch w => w.site = w0.site ∧ holds.length = k
  | .register w epoch => w.site = w0.site ∧ holds.length = k ∧ ∀ p ∈ holds, p.2.holdEpoch < epoch
  | .body | .raised | .over => True

end

section
variable (job : JobId) (node : NodeAddr) (w0 : WaitCall)

/-- The loop's row beside its holds: while one of them is held, the row is stamped and nobody's. -/
structure LoopRowAligned (holds : List (HoldId × SignalRow)) (r : JobRow) : Prop where
  address : r.address = node.address
  loop : r.metadata.loopKind = true
  counted : Counted w0 holds (r.metadata.iteration.getD 0)
  held : ∀ p ∈ holds, p.2.status = .held → r.metadata.hold ≠ none ∧ r.lockedByWorker = none

structure Aligned (s : Runner) : Prop where
  row : ∃ r, s.db.jobs job = some r ∧ LoopRowAligned node w0 (nodeHolds s.holds node) r
  alone : ∀ k r, s.db.jobs k = some r → r.address = node.address → k = job
  bodies : ∀ b ∈ s.bodies, b.claim.job = job ↔ b.node = node
  pcs : ∀ e b r, s.bodies[e]? = some b → b.claim.job = job → s.drives job e b = true →
    s.db.jobs job = some r → PcAligned w0 (nodeHolds s.holds node) (r.metadata.iteration.getD 0)
      r.metadata.waitMarks b.claim.attempt b.pc

end

section
variable {job : JobId} {node : NodeAddr} {w0 : WaitCall} {s s' : Runner} {b b' : Body}
  {e : Nat}

lemma Runner.drives_iff : s.drives job e b = true ↔
    (∀ c ∈ s.bodies.drop (e + 1), c.claim.job ≠ job) ∧ ∃ r, s.db.jobs job = some r ∧
      r.status = .running ∧ r.lockedByWorker = some b.claim.worker ∧
      r.attempt = b.claim.attempt := by
  simp only [drives, Bool.and_eq_true, List.all_eq_true, decide_eq_true_eq, any_eq_true, and_assoc]

lemma Runner.drives_unique (hb : s.bodies[e]? = some b) (hb' : s.bodies[e']? = some b')
    (hj : b.claim.job = job) (hj' : b'.claim.job = job) (h : s.drives job e b = true)
    (h' : s.drives job e' b' = true) : e' = e := by
  have hlater : ∀ {i i' : Nat} {c c' : Body}, s.drives job i c = true → s.bodies[i']? = some c' →
      c'.claim.job = job → i' ≤ i := by
    intro i i' c c' hd hc' hcj
    by_contra hlt
    refine (drives_iff.mp hd).1 c' (List.mem_of_getElem? (i := i' - (i + 1)) ?_) hcj
    rw [List.getElem?_drop, show i + 1 + (i' - (i + 1)) = i' by omega]
    exact hc'
  exact le_antisymm (hlater h hb' hj') (hlater h' hb hj)

lemma Aligned.not_held (h : Aligned job node w0 s) (hd : s.drives job e b = true) :
    ∀ p ∈ nodeHolds s.holds node, p.2.status ≠ .held := by
  intro p hp hheld
  obtain ⟨-, r, hr, -, hlock, -⟩ := Runner.drives_iff.mp hd
  obtain ⟨r', hr', hrow⟩ := h.row
  cases hr.symm.trans hr'
  rw [(hrow.held p hp hheld).2] at hlock
  cases hlock

lemma Quiet.drives {r r' : JobRow} (hq : Quiet r r') (hr : s.db.jobs job = some r)
    (hr' : s'.db.jobs job = some r') (hb : s'.bodies = s.bodies) (h : s'.drives job e b = true) :
    s.drives job e b = true := by
  rw [Runner.drives_iff] at h ⊢
  obtain ⟨hlater, u, hu, hs, hl, ha⟩ := h
  cases hu.symm.trans hr'
  refine ⟨hb ▸ hlater, r, hr, ?_⟩
  rcases hq.lock with hn | ⟨hl', ha', hs'⟩
  · rw [hn] at hl
    cases hl
  · exact ⟨hs' hs, hl'.symm.trans hl, ha'.symm.trans ha⟩

lemma LoopRowAligned.quiet {r r' : JobRow} (h : LoopRowAligned node w0 hs r)
    (hp : r'.address = r.address) (hq : Quiet r r') : LoopRowAligned node w0 hs r' := by
  refine ⟨hp.trans h.address, hq.loop.trans h.loop, hq.iteration ▸ h.counted,
    fun p hmem hheld => ?_⟩
  obtain ⟨hstamp, hlock⟩ := h.held p hmem hheld
  refine ⟨hq.hold ▸ hstamp, ?_⟩
  rcases hq.lock with hn | ⟨hl, -⟩
  · exact hn
  · exact hl.trans hlock

lemma jobs_write {db : Snapshot} (h : (db.write w).jobs k = some r) :
    w k = some r ∨ db.jobs k = some r :=
  (or_eq_some_iff.mp h).imp_right And.right

lemma QuietAt.row (h : QuietAt job s.db w) (hr : s.db.jobs job = some r) :
    ∃ r', (s.write w).db.jobs job = some r' ∧ r'.address = r.address ∧ Quiet r r' := by
  cases hw : w job with
  | none => exact ⟨r, by simp [Runner.write, Snapshot.write, hw, hr], rfl, .refl r⟩
  | some r' =>
    obtain ⟨r0, hr0, hp, hq⟩ := h job r' hw
    cases hr.symm.trans hr0
    exact ⟨r', by simp [Runner.write, Snapshot.write, hw], hp, hq rfl⟩

lemma QuietAt.alone (h : QuietAt job s.db w)
    (ha : ∀ k r, s.db.jobs k = some r → r.address = node.address → k = job) :
    ∀ k r, (s.write w).db.jobs k = some r → r.address = node.address → k = job := by
  intro k r hr hp
  rcases jobs_write hr with hw | hd
  · obtain ⟨r0, hr0, hp0, -⟩ := h k r hw
    exact ha k r0 hr0 (hp0.symm.trans hp)
  · exact ha k r hd hp

lemma Aligned.write (h : Aligned job node w0 s) (hw : QuietAt job s.db w) :
    Aligned job node w0 (s.write w) := by
  obtain ⟨r, hr, hrow⟩ := h.row
  obtain ⟨r', hr', hp, hq⟩ := hw.row hr
  refine ⟨⟨r', hr', hrow.quiet hp hq⟩, hw.alone h.alone, h.bodies, fun e b u hb hj hd hu => ?_⟩
  cases hr'.symm.trans hu
  rw [hq.iteration, hq.marks]
  exact h.pcs e b r hb hj (hq.drives hr hr' rfl hd) hr

lemma Aligned.put (h : Aligned job node w0 s) (hb : s.bodies[e]? = some b)
    (hc : b'.claim = b.claim) (hn : b'.node = b.node)
    (hpc : b.claim.job = job → s.drives job e b = true → ∀ r, s.db.jobs job = some r →
      PcAligned w0 (nodeHolds s.holds node) (r.metadata.iteration.getD 0) r.metadata.waitMarks
        b.claim.attempt b'.pc) : Aligned job node w0 (s.put e b') := by
  have hdriv : ∀ i c, (s.put e b').drives job i c = true → s.drives job i c = true := by
    intro i c hd
    rw [Runner.drives_iff] at hd ⊢
    refine ⟨fun c' hc' => ?_, hd.2⟩
    obtain ⟨j, hj⟩ := List.getElem?_of_mem hc'
    rw [List.getElem?_drop] at hj
    by_cases he : e = i + 1 + j
    · have hlen := (List.getElem?_eq_some_iff.mp hb).1
      rw [← he] at hj
      cases hj.symm.trans hb
      rw [← hc]
      apply hd.1
      apply List.mem_of_getElem? (i := j)
      rw [List.getElem?_drop, ← he]
      exact List.getElem?_set_self hlen
    · apply hd.1
      apply List.mem_of_getElem? (i := j)
      rw [List.getElem?_drop]
      exact (List.getElem?_set_ne he).trans hj
  refine ⟨h.row, h.alone, fun c hmem => ?_, fun i c r hi hj hd hr => ?_⟩
  · rcases List.mem_or_eq_of_mem_set hmem with hmem | rfl
    · exact h.bodies c hmem
    · rw [hc, hn]
      exact h.bodies b (List.mem_of_getElem? hb)
  · rcases Runner.bodies_put hi with ⟨rfl, rfl⟩ | ⟨-, hi⟩
    · have hd' := hdriv _ _ hd
      rw [Runner.drives, hc] at hd'
      rw [hc] at hj ⊢
      exact hpc hj hd' r hr
    · exact h.pcs i c r hi hj (hdriv _ _ hd) hr

lemma alone_update {db : Snapshot}
    (ha : ∀ k r, db.jobs k = some r → r.address = node.address → k = job)
    (hf : ∀ k r, (f k r).address = r.address) :
    ∀ k r, (db.write (update db p f)).jobs k = some r → r.address = node.address → k = job := by
  intro k r' hr' hp
  rw [jobs_write_update] at hr'
  obtain ⟨r0, hr0, rfl⟩ := map_eq_some_iff.mp hr'
  apply ha k r0 hr0
  split at hp
  · exact (hf k r0).symm.trans hp
  · exact hp

lemma Aligned.update (h : Aligned job node w0 s) (hr : s.db.jobs job = some r)
    (hf : ∀ k r, (f k r).address = r.address)
    (hrow : LoopRowAligned node w0 (nodeHolds s.holds node) (if p job r then f job r else r))
    (hpcs : ∀ e b, s.bodies[e]? = some b → b.claim.job = job →
      (s.write (update s.db p f)).drives job e b = true → b.pc = .body ∨ p job r = false) :
    Aligned job node w0 (s.write (update s.db p f)) := by
  have hjobs : (s.write (TaskQ.update s.db p f)).db.jobs job =
      some (if p job r then f job r else r) := by
    rw [Runner.write, jobs_write_update, hr, map_some]
  refine ⟨⟨_, hjobs, hrow⟩, alone_update h.alone hf, h.bodies, fun e b r' hb hj hd hr' => ?_⟩
  rcases hpcs e b hb hj hd with hpc | hp
  · rw [hpc]
    trivial
  rw [if_neg (by rw [hp]; exact Bool.false_ne_true)] at hjobs
  cases hjobs.symm.trans hr'
  exact h.pcs e b r hb hj ((Quiet.refl r).drives hr hjobs rfl hd) hr

lemma Aligned.update_row (h : Aligned job node w0 s) (hb : s.bodies[e]? = some b)
    (hj : b.claim.job = job) (hd : s.drives job e b = true) (hpc : b.pc = .body)
    (hr : s.db.jobs job = some r) (hf : ∀ k r, (f k r).address = r.address)
    (hlock : ∀ k r, (f k r).status = r.status ∧ (f k r).lockedByWorker = r.lockedByWorker ∧
      (f k r).attempt = r.attempt)
    (hrow : p job r = true → LoopRowAligned node w0 (nodeHolds s.holds node) (f job r)) :
    Aligned job node w0 (s.write (TaskQ.update s.db p f)) := by
  refine h.update hr hf ?_ fun e' b' hb' hj' hd' => ?_
  · split
    next hp => exact hrow hp
    · obtain ⟨r', hr', hrow'⟩ := h.row
      cases hr.symm.trans hr'
      exact hrow'
  · have hdriv : s.drives job e' b' = true := by
      rw [Runner.drives_iff] at hd' ⊢
      obtain ⟨hlater, u, hu, hs, hl, ha⟩ := hd'
      rw [Runner.write, jobs_write_update, hr, map_some, some.injEq] at hu
      refine ⟨hlater, r, hr, ?_⟩
      subst hu
      split at hs
      next hp =>
        rw [if_pos hp] at hl ha
        obtain ⟨hs', hl', ha'⟩ := hlock job r
        exact ⟨hs'.symm.trans hs, hl'.symm.trans hl, ha'.symm.trans ha⟩
      next hp =>
        rw [if_neg hp] at hl ha
        exact ⟨hs, hl, ha⟩
    obtain rfl := Runner.drives_unique hb hb' hj hj' hd hdriv
    cases hb.symm.trans hb'
    exact .inl hpc

lemma Runner.drives_put (hc : b'.claim = b.claim) :
    (s.put e b').drives job e b' = s.drives job e b := by
  rw [drives, drives, hc, put]
  rw [List.drop_set_of_lt (Nat.lt_succ_self e)]

section
variable (h : Aligned job node w0 s)
include h

lemma Aligned.holds (hh : nodeHolds hs node = nodeHolds s.holds node) :
    Aligned job node w0 { s with holds := hs, minted } := by
  refine ⟨?_, h.alone, h.bodies, fun e b r hb hj hd hr => ?_⟩
  · dsimp only
    rw [hh]
    exact h.row
  · dsimp only
    rw [hh]
    exact h.pcs e b r hb hj hd hr

section
variable (hb : s.bodies[e]? = some b)
include hb

lemma Aligned.registerHold
    (hj : b.claim.job = job) (hd : s.drives job e b = true) (hpc : b.pc = .register w epoch) :
    Aligned job node w0 (s.registerHold e b now hold w epoch) := by
  unfold Runner.registerHold
  dsimp only
  split
  · exact h.put hb rfl rfl fun _ _ _ _ => trivial
  next holds hins =>
    obtain rfl := holdInsert_eq_some hins
    obtain ⟨hlater, r, hr, hs, -, -⟩ := Runner.drives_iff.mp hd
    obtain ⟨r', hr', hrow⟩ := h.row
    cases hr.symm.trans hr'
    have hnode := (h.bodies b (List.mem_of_getElem? hb)).mp hj
    have hpcs := h.pcs e b r hb hj hd hr
    rw [hpc] at hpcs
    obtain ⟨hsite, hlen, hepoch⟩ := hpcs
    have hput : Aligned job node w0 (s.put e { b with pc := .over }) :=
      h.put hb rfl rfl fun _ _ _ _ => trivial
    subst hj hnode
    have hrow' : (s.db.write (holdNode s.db b.claim.job hold (w.deadline now))).jobs b.claim.job =
        some { r with
          status := .pending
          lockedByWorker := none
          lockExpiresAt := none
          scheduledAt := (w.deadline now).getD r.scheduledAt
          metadata := { r.metadata with hold := some hold } } := by
      rw [holdNode, jobs_write_update, hr, map_some]
      simp [hs]
    refine ⟨⟨_, hrow', hrow.address, hrow.loop, ?_, fun _ _ _ => ⟨nofun, rfl⟩⟩,
      alone_update h.alone fun _ _ => rfl, hput.bodies, fun i c u hi _ hdi _ => ?_⟩
    · rw [show nodeHolds _ b.node = _ from nodeHolds_concat rfl]
      exact hrow.counted.concat hlen rfl (Prod.mk.inj hsite).1 hepoch
    -- the row is nobody's now
    obtain ⟨-, u, hu, -, hlock, -⟩ := Runner.drives_iff.mp hdi
    cases hrow'.symm.trans hu
    cases hlock

lemma Aligned.not_loop (hj : b.claim.job ≠ job) : b.node ≠ node :=
  fun hn => hj ((h.bodies b (List.mem_of_getElem? hb)).mpr hn)

lemma Aligned.exec_other
    (hj : b.claim.job ≠ job) (he : s.exec e b now hold = some s') : Aligned job node w0 s' := by
  have hput : ∀ {w : Writes} (b' : Body), QuietAt job s.db w → b'.claim = b.claim →
      b'.node = b.node → Aligned job node w0 ((s.write w).put e b') := fun b' hw hc hn =>
    (h.write hw).put hb hc hn fun hj' => absurd hj' hj
  unfold Runner.exec at he
  split at he
  case h_1 | h_2 =>
    cases he
    exact hput _ quietAt_none rfl rfl
  case h_3 =>
    split at he
    · cases he
      exact hput _ quietAt_none rfl rfl
    · cases he
      exact hput _ (quietAt_setMark hj) rfl rfl
  case h_4 =>
    cases he
    exact hput _ (quietAt_setMark hj) rfl rfl
  case h_5 w epoch hpc =>
    obtain ⟨-, he⟩ := ite_none_left_eq_some.mp he
    cases he
    unfold Runner.registerHold
    dsimp only
    split
    · exact hput _ quietAt_none rfl rfl
    next holds hins =>
      obtain rfl := holdInsert_eq_some hins
      have hquiet : QuietAt job s.db (holdNode s.db b.claim.job hold (w.deadline now)) := by
        refine quietAt_other (fun k r hp he => hj ?_) fun _ _ => rfl
        simp only [Bool.and_eq_true, decide_eq_true_eq] at hp
        exact hp.1.symm.trans he
      apply Aligned.holds (hput { b with pc := .over } hquiet rfl rfl)
      exact nodeHolds_concat_of_ne (h.not_loop hb hj)
  case h_6 =>
    obtain ⟨pc', -, rfl⟩ := map_eq_some_iff.mp he
    exact hput _ quietAt_none rfl rfl

end

lemma Aligned.waitCursor (hr : s.db.jobs job = some r) (hj : b.claim.job = job) :
    waitCursor s.db b.claim w = (true, r.metadata.iteration.getD 0) := by
  obtain ⟨r', hr', hrow⟩ := h.row
  cases hr.symm.trans hr'
  simp only [TaskQ.waitCursor, hj, hr, any_some, hrow.loop, bind_some, if_true]

lemma Aligned.unsettled (hd : s.drives job e b = true) (hr : s.db.jobs job = some r)
    (hk : ∀ p, (nodeHolds s.holds node)[r.metadata.iteration.getD 0]? = some p →
      p.2.status ≠ .delivered ∧ p.2.status ≠ .abandoned) :
    (nodeHolds s.holds node).length = r.metadata.iteration.getD 0 := by
  obtain ⟨r', hr', hrow⟩ := h.row
  cases hr.symm.trans hr'
  refine le_antisymm (List.getElem?_eq_none_iff.mp ?_) hrow.counted.lower
  cases hget : (nodeHolds s.holds node)[r.metadata.iteration.getD 0]? with
  | none => rfl
  | some p =>
    have hp := List.mem_of_getElem? hget
    have hheld := h.not_held hd p hp
    have hcanc := (hrow.counted.ended p hp).1
    obtain ⟨hdel, hab⟩ := hk p hget
    cases hst : p.2.status <;> contradiction

section
variable (hb : s.bodies[e]? = some b)
include hb

lemma Aligned.readOn
    (hj : b.claim.job = job) (hd : s.drives job e b = true) (hr : s.db.jobs job = some r)
    (hs : s.readOn b b.pc = some pc') :
    PcAligned w0 (nodeHolds s.holds node) (r.metadata.iteration.getD 0) r.metadata.waitMarks
      b.claim.attempt pc' := by
  have hpcs := h.pcs e b r hb hj hd hr
  have hnode := (h.bodies b (List.mem_of_getElem? hb)).mp hj
  obtain ⟨r', hr', hrow⟩ := h.row
  cases hr.symm.trans hr'
  have hnamed := hrow.counted.named
  generalize b.pc = pc at hpcs hs
  cases pc with
  | readHeld w =>
    obtain ⟨hask, hnot⟩ := hpcs
    simp only [Runner.readOn] at hs
    split at hs
    · cases hs
      trivial
    split at hs
    next htimer =>
      cases hs
      refine ⟨hask.1, h.unsettled hd hr fun p hp => ⟨hnot p hp, fun hab => ?_⟩⟩
      -- the clock's holds are never abandoned
      have hmark := (hrow.counted.ended p (List.mem_of_getElem? hp)).2 hab
      rw [hnamed p (List.mem_of_getElem? hp), ← (Prod.mk.inj hask.1).1] at hmark
      cases w with
      | waitSignal => cases htimer
      | waitUntil key _ =>
        rw [WaitCall.signalName, startsWith_append] at hmark
        cases hmark
    · cases hs
      exact ⟨hask, hnot⟩
  | readAbandoned w =>
    obtain ⟨hask, hnot⟩ := hpcs
    simp only [Runner.readOn, hnode] at hs
    split at hs
    next p hlate =>
      cases hs
      have hmem := mem_of_latestHold hlate
      rw [holdsOf_eq hnamed hask.1, List.mem_filter, decide_eq_true_eq] at hmem
      exact ⟨hask, p, hrow.counted.last hmem.1 (by rw [hmem.2]; decide), hmem.2, rfl⟩
    next hlate =>
      cases hs
      have hnone := latestHold_eq_none hlate
      rw [holdsOf_eq hnamed hask.1, List.filter_eq_nil_iff] at hnone
      refine ⟨hask.1, h.unsettled hd hr fun p hp => ⟨hnot p hp, fun hab => ?_⟩⟩
      exact hnone p (List.mem_of_getElem? hp) (by simpa using hab)
  | readFace w epoch =>
    obtain ⟨hask, p, hp, hab, rfl⟩ := hpcs
    simp only [Runner.readOn, hj, hr, bind_some, JobRow.mark] at hs
    rw [if_neg (hask.2 p hp hab)] at hs
    cases hs
    exact ⟨p, hp, hab, rfl⟩
  | readEpoch w =>
    obtain ⟨hsite, hlen⟩ := hpcs
    cases hs
    rw [hnode]
    exact ⟨hsite, hlen, fun p hp => lt_nextEpoch hp⟩
  | _ => cases hs

lemma Aligned.exec_loop (hj : b.claim.job = job) (hd : s.drives job e b = true)
    (he : s.exec e b now hold = some s') : Aligned job node w0 s' := by
  obtain ⟨r, hr, hrow⟩ := h.row
  have hpcs := h.pcs e b r hb hj hd hr
  have hnode := (h.bodies b (List.mem_of_getElem? hb)).mp hj
  have hput : ∀ pc consumed,
      PcAligned w0 (nodeHolds s.holds node) (r.metadata.iteration.getD 0) r.metadata.waitMarks
        b.claim.attempt pc → Aligned job node w0 (s.put e { b with pc, consumed }) := by
    intro pc consumed hpc
    refine h.put hb rfl rfl fun _ _ r' hr' => ?_
    cases hr.symm.trans hr'
    exact hpc
  unfold Runner.exec at he
  split at he
  case h_1 w hpc =>
    rw [hpc] at hpcs
    cases he
    apply hput
    rw [h.waitCursor hr hj]
    exact ⟨hpcs, rfl, rfl⟩
  case h_2 w loop cursor hpc =>
    rw [hpc] at hpcs
    obtain ⟨hask, rfl, rfl⟩ := hpcs
    cases he
    apply hput
    rw [hnode, hrow.counted.afterQueue hask.1]
    split
    next p hp =>
      obtain ⟨hget, hdel⟩ := filter_eq_some_iff.mp hp
      exact ⟨rfl, hget, of_decide_eq_true hdel⟩
    next hp =>
      refine ⟨hask, fun p hget hdel => ?_⟩
      rw [hget] at hp
      simp [Option.filter, hdel] at hp
  case h_3 w loop cursor p hpc =>
    rw [hpc] at hpcs
    obtain ⟨rfl, -⟩ := hpcs
    cases he
    exact hput _ _ trivial
  case h_4 w epoch hpc =>
    cases he
    subst hj
    have hlen := (List.getElem?_eq_some_iff.mp hb).1
    exact (hput .body b.consumed trivial).update_row (List.getElem?_set_self hlen) rfl
      ((Runner.drives_put rfl).trans hd) rfl hr (fun _ _ => rfl) (fun _ _ => ⟨rfl, rfl, rfl⟩)
      fun _ => ⟨hrow.address, hrow.loop, hrow.counted, hrow.held⟩
  case h_5 w epoch hpc =>
    split at he
    · cases he
    · cases he
      exact h.registerHold hb hj hd hpc
  case h_6 =>
    obtain ⟨pc', hpc', rfl⟩ := map_eq_some_iff.mp he
    exact hput _ _ (h.readOn hb hj hd hr hpc')

lemma Aligned.asking
    (hj : b.claim.job = job) (hr : s.db.jobs job = some r) (hsite : w.site = w0.site)
    (hrep : s.reported b w = false) :
    Asking w0 (nodeHolds s.holds node) (r.metadata.iteration.getD 0) r.metadata.waitMarks
      b.claim.attempt w := by
  refine ⟨hsite, fun p hp hab hmark => ?_⟩
  obtain ⟨r', hr', hrow⟩ := h.row
  cases hr.symm.trans hr'
  have hnode := (h.bodies b (List.mem_of_getElem? hb)).mp hj
  have hin : p ∈ holdsOf s.holds node w.reads .abandoned := by
    rw [holdsOf_eq hrow.counted.named hsite]
    exact List.mem_filter.mpr ⟨List.mem_of_getElem? hp, by simpa using hab⟩
  cases hlate : latestHold s.holds node w.reads .abandoned with
  | none =>
    rw [latestHold_eq_none hlate] at hin
    cases hin
  | some q =>
    have hq := mem_of_latestHold hlate
    rw [holdsOf_eq hrow.counted.named hsite, List.mem_filter, decide_eq_true_eq] at hq
    have hget := hrow.counted.last hq.1 (by rw [hq.2]; decide)
    cases hp.symm.trans hget
    rw [Runner.reported, hnode, hlate, hj, hr] at hrep
    simp [JobRow.mark, hmark] at hrep

end

end

lemma Runner.ofLoop_iff (hb : s.bodies[e]? = some b) (hj : b.claim.job = job) :
    s.ofLoop job e p = true ↔ s.drives job e b = true ∧ p b = true := by
  simp [ofLoop, hb, hj]

section
variable (h : Aligned job node w0 s)
include h

lemma Aligned.act (hb : s.bodies[e]? = some b)
    (hok : s.steady job node w0 a = true) (ha : a.body = some e) (hs : s.act e b a = some s') :
    Aligned job node w0 s' := by
  have hend : ∀ {w : Writes} (pc : WaitPc), QuietAt job s.db w →
      pc = .over ∨ pc = .raised → Aligned job node w0 ((s.write w).put e { b with pc }) := by
    intro w pc hw hpc
    refine (h.write hw).put hb rfl rfl fun _ _ _ _ => ?_
    rcases hpc with rfl | rfl <;> trivial
  cases a with
  | wait e' w =>
    cases ha
    obtain ⟨-, rfl⟩ := matched hs
    refine h.put hb rfl rfl fun hj _ r hr => ?_
    obtain ⟨-, hw⟩ := (Runner.ofLoop_iff hb hj).mp hok
    simp only [Bool.and_eq_true, decide_eq_true_eq, Bool.not_eq_true'] at hw
    split
    · exact h.asking hb hj hr hw.1 hw.2
    · trivial
  | exec e' now hold =>
    cases ha
    by_cases hj : b.claim.job = job
    · exact h.exec_loop hb hj ((Runner.ofLoop_iff hb hj).mp hok).1 hs
    · exact h.exec_other hb hj hs
  | deferStep e' now exc delay =>
    obtain ⟨-, rfl⟩ := matched hs
    apply hend _ quietAt_nodeDefer
    split
    · exact .inr rfl
    · exact .inr rfl
    · exact .inl rfl
  | repend =>
    cases hs
    exact hend _ quietAt_nodeRepend (.inl rfl)
  | finalize =>
    cases hs
    exact hend _ quietAt_terminalMark (.inl rfl)
  | stop =>
    cases hs
    exact hend _ quietAt_none (.inl rfl)
  | advance e' next maxIterations =>
    cases ha
    obtain ⟨hpc, rfl⟩ := matched hs
    by_cases hj : b.claim.job = job
    · obtain ⟨hd, hw⟩ := (Runner.ofLoop_iff hb hj).mp hok
      obtain ⟨r, hr, hrow⟩ := h.row
      have hiter : s.iteration job = r.metadata.iteration.getD 0 := by
        rw [Runner.iteration, hr, bind_some]
      simp only [Bool.and_eq_true, decide_eq_true_eq, hiter, any_eq_true] at hw
      obtain ⟨rfl, p, hp, hdel⟩ := hw
      refine h.update_row hb hj hd hpc hr (fun _ _ => rfl) (fun _ _ => ⟨rfl, rfl, rfl⟩) fun _ => ?_
      exact ⟨hrow.address, hrow.loop, hrow.counted.advance hp hdel, hrow.held⟩
    · refine h.write (quietAt_other (fun k r hp he => hj ?_) fun _ _ => rfl)
      simp only [Bool.and_eq_true, decide_eq_true_eq, and_assoc] at hp
      exact hp.1.symm.trans he
  | claim | reclaim | retryNode | cancelRun | resolve | expire | fire | resume => cases hs

lemma Aligned.settle (hf : f.Guarded)
    (hend : ∀ p ∈ nodeHolds s.holds node, ∀ r, f p.1 p.2 = some r → r.status ≠ .cancelled ∧
      (r.status = .abandoned → startsWith timerMark r.signalName = false)) :
    Aligned job node w0 (s.settle f) := by
  obtain ⟨r, hr, hrow⟩ := h.row
  refine ⟨⟨r, hr, hrow.address, hrow.loop, ?_, ?_⟩, h.alone, h.bodies, fun e b r hb hj hd hr => ?_⟩
  · rw [nodeHolds_settle hf]
    exact hrow.counted.settle hf hend
  · rw [nodeHolds_settle hf]
    intro p hp hheld
    obtain ⟨q, hq, rfl⟩ := List.mem_map.mp hp
    cases hr : f q.1 q.2 with
    | none =>
      simp only [hr, getD_none] at hheld
      exact hrow.held q hq hheld
    | some r =>
      simp only [hr, getD_some] at hheld
      exact absurd hheld (hf _ _ _ hr).2.1
  · -- a driven loop has nothing to settle
    have hsame : nodeHolds (s.settle f).holds node = nodeHolds s.holds node := by
      rw [nodeHolds_settle hf]
      conv_rhs => rw [← List.map_id (nodeHolds s.holds node)]
      apply List.map_congr_left
      intro p hp
      rw [(hf.keeps p).2 (h.not_held hd p hp)]
      rfl
    rw [hsame]
    exact h.pcs e b r hb hj hd hr

lemma Aligned.start_other (hj : b.claim.job ≠ job)
    (hn : b.node ≠ node) : Aligned job node w0 (s.start b) := by
  refine ⟨h.row, h.alone, fun c hc => ?_, fun e c r hc hcj hd hr => ?_⟩
  · rcases List.mem_append.mp hc with hc | hc
    · exact h.bodies c hc
    · rw [List.mem_singleton.mp hc]
      exact iff_of_false hj hn
  · rcases Positions.of_concat hc with hc | ⟨-, rfl⟩
    · refine h.pcs e c r hc hcj ?_ hr
      rw [Runner.drives_iff] at hd ⊢
      refine ⟨fun c' hc' => hd.1 c' ?_, hd.2⟩
      rw [Runner.start]
      rw [List.drop_append]
      exact List.mem_append_left _ hc'
    · exact absurd hcj hj

lemma Aligned.claim
    (hr' : nodeClaim s.db now k worker k = some r') (hflow : r'.inFlow flow = true) :
    Aligned job node w0 ((s.write (nodeClaim s.db now k worker)).start
      { claim := ⟨k, worker, r'.attempt⟩, node := ⟨flow, r'.stepKey, r'.mapIndex⟩ }) := by
  have haddr := JobRow.address_of_claim hflow
  by_cases hk : k = job
  · subst hk
    obtain ⟨r, hr, hrow⟩ := h.row
    obtain ⟨r0, hr0, hp, rfl⟩ := update_some.mp hr'
    cases hr.symm.trans hr0
    simp only [claimable, decide_true, Bool.true_and, Bool.and_eq_true, isNone_iff_eq_none]
      at hp
    have hrow' : (s.write (nodeClaim s.db now k worker)).db.jobs k = some _ :=
      or_eq_some_iff.mpr (.inl hr')
    refine ⟨⟨_, hrow', hrow.address, hrow.loop, hrow.counted, fun p hmem hheld => ?_⟩,
      alone_update h.alone fun _ _ => rfl, fun c hc => ?_, fun i c u hc hcj hd _ => ?_⟩
    · exact absurd hp.1.2 (hrow.held p hmem hheld).1
    · rcases List.mem_append.mp hc with hc | hc
      · exact h.bodies c hc
      rw [List.mem_singleton.mp hc]
      refine iff_of_true rfl (NodeAddr.address_injective ?_)
      exact haddr.symm.trans hrow.address
    · rcases Positions.of_concat hc with hc | ⟨-, rfl⟩
      · -- it is not the last execution any more
        have hlen : i + 1 ≤ s.bodies.length := (List.getElem?_eq_some_iff.mp hc).1
        have hlast : ∀ n : Body, n ∈ (s.bodies ++ [n]).drop (i + 1) := by
          intro n
          rw [List.drop_append_of_le_length hlen]
          exact List.mem_append_right _ List.mem_cons_self
        exact ((Runner.drives_iff.mp hd).1 _ (hlast _) rfl).elim
      · trivial
  · have hquiet : QuietAt job s.db (nodeClaim s.db now k worker) := by
      refine quietAt_other (fun i r hp he => hk ?_) fun _ _ => rfl
      simp only [Bool.and_eq_true, decide_eq_true_eq] at hp
      exact hp.1.symm.trans he
    refine (h.write hquiet).start_other hk fun hn => hk ?_
    obtain ⟨r0, hr0, hp0, -⟩ := hquiet k r' hr'
    apply h.alone k r0 hr0
    rw [← hp0, haddr]
    exact congrArg NodeAddr.address hn

lemma Aligned.outside (hok : s.steady job node w0 a = true)
    (hs : s.outside a = some s') : Aligned job node w0 s' := by
  cases a with
  | claim now flow k worker =>
    obtain ⟨r, hrow, hs⟩ := bind_eq_some_iff.mp hs
    obtain ⟨hflow, rfl⟩ := matched hs
    exact h.claim hrow hflow
  | reclaim =>
    cases hs
    exact h.write quietAt_sweepReclaim
  | retryNode now flow key =>
    cases hs
    exact h.write (quietAt_retryWorkflowNode (of_decide_eq_true hok))
  | cancelRun now flow reason =>
    simp only [Runner.outside, ite_none_left_eq_some, some.injEq] at hs
    obtain ⟨-, rfl⟩ := hs
    refine (h.write quietAt_cancelOneRun).settle guarded_cancelRunSignals fun p hp r hr => ?_
    -- the holds of the loop are of another run
    simp only [cancelRunSignals, ite_none_right_eq_some, Bool.and_eq_true, decide_eq_true_eq] at hr
    have haddr := of_decide_eq_true (List.mem_filter.mp hp).2
    have hne := of_decide_eq_true hok
    exact absurd (hr.1.1.symm.trans (congrArg NodeAddr.workflow haddr)) hne
  | resolve now hold payload =>
    cases hs
    refine h.settle guarded_resolveHold fun p hp r hr => ?_
    simp only [resolveHold, resolveCas, signalCas, ite_none_left_eq_some,
      ite_none_right_eq_some, some.injEq] at hr
    obtain ⟨-, -, rfl⟩ := hr
    exact ⟨by simp, by simp⟩
  | expire now hold =>
    cases hs
    refine h.settle guarded_expireHold fun p hp r hr => ?_
    simp only [expireHold, expirySweep, ite_none_right_eq_some, Bool.and_eq_true,
      Bool.not_eq_true', some.injEq] at hr
    obtain ⟨⟨-, hmark⟩, -, rfl⟩ := hr
    exact ⟨by simp, fun _ => hmark⟩
  | fire now hold =>
    cases hs
    refine h.settle guarded_fireHold fun p hp r hr => ?_
    simp only [fireHold, timerFire, ite_none_right_eq_some, some.injEq] at hr
    obtain ⟨-, -, rfl⟩ := hr
    exact ⟨by simp, by simp⟩
  | resume now k =>
    cases hs
    by_cases hk : k = job
    · subst hk
      obtain ⟨r, hr, hrow⟩ := h.row
      simp only [Runner.steady, ne_eq, not_true_eq_false, decide_false, Bool.false_or,
        List.all_eq_true, decide_eq_true_eq] at hok
      refine h.update hr (fun _ _ => rfl) ?_ fun e b hb hj hd => ?_
      · split
        · exact ⟨hrow.address, hrow.loop, hrow.counted, fun p hp hheld => absurd hheld (hok p hp)⟩
        · exact hrow
      · obtain ⟨-, u, hu, hst, -⟩ := Runner.drives_iff.mp hd
        rw [Runner.write, jobs_write_update, hr, map_some, some.injEq] at hu
        subst hu
        refine .inr (Bool.eq_false_iff.mpr fun hp => ?_)
        rw [if_pos hp] at hst
        simp only [decide_true, Bool.true_and, decide_eq_true_eq] at hp
        exact absurd (hp.symm.trans hst) (by decide)
    · refine h.write (quietAt_other (fun i r hp he => hk ?_) fun _ _ => rfl)
      simp only [Bool.and_eq_true, decide_eq_true_eq] at hp
      exact hp.1.symm.trans he
  | wait | exec | deferStep | repend | finalize | stop | advance => cases hs

lemma Aligned.step (hok : s.steady job node w0 a = true)
    (hs : s.step a = some s') : Aligned job node w0 s' := by
  unfold Runner.step at hs
  split at hs
  · exact h.outside hok hs
  next e ha =>
    obtain ⟨b, hb, hs⟩ := bind_eq_some_iff.mp hs
    simp only [ite_none_left_eq_some] at hs
    exact h.act hb hok ha hs.2

end

end

structure LoopStart (job : JobId) (node : NodeAddr) (s : Runner) : Prop where
  row : ∃ r, s.db.jobs job = some r ∧ r.address = node.address ∧ r.metadata.loopKind = true ∧
    r.metadata.iteration.getD 0 = 0
  alone : ∀ k r, s.db.jobs k = some r → r.address = node.address → k = job
  bodies : ∀ b ∈ s.bodies, (b.claim.job = job ↔ b.node = node) ∧ b.pc.call = none
  holds : nodeHolds s.holds node = []

lemma LoopStart.aligned {s : Runner} (h : LoopStart job node s) : Aligned job node w0 s := by
  obtain ⟨r, hr, haddr, hloop, hiter⟩ := h.row
  refine ⟨⟨r, hr, haddr, hloop, ?_, ?_⟩, h.alone, fun b hb => (h.bodies b hb).1,
    fun e b r hb _ _ _ => ?_⟩
  · rw [h.holds, hiter]
    exact .nil
  · rw [h.holds]
    intro p hp
    exact absurd hp List.not_mem_nil
  · have hcall := (h.bodies b (List.mem_of_getElem? hb)).2
    cases hpc : b.pc with
    | readCursor | readQueue | answered | readHeld | readAbandoned | readFace | writeFace
    | readEpoch | register =>
      rw [hpc] at hcall
      cases hcall
    | _ => trivial

/-- In a loop with one wait site that continues over delivered holds, wait `k` returns hold `k`. -/
theorem loop_waits_in_step (h0 : LoopStart job node s0)
    (h : Reach Runner.step (fun s a => s.steady job node w0 a = true) s0 s)
    (hb : s.bodies[e]? = some b) (hj : b.claim.job = job) (hd : s.drives job e b = true) :
    (∀ w loop cursor p, b.pc = .answered w loop cursor p →
      (nodeHolds s.holds node)[s.iteration job]? = some p ∧ p.2.status = .delivered) ∧
    (∀ w epoch, b.pc = .writeFace w epoch → ∃ p,
      (nodeHolds s.holds node)[s.iteration job]? = some p ∧ p.2.status = .abandoned ∧
        p.2.holdEpoch = epoch) ∧ ∀ w loop cursor, b.pc = .readQueue w loop cursor →
      afterQueue (answerQueue s.holds b.node w.reads) w loop cursor ≠ .raised := by
  have hal : Aligned job node w0 s := h.invariant h0.aligned fun _ _ _ hI hok hs => hI.step hok hs
  obtain ⟨r, hr, hrow⟩ := hal.row
  have hiter : s.iteration job = r.metadata.iteration.getD 0 := by
    rw [Runner.iteration, hr, bind_some]
  have hpcs := hal.pcs e b r hb hj hd hr
  rw [hiter]
  refine ⟨fun w loop cursor p hpc => ?_, fun w epoch hpc => ?_, fun w loop cursor hpc => ?_⟩
  · rw [hpc] at hpcs
    exact hpcs.2
  · rw [hpc] at hpcs
    exact hpcs
  rw [hpc] at hpcs
  obtain ⟨hask, rfl, rfl⟩ := hpcs
  have hnode := (hal.bodies b (List.mem_of_getElem? hb)).mp hj
  rw [hnode, hrow.counted.afterQueue hask.1]
  split <;> nofun

def loopGateRow : JobRow :=
  { stepKey := "review", metadata := { flowId := some 0, loopKind := true, iteration := some 0 } }

def loopGate : Runner :=
  .ofRows [{ stepKey := rootStepKey, status := .running }, loopGateRow]

lemma loopGate_start : LoopStart 1 reviewNode loopGate where
  row := ⟨loopGateRow, rfl, rfl, rfl, rfl⟩
  alone k r hr hp := by
    match k with
    | 0 =>
      cases hr
      cases congrArg Prod.fst hp
    | 1 => rfl
    | k + 2 => cases hr
  bodies _ hb := absurd hb List.not_mem_nil
  holds := rfl

def dueGate : WaitCall := .waitSignal ["Approve"] (some 5)

def rejectGate : WaitCall := .waitSignal ["Reject"]

def refineExpired : List RunnerEvent :=
  .claim 0 0 1 7 :: holdAt 0 dueGate 0 ++ [.expire 10 0, .resume 10 1, .claim 10 0 1 7] ++
    (.wait 1 dueGate :: List.replicate 6 (.exec 1 10 0)) ++ [.advance 1 1 5] ++ askAt 1 dueGate

def otherSignal : List RunnerEvent :=
  .claim 0 0 1 7 :: holdAt 0 approveGate 0 ++
    [.resolve 1 0 "yes", .resume 1 1, .claim 2 0 1 7] ++ askAt 1 approveGate ++
    [.exec 1 2 0, .advance 1 1 5] ++ askAt 1 rejectGate

def Runner.pcAfter (s : Runner) (l : List RunnerEvent) (e : Nat) : Option WaitPc :=
  (Runs.exec Runner.step s l).bind fun s => (s.bodies[e]?).map Body.pc

/-- The second iteration's only wait raises, after an expired hold and at another signal. -/
theorem uniform_loop_raises :
    loopGate.pcAfter refineExpired.dropLast 1 = some (.readQueue dueGate true 1) ∧
    loopGate.pcAfter refineExpired 1 = some .raised ∧
    loopGate.pcAfter otherSignal.dropLast 1 = some (.readQueue rejectGate true 1) ∧
    loopGate.pcAfter otherSignal 1 = some .raised := by
  decide +kernel

def twoApprovals : List RunnerEvent :=
  .claim 0 0 1 7 :: holdAt 0 approveGate 0 ++
    [.resolve 1 0 "yes", .resume 1 1, .claim 2 0 1 7] ++ askAt 1 approveGate ++
    [.exec 1 2 0, .advance 1 1 5] ++ holdAt 1 approveGate 1 ++
    [.resolve 3 1 "again", .resume 3 1, .claim 4 0 1 7] ++ askAt 2 approveGate

theorem loop_waits_in_step_second : let s := final Runner.step loopGate twoApprovals
    s.iteration 1 = 1 ∧ ∃ (b : Body) (p : HoldId × SignalRow), s.bodies[2]? = some b ∧
      b.pc = .answered approveGate true 1 p ∧
      (nodeHolds s.holds reviewNode)[s.iteration 1]? = some p ∧ p.1 = 1 := by
  let s := final Runner.step loopGate twoApprovals
  have hrun : Reach Runner.step (fun s a => s.steady 1 reviewNode approveGate a = true)
      loopGate s :=
    .of_exec (exec_final (by decide +kernel))
      (.of_checks (Runner.steady 1 reviewNode approveGate) (by decide +kernel) fun _ _ h => h)
  let p : HoldId × SignalRow :=
    (1, { approval with holdEpoch := 2, payload := some (.doc "again"), resolvedAt := some 3 })
  let b : Body :=
    { claim := ⟨1, 7, 3⟩, node := reviewNode, pc := .answered approveGate true 1 p }
  have hb : s.bodies[2]? = some b := by decide +kernel
  obtain ⟨hanswer, -, -⟩ := loop_waits_in_step loopGate_start hrun hb rfl (by decide +kernel)
  exact ⟨by decide +kernel, b, p, hb, rfl, (hanswer _ _ _ _ rfl).1, rfl⟩

end TaskQ
