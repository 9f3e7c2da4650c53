import TaskQ.Runner

namespace TaskQ
open Runs List Option Runner WaitCall

/-- No `wait_signal` of a node lists a model named like another's signal. -/
def SitesApart (waits : NodeAddr → List WaitCall) : Prop :=
  ∀ node, ∀ names timeout, waitSignal names timeout ∈ waits node →
    ∀ names' timeout', waitSignal names' timeout' ∈ waits node →
      (waitSignal names' timeout').signalName ∈ names →
      (waitSignal names' timeout').signalName =
        (waitSignal names timeout).signalName

lemma startsWith_append (mark name : String) : startsWith mark (mark ++ name) = true := by
  rw [startsWith, String.toList_append, isPrefixOf_iff_prefix]
  exact prefix_append _ _

lemma SitesApart.reads (h : SitesApart waits) (hw : w ∈ waits node) (ha : w.accepted = true)
    (hw' : w' ∈ waits node) (hr : w'.signalName ∈ w.reads) : w'.signalName = w.signalName := by
  cases w with
  | waitUntil key _ => exact mem_singleton.mp hr
  | waitSignal names timeout =>
    rcases mem_append.mp hr with hn | hj
    · cases w' with
      | waitSignal => exact h _ _ _ hw _ _ hw' hn
      | waitUntil key _ =>
        -- no accepted model name starts with the mark of the timers
        simp only [accepted, Bool.and_eq_true, List.all_eq_true, Bool.not_eq_true'] at ha
        have hm := ha.2 _ hn
        rw [signalName, startsWith_append] at hm
        cases hm
    · rw [mem_singleton.mp hj]
      match names with
      | [] => rfl
      | [_] => rfl
      | _ :: _ :: _ => rfl

lemma guarded_resolveHold : (resolveHold now hold payload).Guarded := by
  intro h r r' hf
  obtain ⟨-, hf⟩ := ite_none_left_eq_some.mp hf
  exact guarded_signalCas _ _ _ hf

lemma guarded_expireHold : (expireHold now hold).Guarded := by
  intro h r r' hf
  simp only [expireHold, expirySweep, ite_none_right_eq_some, Bool.and_eq_true,
    decide_eq_true_eq, some.injEq] at hf
  obtain ⟨⟨⟨hs, -⟩, -⟩, -, rfl⟩ := hf
  exact ⟨hs, nofun, rfl⟩

lemma guarded_fireHold : (fireHold now hold).Guarded := by
  intro h r r' hf
  simp only [fireHold, timerFire, ite_none_right_eq_some, Bool.and_eq_true,
    decide_eq_true_eq, some.injEq] at hf
  obtain ⟨⟨⟨hs, -⟩, -⟩, -, rfl⟩ := hf
  exact ⟨hs, nofun, rfl⟩

variable {s : Runner}

lemma Resolution.Guarded.mem_settle (hf : f.Guarded) (h : p ∈ (s.settle f).holds) :
    ∃ q ∈ s.holds, q.1 = p.1 ∧ p.2.identity = q.2.identity ∧ (p = q ∨ q.2.status = .held) := by
  obtain ⟨q, hq, rfl⟩ := mem_map.mp h
  refine ⟨q, hq, rfl, ?_⟩
  cases hr : f q.1 q.2 with
  | none => exact ⟨rfl, .inl rfl⟩
  | some r =>
    obtain ⟨hheld, -, hid⟩ := hf _ _ _ hr
    exact ⟨hid, .inr hheld⟩

lemma Resolution.Guarded.mem_settle_of_mem (hf : f.Guarded) (h : p ∈ s.holds)
    (hd : p.2.status ≠ .held) : p ∈ (s.settle f).holds := by
  refine mem_map.mpr ⟨p, h, ?_⟩
  cases hr : f p.1 p.2 with
  | none => rfl
  | some r => exact absurd (hf _ _ _ hr).1 hd

structure Sited (waits : NodeAddr → List WaitCall) (s : Runner) : Prop where
  minted : ∀ p ∈ s.holds, ∃ w ∈ waits p.2.addr, (p.1, p.2.addr, w) ∈ s.minted ∧
    w.signalName = p.2.signalName
  calls : ∀ b ∈ s.bodies, ∀ w, b.pc.call = some w → w ∈ waits b.node ∧ w.accepted = true
  answers : ∀ b ∈ s.bodies, ∀ w loop cursor p, b.pc = .answered w loop cursor p →
    p ∈ answerQueue s.holds b.node w.reads

def Runner.declared (waits : NodeAddr → List WaitCall) (s : Runner) : RunnerEvent → Bool
  | .wait e w => s.bodies[e]?.all fun b => w ∈ waits b.node
  | _ => true

section
variable {waits : NodeAddr → List WaitCall} {s : Runner}

lemma Sited.write (h : Sited waits s) (w : Writes) : Sited waits (s.write w) :=
  ⟨h.minted, h.calls, h.answers⟩

lemma Sited.put (h : Sited waits s)
    (hc : ∀ w, b.pc.call = some w → w ∈ waits b.node ∧ w.accepted = true)
    (ha : ∀ w loop cursor p, b.pc = .answered w loop cursor p →
      p ∈ answerQueue s.holds b.node w.reads) : Sited waits (s.put e b) := by
  refine ⟨h.minted, fun c hmem => ?_, fun c hmem => ?_⟩
  all_goals rcases mem_or_eq_of_mem_set hmem with hmem | rfl
  · exact h.calls c hmem
  · exact hc
  · exact h.answers c hmem
  · exact ha

lemma SignalRow.addr_of_identity {r r' : SignalRow} (h : r'.identity = r.identity) :
    r'.addr = r.addr := by
  simp only [SignalRow.identity, Prod.mk.injEq] at h
  rw [SignalRow.addr, SignalRow.addr, h.1, h.2.1, h.2.2.2.1]

lemma SignalRow.signalName_of_identity {r r' : SignalRow} (h : r'.identity = r.identity) :
    r'.signalName = r.signalName := by
  simp only [SignalRow.identity, Prod.mk.injEq] at h
  exact h.2.2.1

lemma Sited.settle (h : Sited waits s) (hf : f.Guarded) : Sited waits (s.settle f) := by
  refine ⟨fun p hp => ?_, h.calls, fun b hb w loop cursor p hpc => ?_⟩
  · obtain ⟨q, hq, hid, hrow, -⟩ := hf.mem_settle hp
    rw [← hid, SignalRow.addr_of_identity hrow, SignalRow.signalName_of_identity hrow]
    exact h.minted q hq
  · obtain ⟨hp, hrest⟩ := mem_answerQueue.mp (h.answers b hb w loop cursor p hpc)
    refine mem_answerQueue.mpr ⟨hf.mem_settle_of_mem hp ?_, hrest⟩
    rw [hrest.2.2]
    nofun

lemma Sited.move (h : Sited waits s) (hb : b ∈ s.bodies) (hn : b'.node = b.node)
    (hc : ∀ w, b'.pc.call = some w → b.pc.call = some w) (ha : b'.pc.answer = none) :
    Sited waits (s.put e b') := by
  refine h.put (fun w hw => hn ▸ h.calls b hb w (hc w hw)) fun w loop cursor p hpc => ?_
  rw [hpc] at ha
  cases ha

lemma Sited.registerHold (h : Sited waits s) (hb : b ∈ s.bodies) (hw : w ∈ waits b.node) :
    Sited waits (s.registerHold e b now hold w epoch) := by
  unfold Runner.registerHold
  dsimp only
  split
  · exact h.move hb rfl nofun rfl
  rename_i holds hins
  unfold holdInsert at hins
  split at hins
  · cases hins
  cases hins
  have hm : Sited waits (s.put e { b with pc := .over }) := h.move hb rfl nofun rfl
  refine ⟨fun p hp => ?_, hm.calls, fun c hc w loop cursor p hpc => ?_⟩
  · rcases mem_append.mp hp with hp | hp
    · obtain ⟨v, hv, hmint, hname⟩ := h.minted p hp
      exact ⟨v, hv, mem_cons_of_mem _ hmint, hname⟩
    · rw [mem_singleton.mp hp]
      exact ⟨w, hw, mem_cons_self, rfl⟩
  · obtain ⟨hp, hrest⟩ := mem_answerQueue.mp (hm.answers c hc w loop cursor p hpc)
    exact mem_answerQueue.mpr ⟨mem_append_left _ hp, hrest⟩

lemma afterQueue_answered (h : afterQueue queue w loop cursor = .answered v loop' cursor' p) :
    v = w ∧ p ∈ queue := by
  unfold afterQueue at h
  split at h
  · cases h
  split at h
  · rename_i answer hq
    cases h
    exact ⟨rfl, mem_of_getElem? hq⟩
  · cases h

lemma afterQueue_call (h : (afterQueue queue w loop cursor).call = some v) : v = w := by
  unfold afterQueue at h
  split at h
  · cases h
  split at h <;> exact (some.inj h).symm

lemma WaitPc.call_of_starved {pc : WaitPc} (h : pc.starved = some w) : pc.call = some w := by
  cases pc <;> first | exact h | cases h

section
variable (h : Sited waits s)
include h

lemma Sited.exec (hb : b ∈ s.bodies) (he : s.exec e b now hold = some s') : Sited waits s' := by
  have hcalls := h.calls b hb
  unfold Runner.exec at he
  split at he
  case h_1 w hpc =>
    cases he
    exact h.move hb rfl (fun v hv => by rw [hpc]; exact hv) rfl
  case h_2 w loop cursor hpc =>
    cases he
    refine h.put (fun v hv => ?_) fun v loop' cursor' p hp => ?_
    · rw [afterQueue_call hv]
      exact hcalls w (by rw [hpc]; rfl)
    · obtain ⟨rfl, hp⟩ := afterQueue_answered hp
      exact hp
  case h_3 w loop cursor _ hpc =>
    split at he
    · cases he
      exact h.move hb rfl nofun rfl
    · cases he
      exact (h.write _).move hb rfl nofun rfl
  case h_4 w epoch hpc =>
    cases he
    exact (h.write _).move hb rfl nofun rfl
  case h_5 w epoch hpc =>
    split at he
    · cases he
    · cases he
      exact h.registerHold hb (hcalls w (by rw [hpc]; rfl)).1
  case h_6 pc _ _ _ _ _ =>
    obtain ⟨pc', hpc, rfl⟩ := map_eq_some_iff.mp he
    obtain ⟨ha, -, hc, hs⟩ := readOn_starved hpc
    refine h.move hb rfl (fun w hw => ?_) ha
    exact WaitPc.call_of_starved (hs w (hc ▸ hw))

lemma Sited.act (hb : s.bodies[e]? = some b)
    (hd : s.declared waits a = true) (ha : a.body = some e) (hs : s.act e b a = some s') :
    Sited waits s' := by
  have hmem := mem_of_getElem? hb
  have hend : ∀ (w : Writes) (pc : WaitPc), pc.call = none →
      Sited waits ((s.write w).put e { b with pc }) := by
    intro w pc hpc
    refine (h.write w).move hmem rfl (fun v hv => ?_) ?_
    · rw [hpc] at hv
      cases hv
    · cases pc <;> first | rfl | cases hpc
  cases a with
  | wait e' w =>
    cases ha
    obtain ⟨-, rfl⟩ := matched hs
    simp only [declared, hb, all_some, decide_eq_true_eq] at hd
    split
    · rename_i hacc
      exact h.put (fun v hv => by cases hv; exact ⟨hd, hacc⟩) fun _ _ _ _ hpc => nomatch hpc
    · exact h.move hmem rfl nofun rfl
  | exec e' now hold => exact h.exec hmem hs
  | deferStep e' now exc delay =>
    obtain ⟨-, rfl⟩ := matched hs
    refine hend _ _ ?_
    split <;> rfl
  | repend | finalize =>
    cases hs
    exact hend _ _ rfl
  | stop =>
    cases hs
    exact h.move hmem rfl nofun rfl
  | advance =>
    obtain ⟨-, rfl⟩ := matched hs
    exact h.write _
  | claim | reclaim | retryNode | cancelRun | resolve | expire | fire | resume => cases hs

lemma Sited.outside (hs : s.outside a = some s') : Sited waits s' := by
  cases a with
  | claim now flow job worker =>
    obtain ⟨r, -, hr⟩ := bind_eq_some_iff.mp hs
    obtain ⟨-, rfl⟩ := matched hr
    refine ⟨h.minted, fun b hb => ?_, fun b hb => ?_⟩
    all_goals rcases mem_append.mp hb with hb | hb
    · exact h.calls b hb
    · rw [mem_singleton.mp hb]
      exact fun _ hw => nomatch hw
    · exact h.answers b hb
    · rw [mem_singleton.mp hb]
      exact fun _ _ _ _ hpc => nomatch hpc
  | reclaim | retryNode | resume =>
    cases hs
    exact h.write _
  | cancelRun now flow reason =>
    simp only [Runner.outside, ite_none_left_eq_some, some.injEq] at hs
    obtain ⟨-, rfl⟩ := hs
    exact (h.write _).settle guarded_cancelRunSignals
  | resolve =>
    cases hs
    exact h.settle guarded_resolveHold
  | expire =>
    cases hs
    exact h.settle guarded_expireHold
  | fire =>
    cases hs
    exact h.settle guarded_fireHold
  | wait | exec | deferStep | repend | finalize | stop | advance => cases hs

lemma Sited.step (hd : s.declared waits a = true) (hs : s.step a = some s') : Sited waits s' := by
  unfold Runner.step at hs
  split at hs
  · exact h.outside hs
  rename_i e ha
  obtain ⟨b, hb, hs⟩ := bind_eq_some_iff.mp hs
  simp only [ite_none_left_eq_some] at hs
  exact h.act hb hd ha hs.2

end

end

structure Runner.Fresh (s : Runner) : Prop where
  holds : s.holds = []
  bodies : s.bodies = []
  marks : ∀ k r, s.db.jobs k = some r → r.metadata.waitMarks = []

lemma Runner.Fresh.sited (h : s.Fresh) : Sited waits s := by
  refine ⟨fun p hp => ?_, fun b hb => ?_, fun b hb => ?_⟩
  · rw [h.holds] at hp
    cases hp
  all_goals
    rw [h.bodies] at hb
    cases hb

def Runner.returns (s : Runner) : RunnerEvent → Option (NodeAddr × WaitCall × HoldId × SignalRow)
  | .exec e _ _ => s.bodies[e]?.bind fun b => match b.pc with
    | .answered w _ _ answer => some (b.node, w, answer)
    | _ => none
  | _ => none

/-- With sites apart, a wait returns only answers to holds that its own site minted. -/
theorem answer_reaches_its_site (hw : SitesApart waits) (h0 : s0.Fresh)
    (h : Reach Runner.step (fun s a => s.declared waits a = true) s0 s)
    (ha : s.returns a = some (node, w, hold, row)) :
    (hold, row) ∈ s.holds ∧ row.status = .delivered ∧
      ∃ w', (hold, node, w') ∈ s.minted ∧ w'.signalName = row.signalName ∧
        w'.signalName = w.signalName := by
  have hsited : Sited waits s := h.invariant h0.sited fun _ _ _ hI hd hs => hI.step hd hs
  cases a with
  | exec e now hold' =>
    obtain ⟨b, hb, hr⟩ := bind_eq_some_iff.mp ha
    split at hr
    · rename_i w loop cursor answer hpc
      cases hr
      have hmem := mem_of_getElem? hb
      obtain ⟨hw', hacc⟩ := hsited.calls b hmem w (by rw [hpc]; rfl)
      obtain ⟨hp, haddr, hname, hst⟩ :=
        mem_answerQueue.mp (hsited.answers b hmem _ _ _ _ hpc)
      obtain ⟨w', hin, hmint, hsig⟩ := hsited.minted _ hp
      rw [haddr] at hin hmint
      exact ⟨hp, hst, w', hmint, hsig, hw.reads hw' hacc hin (hsig ▸ hname)⟩
    · cases hr
  | _ => cases ha

def Runner.ofRows (rows : List JobRow) : Runner where
  db :=
    { ids := List.range rows.length
      jobs := fun k => rows[k]?, jobLocked := fun _ => false, edges := [], fires := [], outbox := []
      outboxLocked := fun _ => false, ledger := [] }

lemma Runner.fresh_ofRows (h : ∀ r ∈ rows, r.metadata.waitMarks = []) :
    (Runner.ofRows rows).Fresh :=
  ⟨rfl, rfl, fun _ r hr => h r (mem_of_getElem? hr)⟩

def twoGates : Runner :=
  .ofRows [{ stepKey := rootStepKey, status := .running },
    { stepKey := "review", metadata := { flowId := some 0 } }]

def reviewNode : NodeAddr := { workflow := 0, nodeKey := "review" }

def approveGate : WaitCall := .waitSignal ["Approve"]

def verdictGate : WaitCall := .waitSignal ["Approve", "Reject"]

def holdAt (e : Nat) (w : WaitCall) (hold : HoldId) : List RunnerEvent :=
  .wait e w :: List.replicate 6 (.exec e 0 hold)

def askAt (e : Nat) (w : WaitCall) : List RunnerEvent := [.wait e w, .exec e 0 0, .exec e 0 0]

def approveOnce : List RunnerEvent :=
  .claim 0 0 1 7 :: holdAt 0 approveGate 0 ++
    [.resolve 1 0 "yes", .resume 1 1, .claim 2 0 1 7] ++ askAt 1 approveGate

def approval : SignalRow :=
  { workflow := 0
    nodeKey := "review", signalName := "Approve", payload := some (.doc "yes"), status := .delivered
    resolvedAt := some 1 }

/-- The approval given at the first gate is returned by the second gate as well. -/
theorem approval_answers_second_gate : ∃ s, Reach Runner.step (fun s a =>
        s.declared (fun _ => [approveGate, verdictGate]) a = true) twoGates s ∧
      s.returns (.exec 1 0 0) = some (reviewNode, verdictGate, 0, approval) ∧
      s.minted = [(0, reviewNode, approveGate)] ∧ approveGate.signalName ≠ verdictGate.signalName :=
  ⟨final Runner.step twoGates (approveOnce ++ .exec 1 0 0 :: askAt 1 verdictGate),
    .of_exec (exec_final (by decide)) (.of_checks
      (declared fun _ => [approveGate, verdictGate]) (by decide) fun _ _ h => h),
    by decide, by decide, by decide⟩

theorem answer_reaches_its_site_approve :
    ∃ s : Runner, s.returns (.exec 1 0 0) = some (reviewNode, approveGate, 0, approval) ∧
      ∃ w', (0, reviewNode, w') ∈ s.minted ∧ w'.signalName = approveGate.signalName := by
  have hapart : SitesApart fun _ => [approveGate, .waitSignal ["Ship", "Scrap"]] := by
    intro node names timeout h names' timeout' h' hn
    simp only [approveGate, mem_cons, not_mem_nil, or_false] at h h'
    rcases h with ⟨rfl, rfl⟩ | ⟨rfl, rfl⟩ <;> rcases h' with ⟨rfl, rfl⟩ | ⟨rfl, rfl⟩ <;>
      revert hn <;> decide
  have hret : (final Runner.step twoGates approveOnce).returns (.exec 1 0 0) =
      some (reviewNode, approveGate, 0, approval) := by decide
  obtain ⟨-, -, w', hm, -, hn⟩ := answer_reaches_its_site hapart
    (fresh_ofRows (by decide)) (.of_exec (exec_final (by decide)) (.of_checks
      (declared fun _ => [approveGate, .waitSignal ["Ship", "Scrap"]]) (by decide)
      fun _ _ h => h)) hret
  exact ⟨_, hret, w', hm, hn⟩

end TaskQ
