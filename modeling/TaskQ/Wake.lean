import TaskQ.DeskSound

namespace TaskQ
open Runs RowLocks Option Desk

def DeskSession.resumes : DeskSession → Option (HoldId × JobId)
  | .hand c (.resume k) => some (c.hold, k)
  | .sweep _ _ (.resume _ _ k h _) => some (h, k)
  | _ => none

def DeskSession.found : DeskSession → Option (HoldId × JobId)
  | .hand c (.cas (some k)) => some (c.hold, k)
  | x => x.resumes

def DeskSession.wakes : DeskSession → Option HoldId
  | .hand c (.finish .delivered) => some c.hold
  | .sweep _ _ (.resume _ _ _ h _) => some h
  | _ => none

lemma DeskRuns.jobs_held {b : Board} (hrun : DeskRuns env b x e) (h : e.jobs k = some r) :
    ∃ r0, b.db.jobs k = some r0 ∧ (r.metadata.hold = r0.metadata.hold ∧ x.wakes = none ∨
      r.metadata.hold = none ∧ ∃ hold, x.resumes = some (hold, k)) := by
  cases hrun with
  | lockNode => exact ⟨r, (ite_none_right_eq_some.mp h).2, .inl ⟨rfl, rfl⟩⟩
  | resume hw =>
    subst hw
    obtain ⟨rfl, hn, r0, hr0⟩ := deliverResume_row h
    exact ⟨r0, hr0, .inr ⟨hn, _, rfl⟩⟩
  | cancel =>
    obtain ⟨r0, hr0, -, -, -, hk⟩ := cancelOneRun_row h
    exact ⟨r0, hr0, .inl ⟨hk, rfl⟩⟩
  | wake =>
    obtain ⟨rfl, hn, r0, hr0⟩ := deliverResume_row h
    exact ⟨r0, hr0, .inr ⟨hn, _, rfl⟩⟩
  | _ => cases h

lemma mem_heldNodeByHold {db : Snapshot} (h : k ∈ heldNodeByHold db nodeKey flow hold) :
    ∃ r, db.jobs k = some r ∧ r.metadata.hold = some hold := by
  simp only [heldNodeByHold, List.mem_filter, any_eq_true, Bool.and_eq_true, decide_eq_true_eq] at h
  obtain ⟨-, r, hr, -, hh⟩ := h
  exact ⟨r, hr, hh⟩

lemma mem_nodes {kind : SignalSweep} {db : Snapshot} (h : k ∈ kind.nodes db hold r) :
    ∃ j, db.jobs k = some j := by
  cases kind with
  | expired =>
    obtain ⟨j, hj, -⟩ := mem_heldNodeByHold h
    exact ⟨j, hj⟩
  | dueTimers | childJoins =>
    obtain ⟨j, hj, -⟩ := (any_eq_true ..).mp (List.mem_filter.mp h).2
    exact ⟨j, hj⟩

/-- Every node the lookup of a sweep can return carries the stamp of the hold it resolves. -/
def Desk.ownStamp (s : Desk) : DeskEvent → Bool
  | .exec t _ =>
    match s.sessions t with
    | some (.sweep kind _ (.lookup _ _ ((h, r) :: _))) =>
      (kind.nodes (s.board t).db h r).all fun k =>
        ((s.jobs k).view t).all fun j => j.metadata.hold = some h
    | _ => true
  | _ => true

lemma DeskRuns.found {s : Desk} (hrun : DeskRuns env (s.board t) x e)
    (hx : s.sessions t = some x) (hok : s.ownStamp (.exec t env) = true) (h : e.next = some y)
    (hf : y.found = some (hold, k)) : x.found = some (hold, k) ∨
      ∃ r, (s.jobs k).view t = some r ∧ r.metadata.hold = some hold := by
  cases hrun with
  | read hread =>
    cases h
    cases hread with
    | node hk =>
      cases hf
      exact .inr (mem_heldNodeByHold hk)
    | _ => cases hf
  | @lockNode node _ _ _ hnode =>
    cases h
    cases node with
    | none => cases hf
    | some k' =>
      cases hf
      exact .inr (mem_heldNodeByHold (hnode k rfl))
  | cas _ _ hwon =>
    cases h
    cases hwon with
    | resume => exact .inl hf
    | refused | lookup => cases hf
  | node hk =>
    cases h
    obtain ⟨rfl, rfl⟩ := Prod.mk.inj (some.inj hf.symm)
    simp only [ownStamp, hx, List.all_eq_true] at hok
    obtain ⟨j, hj⟩ := mem_nodes hk
    have hv : (s.jobs k).view t = some j := hj
    have hstamp := hok k hk
    rw [hv, all_some, decide_eq_true_eq] at hstamp
    exact .inr ⟨j, hv, hstamp⟩
  | again =>
    obtain ⟨-, rfl⟩ := matched h
    cases hf
  | refused | finish | ended => cases h
  | _ =>
    cases h
    cases hf

structure Woken (s : Desk) : Prop extends Tracked s where
  stamp : (s.jobs k).draft = some (t, r) →
    ∃ b, (s.jobs k).base = some b ∧ (r.metadata.hold = none ∨ r.metadata.hold = b.metadata.hold)
  own : s.sessions t = some x → x.found = some (hold, k) → (s.jobs k).holds r →
    r.metadata.hold = none ∨ r.metadata.hold = some hold
  cleared : (s.jobs k).draft = some (t, r) → (s.jobs k).base = some b →
    r.metadata.hold ≠ b.metadata.hold →
    ∃ c, s.sessions t = some (.hand c (.finish .delivered)) ∧ b.metadata.hold = some c.hold

lemma Woken.base_of_view (hW : Woken s) (hv : (s.jobs k).view t = some r) :
    ∃ b, (s.jobs k).base = some b ∧
      (r.metadata.hold = none ∨ r.metadata.hold = b.metadata.hold) := by
  rcases Slot.draft_or_base hv with hd | ⟨-, hb⟩
  · exact hW.stamp hd
  · exact ⟨r, hb, .inr rfl⟩

lemma Woken.stamped (hW : Woken s) (hv : (s.jobs k).view t = some r)
    (hr : r.metadata.hold = some hold) (hr' : (s.jobs k).holds r') :
    r'.metadata.hold = none ∨ r'.metadata.hold = some hold := by
  obtain ⟨b, hb, hrb⟩ := hW.base_of_view hv
  have hbh : b.metadata.hold = some hold := by
    rcases hrb with hn | he
    · rw [hn] at hr
      cases hr
    · exact he.symm.trans hr
  rcases hr' with hb' | ⟨u, hd⟩
  · rw [← some.inj (hb.symm.trans hb')]
    exact .inr hbh
  obtain ⟨b', hb', hs⟩ := hW.stamp hd
  rw [some.inj (hb'.symm.trans hb), hbh] at hs
  exact hs

section

variable (hW : Woken s) (hx : s.sessions t = some x)

lemma holds_exec {s : Desk} (hr : ((s.apply t (execDesk env (s.board t) x)).jobs k).holds r) :
    ∃ r0, (s.jobs k).holds r0 ∧ (r.metadata.hold = none ∨ r.metadata.hold = r0.metadata.hold) := by
  rcases statement_holds hr with hr | hw
  · exact ⟨r, hr, .inr rfl⟩
  · obtain ⟨r0, hr0, hk⟩ := execDesk_runs.jobs_held hw
    exact ⟨r0, Slot.holds_of_view hr0, hk.symm.imp And.left And.left⟩

include hW hx in
lemma Woken.clears (hw : (execDesk env (s.board t) x).jobs k = some r)
    (hb : (s.jobs k).base = some b) (hne : r.metadata.hold ≠ b.metadata.hold) :
    ∃ hold, x.resumes = some (hold, k) ∧ b.metadata.hold = some hold := by
  obtain ⟨r0, hr0, ⟨hk, hwk⟩ | ⟨hn, hold, hres⟩⟩ := execDesk_runs.jobs_held hw
  · rcases Slot.draft_or_base hr0 with hd | ⟨-, hb'⟩
    · -- the session's own draft, which only a verb that has finished leaves cleared
      obtain ⟨c, hc, -⟩ := hW.cleared hd hb (hk ▸ hne)
      rw [some.inj (hx.symm.trans hc)] at hwk
      cases hwk
    · rw [hk, some.inj (hb'.symm.trans hb)] at hne
      exact absurd rfl hne
  · have hfound : x.found = some (hold, k) := by
      rw [← hres]
      cases x with
      | hand c pc => cases pc <;> first | rfl | cases hres
      | cancel | sweep => rfl
    refine ⟨hold, hres, ?_⟩
    rcases hW.own hx hfound (.inl hb) with hbn | hbh
    · rw [hn, hbn] at hne
      exact absurd rfl hne
    · exact hbh

lemma execDesk_resumes {b : Board} (h : (execDesk env b x).jobs k = some r)
    (hx : x.resumes = some (hold, k)) : (execDesk env b x).commits = true ∨ ∃ c, c.hold = hold ∧
      (execDesk env b x).next = some (.hand c (.finish .delivered)) := by
  cases x with
  | hand c pc =>
    cases pc with
    | resume node =>
      obtain ⟨rfl, rfl⟩ := Prod.mk.inj (some.inj hx)
      refine .inr ⟨c, rfl, ?_⟩
      have hw : (deliverResume b.db env.now node node).isSome = true :=
        isSome_iff_exists.mpr ⟨r, h⟩
      simp [execDesk, execHand, hw]
    | _ => cases hx
  | cancel => cases hx
  | sweep kind batch pc =>
    cases pc with
    | resume => exact .inl rfl
    | _ => cases hx

include hW hx in
lemma Woken.exec (hok : s.ownStamp (.exec t env) = true)
    (ha : s.admits t (execDesk env (s.board t) x) = true) :
    Woken (s.apply t (execDesk env (s.board t) x)) where
  toTracked := hW.toTracked.exec hx ha
  stamp hd := by
    obtain ⟨hb, -, hd⟩ := statement_draft hd
    simp only [apply]
    rw [hb]
    rcases hd with ⟨hw, -⟩ | ⟨-, hd⟩
    · obtain ⟨r0, hr0, hk⟩ := execDesk_runs.jobs_held hw
      obtain ⟨b, hb, hs⟩ := hW.base_of_view hr0
      refine ⟨b, hb, ?_⟩
      rcases hk with ⟨hk, -⟩ | ⟨hn, -⟩
      · rwa [hk]
      · exact .inl hn
    · exact hW.stamp hd
  own {u y hold k r} hu hf hr := by
    obtain ⟨r0, hr0, hk⟩ := holds_exec hr
    have hr₀' : r0.metadata.hold = none ∨ r0.metadata.hold = some hold := by
      rcases update_sessions hu with ⟨rfl, hn⟩ | ⟨-, hu⟩
      · rcases execDesk_runs.found hx hok hn hf with hf | ⟨v, hv, hh⟩
        · exact hW.own hx hf hr0
        · exact hW.stamped hv hh hr0
      · exact hW.own hu hf hr0
    rcases hk with hn | hk
    · exact .inl hn
    · rwa [hk]
  cleared {k u r b} hd hb hne := by
    obtain ⟨hbase, hut, hd⟩ := statement_draft hd
    have hb0 := hbase.symm.trans hb
    rcases hd with ⟨hw, rfl⟩ | ⟨-, hd⟩
    · obtain ⟨hold, hres, hbh⟩ := hW.clears hx hw hb0 hne
      rcases execDesk_resumes hw hres with hc | ⟨c, rfl, hn⟩
      · exact absurd rfl (hut hc)
      · exact ⟨c, (Function.update_self ..).trans hn, hbh⟩
    · obtain ⟨c, hc, hbh⟩ := hW.cleared hd hb0 hne
      refine ⟨c, ?_, hbh⟩
      by_cases hu : u = t
      · subst hu
        cases hx.symm.trans hc
        exact absurd rfl (hut rfl)
      · exact (Function.update_of_ne hu ..).trans hc

end

lemma found_start (c : DeskCall) : c.start.found = none := by
  cases c <;> rfl

lemma Woken.call (hW : Woken s) (hn : s.sessions t = none) (c : DeskCall) :
    Woken { s with sessions := Function.update s.sessions t (some c.start) } where
  toTracked := hW.toTracked.call t c
  stamp := hW.stamp
  own hu hf := by
    rcases update_sessions hu with ⟨-, hs⟩ | ⟨-, hu⟩
    · rw [← some.inj hs, found_start] at hf
      cases hf
    · exact hW.own hu hf
  cleared {k u r b} hd hb hne := by
    obtain ⟨c', hc, hbh⟩ := hW.cleared hd hb hne
    have hu : u ≠ t := by
      rintro rfl
      rw [hn] at hc
      cases hc
    exact ⟨c', (Function.update_of_ne hu ..).trans hc, hbh⟩

lemma Woken.crash (hW : Woken s) (t : Tx) : Woken (s.rollback t) where
  toTracked := hW.toTracked.crash t
  stamp hd := by
    simp only [rollback, Slot.rollback_base]
    exact hW.stamp (Slot.rollback_draft_some.mp hd).1
  own hu hf hr := by
    rcases update_sessions hu with ⟨-, hs⟩ | ⟨-, hu⟩
    · cases hs
    · exact hW.own hu hf (Slot.holds_of_rollback hr)
  cleared {k u r b} hd hb hne := by
    obtain ⟨hd, hu⟩ := Slot.rollback_draft_some.mp hd
    obtain ⟨c, hc, hbh⟩ := hW.cleared hd (Slot.rollback_base.symm.trans hb) hne
    exact ⟨c, (Function.update_of_ne hu ..).trans hc, hbh⟩

lemma Woken.step (hW : Woken s) (hok : s.ownStamp a = true) (h : s.step a = some s') :
    Woken s' := by
  cases moves_of_step h with
  | call hn => exact hW.call hn _
  | exec hx ha => exact hW.exec hx hok ha
  | crash => exact hW.crash _

lemma Woken.of_closed (hc : s.Closed) : Woken s where
  toTracked := .of_closed hc
  stamp hd := by
    rw [hc.jobs] at hd
    cases hd
  own hx := by
    rw [hc.sessions] at hx
    cases hx
  cleared hd := by
    rw [hc.jobs] at hd
    cases hd

def Desk.resolves (s : Desk) : DeskEvent → Option HoldId
  | .exec t _ => (s.sessions t).bind DeskSession.wakes
  | _ => none

lemma Woken.cleared_step (hW : Woken s) (h : s.step a = some s')
    (hb : (s.jobs k).base = some b) (hh : b.metadata.hold = some hold)
    (hb' : (s'.jobs k).base = some b') (hn : b'.metadata.hold ≠ some hold) :
    s.resolves a = some hold ∧ ∃ q, (s'.signals hold).base = some q ∧ q.status ≠ .held := by
  have hsame : (s.jobs k).base ≠ some b' := by
    intro he
    rw [← some.inj (hb.symm.trans he)] at hn
    exact hn hh
  cases moves_of_step h with
  | call => exact absurd hb' hsame
  | crash => exact absurd (Slot.rollback_base.symm.trans hb') hsame
  | @exec t x env hx ha =>
    have hne := hh ▸ hn
    rcases statement_base hb' with hb' | ⟨hc, hw | ⟨-, hd⟩⟩
    · exact absurd hb' hsame
    · obtain ⟨hold', hres, hbh⟩ := hW.clears hx hw hb hne
      cases hbh.symm.trans hh
      cases x with
      | hand c pc =>
        cases pc with
        | resume => cases hc
        | _ => cases hres
      | cancel => cases hres
      | sweep kind batch pc =>
        cases pc with
        | resume n full node hold rows =>
          cases hres
          refine ⟨by rw [resolves, hx]; rfl, ?_⟩
          exact hW.resolved_exec (hW.owed hx List.mem_cons_self)
        | _ => cases hres
    · obtain ⟨c, hx', hbh⟩ := hW.cleared hd hb hne
      cases hx.symm.trans hx'
      cases hbh.symm.trans hh
      refine ⟨by rw [resolves, hx]; rfl, ?_⟩
      exact hW.commits (.inr (hW.locks hx (List.mem_singleton_self _))) hc

lemma Desk.row_step {s : Desk} (h : s.step a = some s') (hb : (s.jobs k).base = some b) :
    ∃ b', (s'.jobs k).base = some b' := by
  cases moves_of_step h with
  | call => exact ⟨b, hb⟩
  | crash => exact ⟨b, Slot.rollback_base.trans hb⟩
  | exec hx ha => exact exists_statement_base hb

lemma Woken.stamp_step (hW : Woken s) (h : s.step a = some s')
    (hs : ∃ b, (s.jobs k).base = some b ∧ (b.metadata.hold = some hold ∨
      ∃ q, (s.signals hold).base = some q ∧ q.status ≠ .held)) :
    ∃ b, (s'.jobs k).base = some b ∧ (b.metadata.hold = some hold ∨
      ∃ q, (s'.signals hold).base = some q ∧ q.status ≠ .held) := by
  obtain ⟨b, hb, hs⟩ := hs
  obtain ⟨b', hb'⟩ := row_step h hb
  refine ⟨b', hb', ?_⟩
  rcases hs with hh | hq
  · by_cases hn : b'.metadata.hold = some hold
    · exact .inl hn
    · exact .inr (hW.cleared_step h hb hh hb' hn).2
  · exact .inr (hW.resolved_step h hq)

/-- If sweeps look up only nodes stamped with their hold, a wake clears just its own stamp. -/
theorem wake_goes_to_held_node {s0 s : Desk} (hc : s0.Closed)
    (h : Reach Desk.step (fun s a => s.ownStamp a = true) s0 s) :
    (∀ a s' k b b' hold, s.ownStamp a = true → s.step a = some s' →
      (s.jobs k).base = some b → b.metadata.hold = some hold →
      (s'.jobs k).base = some b' → b'.metadata.hold ≠ some hold → s.resolves a = some hold) ∧
    ∀ s' k b hold q, Reach Desk.step (fun s a => s.ownStamp a = true) s s' →
      (s.jobs k).base = some b → b.metadata.hold = some hold →
      (s'.signals hold).base = some q → q.status = .held →
      ∃ b', (s'.jobs k).base = some b' ∧ b'.metadata.hold = some hold := by
  have hW : Woken s := h.invariant (.of_closed hc) fun _ _ _ hW hok hs => hW.step hok hs
  refine ⟨fun a s' k b b' hold _ hs hb hh hb' hn => (hW.cleared_step hs hb hh hb' hn).1, ?_⟩
  intro s' k b hold q h' hb hh hq hheld
  have hboth := h'.invariant (I := fun u => Woken u ∧ ∃ b, (u.jobs k).base = some b ∧
      (b.metadata.hold = some hold ∨ ∃ q, (u.signals hold).base = some q ∧ q.status ≠ .held))
    ⟨hW, b, hb, .inl hh⟩ fun _ _ _ hu hok hs => ⟨hu.1.step hok hs, hu.1.stamp_step hs hu.2⟩
  obtain ⟨-, b', hb', hs | ⟨q', hq', hn⟩⟩ := hboth
  · exact ⟨b', hb', hs⟩
  · rw [some.inj (hq'.symm.trans hq)] at hn
    exact absurd hheld hn

def mapSiblings : Desk :=
  .ofRows [{ stepKey := rootStepKey, status := .running },
      { stepKey := "m.item", mapIndex := some 0, metadata := { flowId := some 0, hold := some 0 } },
      { stepKey := "m.item", mapIndex := some 1, metadata := { flowId := some 0, hold := some 1 } }]
    [{ workflow := 0, nodeKey := "m.item", signalName := "Approval", mapIndex := some 0 },
      { workflow := 0, nodeKey := "m.item", signalName := "__timer__", mapIndex := some 1,
        expiresAt := some 5 }]

def timerPass : List DeskEvent :=
  [.call 1 (.sweepDueTimers 100 false 1000), .exec 1 { now := 10 }, .exec 1 { now := 10 }]

def Desk.stampOf (s : Desk) (k : JobId) : Option (Option HoldId) :=
  (s.jobs k).base.map fun r => r.metadata.hold

/-- A timer's wake clears the stamp of a waiting sibling and leaves its own node held. -/
theorem timer_wakes_sibling : ∃ s s', Reach Desk.step (fun _ _ => True) mapSiblings s ∧
      s.step (.exec 1 { now := 10 }) = some s' ∧ s.resolves (.exec 1 { now := 10 }) = some 1 ∧
      s.stampOf 1 = some (some 0) ∧ s'.stampOf 1 = some none ∧
      s'.stampOf 2 = some (some 1) ∧
      (s'.signals 0).base.map SignalRow.status = some .held :=
  ⟨final step mapSiblings timerPass, final step mapSiblings (timerPass ++ [.exec 1 { now := 10 }]),
    .of_final (by decide), rfl, by decide, by decide, by decide,
    by decide, by decide⟩

def resolveHuman : List DeskEvent :=
  [.call 2 (.resolve 0 "yes" true), .exec 2 {}, .exec 2 {}, .exec 2 {}, .exec 2 {}, .exec 2 {},
    .exec 2 {}]

theorem wake_goes_to_held_node_siblings :
    ∃ s s' : Desk, s.step (.exec 2 {}) = some s' ∧ s.stampOf 1 = some (some 0) ∧
      s'.stampOf 1 = some none ∧ s.resolves (.exec 2 {}) = some 0 ∧
      ∃ b, (s'.jobs 2).base = some b ∧ b.metadata.hold = some 1 := by
  have hrun : Reach step (fun s a => s.ownStamp a = true) mapSiblings
      (final step mapSiblings resolveHuman) :=
    .of_exec (exec_final (by decide)) (.of_checks ownStamp (by decide) fun _ _ h => h)
  have hend := wake_goes_to_held_node (closed_ofRows ..) hrun
  have hstep : (final step mapSiblings resolveHuman).step (.exec 2 {}) =
      some (final step mapSiblings (resolveHuman ++ [.exec 2 {}])) := rfl
  have hstamp : ∀ {s : Desk} {k v}, s.stampOf k = some v →
      ∃ b, (s.jobs k).base = some b ∧ b.metadata.hold = v := map_eq_some_iff.mp
  obtain ⟨b1, hb1, hh1⟩ := hstamp (k := 1) (v := some 0)
    (show (final step mapSiblings resolveHuman).stampOf 1 = _ by decide)
  obtain ⟨b2, hb2, hh2⟩ := hstamp (k := 2) (v := some 1)
    (show (final step mapSiblings resolveHuman).stampOf 2 = _ by decide)
  obtain ⟨b3, hb3, hh3⟩ := hstamp (k := 1) (v := none)
    (show (final step mapSiblings (resolveHuman ++ [.exec 2 {}])).stampOf 1 = _ by decide)
  obtain ⟨q, hq, hheld⟩ := map_eq_some_iff.mp
    (show ((final step mapSiblings (resolveHuman ++ [.exec 2 {}])).signals 1).base.map
      SignalRow.status = some .held by decide)
  refine ⟨_, _, hstep, by decide, by decide, ?_, ?_⟩
  · exact hend.1 _ _ 1 b1 b3 0 (by decide) hstep hb1 hh1 hb3 (by rw [hh3]; nofun)
  · exact hend.2 _ 2 b2 1 q (.next .start (by decide) hstep) hb2 hh2 hq hheld

end TaskQ
