import TaskQ.DeskSound

namespace TaskQ
open Runs RowLocks Desk

structure Resolving (s : Desk) : Prop extends Tracked s where
  clean : (s.signals h).draft = some (t, r) →
    ∃ b, (s.signals h).base = some b ∧ b.status = .held
  settled : h ∈ s.reported → ∃ b, (s.signals h).base = some b ∧ b.status ≠ .held
  once : s.reported.Nodup

/-- A child-join statement finds the row it comes to write still held. -/
def Desk.soleWake (s : Desk) : DeskEvent → Bool
  | .exec t _ => ((s.sessions t).bind DeskSession.delivers).all fun h =>
    (s.signals h).base.all fun r => r.status = .held
  | _ => true

section

variable (hR : Resolving s) (hx : s.sessions t = some x)
  (hok : s.soleWake (.exec t env) = true)

include hR hx hok in
lemma Resolving.written (hw : (execDesk env (s.board t) x).signals h = some r) :
    ∃ b, (s.signals h).base = some b ∧ b.status = .held := by
  obtain ⟨-, r0, hr0, hheld⟩ := execDesk_runs.signals_held hw
  rcases Slot.draft_or_base hr0 with hd | ⟨-, hb⟩
  · exact hR.clean hd
  refine ⟨r0, hb, ?_⟩
  rcases hheld with hs | hs
  · exact hs
  · simpa [soleWake, hx, hs, hb] using hok

include hR hx hok in
lemma Resolving.base_exec (hb : (s.signals h).base = some b) (hs : b.status ≠ .held) :
    (s.apply t (execDesk env (s.board t) x)).signals h = s.signals h := by
  have hheld : ¬ ∃ b, (s.signals h).base = some b ∧ b.status = .held := by
    rintro ⟨b', hb', hs'⟩
    rw [Option.some.inj (hb'.symm.trans hb)] at hs'
    exact hs hs'
  apply statement_untouched
  · rw [Option.eq_none_iff_forall_ne_some]
    exact fun r hw => hheld (hR.written hx hok hw)
  · exact fun r hd => hheld (hR.clean hd)

include hR hx hok in
lemma Resolving.exec (ha : s.admits t (execDesk env (s.board t) x) = true) :
    Resolving (s.apply t (execDesk env (s.board t) x)) where
  toTracked := hR.toTracked.exec hx ha
  clean hd := by
    obtain ⟨hb, -, hd⟩ := statement_draft hd
    simp only [apply]
    rw [hb]
    rcases hd with ⟨hw, -⟩ | ⟨-, hd⟩
    · exact hR.written hx hok hw
    · exact hR.clean hd
  settled {h} hm := by
    rcases List.mem_append.mp hm with hm | hm
    · obtain ⟨hl, hc⟩ := execDesk_runs.reports (Option.mem_toList.mp hm)
      exact hR.commits (.inr (hR.locks hx hl)) hc
    · obtain ⟨b, hb, hs⟩ := hR.settled hm
      exact ⟨b, (congrArg Slot.base (hR.base_exec hx hok hb hs)).trans hb, hs⟩
  once := by
    cases hr : (execDesk env (s.board t) x).report with
    | none => simpa [apply, hr] using hR.once
    | some h =>
      have hn : h ∉ s.reported := by
        intro hm
        obtain ⟨b, hb, hs⟩ := hR.settled hm
        obtain ⟨r, hd⟩ := hR.locks hx (execDesk_runs.reports hr).1
        obtain ⟨b', hb', hs'⟩ := hR.clean hd
        rw [Option.some.inj (hb'.symm.trans hb)] at hs'
        exact hs hs'
      simpa [apply, hr] using And.intro hn hR.once

end

lemma Resolving.crash (hR : Resolving s) (t : Tx) : Resolving (s.rollback t) where
  toTracked := hR.toTracked.crash t
  clean hd := by
    simp only [rollback, Slot.rollback_base]
    exact hR.clean (Slot.rollback_draft_some.mp hd).1
  settled hm := by
    simp only [rollback, Slot.rollback_base]
    exact hR.settled hm
  once := hR.once

lemma Resolving.step (hR : Resolving s) (hok : s.soleWake a = true) (h : s.step a = some s') :
    Resolving s' := by
  cases moves_of_step h with
  | call => exact ⟨hR.toTracked.call _ _, hR.clean, hR.settled, hR.once⟩
  | exec hx ha => exact hR.exec hx hok ha
  | crash => exact hR.crash _

lemma Resolving.of_closed (hc : s.Closed) : Resolving s where
  toTracked := .of_closed hc
  clean hd := by
    rw [hc.signals] at hd
    cases hd
  settled hm := by
    rw [hc.reported] at hm
    cases hm
  once := hc.reported ▸ List.nodup_nil

lemma Resolving.base_step (hR : Resolving s) (hok : s.soleWake a = true)
    (h : s.step a = some s') (hb : (s.signals hold).base = some r) (hr : r.status ≠ .held) :
    (s'.signals hold).base = some r := by
  cases moves_of_step h with
  | call => exact hb
  | exec hx => exact (congrArg Slot.base (hR.base_exec hx hok hb hr)).trans hb
  | crash => exact Slot.rollback_base.trans hb

/-- If child joins find their rows still held, a resolved hold stays as it is and is reported once.
-/
theorem hold_resolved_once {s0 s s' : Desk} (hc : s0.Closed)
    (h : Reach Desk.step (fun s a => s.soleWake a = true) s0 s)
    (h' : Reach Desk.step (fun s a => s.soleWake a = true) s s') :
    s'.reported.Nodup ∧ ∀ hold r, (s.signals hold).base = some r → r.status ≠ .held →
      (s'.signals hold).base = some r := by
  have hR : Resolving s := h.invariant (.of_closed hc) fun _ _ _ hR hok hs => hR.step hok hs
  refine ⟨?_, fun hold r hb hr => ?_⟩
  · exact (h'.invariant hR fun _ _ _ hR hok hs => hR.step hok hs).once
  have hboth := h'.invariant (I := fun u => Resolving u ∧ (u.signals hold).base = some r) ⟨hR, hb⟩
      fun _ _ _ hu hok hs => ⟨hu.1.step hok hs, hu.1.base_step hok hs hu.2 hr⟩
  exact hboth.2

def orphanJoin : Desk :=
  .ofRows [{ stepKey := rootStepKey, status := .running },
      { stepKey := "n", metadata := { flowId := some 0, hold := some 0 } }]
    [{ workflow := 0, nodeKey := "n", signalName := "__child__:7" }]

def cancelBetween : List DeskEvent :=
  [.call 1 (.sweepChildJoins 10), .exec 1 {}, .call 2 (.cancelRun 0 "stop"), .exec 2 {},
    .exec 2 {}, .exec 2 {}]

def Desk.holdStatus (s : Desk) (hold : HoldId) : Option SignalStatus :=
  (s.signals hold).base.map SignalRow.status

/-- The child-join statement goes on to deliver the hold of the cancelled run. -/
theorem childJoin_overwrites_cancelled : ∃ s s', Reach Desk.step (fun _ _ => True) orphanJoin s ∧
      Reach Desk.step (fun _ _ => True) s s' ∧ s.holdStatus 0 = some .cancelled ∧
      s'.holdStatus 0 = some .delivered :=
  ⟨final step orphanJoin cancelBetween,
    final step (final step orphanJoin cancelBetween) [.exec 1 {}, .exec 1 {}],
    .of_final (by decide),
    .of_final (by decide), by decide, by decide⟩

def childJoinPass : List DeskEvent :=
  [.call 1 (.sweepChildJoins 10), .exec 1 {}, .exec 1 {}, .exec 1 {}]

def cancelAndDeliver : List DeskEvent :=
  [.call 2 (.cancelRun 0 "stop"), .exec 2 {}, .exec 2 {}, .exec 2 {},
    .call 3 (.deliverPayload 0 0 "yes" true), .exec 3 {}, .exec 3 {}, .exec 3 {}]

theorem hold_resolved_once_childJoin :
    ∃ (s s' : Desk) (r : SignalRow), (s.signals 0).base = some r ∧ r.status = .delivered ∧
      s'.reported.Nodup ∧ (s'.signals 0).base = some r ∧ s'.sessions 2 = none ∧
      s'.sessions 3 = none := by
  have hend := hold_resolved_once (closed_ofRows _ _)
    (.of_exec (exec_final (s := orphanJoin) (l := childJoinPass) (by decide))
      (.of_checks soleWake (by decide) fun _ _ h => h))
    (.of_exec (exec_final (l := cancelAndDeliver) (by decide))
      (.of_checks soleWake (by decide) fun _ _ h => h))
  exact ⟨final step orphanJoin childJoinPass,
    final step (final step orphanJoin childJoinPass) cancelAndDeliver, _, rfl,
    by decide, hend.1, hend.2 0 _ rfl (by decide), rfl, rfl⟩

end TaskQ
