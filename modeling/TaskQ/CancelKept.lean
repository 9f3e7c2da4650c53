import TaskQ.JobTable

namespace TaskQ.Jobs

open Runs Row CancelPhase

def CancelPhase.value : CancelPhase → Nat
  | .none => 0
  | .cooperative => 1
  | .forced => 2

def Row.settling (j : Row) : Prop :=
  j.status = .running ∨ j.status = .succeeded ∨ j.status = .failed ∨ j.status = .cancelled ∨
    j.status = .abandoned

structure Row.UnderCancel (j : Row) : Prop where
  settling : j.settling
  phase : j.cancelPhase ≠ .none

structure CancelKept (j j' : Row) : Prop where
  settling : j'.settling
  phase : j.cancelPhase.value ≤ j'.cancelPhase.value
  requested : j'.cancelRequestedAt = j.cancelRequestedAt

section
variable {j j' k : Row} {stmt : Stmt}

lemma Row.UnderCancel.not_waiting (h : j.UnderCancel) : ¬ j.waiting := by
  rintro (hw | hw) <;> rcases h.settling with hs | hs | hs | hs | hs <;> rw [hs] at hw <;> cases hw

lemma CancelKept.refl (h : j.UnderCancel) : CancelKept j j := ⟨h.settling, le_rfl, rfl⟩

lemma CancelKept.trans (h : CancelKept j j') (h' : CancelKept j' k) : CancelKept j k :=
  ⟨h'.settling, h.phase.trans h'.phase, h'.requested.trans h.requested⟩

lemma CancelPhase.value_pos {c : CancelPhase} : 0 < c.value ↔ c ≠ .none := by
  cases c <;> simp [value]

lemma CancelKept.underCancel (h : CancelKept j j') (hj : j.UnderCancel) : j'.UnderCancel :=
  ⟨h.settling, value_pos.mp ((value_pos.mpr hj.phase).trans_le h.phase)⟩

lemma CancelKept.of_eq (hs : j'.settling) (hp : j'.cancelPhase = j.cancelPhase)
    (hr : j'.cancelRequestedAt = j.cancelRequestedAt) : CancelKept j j' :=
  ⟨hs, (congrArg value hp).ge, hr⟩

section
variable (hj : j.UnderCancel)
include hj

lemma Row.reclaimed_cancelKept :
    CancelKept j (j.reclaimed now delay crashClass crashMessage) := by
  have hp := hj.phase
  refine .of_eq ?_ rfl ?_
  · simp [settling, reclaimed, hp]
  · simp [reclaimed, hp]

lemma Row.cancelRunning_cancelKept (h : j.cancelRunning now = some j') : CancelKept j j' := by
  obtain ⟨⟨-, hp⟩, -⟩ := matched h
  exact absurd hp hj.phase

lemma Row.cancelPendingScheduled_cancelKept
    (h : j.cancelPendingScheduled now = some j') : CancelKept j j' := by
  obtain ⟨hw, -⟩ := matched h
  exact absurd hw hj.not_waiting

lemma Stmt.cancelKept (hr : ∀ now, stmt ≠ .retryJob now)
    (h : stmt.apply j = some j') : CancelKept j j' := by
  cases stmt with
  | markAbandoned now p =>
    obtain ⟨-, rfl⟩ := matched h
    exact .of_eq (by simp [settling]) rfl rfl
  | cancelPendingScheduled now => exact cancelPendingScheduled_cancelKept hj h
  | cancelRunning now => exact cancelRunning_cancelKept hj h
  | cancelRequest now =>
    rcases Option.or_eq_some_iff.mp h with h | ⟨-, h⟩
    · exact cancelPendingScheduled_cancelKept hj h
    · exact cancelRunning_cancelKept hj h
  | cancelEscalation worker =>
    obtain ⟨⟨hs, -, hp⟩, rfl⟩ := matched h
    exact ⟨.inl hs, by simp [hp, value], rfl⟩
  | abortBatch | deregister =>
    obtain ⟨hw, -⟩ := matched h
    exact absurd hw hj.not_waiting
  | heartbeat | flushProgress =>
    obtain ⟨⟨hs, -⟩, rfl⟩ := matched h
    exact .of_eq (.inl hs) rfl rfl
  | sweepReclaim ts now grace delay =>
    obtain ⟨-, _, rfl⟩ := sweepReclaim_some h
    exact reclaimed_cancelKept hj
  | sweepDeadline ts now =>
    obtain ⟨⟨hw, -⟩, -⟩ := matched h
    exact absurd hw hj.not_waiting
  | sweepPromote ts =>
    obtain ⟨⟨hw, -⟩, -⟩ := matched h
    exact absurd (.inr hw) hj.not_waiting
  | sweepResultTtl ts =>
    obtain ⟨-, rfl⟩ := matched h
    exact .of_eq hj.settling rfl rfl
  | isolate worker now delay =>
    obtain ⟨-, rfl⟩ := matched h
    exact reclaimed_cancelKept hj
  | shutdownRepend | reconcileLostClaim =>
    obtain ⟨⟨-, -, hp, -⟩, -⟩ := matched h
    exact absurd hp hj.phase
  | moveBacklog queue target =>
    obtain ⟨⟨-, hw⟩, -⟩ := matched h
    exact absurd hw hj.not_waiting
  | retryJob now => exact absurd rfl (hr now)

end

lemma OutcomeWrite.cancelKept (o : OutcomeWrite) (hp : j.cancelPhase ≠ .none)
    (h : o.written f now j = some w) : CancelKept j w.row := by
  have hlands := o.lands h
  obtain ⟨hphase, hrequested⟩ := hlands.cancel.resolve_left hp
  refine .of_eq ?_ hphase hrequested
  cases hlands.arm with
  | handBack _ _ _ _ _ hnone => exact absurd (hphase.symm.trans hnone) hp
  | finish _ hs => rcases hs with hs | hs | hs <;> simp [settling, hs]

variable {id : JobId} {t t' : Table}

lemma Table.update_isSome (h : (t id).isSome) : (t.update ids g id).isSome := by
  unfold Table.update
  split
  · rwa [Option.isSome_map]
  · exact h

lemma Table.step_isSome {a : Op} (hs : t.step a = some t')
    (h : (t id).isSome) : (t' id).isSome := by
  cases a with
  | enqueue n now =>
    obtain ⟨-, rfl⟩ := matched hs
    dsimp only
    split
    · rfl
    · exact h
  | claim | write | run =>
    cases hs
    exact Table.update_isSome h

lemma Op.not_retryJob (hid : id ∈ ids) (h : id ∉ (Op.run stmt ids).retried)
    (now : Stamp) : stmt ≠ .retryJob now := by
  rintro rfl
  exact h hid

lemma Table.step_cancelKept {a : Op} (hj : t id = some j)
    (hc : j.UnderCancel) (hr : id ∉ a.retried) (hs : t.step a = some t') :
    ∃ j', t' id = some j' ∧ CancelKept j j' := by
  have hsome : (t id).isSome := by rw [hj]; rfl
  obtain ⟨j', hj'⟩ := Option.isSome_iff_exists.mp (Table.step_isSome hs hsome)
  refine ⟨j', hj', ?_⟩
  rcases Table.step_row hs hj' with hsame | ⟨n, now, rfl, rfl, -⟩ | ⟨i, hi, hwrite⟩
  · cases hj.symm.trans hsame
    exact .refl hc
  · obtain ⟨hn, -⟩ := matched hs
    rw [hj] at hn
    cases hn
  · cases hj.symm.trans hi
    rcases hwrite with ⟨_, _, _, _, -, -, hclaim⟩ | ⟨_, _, o, w, -, hw, rfl⟩ |
      ⟨stmt, ids, rfl, hid, happly⟩
    · exact absurd (.inl (claimed hclaim).pending) hc.not_waiting
    · exact o.cancelKept hc.phase hw
    · exact Stmt.cancelKept hc (Op.not_retryJob hid hr) happly

end

/-- Without a `retry_job` a running job's recorded cancel is kept until the row is over. -/
theorem recorded_cancel_kept {t t' : Table} {id : JobId} {j : Row} (hj : t id = some j)
    (hrun : j.status = .running) (hp : j.cancelPhase ≠ .none)
    (h : Reach Table.step (fun _ a => id ∉ a.retried) t t') :
    ∃ j', t' id = some j' ∧ (j'.status = .running ∨ j'.status = .succeeded ∨ j'.status = .failed ∨
        j'.status = .cancelled ∨ j'.status = .abandoned) ∧
      j.cancelPhase.value ≤ j'.cancelPhase.value ∧ j'.cancelRequestedAt = j.cancelRequestedAt := by
  have hc : j.UnderCancel := ⟨.inl hrun, hp⟩
  have hkept : ∃ j', t' id = some j' ∧ CancelKept j j' :=
    h.invariant (I := fun t => ∃ j', t id = some j' ∧ CancelKept j j') ⟨j, hj, .refl hc⟩ <| by
      rintro u a u' ⟨k, hk, hkc⟩ hr hs
      obtain ⟨k', hk', hstep⟩ := Table.step_cancelKept hk (hkc.underCancel hc) hr hs
      exact ⟨k', hk', hkc.trans hstep⟩
  obtain ⟨j', hj', hk⟩ := hkept
  exact ⟨j', hj', hk.settling, hk.phase, hk.requested⟩

def cancelAsked : Table :=
  final Table.step (fun _ => none)
    [.enqueue { id := 1, actor := "report" } 0, .claim [1] 7 10 60000000,
      .run (.cancelRequest 20) [1]]

def cancelThenCrash : List Op :=
  [.write 1 ⟨7, some 1, some 1⟩ 30 (.retry 1000000 ⟨"ValueError", "bad input", none⟩ {}),
    .run (.shutdownRepend 7 false) [1], .run (.reconcileLostClaim 7 90000000 60000000 false) [1],
    .run (.sweepReclaim 200000000 200000000 60000000 1000000) [1]]

theorem recorded_cancel_kept_cancelThenCrash :
    ∃ j', final Table.step cancelAsked cancelThenCrash 1 = some j' ∧
      (j'.status = .running ∨ j'.status = .succeeded ∨ j'.status = .failed ∨
        j'.status = .cancelled ∨ j'.status = .abandoned) ∧
      1 ≤ j'.cancelPhase.value ∧ j'.cancelRequestedAt = some 20 :=
  @recorded_cancel_kept cancelAsked _ 1 _ rfl rfl (by decide)
    (.of_decide (by decide) (by decide))

end TaskQ.Jobs
