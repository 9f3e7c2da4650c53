import TaskQ.NodeStatements
import TaskQ.UniqueIndex

namespace TaskQ.Jobs

open UniqueIndex List

structure NodeTable where
  rows : List Row
  keys : Unique (fun j => some j.id) rows

/-- An `UPDATE … WHERE id = …`: the row it writes, of one it matches. -/
structure Update where
  target : JobId
  write : Row → Option Row
  id_eq : ∀ j j', write j = some j' → j'.id = j.id

def Update.set (u : Update) (j : Row) : Row := if j.id = u.target then (u.write j).getD j else j

lemma Update.set_id (u : Update) (j : Row) : (u.set j).id = j.id := by
  unfold Update.set
  split
  · cases hw : u.write j with
    | none => rfl
    | some j' => exact u.id_eq j j' hw
  · rfl

def NodeTable.update (t : NodeTable) (u : Update) : NodeTable where
  rows := t.rows.map u.set
  keys := by
    apply List.pairwise_map.mpr
    apply t.keys.imp
    intro a b h
    simp only [u.set_id]
    exact h

/-- `SELECT id … WHERE id = target AND p`, which is also what an `UPDATE` returns. -/
def NodeTable.select (t : NodeTable) (target : JobId) (p : Row → Bool) : List JobId :=
  (t.rows.filter fun j => decide (j.id = target) && p j).map (·.id)

def Update.returning (u : Update) (t : NodeTable) : List JobId :=
  t.select u.target fun j => (u.write j).isSome

section
variable {t : NodeTable} {u : Update} {j : Row}

lemma NodeTable.select_of_mem (hj : j ∈ t.rows) (p : Row → Bool) :
    t.select j.id p = if p j then [j.id] else [] := by
  unfold NodeTable.select
  rw [t.keys.filter_of_mem hj p]
  split <;> rfl

lemma NodeTable.select_eq_nil {p : Row → Bool}
    (h : ∀ j ∈ t.rows, j.id = target → p j = false) : t.select target p = [] := by
  unfold NodeTable.select
  rw [map_eq_nil_iff, filter_eq_nil_iff]
  intro j hj hp
  simp only [Bool.and_eq_true, decide_eq_true_eq] at hp
  rw [h j hj hp.1] at hp
  exact Bool.false_ne_true hp.2

lemma Update.returning_of_mem (hj : j ∈ t.rows) (hid : j.id = u.target) :
    u.returning t = if (u.write j).isSome then [j.id] else [] := by
  rw [Update.returning, ← hid, NodeTable.select_of_mem hj]

lemma NodeTable.update_eq_self (h : u.returning t = []) : t.update u = t := by
  unfold NodeTable.update
  congr 1
  refine (map_congr_left ?_).trans (map_id _)
  intro j hj
  unfold Update.returning at h
  rw [NodeTable.select, map_eq_nil_iff, filter_eq_nil_iff] at h
  have hn := h j hj
  simp only [Bool.and_eq_true, decide_eq_true_eq, not_and, Bool.not_eq_true,
    Option.isSome_eq_false_iff, Option.isNone_iff_eq_none] at hn
  unfold Update.set
  split
  · rw [hn ‹_›]
    rfl
  · rfl

end

inductive Verdict where
  | deferred | repended | exhausted | cancelFenced

/-- A row of the result; the `exhausted` one of the deadline has a `NULL` id. -/
structure VerdictRow where
  verdict : Verdict
  jobId : Option JobId

def verdictRows (verdict : Verdict) (ids : List JobId) : List VerdictRow :=
  ids.map fun id => ⟨verdict, some id⟩

def Row.cancelMarked (j : Row) : Prop := j.marked "cancel_phase" ∨ j.cancelPhase ≠ .none

instance (j : Row) : Decidable j.cancelMarked := inferInstanceAs (Decidable (_ ∨ _))

lemma Row.not_cancelMarked {j : Row} :
    ¬ j.cancelMarked ↔ j.cancelPhase = .none ∧ ¬ j.marked "cancel_phase" := by
  rw [Row.cancelMarked, not_or, not_not, and_comm]

/-- The `cancel_fenced` arm of both statements, on the rows before the statement. -/
def cancelFenced (t : NodeTable) (jobId : JobId) (f : Fence) (written : List JobId) : List JobId :=
  if written = [] then t.select jobId fun j => decide (j.jobFence f ∧ j.cancelMarked) else []

def retryAfterConsuming : String := "retry_after_consuming"

def wfDeferral (signal : String) (consuming : Bool) (attempt : Option Int) : String :=
  "\x7b\"signal\": " ++ signal.quote ++ ", \"attempt\": " ++ (attempt.map toString).getD "null" ++
    ", \"consume_budget\": " ++ toString consuming ++ "\x7d"

structure NodeDefer where
  jobId : JobId
  fence : Fence
  delay : Stamp
  (disposition signalName : String)

def NodeDefer.consuming (p : NodeDefer) : Bool := p.disposition = retryAfterConsuming

def NodeDefer.postAttempt (p : NodeDefer) : Option Int :=
  if p.consuming then p.fence.attempt else p.fence.attempt.map fun n => max (n - 1) 0

lemma Row.nodeDefer_id {j j' : Row} (h : j.nodeDefer f now delay consuming deferral = some j') :
    j'.id = j.id := by
  rw [(Runs.matched h).2]
  rfl

lemma Row.nodeDeadlineRepend_id {j j' : Row}
    (h : j.nodeDeadlineRepend f now backoff exhausted = some j') : j'.id = j.id := by
  rw [(Runs.matched h).2]

section
variable (p : NodeDefer) (now : Stamp) (t : NodeTable)

def NodeDefer.deferred : Update where
  target := p.jobId
  write j := j.nodeDefer p.fence now p.delay p.consuming
    (wfDeferral p.signalName p.consuming p.postAttempt)
  id_eq _ _ := Row.nodeDefer_id

def NodeDefer.exhausted : List JobId :=
  if (p.deferred now).returning t = [] then
    t.select p.jobId fun j => decide (j.jobFence p.fence ∧ j.cancelPhase = .none ∧
      ¬ j.marked "cancel_phase" ∧ p.consuming ∧ j.retryKind ≠ .indefinite ∧
      j.maxAttempts ≤ j.attempt)
  else []

/-- `NODE_DEFER_SQL`. Every arm reads the table as it was before the statement. -/
def NodeDefer.run : List VerdictRow × NodeTable :=
  let deferred := (p.deferred now).returning t
  (verdictRows .deferred deferred ++ verdictRows .exhausted (p.exhausted now t) ++
    verdictRows .cancelFenced (cancelFenced t p.jobId p.fence deferred), t.update (p.deferred now))

end

structure NodeDeadline where
  jobId : JobId
  backoff : Stamp
  exhausted : Bool
  fence : Fence

section
variable (p : NodeDeadline) (now : Stamp) (t : NodeTable)

def NodeDeadline.repended : Update where
  target := p.jobId
  write j := j.nodeDeadlineRepend p.fence now p.backoff p.exhausted
  id_eq _ _ := Row.nodeDeadlineRepend_id

/-- The `exhausted` arm reads only whether the other two found a row. -/
def NodeDeadline.exhaustedRows (repended cancelled : List JobId) : List VerdictRow :=
  if p.exhausted ∧ (t.select p.jobId fun j => decide (j.jobFence p.fence)) ≠ [] ∧
      repended = [] ∧ cancelled = [] then [⟨.exhausted, none⟩] else []

/-- `NODE_DEADLINE_REPEND_SQL`. -/
def NodeDeadline.run : List VerdictRow × NodeTable :=
  let repended := (p.repended now).returning t
  let cancelled := cancelFenced t p.jobId p.fence repended
  (verdictRows .repended repended ++ p.exhaustedRows t repended cancelled ++
    verdictRows .cancelFenced cancelled, t.update (p.repended now))

end

/-- What a statement answers its claim: nothing if it holds no row, else one verdict. -/
structure Partitions (t : NodeTable) (jobId : JobId) (f : Fence)
    (out : List VerdictRow × NodeTable) : Prop where
  held : ∀ j ∈ t.rows, j.id = jobId → j.jobFence f →
    ∃ r, out.1 = [r] ∧ (r.verdict = .cancelFenced ↔ j.cancelMarked)
  fenced : (∀ j ∈ t.rows, j.id = jobId → ¬ j.jobFence f) → out.1 = [] ∧ out.2 = t
  reads : ∀ r ∈ out.1, r.verdict = .exhausted ∨ r.verdict = .cancelFenced → out.2 = t

section
variable {t : NodeTable} {f : Fence} {j : Row}

lemma cancelFenced_of_mem (hj : j ∈ t.rows) (hf : j.jobFence f) :
    cancelFenced t j.id f [] = if j.cancelMarked then [j.id] else [] := by
  rw [cancelFenced, if_pos rfl, NodeTable.select_of_mem hj]
  by_cases hm : j.cancelMarked
  · simp [hf, hm]
  · simp [hm]

lemma cancelFenced_eq_nil (h : ∀ j ∈ t.rows, j.id = jobId → ¬ j.jobFence f) :
    cancelFenced t jobId f ids = [] := by
  unfold cancelFenced
  split
  · apply NodeTable.select_eq_nil
    intro j hj hid
    simp [h j hj hid]
  · rfl

lemma nodeDefer_isSome : (j.nodeDefer f now delay consuming deferral).isSome ↔
      j.jobFence f ∧ ¬ j.cancelMarked ∧ (consuming = false ∨ j.hasBudget) := by
  unfold Row.nodeDefer
  rw [Option.isSome_ite, Row.not_cancelMarked]
  tauto

lemma nodeDeadlineRepend_isSome : (j.nodeDeadlineRepend f now backoff exhausted).isSome ↔
      j.jobFence f ∧ exhausted = false ∧ ¬ j.cancelMarked := by
  unfold Row.nodeDeadlineRepend
  rw [Option.isSome_ite, Row.not_cancelMarked]

lemma Update.returning_eq_nil {u : Update} (hw : ∀ j, (u.write j).isSome → j.jobFence f)
    (h : ∀ j ∈ t.rows, j.id = u.target → ¬ j.jobFence f) : u.returning t = [] := by
  apply NodeTable.select_eq_nil
  intro j hj hid
  exact Bool.eq_false_iff.mpr fun hs => h j hj hid (hw j hs)

lemma NodeDefer.run_held {p : NodeDefer} (now : Stamp) (hj : j ∈ t.rows) (hid : j.id = p.jobId)
    (hf : j.jobFence p.fence) : (p.run now t).1 = [⟨if j.cancelMarked then .cancelFenced
      else if p.consuming = false ∨ j.hasBudget then .deferred else .exhausted, some j.id⟩] := by
  have hret := Update.returning_of_mem (u := p.deferred now) hj hid
  have hwrite : ((p.deferred now).write j).isSome ↔ _ := nodeDefer_isSome
  simp only [NodeDefer.run, NodeDefer.exhausted, ← hid]
  by_cases hm : j.cancelMarked
  · have hclean := mt Row.not_cancelMarked.mpr (not_not.mpr hm)
    rw [if_neg (by simp [hwrite, hm])] at hret
    rw [hret, if_pos rfl, cancelFenced_of_mem hj hf, NodeTable.select_of_mem hj, if_pos hm,
      if_pos hm, if_neg]
    · rfl
    simp only [decide_eq_true_eq]
    rintro ⟨_, hphase, hmark, _⟩
    exact hclean ⟨hphase, hmark⟩
  · obtain ⟨hphase, hmark⟩ := Row.not_cancelMarked.mp hm
    by_cases hb : p.consuming = false ∨ j.hasBudget
    · rw [if_pos (hwrite.mpr ⟨hf, hm, hb⟩)] at hret
      simp [hret, cancelFenced, verdictRows, hm, hb]
    rw [if_neg (by simp only [hwrite, hb]; tauto)] at hret
    have hspent : p.consuming ∧ j.retryKind ≠ .indefinite ∧ j.maxAttempts ≤ j.attempt := by
      simpa [Row.hasBudget] using hb
    rw [hret, if_pos rfl, cancelFenced_of_mem hj hf, NodeTable.select_of_mem hj, if_neg hm,
      if_neg hm, if_neg hb, if_pos (by simp [hf, hphase, hmark, hspent])]
    rfl

lemma NodeDeadline.run_held {p : NodeDeadline} (now : Stamp) (hj : j ∈ t.rows)
    (hid : j.id = p.jobId) (hf : j.jobFence p.fence) :
    (p.run now t).1 = [if j.cancelMarked then ⟨.cancelFenced, some j.id⟩
      else if p.exhausted then ⟨.exhausted, none⟩ else ⟨.repended, some j.id⟩] := by
  have hret := Update.returning_of_mem (u := p.repended now) hj hid
  have hwrite : ((p.repended now).write j).isSome ↔ _ := nodeDeadlineRepend_isSome
  simp only [NodeDeadline.run, NodeDeadline.exhaustedRows, ← hid]
  by_cases hm : j.cancelMarked
  · rw [if_neg (by simp [hwrite, hm])] at hret
    rw [hret, cancelFenced_of_mem hj hf, if_pos hm, if_pos hm, if_neg (by simp)]
    rfl
  · by_cases he : p.exhausted
    · rw [if_neg (by simp [hwrite, he])] at hret
      rw [hret, cancelFenced_of_mem hj hf, NodeTable.select_of_mem hj, if_neg hm, if_neg hm,
        if_pos he, if_pos (by simp [hf, he])]
      rfl
    · rw [if_pos (hwrite.mpr ⟨hf, Bool.eq_false_iff.mpr he, hm⟩)] at hret
      simp [hret, cancelFenced, verdictRows, hm, he]

end

section
variable {t : NodeTable}

lemma verdict_of_mem (h : r ∈ verdictRows v ids) : r.verdict = v := by
  obtain ⟨id, _, rfl⟩ := mem_map.mp h
  rfl

lemma ne_nil_of_mem_verdictRows (h : r ∈ verdictRows v ids) : ids ≠ [] := by
  rintro rfl
  exact not_mem_nil h

lemma NodeDefer.run_fenced {p : NodeDefer} (now : Stamp)
    (h : ∀ j ∈ t.rows, j.id = p.jobId → ¬ j.jobFence p.fence) :
    (p.run now t).1 = [] ∧ (p.run now t).2 = t := by
  have hret : (p.deferred now).returning t = [] :=
    Update.returning_eq_nil (fun _ hw => (nodeDefer_isSome.mp hw).1) h
  have hexh : p.exhausted now t = [] := by
    rw [NodeDefer.exhausted, if_pos hret]
    apply NodeTable.select_eq_nil
    intro j hj hid
    simp [h j hj hid]
  constructor
  · simp only [NodeDefer.run, hret, hexh, cancelFenced_eq_nil h]
    rfl
  · exact NodeTable.update_eq_self hret

lemma NodeDeadline.run_fenced {p : NodeDeadline} (now : Stamp)
    (h : ∀ j ∈ t.rows, j.id = p.jobId → ¬ j.jobFence p.fence) :
    (p.run now t).1 = [] ∧ (p.run now t).2 = t := by
  have hret : (p.repended now).returning t = [] :=
    Update.returning_eq_nil (fun _ hw => (nodeDeadlineRepend_isSome.mp hw).1) h
  have hheld : (t.select p.jobId fun j => decide (j.jobFence p.fence)) = [] := by
    apply NodeTable.select_eq_nil
    intro j hj hid
    simp [h j hj hid]
  constructor
  · simp only [NodeDeadline.run, NodeDeadline.exhaustedRows, hret, hheld, cancelFenced_eq_nil h]
    simp [verdictRows]
  · exact NodeTable.update_eq_self hret

lemma NodeDefer.run_reads {p : NodeDefer} (hr : r ∈ (p.run now t).1)
    (hv : r.verdict = .exhausted ∨ r.verdict = .cancelFenced) : (p.run now t).2 = t := by
  apply NodeTable.update_eq_self
  simp only [NodeDefer.run, append_assoc, mem_append] at hr
  rcases hr with hr | hr | hr
  · rw [verdict_of_mem hr] at hv
    rcases hv with hv | hv <;> cases hv
  · by_contra hne
    exact ne_nil_of_mem_verdictRows hr (if_neg hne)
  · by_contra hne
    exact ne_nil_of_mem_verdictRows hr (if_neg hne)

lemma NodeDeadline.run_reads {p : NodeDeadline} (hr : r ∈ (p.run now t).1)
    (hv : r.verdict = .exhausted ∨ r.verdict = .cancelFenced) : (p.run now t).2 = t := by
  apply NodeTable.update_eq_self
  simp only [NodeDeadline.run, append_assoc, mem_append] at hr
  rcases hr with hr | hr | hr
  · rw [verdict_of_mem hr] at hv
    rcases hv with hv | hv <;> cases hv
  · by_contra hne
    rw [NodeDeadline.exhaustedRows, if_neg fun hc => hne hc.2.2.1] at hr
    exact not_mem_nil hr
  · by_contra hne
    exact ne_nil_of_mem_verdictRows hr (if_neg hne)

end

end TaskQ.Jobs
