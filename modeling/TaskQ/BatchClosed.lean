import Mathlib.Data.List.Dedup
import TaskQ.Batches

namespace TaskQ.Jobs
open RowLocks Runs List Function Option Slot BatchDb

def BatchDb.reopening (s : BatchDb) (u : Conn) (b : BatchId) : Prop :=
  ∃ snap x, s.conns u = some (.reopened (some b) snap) ∧ snap b = some x ∧ x.status ≠ .active

structure BatchDb.Kept (s : BatchDb) : Prop where
  absent : k ∉ s.ids → s.jobs k = ⟨none, none⟩
  owner : (s.jobs k).draft = some (t, j) → s.conns t ≠ none
  holder : (s.rows b).draft = some (t, x) → s.conns t ≠ none
  stored : (s.rows b).draft = some (t, x) → ∃ y, (s.rows b).base = some y
  same : (s.jobs k).draft = some (t, j) → (s.jobs k).base = some j0 → j.batchId = j0.batchId
  unborn : (s.jobs k).draft = some (t, j) → (s.jobs k).base = none → j.batchId = some b →
    (s.rows b).base = some y → ∃ x, (s.rows b).draft = some (t, x)
  opened : (s.jobs k).draft = some (t, j) → j.openMember b = true →
    (∃ x, (s.rows b).draft = some (t, x)) ∨
      (∀ y, (s.rows b).base = some y → y.status ≠ .complete) ∨ s.reopening t b
  sealed : (s.rows b).draft = some (t, x) → x.status = .complete →
    (s.jobs k).base = some j → j.openMember b = true → ∃ j', (s.jobs k).draft = some (t, j')
  shut : (s.rows b).draft = some (t, x) → x.status = .complete →
    (s.jobs k).draft = some (u, j) → j.openMember b = true → s.reopening u b
  closed : (s.rows b).base = some y → y.status = .complete → (s.jobs k).base = some j →
    j.openMember b = false
  inserting : s.conns t = some (.insertMembers new) → b ∈ membershipBatchIds new →
    (s.rows b).base = some y → ∃ x, (s.rows b).draft = some (t, x) ∧ x.status = .active
  completing : s.conns t = some (.completeBatch b) → ∃ x, (s.rows b).draft = some (t, x)

def BatchDb.uncompleted (s : BatchDb) (t : Conn) (b : BatchId) : Prop :=
  ∀ u x, (s.rows b).draft = some (u, x) ∨ s.rowView t b = some x → x.status ≠ .complete

/-- A `retry_job` that saw the batch active, or has yet to look at it, overlaps no completion. -/
def RetriesApart (s : BatchDb) : BatchEvent → Prop
  | .exec t _ =>
    match s.conns t with
    | some (.retried id _ snap) => ∀ j b, s.jobView t id = some j → j.batchId = some b →
        (∃ x, snap b = some x ∧ x.status ≠ .active) ∨ s.uncompleted t b
    | some (.completeBatch b) => ∀ k ∈ s.ids, ∀ u j j0, (s.jobs k).draft = some (u, j) → u ≠ t →
        (s.jobs k).base = some j0 → j0.status.terminal = true → j.openMember b = true →
        s.reopening u b
    | _ => True
  | _ => True

lemma MemberKept.openMember {j j' : Row} (h : MemberKept j j') (ho : j'.openMember b = true) :
    j.openMember b = true := by
  rw [Row.openMember_iff] at ho ⊢
  refine ⟨h.batchId ▸ ho.1, ?_⟩
  rw [← Bool.not_eq_true]
  intro ht
  rw [h.terminal ht] at ho
  exact absurd ho.2 (by decide)

variable {s : BatchDb}

lemma mem_membershipBatchIds (hn : n ∈ new)
    (hb : n.metadata.lookup "batch_id" = some b) :
    b ∈ membershipBatchIds new := by
  rw [membershipBatchIds, mem_dedup, mem_filterMap]
  exact ⟨n, hn, hb⟩

lemma BatchDb.reopening.reopens (h : s.reopening t b) (hpc : s.conns t = some pc) :
    pc.reopens = true := by
  obtain ⟨snap, x, hc, -⟩ := h
  cases hpc.symm.trans hc
  rfl

lemma BatchDb.reopening.congr {s s' : BatchDb} (h : s.reopening u b)
    (hu : s'.conns u = s.conns u) : s'.reopening u b := by
  obtain ⟨snap, x, hc, hx, hn⟩ := h
  exact ⟨snap, x, hu.trans hc, hx, hn⟩

lemma BatchPc.boundary_of_reopens {pc : BatchPc} (h : pc.reopens = true) :
    pc.boundary = false := by
  cases pc with
  | reopened b snap => rfl
  | _ => cases h

lemma BatchDb.Kept.mem_ids (hK : s.Kept) (h : s.jobView t k = some j) : k ∈ s.ids := by
  by_contra hk
  rw [jobView, hK.absent hk] at h
  cases h

section

variable {s : BatchDb} (hK : s.Kept) (hpc : s.conns t = some pc)
  (he : s.statement t now pc = some e) (ha : s.admits t e = true)

include ha in
lemma BatchDb.lock_free (hb : b ∈ e.locks) : (s.rows b).free t = true := by
  simp only [admits, Bool.and_eq_true, List.all_eq_true] at ha
  exact ha.2 b hb

include hK he in
lemma BatchDb.Kept.written_mem (hk : e.jobs k = some j) : k ∈ s.ids ++ e.born := by
  cases (statement_spec he).job hk with
  | plain _ hj0 _ => exact mem_append_left _ (hK.mem_ids hj0)
  | inserted _ _ hb => exact mem_append_right _ hb
  | retried hj0 _ _ => exact mem_append_left _ (hK.mem_ids hj0)

include hK he ha in
lemma BatchDb.Kept.job_free (hk : e.jobs k = some j) : (s.jobs k).free t = true := by
  simp only [admits, Bool.and_eq_true, List.all_eq_true] at ha
  have hf := ha.1 k (hK.written_mem he hk)
  simpa [hk] using hf

include hK he ha in
lemma BatchDb.Kept.job_lock (hd : (s.jobs k).draft = some (u, j)) :
    ∃ j', ((s.apply t e).jobs k).draft = some (u, j') :=
  put_holds_lock hd fun _ hw => hK.job_free he ha hw

include ha in
lemma BatchDb.row_lock (hd : (s.rows b).draft = some (u, x)) :
    ∃ x', ((s.apply t e).rows b).draft = some (u, x') := by
  refine put_holds_lock hd fun x' hw => ?_
  exact lock_free ha (ite_none_right_eq_some.mp hw).1

lemma BatchDb.row_draft (hd : ((s.apply t e).rows b).draft = some (u, x)) :
    b ∈ e.locks ∧ e.rows b = some x ∧ u = t ∨
      (b ∈ e.locks → e.rows b = none) ∧ (s.rows b).draft = some (u, x) := by
  rcases put_draft_some.mp hd with ⟨hw, hu⟩ | ⟨hw, hd'⟩
  · obtain ⟨hb, hx⟩ := ite_none_right_eq_some.mp hw
    exact .inl ⟨hb, hx, hu⟩
  · refine .inr ⟨fun hb => ?_, hd'⟩
    rwa [if_pos hb] at hw

include ha in
lemma BatchDb.row_kept (hut : u ≠ t) (hd : (s.rows b).draft = some (u, x)) :
    ((s.apply t e).rows b).draft = some (u, x) := by
  obtain ⟨x', hx'⟩ := row_lock ha hd
  rcases row_draft hx' with ⟨-, -, hu⟩ | ⟨-, hd'⟩
  · exact absurd hu hut
  · exact hx'.trans (hd'.symm.trans hd)

lemma BatchDb.row_written (hb : b ∈ e.locks) (hx : e.rows b = some x) :
    ((s.apply t e).rows b).draft = some (t, x) :=
  put_draft_some.mpr (.inl ⟨by rw [if_pos hb]; exact hx, rfl⟩)

lemma BatchDb.reopening_other (hut : u ≠ t) (h : s.reopening u b) : (s.apply t e).reopening u b :=
  h.congr (update_of_ne hut ..)

include hK hpc in
lemma BatchDb.Kept.opened_view (hr : pc.reopens = false) (hj : s.jobView t k = some j)
    (ho : j.openMember b = true) :
    (∃ x, (s.rows b).draft = some (t, x)) ∨
      ∀ y, (s.rows b).base = some y → y.status ≠ .complete := by
  rcases draft_or_base hj with hd | ⟨-, hb⟩
  · rcases hK.opened hd ho with h | h | h
    · exact .inl h
    · exact .inr h
    · rw [h.reopens hpc] at hr
      cases hr
  · refine .inr fun y hy hc => ?_
    rw [hK.closed hy hc hb] at ho
    cases ho

include hK hpc he ha in
lemma BatchDb.Kept.opened_exec (hok : RetriesApart s (.exec t now))
    (hd : ((s.apply t e).jobs k).draft = some (u, j)) (ho : j.openMember b = true) :
    (∃ x, ((s.apply t e).rows b).draft = some (u, x)) ∨
      (∀ y, ((s.apply t e).rows b).base = some y → y.status ≠ .complete) ∨
      (s.apply t e).reopening u b := by
  have hspec := statement_spec he
  have hbase : ((s.apply t e).rows b).base = (s.rows b).base := put_base
  rw [hbase]
  have hlift : ∀ {v}, (∃ x, (s.rows b).draft = some (v, x)) →
      ∃ x, ((s.apply t e).rows b).draft = some (v, x) := fun ⟨_, hx⟩ => row_lock ha hx
  rcases put_draft_some.mp hd with ⟨hw, rfl⟩ | ⟨-, hd'⟩
  · cases hspec.job hw with
    | plain hr hj0 hk =>
      rcases hK.opened_view hpc hr hj0 (hk.openMember ho) with h | h
      · exact .inl (hlift h)
      · exact .inr (.inl h)
    | @inserted new n hn _ _ =>
      cases hy : (s.rows b).base with
      | none => exact .inr (.inl fun y h => by cases h)
      | some y =>
        have hm := mem_membershipBatchIds hn (Row.openMember_iff.mp ho).1
        obtain ⟨x, hx, -⟩ := hK.inserting hpc hm hy
        exact .inl (hlift ⟨x, hx⟩)
    | @retried _ j0 snap _ _ hj0 hbid hnext =>
      have hbj := (Row.openMember_iff.mp ho).1
      simp only [RetriesApart, hpc] at hok
      rcases hok j0 b hj0 (hbid ▸ hbj) with ⟨x, hx, hn⟩ | hun
      · refine .inr (.inr ⟨snap, x, ?_, hx, hn⟩)
        exact (update_self ..).trans (congrArg some (hnext.trans (by rw [hbj])))
      by_cases hown : ∃ x, (s.rows b).draft = some (u, x)
      · exact .inl (hlift hown)
      · refine .inr (.inl fun y hy => hun u y (.inr ?_))
        exact (view_undrafted fun x hx => hown ⟨x, hx⟩).trans hy
  · rcases hK.opened hd' ho with h | h | h
    · exact .inl (hlift h)
    · exact .inr (.inl h)
    by_cases hut : u = t
    · -- the look itself: the row is locked now
      subst hut
      obtain ⟨snap, x, hc, hx, hn⟩ := h
      cases hpc.symm.trans hc
      obtain ⟨hl, hrow⟩ := hspec.reopened rfl hx hn
      cases hy : (s.rows b).base with
      | none => exact .inr (.inl fun y h => by cases h)
      | some y =>
        obtain ⟨x0, hx0⟩ := exists_view hy u
        obtain ⟨y', hy'⟩ := hrow x0 hx0
        exact .inl ⟨y', row_written hl hy'⟩
    · exact .inr (.inr (reopening_other hut h))

include hK hpc he ha in
lemma BatchDb.Kept.sealed_exec (hd : ((s.apply t e).rows b).draft = some (u, x))
    (hc : x.status = .complete) (hj : (s.jobs k).base = some j) (ho : j.openMember b = true) :
    ∃ j', ((s.apply t e).jobs k).draft = some (u, j') := by
  rcases row_draft hd with ⟨hl, hx, rfl⟩ | ⟨-, hd'⟩
  · obtain ⟨x0, hx0, hcause⟩ := (statement_spec he).row hl hx
    rcases hcause hc with ⟨hc0, -⟩ | ⟨-, hnone⟩
    · rcases draft_or_base hx0 with hd0 | ⟨-, hb0⟩
      · obtain ⟨j', hj'⟩ := hK.sealed hd0 hc0 hj ho
        exact hK.job_lock he ha hj'
      · rw [hK.closed hb0 hc0 hj] at ho
        cases ho
    · by_cases hown : ∃ j', (s.jobs k).draft = some (u, j')
      · obtain ⟨j', hj'⟩ := hown
        exact hK.job_lock he ha hj'
      have hv : s.jobView u k = some j :=
        (view_undrafted fun j' hj' => hown ⟨j', hj'⟩).trans hj
      have hm : k ∈ s.openMembers u b :=
        mem_filter.mpr ⟨hK.mem_ids hv, by rw [hv, any_some]; exact ho⟩
      rw [hnone] at hm
      cases hm
  · obtain ⟨j', hj'⟩ := hK.sealed hd' hc hj ho
    exact hK.job_lock he ha hj'

include hK hpc in
lemma BatchDb.Kept.shut_complete (hp : pc = .completeBatch b)
    (hok : RetriesApart s (.exec t now)) (hnone : s.openMembers t b = [])
    (hd : (s.jobs k).draft = some (u, j)) (ho : j.openMember b = true) :
    u ≠ t ∧ s.reopening u b := by
  have hunseen : ∀ j', s.jobView t k = some j' → j'.openMember b = false := by
    intro j' hj'
    rw [← Bool.not_eq_true]
    intro ho'
    have hm : k ∈ s.openMembers t b :=
      mem_filter.mpr ⟨hK.mem_ids hj', by rw [hj', any_some]; exact ho'⟩
    rw [hnone] at hm
    cases hm
  have hut : u ≠ t := by
    rintro rfl
    rw [hunseen j (view_of_draft hd)] at ho
    cases ho
  subst hp
  refine ⟨hut, ?_⟩
  obtain ⟨x, hx⟩ := hK.completing hpc
  obtain ⟨y, hy⟩ := hK.stored hx
  cases hj0 : (s.jobs k).base with
  | none =>
    -- an uncommitted insert holds the lock of the row
    obtain ⟨x', hx'⟩ := hK.unborn hd hj0 (Row.openMember_iff.mp ho).1 hy
    rw [hx] at hx'
    exact absurd (Prod.mk.inj (some.inj hx')).1.symm hut
  | some j0 =>
    have hv : s.jobView t k = some j0 := by
      refine (view_undrafted fun j' hj' => ?_).trans hj0
      rw [hd] at hj'
      exact hut (Prod.mk.inj (some.inj hj')).1
    simp only [RetriesApart, hpc] at hok
    refine hok k (hK.mem_ids (view_of_draft hd)) u j j0 hd hut hj0 ?_ ho
    have hopen := hunseen j0 hv
    rw [Row.openMember, ← hK.same hd hj0, (Row.openMember_iff.mp ho).1] at hopen
    simpa using hopen

include hK hpc he ha in
lemma BatchDb.Kept.shut_exec (hok : RetriesApart s (.exec t now))
    (hd : ((s.apply t e).rows b).draft = some (v, x)) (hc : x.status = .complete)
    (hk : ((s.apply t e).jobs k).draft = some (u, j)) (ho : j.openMember b = true) :
    (s.apply t e).reopening u b := by
  have hspec := statement_spec he
  rcases row_draft hd with ⟨hl, hx, rfl⟩ | ⟨hw, hd'⟩
  · -- the statement wrote the `batches` row, so it wrote no job row
    have hk' : (s.jobs k).draft = some (u, j) := by
      rcases put_draft_some.mp hk with ⟨hj, -⟩ | ⟨-, hk'⟩
      · rw [hspec.apart hj] at hl
        cases hl
      · exact hk'
    have hold : pc.boundary = true → s.reopening u b → (s.apply v e).reopening u b := by
      intro hb hr
      refine reopening_other ?_ hr
      rintro rfl
      rw [BatchPc.boundary_of_reopens (hr.reopens hpc)] at hb
      cases hb
    obtain ⟨x0, hx0, hcause⟩ := hspec.row hl hx
    rcases hcause hc with ⟨hc0, hbd⟩ | ⟨hp, hnone⟩
    · rcases draft_or_base hx0 with hd0 | ⟨hn0, hb0⟩
      · exact hold hbd (hK.shut hd0 hc0 hk' ho)
      rcases hK.opened hk' ho with ⟨x', hx'⟩ | h | h
      · obtain rfl := owner_of_free (lock_free ha hl) hx'
        exact absurd hx' (hn0 x')
      · exact absurd hc0 (h x0 hb0)
      · exact hold hbd h
    · obtain ⟨hut, hr⟩ := hK.shut_complete hpc hp hok hnone hk' ho
      exact reopening_other hut hr
  · rcases put_draft_some.mp hk with ⟨hj, rfl⟩ | ⟨-, hk'⟩
    · cases hspec.job hj with
      | @plain _ _ j0 _ hr hj0 hkept =>
        have ho0 := hkept.openMember ho
        rcases draft_or_base hj0 with hd0 | ⟨hn0, hb0⟩
        · rw [(hK.shut hd' hc hd0 ho0).reopens hpc] at hr
          cases hr
        obtain ⟨j', hj'⟩ := hK.sealed hd' hc hb0 ho0
        obtain rfl := owner_of_free (hK.job_free he ha hj) hj'
        exact absurd hj' (hn0 j')
      | @inserted new n hn _ _ =>
        have hm := mem_membershipBatchIds hn (Row.openMember_iff.mp ho).1
        obtain ⟨y, hy⟩ := hK.stored hd'
        obtain ⟨x', hx', hact⟩ := hK.inserting hpc hm hy
        cases hd'.symm.trans hx'
        exact absurd (hact.symm.trans hc) (by decide)
      | @retried _ j0 snap _ _ hj0 hbid hnext =>
        have hbj := (Row.openMember_iff.mp ho).1
        simp only [RetriesApart, hpc] at hok
        rcases hok j0 b hj0 (hbid ▸ hbj) with ⟨x', hx', hn⟩ | hun
        · refine ⟨snap, x', ?_, hx', hn⟩
          exact (update_self ..).trans (congrArg some (hnext.trans (by rw [hbj])))
        · exact absurd hc (hun v x (.inl hd'))
    · have hr := hK.shut hd' hc hk' ho
      by_cases hut : u = t
      · subst hut
        obtain ⟨snap, x', hcn, hx', hn⟩ := hr
        cases hpc.symm.trans hcn
        obtain ⟨hl, hrow⟩ := hspec.reopened rfl hx' hn
        obtain ⟨y, hy⟩ := hK.stored hd'
        obtain ⟨x0, hx0⟩ := exists_view hy u
        obtain ⟨y', hy'⟩ := hrow x0 hx0
        rw [hw hl] at hy'
        cases hy'
      · exact reopening_other hut hr

include hK hpc he in
lemma BatchDb.Kept.draft_origin (hd : ((s.apply t e).jobs k).draft = some (u, j)) :
    (∃ j1, s.jobView u k = some j1 ∧ j.batchId = j1.batchId) ∨
      (s.jobs k).base = none ∧ ∀ b y, j.batchId = some b → (s.rows b).base = some y →
        ∃ x, (s.rows b).draft = some (u, x) := by
  rcases put_draft_some.mp hd with ⟨hw, rfl⟩ | ⟨-, hd'⟩
  · cases (statement_spec he).job hw with
    | plain _ hj1 hk => exact .inl ⟨_, hj1, hk.batchId⟩
    | @inserted new n hn hnew _ =>
      refine .inr ⟨congrArg base (hK.absent hnew), fun b y hb hy => ?_⟩
      have hm := mem_membershipBatchIds hn hb
      obtain ⟨x, hx, -⟩ := hK.inserting hpc hm hy
      exact ⟨x, hx⟩
    | retried hj1 hid _ => exact .inl ⟨_, hj1, hid⟩
  · exact .inl ⟨j, view_of_draft hd', rfl⟩

include hK hpc he in
lemma BatchDb.Kept.same_exec (hd : ((s.apply t e).jobs k).draft = some (u, j))
    (hj0 : (s.jobs k).base = some j0) : j.batchId = j0.batchId := by
  rcases hK.draft_origin hpc he hd with ⟨j1, hj1, hid⟩ | ⟨hn, -⟩
  · rw [hid]
    rcases draft_or_base hj1 with hd1 | ⟨-, hb1⟩
    · exact hK.same hd1 hj0
    · rw [some.inj (hb1.symm.trans hj0)]
  · rw [hn] at hj0
    cases hj0

include hK hpc he ha in
lemma BatchDb.Kept.unborn_exec (hd : ((s.apply t e).jobs k).draft = some (u, j))
    (hn : (s.jobs k).base = none) (hb : j.batchId = some b) (hy : (s.rows b).base = some y) :
    ∃ x, ((s.apply t e).rows b).draft = some (u, x) := by
  rcases hK.draft_origin hpc he hd with ⟨j1, hj1, hid⟩ | ⟨-, hlock⟩
  · rcases draft_or_base hj1 with hd1 | ⟨-, hb1⟩
    · obtain ⟨x, hx⟩ := hK.unborn hd1 hn (hid.symm.trans hb) hy
      exact row_lock ha hx
    · rw [hn] at hb1
      cases hb1
  · obtain ⟨x, hx⟩ := hlock b y hb hy
    exact row_lock ha hx

include hK hpc he ha in
lemma BatchDb.Kept.exec (hok : RetriesApart s (.exec t now)) : (s.apply t e).Kept := by
  have hspec := statement_spec he
  have hnext : (s.apply t e).conns t = some e.next := update_self ..
  have hconn : ∀ u, s.conns u ≠ none → (s.apply t e).conns u ≠ none := by
    intro u hu
    by_cases hut : u = t
    · rw [hut, hnext]
      exact some_ne_none _
    · exact fun h => hu ((update_of_ne hut ..).symm.trans h)
  have hself : (s.apply t e).conns t ≠ none := by simp [hnext]
  have hrow : ∀ {b}, ((s.apply t e).rows b).base = (s.rows b).base := put_base
  have hjob : ∀ {k}, ((s.apply t e).jobs k).base = (s.jobs k).base := put_base
  refine
    { absent := fun {k} hk => ?_
      owner := fun {k u j} hd => ?_
      holder := fun {b u x} hd => ?_
      stored := fun {b u x} hd => ?_
      same := fun hd hj0 => hK.same_exec hpc he hd (hjob ▸ hj0)
      unborn := fun hd hn hb hy => hK.unborn_exec hpc he ha hd (hjob ▸ hn) hb (hrow ▸ hy)
      opened := hK.opened_exec hpc he ha hok
      sealed := fun hd hc hj ho => hK.sealed_exec hpc he ha hd hc (hjob ▸ hj) ho
      shut := hK.shut_exec hpc he ha hok
      closed := fun hy hc hj => hK.closed (hrow ▸ hy) hc (hjob ▸ hj)
      inserting := fun {u new b y} hu hm hy => ?_
      completing := fun {u b} hu => ?_ }
  · have hw : e.jobs k = none := by
      rw [eq_none_iff_forall_ne_some]
      exact fun j hj => hk (hK.written_mem he hj)
    exact (put_of_none hw).trans (hK.absent fun hm => hk (mem_append_left _ hm))
  · rcases put_draft_some.mp hd with ⟨-, rfl⟩ | ⟨-, hd'⟩
    · exact hself
    · exact hconn u (hK.owner hd')
  · rcases row_draft hd with ⟨-, -, rfl⟩ | ⟨-, hd'⟩
    · exact hself
    · exact hconn u (hK.holder hd')
  · rw [hrow]
    rcases row_draft hd with ⟨hl, hx, rfl⟩ | ⟨-, hd'⟩
    · obtain ⟨x0, hx0, -⟩ := hspec.row hl hx
      rcases draft_or_base hx0 with hd0 | ⟨-, hb0⟩
      · exact hK.stored hd0
      · exact ⟨x0, hb0⟩
    · exact hK.stored hd'
  · rw [hrow] at hy
    by_cases hut : u = t
    · subst hut
      obtain ⟨-, hall⟩ := hspec.inserts (some.inj (hnext.symm.trans hu))
      obtain ⟨x, hx⟩ := exists_view hy u
      obtain ⟨hl, hrows⟩ := hall b hm
      obtain ⟨hx', hact⟩ := hrows x hx
      exact ⟨x, row_written hl hx', hact⟩
    · obtain ⟨x, hx, hact⟩ := hK.inserting ((update_of_ne hut ..).symm.trans hu) hm hy
      exact ⟨x, row_kept ha hut hx, hact⟩
  · by_cases hut : u = t
    · subst hut
      obtain ⟨-, hl, x, -, hx⟩ :=
        hspec.completes (some.inj (hnext.symm.trans hu))
      exact ⟨x, row_written hl hx⟩
    · obtain ⟨x, hx⟩ := hK.completing ((update_of_ne hut ..).symm.trans hu)
      exact ⟨x, row_kept ha hut hx⟩

end

section

variable {s : BatchDb} (hK : s.Kept)

include hK in
lemma BatchDb.Kept.moved (hr : ∀ b, ¬ s.reopening t b) (hf : pc.follows = false) :
    BatchDb.Kept { s with conns := Function.update s.conns t (some pc) } := by
  have hconn : ∀ u, s.conns u ≠ none → Function.update s.conns t (some pc) u ≠ none := by
    intro u hu
    by_cases hut : u = t
    · rw [hut, update_self]
      exact some_ne_none _
    · rwa [update_of_ne hut]
  have hre : ∀ {u b}, s.reopening u b →
      reopening { s with conns := Function.update s.conns t (some pc) } u b := by
    intro u b h
    refine h.congr (update_of_ne ?_ ..)
    rintro rfl
    exact hr b h
  have hold : ∀ {u pc'}, Function.update s.conns t (some pc) u = some pc' → pc'.follows = true →
      s.conns u = some pc' := by
    intro u pc' hu hf'
    by_cases hut : u = t
    · rw [hut, update_self, some.injEq] at hu
      rw [hu, hf'] at hf
      cases hf
    · rwa [update_of_ne hut] at hu
  exact
    { absent := hK.absent
      owner := fun hd => hconn _ (hK.owner hd)
      holder := fun hd => hconn _ (hK.holder hd)
      stored := hK.stored
      same := hK.same
      unborn := hK.unborn
      opened := fun hd ho => (hK.opened hd ho).imp_right (.imp_right hre)
      sealed := hK.sealed
      shut := fun hd hc hj ho => hre (hK.shut hd hc hj ho)
      closed := hK.closed
      inserting := fun hu => hK.inserting (hold hu rfl)
      completing := fun hu => hK.completing (hold hu rfl) }

structure BatchDb.Ends (s : BatchDb) (t : Conn) (s' : BatchDb) : Prop where
  absent : k ∉ s'.ids → s'.jobs k = ⟨none, none⟩
  job : (s'.jobs k).draft = some (u, j) ↔ (s.jobs k).draft = some (u, j) ∧ u ≠ t
  row : (s'.rows b).draft = some (u, x) ↔ (s.rows b).draft = some (u, x) ∧ u ≠ t
  conn : u ≠ t → s'.conns u = s.conns u
  gone : s'.conns u = some pc → pc.boundary = false → u ≠ t
  stored : (∃ y, (s'.rows b).base = some y) ↔ ∃ y, (s.rows b).base = some y
  base : (s.jobs k).draft = some (u, j) → u ≠ t → (s'.jobs k).base = (s.jobs k).base
  opened : (s.jobs k).draft = some (u, j) → j.openMember b = true →
    (∀ y, (s.rows b).base = some y → y.status ≠ .complete) →
    (∀ y, (s'.rows b).base = some y → y.status ≠ .complete) ∨ s.reopening u b
  sealed : (s.rows b).draft = some (u, x) → x.status = .complete → (s'.jobs k).base = some j →
    j.openMember b = true → (s.jobs k).base = some j
  closed : (s'.rows b).base = some y → y.status = .complete → (s'.jobs k).base = some j →
    j.openMember b = false

include hK in
lemma BatchDb.Kept.ends (h : s.Ends t s') : s'.Kept := by
  refine
    { absent := h.absent
      owner := fun {k u j} hd => ?_
      holder := fun {b u x} hd => ?_
      stored := fun {b u x} hd => h.stored.mpr (hK.stored (h.row.mp hd).1)
      same := fun {k u j j0} hd hj0 => ?_
      unborn := fun {k u j b y} hd hn hid hy => ?_
      opened := fun {k u j b} hd ho => ?_
      sealed := fun {b u x k j} hd hc hj ho => ?_
      shut := fun {b v x k u j} hd hc hj ho => ?_
      closed := h.closed
      inserting := fun {u new b y} hu hm hy => ?_
      completing := fun {u b} hu => ?_ }
  · obtain ⟨hd, hu⟩ := h.job.mp hd
    rw [h.conn hu]
    exact hK.owner hd
  · obtain ⟨hd, hu⟩ := h.row.mp hd
    rw [h.conn hu]
    exact hK.holder hd
  · obtain ⟨hd, hu⟩ := h.job.mp hd
    exact hK.same hd ((h.base hd hu).symm.trans hj0)
  · obtain ⟨hd, hu⟩ := h.job.mp hd
    obtain ⟨y', hy'⟩ := h.stored.mp ⟨y, hy⟩
    obtain ⟨x, hx⟩ := hK.unborn hd ((h.base hd hu).symm.trans hn) hid hy'
    exact ⟨x, h.row.mpr ⟨hx, hu⟩⟩
  · obtain ⟨hd, hu⟩ := h.job.mp hd
    rcases hK.opened hd ho with ⟨x, hx⟩ | hb | hr
    · exact .inl ⟨x, h.row.mpr ⟨hx, hu⟩⟩
    · exact .inr ((h.opened hd ho hb).imp_right (·.congr (h.conn hu)))
    · exact .inr (.inr (hr.congr (h.conn hu)))
  · obtain ⟨hd, hu⟩ := h.row.mp hd
    obtain ⟨j', hj'⟩ := hK.sealed hd hc (h.sealed hd hc hj ho) ho
    exact ⟨j', h.job.mpr ⟨hj', hu⟩⟩
  · obtain ⟨hj, hu⟩ := h.job.mp hj
    exact (hK.shut (h.row.mp hd).1 hc hj ho).congr (h.conn hu)
  · have hut := h.gone hu rfl
    obtain ⟨y', hy'⟩ := h.stored.mp ⟨y, hy⟩
    obtain ⟨x, hx, hact⟩ := hK.inserting ((h.conn hut).symm.trans hu) hm hy'
    exact ⟨x, h.row.mpr ⟨hx, hut⟩, hact⟩
  · have hut := h.gone hu rfl
    obtain ⟨x, hx⟩ := hK.completing ((h.conn hut).symm.trans hu)
    exact ⟨x, h.row.mpr ⟨hx, hut⟩⟩

include hK in
lemma BatchDb.Kept.ends_commit (hpc : s.conns t = some pc) (hb : pc.boundary = true)
    (hpc' : pc' = none ∨ pc' = some pc) : s.Ends t (s.commit t pc') := by
  have hr : ∀ b, ¬ s.reopening t b := by
    intro b h
    rw [BatchPc.boundary_of_reopens (h.reopens hpc)] at hb
    cases hb
  have hjob : ∀ {k}, ((s.commit t pc').jobs k).base = s.jobView t k := commit_base
  have hrow : ∀ {b}, ((s.commit t pc').rows b).base = s.rowView t b := commit_base
  refine
    { absent := fun {k} hk => congrArg (·.commit t) (hK.absent hk)
      job := commit_draft_some
      row := commit_draft_some
      conn := fun hu => update_of_ne hu ..
      gone := ?_
      stored := fun {b} => ?_
      base := fun {k u j} hd hu => hjob.trans ?_
      opened := fun {k u j b} hd ho h => ?_
      sealed := fun {b u x k j} hd hc hj ho => ?_
      closed := fun {b y k j} hy hc hj => ?_ }
  · rintro u pc1 hu hn rfl
    rw [show (s.commit u pc').conns u = pc' from update_self ..] at hu
    rcases hpc' with rfl | rfl
    · cases hu
    · rw [some.inj hu, hn] at hb
      cases hb
  · rw [hrow]
    refine ⟨fun ⟨y, hy⟩ => ?_, fun ⟨y, hy⟩ => exists_view hy t⟩
    rcases draft_or_base hy with hd | ⟨-, hy'⟩
    · exact hK.stored hd
    · exact ⟨y, hy'⟩
  · refine view_undrafted fun j' hj' => hu ?_
    exact (Prod.mk.inj (some.inj (hd.symm.trans hj'))).1
  · -- a completion committed now leaves the member to the retry that holds it
    by_cases hc : ∃ x, (s.rows b).draft = some (t, x) ∧ x.status = .complete
    · obtain ⟨x, hx, hc⟩ := hc
      exact .inr (hK.shut hx hc hd ho)
    refine .inl fun y hy hcy => ?_
    rcases draft_or_base (hrow.symm.trans hy) with hd' | ⟨-, hy'⟩
    · exact hc ⟨y, hd', hcy⟩
    · exact h y hy' hcy
  · rcases draft_or_base (hjob.symm.trans hj) with hd' | ⟨-, hj'⟩
    · exact absurd (hK.shut hd hc hd' ho) (hr b)
    · exact hj'
  · rw [← Bool.not_eq_true]
    intro ho
    rcases draft_or_base (hrow.symm.trans hy) with hdy | ⟨hny, hby⟩ <;>
      rcases draft_or_base (hjob.symm.trans hj) with hdj | ⟨hnj, hbj⟩
    · exact hr b (hK.shut hdy hc hdj ho)
    · obtain ⟨j', hj'⟩ := hK.sealed hdy hc hbj ho
      exact hnj j' hj'
    · rcases hK.opened hdj ho with ⟨x, hx⟩ | h | h
      · exact hny x hx
      · exact h y hby hc
      · exact hr b h
    · rw [hK.closed hby hc hbj] at ho
      cases ho

include hK in
lemma BatchDb.Kept.ends_rollback (t : Conn) : s.Ends t (s.rollback t) := by
  have hjob : ∀ {k}, ((s.rollback t).jobs k).base = (s.jobs k).base := rollback_base
  have hrow : ∀ {b}, ((s.rollback t).rows b).base = (s.rows b).base := rollback_base
  refine
    { absent := fun {k} hk => congrArg (·.rollback t) (hK.absent hk)
      job := rollback_draft_some
      row := rollback_draft_some
      conn := fun hu => update_of_ne hu ..
      gone := ?_
      stored := fun {b} => by rw [hrow]
      base := fun _ _ => hjob
      opened := fun _ _ h => .inl (hrow ▸ h)
      sealed := fun _ _ hj _ => hjob ▸ hj
      closed := fun hy hc hj => hK.closed (hrow ▸ hy) hc (hjob ▸ hj) }
  rintro u pc hu - rfl
  rw [show (s.rollback u).conns u = none from update_self ..] at hu
  cases hu

end

lemma BatchCall.start_follows (c : BatchCall) : c.start.follows = false := by
  cases c with
  | applyTerminalOutcome b o => cases o <;> rfl
  | _ => rfl

lemma BatchPc.expired_follows {pc : BatchPc} (h : pc.expired = some (b, pc')) :
    pc.reopens = false ∧ pc'.follows = false := by
  cases pc <;> cases h <;> exact ⟨rfl, rfl⟩

lemma BatchDb.Kept.step (hK : s.Kept) (hok : RetriesApart s a)
    (h : s.step a = some s') : s'.Kept := by
  cases moves_of_step h with
  | call hpc =>
    refine hK.moved (fun b h => ?_) (BatchCall.start_follows _)
    obtain ⟨snap, x, hc, -⟩ := h
    rcases hpc with hpc | hpc <;> rw [hpc] at hc <;> cases hc
  | exec hpc he ha => exact hK.exec hpc he ha hok
  | expire hpc hx =>
    obtain ⟨hr, hf⟩ := BatchPc.expired_follows hx
    refine hK.moved (fun b h => ?_) hf
    rw [h.reopens hpc] at hr
    cases hr
  | commit hpc hb hpc' => exact hK.ends (hK.ends_commit hpc hb hpc')
  | crash hpc => exact hK.ends (hK.ends_rollback _)

structure BatchDb.AtRest (s : BatchDb) : Prop where
  absent : k ∉ s.ids → (s.jobs k).base = none
  jobs : (s.jobs k).draft = none
  rows : (s.rows b).draft = none
  conns : s.conns t = none
  closed : (s.rows b).base = some y → y.status = .complete → (s.jobs k).base = some j →
    j.openMember b = false

lemma BatchDb.AtRest.kept (h : s.AtRest) : s.Kept where
  absent hk := congrArg₂ Slot.mk (h.absent hk) h.jobs
  owner hd := by cases h.jobs.symm.trans hd
  holder hd := by cases h.rows.symm.trans hd
  stored hd := by cases h.rows.symm.trans hd
  same hd := by cases h.jobs.symm.trans hd
  unborn hd := by cases h.jobs.symm.trans hd
  opened hd := by cases h.jobs.symm.trans hd
  sealed hd := by cases h.rows.symm.trans hd
  shut hd := by cases h.rows.symm.trans hd
  closed := h.closed
  inserting hu := by cases h.conns.symm.trans hu
  completing hu := by cases h.conns.symm.trans hu

/-- In every run whose retries and completions do not overlap, a complete batch has no open member.
-/
theorem complete_batch_closed {s0 s : BatchDb} (h0 : s0.AtRest)
    (h : Reach BatchDb.step RetriesApart s0 s) (hy : (s.rows b).base = some y)
    (hc : y.status = .complete) (hj : (s.jobs k).base = some j) (hb : j.batchId = some b) :
    j.status.terminal = true := by
  have hK : s.Kept := h.invariant h0.kept fun _ _ _ hI hok hs => hI.step hok hs
  have ho := hK.closed hy hc hj
  rw [Row.openMember, hb] at ho
  simpa using ho

def oneFailed : BatchDb where
  ids := [7]
  jobs k :=
    ⟨if k = 7 then
      some
        { id := 7, actor := "load", status := .failed, attempt := 1
          metadata := [("batch_id", "b")] }
    else none, none⟩
  rows b := ⟨if b = "b" then some {} else none, none⟩
  conns _ := none

lemma oneFailed_atRest : oneFailed.AtRest where
  absent hk := if_neg fun h => hk (mem_singleton.mpr h)
  jobs := rfl
  rows := rfl
  conns := rfl
  closed hy hc _ := by
    obtain ⟨-, rfl⟩ := matched hy
    cases hc

def apartAt (s : BatchDb) : BatchEvent → Bool
  | .exec t _ =>
    match s.conns t with
    | some (.retried id _ snap) => (s.jobView t id).all fun j => j.batchId.all fun b =>
        (snap b).any (·.status ≠ .active)
    | some (.completeBatch _) => s.ids.all fun k => (s.jobs k).free t
    | _ => true
  | _ => true

lemma retriesApart_of_apartAt (h : apartAt s a = true) : RetriesApart s a := by
  cases a with
  | exec t now =>
    simp only [apartAt, RetriesApart] at h ⊢
    split
    · rename_i id seen snap hpc
      intro j b hj hb
      rw [hpc] at h
      simp only [hj, hb, all_some, Option.any_eq_true, decide_eq_true_eq] at h
      exact .inl h
    · rename_i b hpc
      intro k hk u j j0 hd hut
      simp only [hpc, List.all_eq_true] at h
      exact absurd (owner_of_free (h k hk) hd) hut
    · trivial
  | _ => trivial

def retriedTwice : List BatchEvent :=
  [.call 1 (.completeBatch "b"), .exec 1 0, .exec 1 0, .exec 1 0, .commit 1,
    .call 2 (.retryJob 7), .exec 2 1, .exec 2 1, .exec 2 1, .commit 2,
    .call 1 (.job (.claim [7] 3 2 60)), .exec 1 2,
    .call 1 (.job (.write 7 ⟨3, some 2, some 1⟩ 3 (.cancelled {}))), .exec 1 3,
    .call 1 (.applyTerminalOutcome "b" .cancelled), .exec 1 3, .exec 1 3, .exec 1 3, .commit 1]

theorem complete_batch_closed_retriedTwice :
    ((final BatchDb.step oneFailed retriedTwice).rows "b").base = some { status := .complete } ∧
      ∀ j, ((final BatchDb.step oneFailed retriedTwice).jobs 7).base = some j →
        j.batchId = some "b" → j.status.terminal = true := by
  have hy : ((final step oneFailed retriedTwice).rows "b").base =
      some { status := .complete } := by decide
  exact ⟨hy, fun _ hj hb => complete_batch_closed oneFailed_atRest
    (.of_exec (exec_final (by decide))
      (.of_checks apartAt (by decide) fun _ _ => retriesApart_of_apartAt)) hy rfl hj hb⟩

/-- The retry saw the batch active, the completion did not see the retried row, and both commit. -/
theorem retried_member_of_complete_batch : ∃ s, Reach BatchDb.step (fun _ _ => True) oneFailed s ∧
      (s.rows "b").base = some { status := .complete } ∧
      (s.jobs 7).base.map (fun j => (j.batchId, j.status)) = some (some "b", .pending) :=
  ⟨final step oneFailed
      [.call 1 (.completeBatch "b"), .exec 1 0, .exec 1 0, .call 2 (.retryJob 7), .exec 2 1,
        .exec 2 1, .exec 2 1, .exec 1 2, .commit 1, .commit 2],
    .of_final (by decide), by decide, by decide⟩

end TaskQ.Jobs
