import TaskQ.Rows
import TaskQ.Runs

namespace TaskQ.Reclaims

open Runs List Reclaims Nat

structure Event where
  id : Nat
  job : JobId
  occurredAt : Time
  /-- `kind` is `state_change` and the reason `lock_expired`. -/
  lockExpired : Bool
  deriving DecidableEq

structure Job where
  id : JobId
  status : JobStatus
  finishedAt : Option Time
  deriving DecidableEq

inductive Pc where
  | idle
  | gate
  | poll
  | give (page : List Event)
  /-- `EventRetentionGapError(cursor, watermark)`. -/
  | failed (cursor watermark : Nat)
  deriving DecidableEq

structure World where
  jobs : List Job := []
  events : List Event := []
  used : List Nat := []
  /-- `job_events_prune_state.pruned_through_id`. -/
  prunedThrough : Nat := 0
  pc : Pc := .idle
  cursor : Nat := 0
  /-- The `after_id` the consumer was resumed with. -/
  resumed : Nat := 0
  /-- The ids yielded since the resume, the events deleted, and those deleted before their yield. -/
  given : List Nat := []
  deleted : List Nat := []
  missed : List Nat := []
  deriving DecidableEq

def reclaimOutboxRetentionMultiplier : Nat := 100
def watchReclaimsBatchLimit : Nat := 100
def bigintMax : Nat := 9223372036854775807

/-- `poll_reclaim_events`: `clock` where a row is filtered, `held` where the subquery looks at it.
-/
def pollReclaimEvents (events : List Event) (after limit delay : Nat) (clock held : Nat → Time) :
    List Event :=
  let ceiling := ((events.filter fun e => e.lockExpired && after < e.id &&
    !decide (e.occurredAt + delay < held e.id)).map (·.id)).min?.getD bigintMax
  ((events.filter fun e => e.lockExpired && after < e.id && e.occurredAt + delay < clock e.id &&
    e.id < ceiling).insertionSort fun e e' => e.id ≤ e'.id).take limit

def World.delete (s : World) (ids : List Nat) : World :=
  let gone := (s.events.filter fun e => e.lockExpired && decide (e.id ∈ ids)).map (·.id)
  { s with
    events := s.events.filter fun e => decide (e.id ∉ ids)
    prunedThrough := max s.prunedThrough (ids.foldr max 0), deleted := gone ++ s.deleted
    missed := (gone.filter fun x => s.resumed < x && decide (x ∉ s.given)) ++ s.missed }

/-- The ids of the retention sweep's `to_delete`. -/
def World.expired (s : World) (now retention limit : Nat) : List Nat :=
  let window (p : Event → Bool) := (((s.events.filter p).insertionSort fun e e' =>
    e.occurredAt < e'.occurredAt ∨ e.occurredAt = e'.occurredAt ∧ e.id ≤ e'.id).take limit).map (·.id)
  (window fun e => e.occurredAt + retention < now && !e.lockExpired) ++
    (window fun e => e.lockExpired &&
      e.occurredAt + retention * reclaimOutboxRetentionMultiplier < now)

def World.verified (s : World) (now age : Nat) (status : JobStatus) (candidates : List JobId) :
    List JobId :=
  (s.jobs.filter fun j => decide (j.id ∈ candidates) && j.status = status &&
    j.finishedAt.any fun t => t + age < now).map (·.id)

def World.cascaded (s : World) (jobs : List JobId) : List Nat :=
  (s.events.filter fun e => decide (e.job ∈ jobs)).map (·.id)

inductive Step where
  | job (j : Job)
  | insert (e : Event)
  | retain (now retention limit : Nat)
  | prune (now age : Nat) (status : JobStatus) (candidates : List JobId)
  | resume (afterId : Nat)
  | gate
  | poll (delay : Nat) (clock held : Nat → Time)
  | give

def step (s : World) : Step → Option World
  | .job j => some { s with jobs := j :: s.jobs.filter (·.id ≠ j.id) }
  | .insert e =>
    -- a committed row of the sequence's next values, in whatever order the writers commit
    if 0 < e.id ∧ e.id ∉ s.used ∧ s.jobs.any (·.id == e.job) then
      some { s with events := e :: s.events, used := e.id :: s.used }
    else none
  | .retain now retention limit => some (s.delete (s.expired now retention limit))
  | .prune now age status candidates =>
    let verified := s.verified now age status candidates
    some { s.delete (s.cascaded verified) with
      jobs := s.jobs.filter fun j => decide (j.id ∉ verified) }
  | .resume afterId =>
    some { s with
      pc := .gate, cursor := afterId, resumed := afterId, given := []
      missed := s.deleted.filter (afterId < ·) }
  | .gate =>
    match s.pc with
    | .gate =>
      if s.cursor = 0 then some { s with pc := .poll }
      else if s.cursor < s.prunedThrough then
        some { s with pc := .failed s.cursor s.prunedThrough }
      else some { s with pc := .poll }
    | _ => none
  | .poll delay clock held =>
    match s.pc with
    | .poll =>
      match pollReclaimEvents s.events s.cursor watchReclaimsBatchLimit delay clock held with
      | [] => some { s with pc := .gate }
      | e :: page => some { s with pc := .give (e :: page) }
    | _ => none
  | .give =>
    match s.pc with
    | .give (e :: page) =>
      some { s with
        cursor := e.id, given := e.id :: s.given, pc := if page.isEmpty then .gate else .give page }
    | _ => none

def Pc.page : Pc → List Event
  | .give page => page
  | _ => []

/-- A delete that no poll of a passed gate misses and that takes nothing out of the page in
hand. -/
def Clear (s : World) (ids : List Nat) : Prop :=
  (s.pc = .poll → ∀ e ∈ s.events, e.lockExpired = true → e.id ∈ ids → e.id ≤ s.cursor) ∧
    ∀ e ∈ s.pc.page, e.id ∉ ids

/-- Cursors are persisted, writers commit before they are passed, and no delete splits a poll. -/
def Settled (s : World) : Step → Prop
  | .insert e => s.pc ≠ .idle → e.lockExpired = true →
      s.cursor < e.id ∧ ∀ p ∈ s.pc.page, p.id < e.id
  | .retain now retention limit => Clear s (s.expired now retention limit)
  | .prune now age status candidates => Clear s (s.cascaded (s.verified now age status candidates))
  | .resume afterId => 0 < afterId
  | .poll delay clock held => ∀ e ∈ s.events, e.lockExpired = true → s.cursor < e.id →
      e.occurredAt + delay < held e.id → e.occurredAt + delay < clock e.id
  | _ => True

instance : Decidable (Clear s ids) := inferInstanceAs (Decidable (_ ∧ _))

instance (s : World) (a : Step) : Decidable (Settled s a) :=
  match a with
  | .insert _ => inferInstanceAs (Decidable (_ → _ → _))
  | .retain .. | .prune .. => inferInstanceAs (Decidable (Clear _ _))
  | .resume _ => inferInstanceAs (Decidable (_ < _))
  | .poll .. => inferInstanceAs (Decidable (∀ e ∈ s.events, _))
  | .job _ | .gate | .give => inferInstanceAs (Decidable True)

section
variable {events : List Event} {after limit delay : Nat} {clock held : Nat → Time}

lemma pairwise_sort (h : (events.map (·.id)).Nodup) :
    (events.insertionSort fun e e' => e.id ≤ e'.id).Pairwise fun e e' => e.id < e'.id := by
  have hperm := perm_insertionSort (fun e e' : Event => e.id ≤ e'.id) events
  have hnodup := pairwise_map.mp ((hperm.map (·.id)).nodup_iff.mpr h)
  exact ((pairwise_insertionSort _ events).and hnodup).imp fun h =>
    lt_of_le_of_ne h.1 h.2

lemma poll_pairwise (h : (events.map (·.id)).Nodup) :
    (pollReclaimEvents events after limit delay clock held).Pairwise fun e e' => e.id < e'.id :=
  (pairwise_sort (h.sublist (filter_sublist.map _))).sublist (take_sublist _ _)

lemma mem_poll (hp : p ∈ pollReclaimEvents events after limit delay clock held) :
    p ∈ events ∧ p.lockExpired = true ∧ after < p.id ∧ p.occurredAt + delay < clock p.id := by
  have h := (mem_insertionSort _).mp (mem_of_mem_take hp)
  simp only [mem_filter, Bool.and_eq_true, decide_eq_true_eq] at h
  exact ⟨h.1, h.2.1.1.1, h.2.1.1.2, h.2.1.2⟩

lemma poll_next (h : (events.map (·.id)).Nodup)
    (hclock : ∀ e ∈ events, e.lockExpired = true → after < e.id →
      e.occurredAt + delay < held e.id → e.occurredAt + delay < clock e.id)
    (he : e ∈ events) (hlock : e.lockExpired = true) (hafter : after < e.id) :
    e ∈ pollReclaimEvents events after limit delay clock held ∨
      ∀ p ∈ pollReclaimEvents events after limit delay clock held, p.id < e.id := by
  rw [or_iff_not_imp_right]
  intro hnot
  push Not at hnot
  obtain ⟨p, hp, hle⟩ := hnot
  simp only [pollReclaimEvents] at hp ⊢
  generalize hceil : ((events.filter fun e => e.lockExpired && after < e.id &&
    !decide (e.occurredAt + delay < held e.id)).map (·.id)).min?.getD bigintMax = ceiling at hp ⊢
  have hpc : p.id < ceiling := by
    have h := (mem_insertionSort _).mp (mem_of_mem_take hp)
    simp only [mem_filter, Bool.and_eq_true, decide_eq_true_eq] at h
    exact h.2.2
  -- a held-back row would have put the ceiling at or below itself
  have haged : e.occurredAt + delay < held e.id := by
    by_contra hnot
    have hmem : e.id ∈ (events.filter fun e => e.lockExpired && after < e.id &&
        !decide (e.occurredAt + delay < held e.id)).map (·.id) :=
      mem_map_of_mem (mem_filter.mpr ⟨he, by simp [hlock, hafter, hnot]⟩)
    have hmin := min?_getD_le_of_mem (k := bigintMax) hmem
    omega
  have hsel : e ∈ (events.filter fun e => e.lockExpired && after < e.id &&
      e.occurredAt + delay < clock e.id && e.id < ceiling).insertionSort
        fun e e' => e.id ≤ e'.id := by
    rw [mem_insertionSort, mem_filter]
    exact ⟨he, by simp [hlock, hafter, hclock e he hlock hafter haged, hle.trans_lt hpc]⟩
  have hsort := pairwise_sort (h.sublist (filter_sublist (p := fun e => e.lockExpired &&
    after < e.id && e.occurredAt + delay < clock e.id && e.id < ceiling) |>.map _))
  generalize (events.filter fun e => e.lockExpired && after < e.id &&
    e.occurredAt + delay < clock e.id && e.id < ceiling).insertionSort
      (fun e e' => e.id ≤ e'.id) = sorted at hp hsel hsort ⊢
  rw [← take_append_drop limit sorted] at hsel hsort
  rcases mem_append.mp hsel with hsel | hsel
  · exact hsel
  · have hlt := (pairwise_append.mp hsort).2.2 p hp e hsel
    omega

end

/-- The tables: ids are the sequence's, and the watermark covers every deleted reclaim event. -/
structure Kept (s : World) : Prop where
  nodup : (s.events.map (·.id)).Nodup
  used : ∀ e ∈ s.events, e.id ∈ s.used
  deleted : ∀ x ∈ s.deleted, x ≤ s.prunedThrough

structure Tail (s : World) : Prop where
  pos : 0 < s.cursor
  given_le : ∀ g ∈ s.given, g ≤ s.cursor
  seen : ∀ e ∈ s.events, e.lockExpired = true → s.resumed < e.id → e.id ≤ s.cursor → e.id ∈ s.given
  missed_pruned : ∀ x ∈ s.missed, x ≤ s.prunedThrough
  missed_ahead : ∀ x ∈ s.missed, s.cursor < x
  polled : s.pc = .poll → s.missed = []
  sorted : s.pc.page.Pairwise fun p p' => p.id < p'.id
  ahead : ∀ p ∈ s.pc.page, s.cursor < p.id
  next : s.pc.page ≠ [] → ∀ e ∈ s.events, e.lockExpired = true → s.cursor < e.id →
    (∃ p ∈ s.pc.page, p.id = e.id) ∨ ∀ p ∈ s.pc.page, p.id < e.id
  page_missed : ∀ x ∈ s.missed, ∀ p ∈ s.pc.page, p.id < x

lemma le_foldr_max {l : List Nat} (h : x ∈ l) : x ≤ l.foldr max 0 := by
  induction l with
  | nil => cases h
  | cons a l ih =>
    rcases mem_cons.mp h with rfl | h
    · exact le_max_left _ _
    · exact (ih h).trans (le_max_right _ _)

section
variable {s s' : World} {ids : List Nat} {a : Step}

lemma mem_delete_deleted : x ∈ (s.delete ids).deleted ↔
    (∃ e ∈ s.events, e.lockExpired = true ∧ e.id ∈ ids ∧ e.id = x) ∨ x ∈ s.deleted := by
  simp [World.delete, and_assoc]

lemma mem_delete_missed : x ∈ (s.delete ids).missed ↔
    (∃ e ∈ s.events, e.lockExpired = true ∧ e.id ∈ ids ∧ e.id = x ∧ s.resumed < x ∧
      x ∉ s.given) ∨ x ∈ s.missed := by
  simp only [World.delete, mem_append, mem_filter, mem_map, Bool.and_eq_true, decide_eq_true_eq]
  constructor
  · rintro (⟨⟨e, ⟨he, hl, hi⟩, rfl⟩, hr, hg⟩ | h)
    · exact .inl ⟨e, he, hl, hi, rfl, hr, hg⟩
    · exact .inr h
  · rintro (⟨e, he, hl, hi, rfl, hr, hg⟩ | h)
    · exact .inl ⟨⟨e, ⟨he, hl, hi⟩, rfl⟩, hr, hg⟩
    · exact .inr h

lemma le_delete_prunedThrough (hx : x ∈ ids) : x ≤ (s.delete ids).prunedThrough :=
  (le_foldr_max hx).trans (le_max_right _ _)

lemma Kept.delete (h : Kept s) (ids : List Nat) : Kept (s.delete ids) where
  nodup := h.nodup.sublist (filter_sublist.map _)
  used e he := h.used e (mem_of_mem_filter he)
  deleted x hx := by
    rcases mem_delete_deleted.mp hx with ⟨e, _, _, hi, rfl⟩ | hx
    · exact le_delete_prunedThrough hi
    · exact (h.deleted x hx).trans (le_max_left _ _)

lemma Tail.of_delete (h : Tail s) (hc : Clear s ids) (he : e ∈ s.events)
    (hl : e.lockExpired = true) (hi : e.id ∈ ids) (hr : s.resumed < e.id) (hg : e.id ∉ s.given) :
    s.pc ≠ .poll ∧ s.cursor < e.id ∧ ∀ p ∈ s.pc.page, p.id < e.id := by
  have hahead : s.cursor < e.id := by
    by_contra hle
    exact hg (h.seen e he hl hr (Nat.le_of_not_lt hle))
  refine ⟨fun hp => Nat.not_le_of_lt hahead (hc.1 hp e he hl hi), hahead, fun p hp => ?_⟩
  rcases h.next (ne_nil_of_mem hp) e he hl hahead with ⟨q, hq, hqe⟩ | hnext
  · exact absurd hi (hqe ▸ hc.2 q hq)
  · exact hnext p hp

lemma Tail.delete (h : Tail s) (hc : Clear s ids) : Tail (s.delete ids) where
  pos := h.pos
  given_le := h.given_le
  seen e he := h.seen e (mem_of_mem_filter he)
  missed_pruned x hx := by
    rcases mem_delete_missed.mp hx with ⟨e, _, _, hi, rfl, _⟩ | hx
    · exact le_delete_prunedThrough hi
    · exact (h.missed_pruned x hx).trans (le_max_left _ _)
  missed_ahead x hx := by
    rcases mem_delete_missed.mp hx with ⟨e, he, hl, hi, rfl, hr, hg⟩ | hx
    · exact (h.of_delete hc he hl hi hr hg).2.1
    · exact h.missed_ahead x hx
  polled hp := by
    refine eq_nil_iff_forall_not_mem.mpr fun x hx => ?_
    rcases mem_delete_missed.mp hx with ⟨e, he, hl, hi, rfl, hr, hg⟩ | hx
    · exact (h.of_delete hc he hl hi hr hg).1 hp
    · simp [h.polled hp] at hx
  sorted := h.sorted
  ahead := h.ahead
  next hp e he := h.next hp e (mem_of_mem_filter he)
  page_missed x hx := by
    rcases mem_delete_missed.mp hx with ⟨e, he, hl, hi, rfl, hr, hg⟩ | hx
    · exact (h.of_delete hc he hl hi hr hg).2.2
    · exact h.page_missed x hx

lemma Kept.resume (h : Kept s) (hpos : 0 < afterId) : Tail { s with
      pc := .gate, cursor := afterId, resumed := afterId, given := []
      missed := s.deleted.filter (afterId < ·) } where
  pos := hpos
  given_le := nofun
  seen _ _ _ hr hle := absurd hr (Nat.not_lt_of_le hle)
  missed_pruned x hx := h.deleted x (mem_of_mem_filter hx)
  missed_ahead _ hx := of_decide_eq_true (mem_filter.mp hx).2
  polled := nofun
  sorted := .nil
  ahead := nofun
  next hp := absurd rfl hp
  page_missed := nofun

lemma Tail.insert (h : Tail s) (hok : e.lockExpired = true →
    s.cursor < e.id ∧ ∀ p ∈ s.pc.page, p.id < e.id) :
    Tail { s with events := e :: s.events, used := e.id :: s.used } where
  pos := h.pos
  given_le := h.given_le
  seen e' he hl hr hle := by
    rcases mem_cons.mp he with rfl | he
    · exact absurd (hok hl).1 (Nat.not_lt_of_le hle)
    · exact h.seen e' he hl hr hle
  missed_pruned := h.missed_pruned
  missed_ahead := h.missed_ahead
  polled := h.polled
  sorted := h.sorted
  ahead := h.ahead
  next hp e' he hl hlt := by
    rcases mem_cons.mp he with rfl | he
    · exact .inr (hok hl).2
    · exact h.next hp e' he hl hlt
  page_missed := h.page_missed

lemma Tail.passGate (h : Tail s) (hgate : s.cursor = 0 ∨ ¬ s.cursor < s.prunedThrough) :
    Tail { s with pc := .poll } where
  pos := h.pos
  given_le := h.given_le
  seen := h.seen
  missed_pruned := h.missed_pruned
  missed_ahead := h.missed_ahead
  polled _ := by
    refine eq_nil_iff_forall_not_mem.mpr fun x hx => ?_
    have hpos := h.pos
    have hlt := h.missed_ahead x hx
    have hle := h.missed_pruned x hx
    omega
  sorted := .nil
  ahead := nofun
  next hp := absurd rfl hp
  page_missed := nofun

lemma Tail.setPc (h : Tail s) (hpage : pc.page = []) (hpoll : pc ≠ .poll) :
    Tail { s with pc := pc } where
  pos := h.pos
  given_le := h.given_le
  seen := h.seen
  missed_pruned := h.missed_pruned
  missed_ahead := h.missed_ahead
  polled hp := absurd hp hpoll
  sorted := by simp [hpage]
  ahead := by simp [hpage]
  next := by simp [hpage]
  page_missed := by simp [hpage]

lemma Tail.poll (hk : Kept s) (h : Tail s) (limit : Nat) (hp : s.pc = .poll)
    (hclock : ∀ e ∈ s.events, e.lockExpired = true → s.cursor < e.id →
      e.occurredAt + delay < held e.id → e.occurredAt + delay < clock e.id) : Tail { s with
      pc := .give (pollReclaimEvents s.events s.cursor limit delay clock held) } where
  pos := h.pos
  given_le := h.given_le
  seen := h.seen
  missed_pruned := h.missed_pruned
  missed_ahead := h.missed_ahead
  polled := nofun
  sorted := poll_pairwise hk.nodup
  ahead p hp := (mem_poll hp).2.2.1
  next _ e he hl hlt := (poll_next hk.nodup hclock he hl hlt).imp_left fun h => ⟨e, h, rfl⟩
  page_missed x hx := by simp [h.polled hp] at hx

lemma Tail.give (h : Tail s) (hp : s.pc = .give (e :: page)) : Tail { s with
      cursor := e.id, given := e.id :: s.given
      pc := if page.isEmpty then .gate else .give page } := by
  have hpage : s.pc.page = e :: page := by rw [hp, Pc.page]
  have hnew : (if page.isEmpty then Pc.gate else .give page).page = page := by
    cases page <;> rfl
  have hsort := h.sorted
  rw [hpage, pairwise_cons] at hsort
  have hlt := h.ahead e (by simp [hpage])
  exact {
    pos := h.pos.trans hlt
    given_le := by
      intro g hg
      rcases mem_cons.mp hg with rfl | hg
      · exact le_rfl
      · exact (h.given_le g hg).trans hlt.le
    seen := by
      intro e' he hl hr hle
      by_cases hc : e'.id ≤ s.cursor
      · exact mem_cons_of_mem _ (h.seen e' he hl hr hc)
      -- between the old cursor and the new one there is only the row just given
      · rcases h.next (by simp [hpage]) e' he hl (Nat.lt_of_not_le hc) with ⟨p, hpm, hpe⟩ | hnext
        · rw [hpage] at hpm
          rcases mem_cons.mp hpm with rfl | hpm
          · exact mem_cons.mpr (.inl hpe.symm)
          · exact absurd (hpe ▸ hsort.1 p hpm) (Nat.not_lt_of_le hle)
        · exact absurd (hnext e (by simp [hpage])) (Nat.not_lt_of_le hle)
    missed_pruned := h.missed_pruned
    missed_ahead := fun x hx => h.page_missed x hx e (by simp [hpage])
    polled := by cases page <;> nofun
    sorted := by rw [hnew]; exact hsort.2
    ahead := by rw [hnew]; exact hsort.1
    next := by
      rw [hnew]
      intro _ e' he hl hgt
      rcases h.next (by simp [hpage]) e' he hl (hlt.trans hgt) with ⟨p, hpm, hpe⟩ | hnext
      · rw [hpage] at hpm
        rcases mem_cons.mp hpm with rfl | hpm
        · exact absurd hpe (Nat.ne_of_lt hgt)
        · exact .inl ⟨p, hpm, hpe⟩
      · exact .inr fun p hpm => hnext p (by simp [hpage, hpm])
    page_missed := by
      rw [hnew]
      exact fun x hx p hpm => h.page_missed x hx p (by simp [hpage, hpm]) }

lemma Kept.step (h : Kept s) (hs : step s a = some s') : Kept s' := by
  cases a with
  | job | resume =>
    cases hs
    exact ⟨h.nodup, h.used, h.deleted⟩
  | insert e =>
    obtain ⟨⟨-, hfresh, -⟩, rfl⟩ := matched hs
    refine ⟨nodup_cons.mpr ⟨fun hmem => ?_, h.nodup⟩, fun e' he => ?_, h.deleted⟩
    · obtain ⟨e', he, hid⟩ := mem_map.mp hmem
      exact hfresh ((show e'.id = e.id from hid) ▸ h.used e' he)
    rcases mem_cons.mp he with rfl | he
    · exact mem_cons_self
    · exact mem_cons_of_mem _ (h.used e' he)
  | retain now retention limit =>
    cases hs
    exact h.delete _
  | prune now age status candidates =>
    cases hs
    have hd := h.delete (s.cascaded (s.verified now age status candidates))
    exact ⟨hd.nodup, hd.used, hd.deleted⟩
  | gate =>
    simp only [step] at hs
    split at hs
    · split_ifs at hs <;> cases hs <;> exact ⟨h.nodup, h.used, h.deleted⟩
    · cases hs
  | poll delay clock held =>
    simp only [step] at hs
    split at hs
    · split at hs <;> cases hs <;> exact ⟨h.nodup, h.used, h.deleted⟩
    · cases hs
  | give =>
    simp only [step] at hs
    split at hs
    · cases hs
      exact ⟨h.nodup, h.used, h.deleted⟩
    · cases hs

lemma Tail.step (hk : Kept s) (h : s.pc ≠ .idle → Tail s) (hok : Settled s a)
    (hs : step s a = some s') : s'.pc ≠ .idle → Tail s' := by
  intro hpc
  cases a with
  | job j =>
    cases hs
    have ht := h hpc
    exact { ht with }
  | insert e =>
    obtain ⟨-, rfl⟩ := matched hs
    exact (h hpc).insert (hok hpc)
  | retain now retention limit =>
    cases hs
    exact (h hpc).delete hok
  | prune now age status candidates =>
    cases hs
    have ht := (h hpc).delete hok
    exact { ht with }
  | resume afterId =>
    cases hs
    exact hk.resume hok
  | gate =>
    simp only [step] at hs
    split at hs
    case h_1 hg =>
      have ht := h (by simp [hg])
      split_ifs at hs with hz hlt <;> cases hs
      · exact ht.passGate (.inl hz)
      · exact ht.setPc rfl nofun
      · exact ht.passGate (.inr hlt)
    case h_2 => cases hs
  | poll delay clock held =>
    simp only [step] at hs
    split at hs
    case h_1 hp =>
      have ht := h (by simp [hp])
      split at hs
      case h_1 =>
        cases hs
        exact ht.setPc rfl nofun
      case h_2 e page hpage =>
        cases hs
        have hpoll := ht.poll hk watchReclaimsBatchLimit hp hok
        rwa [hpage] at hpoll
    case h_2 => cases hs
  | give =>
    simp only [step] at hs
    split at hs
    case h_1 e page hp =>
      cases hs
      exact (h (by simp [hp])).give hp
    case h_2 => cases hs

end

/-- In every settled run a deleted event not yet given is passed by nothing, and the gate raises. -/
theorem no_silent_retention_gap (h : Reach step Settled {} s) (hpc : s.pc ≠ .idle)
    (hx : x ∈ s.missed) : s.cursor < x ∧ (∀ g ∈ s.given, g < x) ∧
      (s.pc = .gate → step s .gate = some { s with pc := .failed s.cursor s.prunedThrough }) := by
  have hinv := h.invariant (I := fun s => Kept s ∧ (s.pc ≠ .idle → Tail s))
    ⟨⟨.nil, nofun, nofun⟩, fun h => absurd rfl h⟩
    fun s a s' hi hok hs => ⟨hi.1.step hs, Tail.step hi.1 hi.2 hok hs⟩
  have ht := hinv.2 hpc
  have hahead := ht.missed_ahead x hx
  refine ⟨hahead, fun g hg => (ht.given_le g hg).trans_lt hahead, fun hg => ?_⟩
  have hlt := hahead.trans_le (ht.missed_pruned x hx)
  simp [step, hg, ne_of_gt ht.pos, hlt]

def threeReclaims : List Step :=
  [.job ⟨1, .crashed, some 0⟩, .insert ⟨1, 1, 0, true⟩, .insert ⟨2, 1, 0, true⟩,
    .insert ⟨3, 1, 150, true⟩, .resume 1]

theorem no_silent_retention_gap_swept :
    ∃ s, Reach step Settled {} s ∧ 2 ∈ s.missed ∧ s.cursor < 2 ∧ (∀ g ∈ s.given, g < 2) ∧
      step s .gate = some { s with pc := .failed s.cursor s.prunedThrough } := by
  have hrun : Reach step Settled {} (final step {} (threeReclaims ++ [.retain 160 1 100])) :=
    .of_decide (by decide) (by decide)
  have hgap := no_silent_retention_gap hrun (by decide) (x := 2) (by decide)
  exact ⟨_, hrun, by decide, hgap.1, hgap.2.1, hgap.2.2 (by decide)⟩

/-- Event `2` is deleted between gate and poll: the consumer is given `3`, the next gate passes. -/
theorem gap_between_gate_and_poll :
    ∃ s, Reach step (fun _ _ => True) {} s ∧ 2 ∈ s.missed ∧ 3 ∈ s.given ∧ s.cursor = 3 ∧
      step s .gate = some { s with pc := .poll } := by
  refine ⟨final step {} (threeReclaims ++
    [.gate, .retain 160 1 100, .poll 2 (fun _ => 160) (fun _ => 160), .give]),
    .of_final (by decide), by decide, by decide, by decide, by decide⟩

/-- Whatever ran before, a resume from before a deleted reclaim event fails at its first gate. -/
theorem resume_before_deleted_fails (h : Reach step (fun _ _ => True) {} s) (hx : x ∈ s.deleted)
    (hpos : 0 < c) (hlt : c < x) : ∃ s', exec step s [.resume c, .gate] = some s' ∧
      s'.pc = .failed c s.prunedThrough := by
  have hk : Kept s := h.invariant ⟨.nil, nofun, nofun⟩ fun _ _ _ hI _ hs => hI.step hs
  have hbelow : c < s.prunedThrough := hlt.trans_le (hk.deleted x hx)
  exact ⟨_, by simp [exec, step, ne_of_gt hpos, hbelow]; rfl, rfl⟩

theorem resume_before_deleted_fails_swept : ∃ s', exec step (final step {} (threeReclaims ++
      [.gate, .retain 160 1 100])) [.resume 1, .gate] = some s' ∧ s'.pc = .failed 1 2 :=
  resume_before_deleted_fails (x := 2) (.of_final (by decide)) (by decide) (by decide) (by decide)

end TaskQ.Reclaims
