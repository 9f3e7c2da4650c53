import TaskQ.Reclaims

namespace TaskQ.Reclaims

open Runs List Nat

structure Draft where
  row : Event
  insertedAt : Time

/-- The reclaim events with their writers, and a consumer that resumes from its last id. -/
structure Feed where
  now : Time := 0
  lastId : Nat := 0
  drafts : List Draft := []
  events : List Event := []
  cursor : Nat := 0
  delivered : List Nat := []

structure Poll where
  limit : Nat
  (clock held : Nat → Time)

namespace Feed

inductive Act where
  | wait (d : Nat)
  | insert (e : Event)
  | commit (ids : List Nat)
  | abort (ids : List Nat)
  | poll (p : Poll)

def page (delay : Nat) (s : Feed) (p : Poll) : List Event :=
  pollReclaimEvents s.events s.cursor p.limit delay p.clock p.held

/-- A stamp may be any time, and a transaction commits within `delay` of each of its inserts. -/
def step (delay : Nat) (s : Feed) : Act → Option Feed
  | .wait d => some { s with now := s.now + d }
  | .insert e =>
    if s.lastId < e.id then
      some { s with lastId := e.id, drafts := ⟨e, s.now⟩ :: s.drafts }
    else none
  | .commit ids =>
    if ∀ d ∈ s.drafts, d.row.id ∈ ids → s.now ≤ d.insertedAt + delay then
      some { s with
        drafts := s.drafts.filter (·.row.id ∉ ids)
        events := (s.drafts.filter (·.row.id ∈ ids)).map (·.row) ++ s.events }
    else none
  | .abort ids => some { s with drafts := s.drafts.filter (·.row.id ∉ ids) }
  | .poll p =>
    some { s with
      cursor := (s.page delay p).getLast?.elim s.cursor (·.id)
      delivered := s.delivered ++ (s.page delay p).map (·.id) }

/-- No stamp precedes an uncommitted insert, and a poll leaves no row to its filter's ceiling. -/
def CoMonotone (delay : Nat) (s : Feed) : Act → Prop
  | .insert e => e.id < bigintMax ∧ (e.lockExpired = true →
      ∀ d ∈ s.drafts, d.row.lockExpired = true → d.insertedAt ≤ e.occurredAt)
  | .poll p => ∀ e ∈ s.events, e.lockExpired = true → s.cursor < e.id → p.clock e.id ≤ s.now ∧
      (e.occurredAt + delay < p.held e.id → e.occurredAt + delay < p.clock e.id)
  | _ => True

instance (s : Feed) (a : Act) : Decidable (s.CoMonotone delay a) :=
  match a with
  | .insert _ => inferInstanceAs (Decidable (_ ∧ (_ → ∀ d ∈ s.drafts, _)))
  | .poll _ => inferInstanceAs (Decidable (∀ e ∈ s.events, _))
  | .wait _ | .commit _ | .abort _ => inferInstanceAs (Decidable True)

def rows (s : Feed) : List Event := s.drafts.map (·.row) ++ s.events

structure Sound (delay : Nat) (s : Feed) : Prop where
  nodup : (s.rows.map (·.id)).Nodup
  below : ∀ e ∈ s.rows, e.id ≤ s.lastId ∧ e.id < bigintMax
  reached : s.cursor ≤ s.lastId
  stamped : ∀ d ∈ s.drafts, d.row.lockExpired = true →
    ∀ e ∈ s.rows, e.lockExpired = true → d.row.id < e.id → d.insertedAt ≤ e.occurredAt
  late : ∀ d ∈ s.drafts, d.row.lockExpired = true → d.row.id ≤ s.cursor →
    d.insertedAt + delay < s.now
  seen : ∀ e ∈ s.events, e.lockExpired = true → e.id ≤ s.cursor → e.id ∈ s.delivered
  ordered : s.delivered.Pairwise (· < ·)
  passed : ∀ x ∈ s.delivered, x ≤ s.cursor
  committed : ∀ x ∈ s.delivered, ∃ e ∈ s.events, e.lockExpired = true ∧ e.id = x

variable {delay : Nat} {s s' : Feed}

section
variable (h : Sound delay s)
include h

lemma Sound.nodup_events : (s.events.map (·.id)).Nodup :=
  h.nodup.sublist ((sublist_append_right ..).map _)

lemma Sound.wait (d : Nat) : Sound delay { s with now := s.now + d } :=
  { h with late := fun x hx hl hc => (h.late x hx hl hc).trans_le (Nat.le_add_right ..) }

lemma Sound.insert (hid : s.lastId < e.id) (hok : s.CoMonotone delay (.insert e)) :
    Sound delay { s with lastId := e.id, drafts := ⟨e, s.now⟩ :: s.drafts } := by
  have hnew : ∀ x ∈ s.rows, x.id < e.id := fun x hx => (h.below x hx).1.trans_lt hid
  refine { h with nodup := ?_, below := ?_, reached := ?_, stamped := ?_, late := ?_ }
  · refine nodup_cons.mpr ⟨?_, h.nodup⟩
    intro hmem
    obtain ⟨x, hx, hxe⟩ := mem_map.mp hmem
    exact absurd (hnew x hx) (Nat.not_lt_of_le (Nat.le_of_eq hxe.symm))
  · intro x hx
    rcases mem_cons.mp hx with rfl | hx
    · exact ⟨le_rfl, hok.1⟩
    · exact ⟨(hnew x hx).le, (h.below x hx).2⟩
  · exact h.reached.trans hid.le
  · intro d hd hl x hx hlx hlt
    rcases mem_cons.mp hd with rfl | hd' <;> rcases mem_cons.mp hx with rfl | hx'
    · exact absurd hlt (lt_irrefl _)
    · exact absurd hlt (lt_asymm (hnew x hx'))
    · exact hok.2 hlx d hd' hl
    · exact h.stamped d hd' hl x hx' hlx hlt
  · intro d hd hl hc
    rcases mem_cons.mp hd with rfl | hd'
    · exact absurd (h.reached.trans_lt hid) (Nat.not_lt_of_le hc)
    · exact h.late d hd' hl hc

lemma Sound.abort (ids : List Nat) :
    Sound delay { s with drafts := s.drafts.filter (·.row.id ∉ ids) } := by
  have hrows : ((s.drafts.filter (·.row.id ∉ ids)).map (·.row) ++ s.events).Sublist s.rows :=
    (filter_sublist.map _).append_right _
  exact { h with
    nodup := h.nodup.sublist (hrows.map _)
    below := fun e he => h.below e (hrows.subset he)
    stamped := fun d hd hl e he => h.stamped d (mem_of_mem_filter hd) hl e (hrows.subset he)
    late := fun d hd => h.late d (mem_of_mem_filter hd) }

end

lemma perm_commit (l : List Draft) (events : List Event) (ids : List Nat) :
    ((l.filter (·.row.id ∉ ids)).map (·.row) ++
      ((l.filter (·.row.id ∈ ids)).map (·.row) ++ events)).Perm (l.map (·.row) ++ events) := by
  rw [← append_assoc, ← map_append]
  refine (List.Perm.map _ ?_).append_right _
  have h := filter_append_perm (fun d : Draft => decide (d.row.id ∈ ids)) l
  simp only [← decide_not] at h
  exact perm_append_comm.trans h

lemma Sound.commit (h : Sound delay s) {ids : List Nat}
    (hin : ∀ d ∈ s.drafts, d.row.id ∈ ids → s.now ≤ d.insertedAt + delay) : Sound delay { s with
      drafts := s.drafts.filter (·.row.id ∉ ids)
      events := (s.drafts.filter (·.row.id ∈ ids)).map (·.row) ++ s.events } := by
  have hperm := perm_commit s.drafts s.events ids
  exact { h with
    nodup := (hperm.map _).nodup_iff.mpr h.nodup
    below := fun e he => h.below e (hperm.mem_iff.mp he)
    stamped := fun d hd hl e he =>
      h.stamped d (mem_of_mem_filter hd) hl e (hperm.mem_iff.mp he)
    late := fun d hd => h.late d (mem_of_mem_filter hd)
    seen := by
      intro e he hl hc
      rcases mem_append.mp he with he | he
      · obtain ⟨d, hd, rfl⟩ := mem_map.mp he
        obtain ⟨hd, hids⟩ := mem_filter.mp hd
        have hlate := h.late d hd hl hc
        exact absurd hlate (Nat.not_lt_of_le (hin d hd (of_decide_eq_true hids)))
      · exact h.seen e he hl hc
    committed := by
      intro x hx
      obtain ⟨e, he, hl⟩ := h.committed x hx
      exact ⟨e, mem_append_right _ he, hl⟩ }

lemma Sound.poll (h : Sound delay s) (p : Poll) (hok : s.CoMonotone delay (.poll p)) :
    Sound delay { s with
      cursor := (s.page delay p).getLast?.elim s.cursor (·.id)
      delivered := s.delivered ++ (s.page delay p).map (·.id) } := by
  have hsort : (s.page delay p).Pairwise fun e e' => e.id < e'.id := poll_pairwise h.nodup_events
  have hmem : ∀ q ∈ s.page delay p, q ∈ s.events ∧ q.lockExpired = true ∧ s.cursor < q.id ∧
      q.occurredAt + delay < p.clock q.id := fun q hq => mem_poll hq
  have hnext : ∀ e ∈ s.events, e.lockExpired = true → s.cursor < e.id →
      e ∈ s.page delay p ∨ ∀ q ∈ s.page delay p, q.id < e.id := fun e he hl hc =>
    poll_next h.nodup_events (fun e he hl hc => (hok e he hl hc).2) he hl hc
  rcases eq_nil_or_concat (s.page delay p) with hnil | ⟨l, last, hlast⟩
  · simpa [hnil] using h
  rw [concat_eq_append] at hlast
  rw [hlast] at hsort hmem hnext ⊢
  obtain ⟨hle, hll, hlc, hage⟩ := hmem last (by simp)
  have hupto : ∀ q ∈ l ++ [last], q.id ≤ last.id := by
    intro q hq
    rcases mem_append.mp hq with hq | hq
    · exact ((pairwise_append.mp hsort).2.2 q hq last (by simp)).le
    · rw [mem_singleton.mp hq]
  simp only [getLast?_concat, Option.elim_some]
  refine { h with
    reached := ?_, late := ?_, seen := ?_, ordered := ?_, passed := ?_, committed := ?_ }
  · exact (h.below last (mem_append_right _ hle)).1
  · intro d hd hl hc
    have hdr : d.row ∈ s.drafts.map (·.row) := mem_map_of_mem hd
    have hne : d.row.id ≠ last.id := by
      have hdis := disjoint_of_nodup_append (map_append ▸ h.nodup)
      intro heq
      exact hdis (mem_map_of_mem hdr) (heq ▸ mem_map_of_mem hle)
    have hst := h.stamped d hd hl last (mem_append_right _ hle) hll (lt_of_le_of_ne hc hne)
    calc
      d.insertedAt + delay ≤ last.occurredAt + delay := Nat.add_le_add_right hst delay
      _ < p.clock last.id := hage
      _ ≤ s.now := (hok last hle hll hlc).1
  · intro e he hl hc
    rw [mem_append]
    rcases lt_or_ge s.cursor e.id with hgt | hle'
    · rcases hnext e he hl hgt with hin | hall
      · exact .inr (mem_map_of_mem hin)
      · exact absurd (hall last (by simp)) (Nat.not_lt_of_le hc)
    · exact .inl (h.seen e he hl hle')
  · refine pairwise_append.mpr ⟨h.ordered, pairwise_map.mpr hsort, ?_⟩
    intro x hx y hy
    obtain ⟨q, hq, rfl⟩ := mem_map.mp hy
    exact (h.passed x hx).trans_lt (hmem q hq).2.2.1
  · intro x hx
    rcases mem_append.mp hx with hx | hx
    · exact (h.passed x hx).trans hlc.le
    · obtain ⟨q, hq, rfl⟩ := mem_map.mp hx
      exact hupto q hq
  · intro x hx
    rcases mem_append.mp hx with hx | hx
    · exact h.committed x hx
    · obtain ⟨q, hq, rfl⟩ := mem_map.mp hx
      exact ⟨q, (hmem q hq).1, (hmem q hq).2.1, rfl⟩

lemma Sound.step (h : Sound delay s) (hok : s.CoMonotone delay a)
    (hs : s.step delay a = some s') : Sound delay s' := by
  cases a with
  | wait d =>
    cases hs
    exact h.wait d
  | insert e =>
    obtain ⟨hid, rfl⟩ := matched hs
    exact h.insert hid hok
  | commit ids =>
    obtain ⟨hin, rfl⟩ := matched hs
    exact h.commit hin
  | abort ids =>
    cases hs
    exact h.abort ids
  | poll p =>
    cases hs
    exact h.poll p hok

def pending (s : Feed) : List Event := s.events.filter fun e => e.lockExpired && s.cursor < e.id

def Aged (delay : Nat) (s : Feed) (p : Poll) : Prop :=
  0 < p.limit ∧ ∀ e ∈ s.events, e.lockExpired = true → e.occurredAt + delay < p.held e.id ∧
    e.occurredAt + delay < p.clock e.id ∧ p.clock e.id ≤ s.now

lemma Aged.coMonotone (h : s.Aged delay p) : s.CoMonotone delay (.poll p) :=
  fun e he hl _ => ⟨(h.2 e he hl).2.2, fun _ => (h.2 e he hl).2.1⟩

lemma Aged.page_ne_nil (h : s.Aged delay p) (hs : Sound delay s) (he : e ∈ s.pending) :
    s.page delay p ≠ [] := by
  obtain ⟨hmem, hl⟩ := mem_filter.mp he
  obtain ⟨hl, hc⟩ := (Bool.and_eq_true _ _).mp hl
  have hceil : (s.events.filter fun e => e.lockExpired && s.cursor < e.id &&
      !decide (e.occurredAt + delay < p.held e.id)) = [] := by
    rw [filter_eq_nil_iff]
    intro x hx hheld
    simp only [Bool.and_eq_true, Bool.not_eq_true', decide_eq_false_iff_not] at hheld
    exact hheld.2 (h.2 x hx hheld.1.1).1
  have hid := (hs.below e (mem_append_right _ hmem)).2
  have hsel : e ∈ (s.events.filter fun e => e.lockExpired && s.cursor < e.id &&
      e.occurredAt + delay < p.clock e.id && e.id < bigintMax).insertionSort
        fun e e' => e.id ≤ e'.id := by
    rw [mem_insertionSort, mem_filter]
    exact ⟨hmem, by simp [hl, of_decide_eq_true hc, (h.2 e hmem hl).2.1, hid]⟩
  intro hnil
  simp only [page, pollReclaimEvents, hceil, map_nil, min?_nil, Option.getD_none,
    take_eq_nil_iff] at hnil
  rcases hnil with hzero | hnil
  · exact absurd hzero (ne_of_gt h.1)
  · rw [hnil] at hsel
    cases hsel

lemma Aged.pending_lt (h : s.Aged delay p) (hs : Sound delay s)
    (hstep : s.step delay (.poll p) = some s') (hpos : s.pending ≠ []) :
    s'.pending.length < s.pending.length := by
  cases hstep
  obtain ⟨e, he⟩ := exists_mem_of_ne_nil _ hpos
  obtain ⟨l, last, hlast⟩ := (eq_nil_or_concat _).resolve_left (h.page_ne_nil hs he)
  rw [concat_eq_append] at hlast
  obtain ⟨hle, hll, hlc, -⟩ := mem_poll (p := last) (hlast ▸ mem_append_right l (by simp))
  have hnew : pending { s with
      cursor := (s.page delay p).getLast?.elim s.cursor (·.id)
      delivered := s.delivered ++ (s.page delay p).map (·.id) } =
      s.pending.filter (last.id < ·.id) := by
    rw [hlast, pending, pending, filter_filter]
    refine filter_congr fun x _ => ?_
    rw [getLast?_concat, Option.elim_some, Bool.eq_iff_iff]
    simp only [Bool.and_eq_true, decide_eq_true_eq]
    exact ⟨fun ⟨hx, hlt⟩ => ⟨hlt, hx, hlc.trans hlt⟩, fun ⟨hlt, hx, _⟩ => ⟨hx, hlt⟩⟩
  rw [hnew, length_filter_lt_length_iff_exists]
  exact ⟨last, mem_filter.mpr ⟨hle, by simp [hll, hlc]⟩, by simp⟩

lemma Sound.drained (polls : List Poll) (hs : Sound delay s) (hp : ∀ p ∈ polls, s.Aged delay p)
    (hlen : s.pending.length ≤ polls.length) :
    ∃ s', exec (Feed.step delay) s (polls.map .poll) = some s' ∧ Sound delay s' ∧
      s'.events = s.events ∧ ∀ e ∈ s.events, e.lockExpired = true → e.id ≤ s'.cursor := by
  induction polls generalizing s with
  | nil =>
    refine ⟨s, rfl, hs, rfl, fun e he hl => ?_⟩
    have hnil := eq_nil_of_length_eq_zero (Nat.le_zero.mp hlen)
    by_contra hc
    have hmem : e ∈ s.pending := mem_filter.mpr ⟨he, by simp [hl, Nat.lt_of_not_le hc]⟩
    rw [hnil] at hmem
    cases hmem
  | cons p polls ih =>
    have hage := hp p mem_cons_self
    obtain ⟨u, hu⟩ : ∃ u, s.step delay (.poll p) = some u := ⟨_, rfl⟩
    have hfields : u.events = s.events ∧ u.now = s.now ∧ s.cursor ≤ u.cursor := by
      cases hu
      refine ⟨rfl, rfl, ?_⟩
      rcases hlast : (s.page delay p).getLast? with _ | q
      · exact le_rfl
      · exact (mem_poll (mem_of_getLast? hlast)).2.2.1.le
    have hshort : u.pending.length ≤ polls.length := by
      by_cases hpos : s.pending = []
      · have hsub : u.pending = [] := by
          rw [pending, filter_eq_nil_iff] at hpos ⊢
          rw [hfields.1]
          intro x hx hux
          refine hpos x hx ?_
          simp only [Bool.and_eq_true, decide_eq_true_eq] at hux ⊢
          exact ⟨hux.1, hfields.2.2.trans_lt hux.2⟩
        rw [hsub]
        exact Nat.zero_le _
      · have hlt := hage.pending_lt hs hu hpos
        exact Nat.le_of_lt_succ (hlt.trans_le hlen)
    have hage' : ∀ q ∈ polls, u.Aged delay q := by
      intro q hq
      rw [Aged, hfields.1, hfields.2.1]
      exact hp q (mem_cons_of_mem _ hq)
    obtain ⟨s', hexec, hsound, hev, hall⟩ := ih (hs.step hage.coMonotone hu) hage' hshort
    refine ⟨s', ?_, hsound, hev.trans hfields.1, hfields.1 ▸ hall⟩
    rw [map_cons, exec, hu, Option.bind_some, hexec]

end Feed

open Feed

/-- The consumer is given committed events once, in order, and all of them once stamps have aged. -/
theorem feed_delivers_once {delay : Nat} {s : Feed}
    (h : Reach (Feed.step delay) (CoMonotone delay) {} s) : s.delivered.Pairwise (· < ·) ∧
      (∀ x ∈ s.delivered, ∃ e ∈ s.events, e.lockExpired = true ∧ e.id = x) ∧
      (∀ e ∈ s.events, e.lockExpired = true → e.id ≤ s.cursor → e.id ∈ s.delivered) ∧
      ∀ polls : List Poll, (∀ p ∈ polls, s.Aged delay p) → s.pending.length ≤ polls.length →
        ∃ s', exec (Feed.step delay) s (polls.map .poll) = some s' ∧ s'.delivered.Pairwise (· < ·) ∧
          ∀ e ∈ s.events, e.lockExpired = true → e.id ∈ s'.delivered := by
  have hstart : Sound delay {} :=
    ⟨nodup_nil, fun _ h => (by cases h), le_rfl, fun _ h => (by cases h),
      fun _ h => (by cases h), fun _ h => (by cases h), .nil, fun _ h => (by cases h),
      fun _ h => (by cases h)⟩
  have hsound : Sound delay s := h.invariant hstart fun _ _ _ hI hok hs => hI.step hok hs
  refine ⟨hsound.ordered, hsound.committed, hsound.seen, ?_⟩
  intro polls hp hlen
  obtain ⟨s', hexec, hs', hev, hall⟩ := hsound.drained polls hp hlen
  refine ⟨s', hexec, hs'.ordered, ?_⟩
  intro e he hl
  exact hs'.seen e (hev ▸ he) hl (hall e he hl)

def pollAt (t : Time) : Poll := ⟨1, fun _ => t, fun _ => t⟩

def inverted : List Act :=
  [.insert ⟨1, 7, 0, true⟩, .wait 10, .insert ⟨2, 8, 10, true⟩, .commit [2], .wait 30, .commit [1],
    .wait 30, .poll (pollAt 70)]

theorem feed_delivers_once_inverted : (final (Feed.step 50) {} inverted).delivered = [1] ∧
      ∃ s', exec (Feed.step 50) (final (Feed.step 50) {} inverted) [.poll (pollAt 70)] = some s' ∧
        s'.delivered.Pairwise (· < ·) ∧
        ∀ e ∈ (final (Feed.step 50) {} inverted).events, e.lockExpired = true →
          e.id ∈ s'.delivered :=
  ⟨by decide +kernel,
    (feed_delivers_once (.of_decide (by decide +kernel) (by decide +kernel))).2.2.2 [pollAt 70]
      (fun p hp => by
        obtain rfl := mem_singleton.mp hp
        exact ⟨by decide, by decide +kernel⟩) (by decide +kernel)⟩

def setBack : List Act :=
  [.wait 100, .insert ⟨1, 7, 100, true⟩, .wait 5, .insert ⟨2, 8, 20, true⟩, .commit [2], .wait 5,
    .poll (pollAt 110), .commit [1]]

def straddled : List Act :=
  [.wait 100, .insert ⟨1, 7, 100, true⟩, .commit [1], .wait 1, .insert ⟨2, 8, 101, true⟩,
    .commit [2], .wait 52, .poll ⟨1, fun id => if id = 1 then 150 else 152, fun _ => 153⟩]

lemma Feed.lost_step {delay : Nat} {s s' : Feed} {a : Act} (h : s.step delay a = some s')
    (hlost : x ≤ s.cursor ∧ x ∉ s.delivered) : x ≤ s'.cursor ∧ x ∉ s'.delivered := by
  cases a with
  | wait d | abort ids =>
    cases h
    exact hlost
  | insert e | commit ids =>
    obtain ⟨-, rfl⟩ := matched h
    exact hlost
  | poll p =>
    cases h
    constructor
    · rcases hlast : (s.page delay p).getLast? with _ | q
      · exact hlost.1
      · exact hlost.1.trans (mem_poll (mem_of_getLast? hlast)).2.2.1.le
    · rw [mem_append, not_or]
      refine ⟨hlost.2, fun hmem => ?_⟩
      obtain ⟨q, hq, rfl⟩ := mem_map.mp hmem
      exact absurd (mem_poll hq).2.2.1 (Nat.not_lt_of_le hlost.1)

/-- After the run some committed reclaim event is not delivered, whatever happens next. -/
def Skips (run : List Act) : Prop :=
  ∃ s, exec (Feed.step 50) {} run = some s ∧ ∃ e ∈ s.events, e.lockExpired = true ∧
    ∀ s', Reach (Feed.step 50) (fun _ _ => True) s s' → e.id ∉ s'.delivered

lemma skips_of_lost (hrun : exec (Feed.step 50) {} run = some s) (he : e ∈ s.events)
    (hl : e.lockExpired = true) (hlost : e.id ≤ s.cursor ∧ e.id ∉ s.delivered) : Skips run := by
  refine ⟨s, hrun, e, he, hl, fun s' hs' => ?_⟩
  exact (hs'.invariant (I := fun s => e.id ≤ s.cursor ∧ e.id ∉ s.delivered) hlost
    fun _ _ _ hI _ hs => lost_step hs hI).2

theorem feed_skips_committed : Skips setBack ∧ Skips straddled :=
  ⟨skips_of_lost (e := ⟨1, 7, 100, true⟩) (exec_final (by decide +kernel)) (by decide +kernel) rfl
      (by decide +kernel),
    skips_of_lost (e := ⟨1, 7, 100, true⟩) (exec_final (by decide +kernel)) (by decide +kernel) rfl
      (by decide +kernel)⟩

end TaskQ.Reclaims
