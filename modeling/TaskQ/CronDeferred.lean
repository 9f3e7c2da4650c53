import TaskQ.CronTick
import TaskQ.CronTouching
import TaskQ.Runs

namespace TaskQ.Cron
open Timezone Runs List ScheduleTable Preflight

section

lemma ScheduleTable.eq_of_id {T : ScheduleTable} (hr : r ∈ T.rows) (hr' : r' ∈ T.rows)
    (h : r.id = r'.id) : r = r' :=
  inj_on_of_nodup_map T.distinct hr hr' h

lemma ScheduleTable.mem_update {T : ScheduleTable} (hr : r ∈ T.rows)
    (f : Schedule → Position) : ⟨r.toScheduleDef, f r⟩ ∈ (T.update f).rows :=
  mem_map_of_mem hr

variable {w : CronWorker} {s : CronDb} {t : Tick}

lemma CronDb.mem_rows_of_due (h : r ∈ s.due t) : r ∈ s.schedules.rows := by
  have hsort := mem_of_mem_take h
  rw [mem_insertionSort] at hsort
  exact mem_of_mem_filter hsort

lemma strikeFailed_nextFireAt (failures : List ScheduleId) (r : Schedule) :
    (strikeFailed w failures r).nextFireAt = r.nextFireAt := by
  rw [strikeFailed]
  split <;> rfl

end

section
variable {w : CronWorker} {configs : String → Option ActorConfig} {t : Tick}

structure Planned (w : CronWorker) (t : Tick) (row : Schedule) (plan : FireSuccess) : Prop where
  row_eq : plan.row = row
  fireAt_eq : plan.fireAt = fireSlot w t row
  nextFireAt_eq : plan.nextFireAt = nextFire row.cron (fireSlot w t row) row.dstStrategy
  immediate : ∃ arg ∈ plan.enqueueArgs, arg.scheduledAt = none

lemma planned_of_ok (h : planFire w configs t row = .ok plan) : Planned w t row plan := by
  rw [planFire] at h
  split at h
  · cases h
  next ac _ =>
    split at h
    · cases h
    split at h
    · cases h
    cases h
    refine ⟨rfl, rfl, rfl, fireArgs w t row.toScheduleDef ac 0 none, ?_, rfl⟩
    split
    · split
      · exact mem_cons_self
      · exact mem_singleton_self _
    · exact mem_singleton_self _

lemma planFire_of_pair (hconfig : configs row.actor = some ac)
    (hfunded : ¬ (row.payloadFactory.isSome = true ∧ t.payload row.id = .unfunded))
    (hpay : t.payload row.id ≠ .raises) (hs : row.dstStrategy = .allof)
    (hsingleton : w.singleton row.actor = false)
    (hans : computeNextFireAfter row.cron (fireSlot w t row) .allof = [earlier, later]) :
    planFire w configs t row = .ok ⟨row, fireSlot w t row,
      [fireArgs w t row.toScheduleDef ac 0 none,
        fireArgs w t row.toScheduleDef ac 1 (some later)], earlier⟩ := by
  rw [planFire, hconfig]
  dsimp only
  rw [if_neg hfunded, if_neg hpay]
  simp [nextFire, hs, hans, hsingleton, head_cons]

lemma planFire_unfunded (h : planFire w configs t row = .error .tickBudgetExhausted) :
    row.payloadFactory.isSome = true ∧ t.payload row.id = .unfunded := by
  rw [planFire] at h
  split at h
  · cases h
  split at h
  next hunfunded => exact hunfunded
  · split at h
    · cases h
    · cases h

lemma fireSlot_of_timely (h : t.serverNow - w.catchUpWindow ≤ row.nextFireAt) :
    fireSlot w t row = row.nextFireAt :=
  if_neg (not_lt.mpr h)

end

section
variable {z : MinuteZone} {c : Croniter z}

lemma isLeast_nextFire (hz : z.Apart) (after : Int) (s : DstStrategy) :
    IsLeast {v | after < v ∧ Owed z.toZone c.Matches s v} (z.instant (nextFire c after s)) := by
  obtain ⟨d, rest, hd, hleast⟩ := answersLeastOwed_of_apart hz c after s
  have hnext : nextFire c after s = d := by simp only [nextFire, hd, head_cons]
  rw [hnext]
  exact hleast

lemma hopCovered_le_or_mem (hz : z.Apart) (hx : Owed z.toZone c.Matches .allof x)
    (hle : z.instant current ≤ x) :
    z.instant (hopCovered c covered rangeEnd current) ≤ x ∨ x ∈ covered := by
  fun_induction hopCovered c covered rangeEnd current with
  | case1 => exact .inl hle
  | case2 current hcovered nxt _ ih =>
    rcases Int.lt_or_eq_of_le hle with hlt | rfl
    · exact ih ((isLeast_nextFire hz _ _).2 ⟨hlt, hx⟩)
    · exact .inr hcovered.2
  | case3 => exact .inl hle

lemma hopCovered_nil (rangeEnd : Int) (current : LocalTime) :
    hopCovered c [] rangeEnd current = current := by
  rw [hopCovered, dif_neg fun h => absurd h.2 not_mem_nil]

def Schedule.Covers (r : Schedule) (jobs : List CronJob) (x : Int) : Prop :=
  ∃ j ∈ jobs, j.actor = r.actor ∧ j.cronScheduleId = some r.id ∧
    j.status.ownsDelivery = true ∧ j.scheduledAt = x

lemma covers_of_mem (h : x ∈ deliveredInstants jobs plan rangeEnd) : plan.row.Covers jobs x := by
  obtain ⟨j, hj, hx⟩ := mem_map.mp h
  obtain ⟨hmem, hcond⟩ := mem_filter.mp hj
  obtain ⟨hactor, hid, -, -, hst⟩ := of_decide_eq_true hcond
  exact ⟨j, hmem, hactor, hid, hst, hx⟩

lemma skipAlreadyDelivered_eq (w : CronWorker) (jobs : List CronJob) (plan : FireSuccess) :
    ∃ d, skipAlreadyDelivered w jobs plan = { plan with nextFireAt := d } := by
  rw [skipAlreadyDelivered]
  split
  · exact ⟨_, rfl⟩
  split
  · exact ⟨_, rfl⟩
  · exact ⟨_, rfl⟩

lemma skipAlreadyDelivered_nil (plan : FireSuccess) : skipAlreadyDelivered w [] plan = plan := by
  rw [skipAlreadyDelivered]
  split
  · rfl
  split
  · rfl
  · exact congrArg (fun d => { plan with nextFireAt := d }) (hopCovered_nil _ _)

lemma skipAlreadyDelivered_le_or_covers {plan : FireSuccess} (hz : plan.row.zone.Apart)
    (hx : Owed plan.row.zone.toZone plan.row.cron.Matches .allof x)
    (hle : plan.row.zone.instant plan.nextFireAt ≤ x) :
    plan.row.zone.instant (skipAlreadyDelivered w jobs plan).nextFireAt ≤ x ∨
      plan.row.Covers jobs x := by
  rw [skipAlreadyDelivered]
  split
  · exact .inl hle
  split
  · exact .inl hle
  · exact (hopCovered_le_or_mem hz hx hle).imp_right covers_of_mem

end

section
variable {w : CronWorker} {q : Preflight}

def Decision.schedule : Decision → ScheduleId
  | .keep plan => plan.row.id
  | .suppress entry => entry.scheduleId

lemma judge_schedule (acc : Admitted) (plan : FireSuccess) :
    (q.judge w acc plan).schedule = plan.row.id := by
  rw [judge]
  dsimp only
  repeat' split
  all_goals rfl

lemma judge_of_room (hblocking : q.blocking plan.row.actor = none)
    (hsingleton : w.singleton plan.row.actor = false) (hargs : plan.enqueueArgs ≠ [])
    (hroom : ∀ cap, q.capped plan.row.actor = some cap →
      plan.enqueueArgs.length ≤ cap - q.occupied acc plan.row.actor) :
    q.judge w acc plan = .keep plan := by
  rw [judge]
  rw [hblocking]
  rw [hsingleton, show Option.filter (fun _ => false) (acc.firedSingletonJob.lookup
    plan.row.actor) = none from Option.filter_eq_none_iff.mpr fun _ _ => Bool.false_ne_true]
  dsimp only
  split
  · rfl
  next cap hcap =>
    have hle := hroom cap hcap
    have hpos := length_pos_iff.mpr hargs
    rw [if_neg (by omega), getElem?_eq_none (by omega)]

lemma mem_turns (h : (acc', plan) ∈ q.turns w acc plans) : plan ∈ plans := by
  induction plans generalizing acc with
  | nil => cases h
  | cons p plans ih =>
    rcases mem_cons.mp h with heq | h
    · cases heq
      exact mem_cons_self
    · exact mem_cons_of_mem _ (ih h)

lemma exists_turn (acc : Admitted) (plans : List FireSuccess) :
    (∀ plan ∈ (q.suppressPolicyCollisions w acc plans).1,
      ∃ turn ∈ q.turns w acc plans, q.judge w turn.1 turn.2 = .keep plan) ∧
    ∀ entry ∈ (q.suppressPolicyCollisions w acc plans).2,
      ∃ turn ∈ q.turns w acc plans, q.judge w turn.1 turn.2 = .suppress entry := by
  induction plans generalizing acc with
  | nil => exact ⟨forall_mem_nil _, forall_mem_nil _⟩
  | cons p plans ih =>
    obtain ⟨hkept, hsup⟩ := ih (q.charge w acc (q.judge w acc p))
    rw [suppressPolicyCollisions, turns]
    split
    next hp =>
      refine ⟨forall_mem_cons.mpr ⟨⟨_, mem_cons_self, hp⟩, fun plan h => ?_⟩,
        fun entry h => ?_⟩
      · exact exists_mem_cons_of_exists (hkept plan h)
      · exact exists_mem_cons_of_exists (hsup entry h)
    next hp =>
      refine ⟨fun plan h => ?_, forall_mem_cons.mpr ⟨⟨_, mem_cons_self, hp⟩,
        fun entry h => ?_⟩⟩
      · exact exists_mem_cons_of_exists (hkept plan h)
      · exact exists_mem_cons_of_exists (hsup entry h)

end

/-- The instants a schedule owes under `allof`, both occurrences of a repeated time included. -/
def ScheduleDef.Owes (d : ScheduleDef) (x : Int) : Prop :=
  Owed d.zone.toZone d.cron.Matches .allof x

/-- From `start` on, what the schedule owes has been enqueued or is still ahead. -/
def ScheduleDef.Keeps (d : ScheduleDef) (start : Int) (s : CronDb) : Prop :=
  ∃ r ∈ s.schedules.rows, r.toScheduleDef = d ∧
    ∀ x, start ≤ x → d.Owes x → (d.id, x) ∈ s.enqueued ∨ r.nextFireAt ≤ x

def CronDb.turns (w : CronWorker) (t : Tick) (s : CronDb) : List (Admitted × FireSuccess) :=
  if w.actorPolicies.isEmpty then []
  else (preflight w s.actorConfigs s.jobs).turns w ⟨[], []⟩ (s.successes w t)

def CronDb.remaining (w : CronWorker) (s : CronDb) (acc : Admitted) (actor : String) (cap : Int) :
    Int :=
  cap - (preflight w s.actorConfigs s.jobs).occupied acc actor

/-- A due row is on time, funded and in room, and no own job stands ahead that was not enqueued. -/
structure Shelters (w : CronWorker) (s : CronDb) (t : Tick) (r : Schedule) : Prop where
  timely : t.serverNow - w.catchUpWindow ≤ r.nextFireAt
  funded : ¬ (r.payloadFactory.isSome = true ∧ t.payload r.id = .unfunded)
  room : ∀ turn ∈ s.turns w t, turn.2.row.id = r.id →
    ∀ cap, effectiveCap w s.actorConfigs r.actor = some cap →
      turn.2.enqueueArgs.length ≤ s.remaining w turn.1 r.actor cap
  covered : ∀ x, r.nextFireAt < x → r.Owes x → r.Covers s.jobs x → (r.id, x) ∈ s.enqueued

section
variable {w : CronWorker} {s : CronDb} {t : Tick} {r : Schedule}

lemma CronDb.exists_planned (hr : r ∈ s.schedules.rows) (h : p ∈ s.successes w t)
    (hid : p.row.id = r.id) :
    r ∈ s.due t ∧ ∃ plan, Planned w t r plan ∧ p = skipAlreadyDelivered w s.jobs plan := by
  obtain ⟨row, hdue, hplan⟩ := mem_filterMap.mp h
  split at hplan
  next plan hok =>
    cases hplan
    have hplanned := planned_of_ok hok
    obtain ⟨d, hskip⟩ := skipAlreadyDelivered_eq w s.jobs plan
    rw [hskip, hplanned.row_eq] at hid
    obtain rfl := eq_of_id (mem_rows_of_due hdue) hr hid
    exact ⟨hdue, plan, hplanned, rfl⟩
  · cases hplan

section
variable (hr : r ∈ s.schedules.rows) (hsingleton : w.singleton r.actor = false)
  (hok : r ∈ s.due t → Shelters w s t r)
include hr hsingleton hok

lemma CronDb.judge_turn (h : turn ∈ s.turns w t) (hid : turn.2.row.id = r.id) :
    turn.2 ∈ s.successes w t ∧
      (preflight w s.actorConfigs s.jobs).judge w turn.1 turn.2 = .keep turn.2 := by
  have hturn := h
  rw [turns] at h
  split at h
  · cases h
  have hmem := mem_turns h
  obtain ⟨hdue, plan, hplanned, hplan⟩ := exists_planned hr hmem hid
  obtain ⟨d, hskip⟩ := skipAlreadyDelivered_eq w s.jobs plan
  rw [hskip] at hplan
  have hrow : turn.2.row = r := by rw [hplan, hplanned.row_eq]
  obtain ⟨arg, harg, -⟩ := hplanned.immediate
  refine ⟨hmem, judge_of_room ?_ (hrow ▸ hsingleton) ?_ ?_⟩
  · rw [hrow]
    exact if_neg (by rw [hsingleton]; exact Bool.false_ne_true)
  · rw [hplan]
    exact ne_nil_of_mem harg
  · rw [hrow]
    exact (hok hdue).room turn hturn hid

lemma CronDb.success_of_kept (h : p ∈ (s.judged w t).1) (hid : p.row.id = r.id) :
    p ∈ s.successes w t := by
  rw [judged] at h
  split at h
  · exact h
  next hpol =>
    obtain ⟨turn, hturn, hkeep⟩ := (exists_turn _ _).1 p h
    have hsame := judge_schedule (w := w) (q := preflight w s.actorConfigs s.jobs) turn.1 turn.2
    rw [hkeep] at hsame
    obtain ⟨hmem, hjudge⟩ := judge_turn hr hsingleton hok
      (show turn ∈ s.turns w t by rwa [turns, if_neg hpol]) (hsame.symm.trans hid)
    rw [hkeep] at hjudge
    cases hjudge
    exact hmem

lemma CronDb.not_suppressed (h : entry ∈ s.suppressed w t) : entry.scheduleId ≠ r.id := by
  intro hid
  rcases mem_append.mp h with h | h
  · obtain ⟨row, hdue, hentry⟩ := mem_filterMap.mp h
    split at hentry
    next hbud =>
      cases hentry
      obtain rfl := eq_of_id (mem_rows_of_due hdue) hr hid
      exact (hok hdue).funded (planFire_unfunded hbud)
    · cases hentry
  · rw [judged] at h
    split at h
    · cases h
    next hpol =>
      obtain ⟨turn, hturn, hsup⟩ := (exists_turn _ _).2 entry h
      have hsame := judge_schedule (w := w) (q := preflight w s.actorConfigs s.jobs) turn.1 turn.2
      rw [hsup] at hsame
      obtain ⟨-, hjudge⟩ := judge_turn hr hsingleton hok
        (show turn ∈ s.turns w t by rwa [turns, if_neg hpol]) (hsame.symm.trans hid)
      rw [hsup] at hjudge
      cases hjudge

lemma CronDb.exists_row_tick : ∃ r' ∈ (s.tick w t).schedules.rows,
    r'.toScheduleDef = r.toScheduleDef ∧ (r'.nextFireAt = r.nextFireAt ∨
      ∃ p ∈ s.landed w t, p.row.id = r.id ∧ r'.nextFireAt = p.row.zone.instant p.nextFireAt) := by
  have hfired := mem_update hr (advanceFired (s.landed w t))
  have hmoved := mem_update hfired (advanceSuppressed (s.suppressed w t))
  refine ⟨_, mem_update hmoved (strikeFailed w (s.failures w t)), rfl, ?_⟩
  rw [strikeFailed_nextFireAt]
  have hnone := find?_eq_none.mpr fun entry hentry heq =>
      not_suppressed hr hsingleton hok hentry (of_decide_eq_true heq)
  simp only [advanceSuppressed, hnone]
  rw [advanceFired]
  split
  next p hp =>
    have hid := find?_some hp
    exact .inr ⟨p, mem_of_find?_eq_some hp, of_decide_eq_true hid, rfl⟩
  · exact .inl rfl

lemma keeps_tick (hz : r.zone.Apart) (hs : r.dstStrategy = .allof)
    (h : ∀ x, start ≤ x → r.Owes x → (r.id, x) ∈ s.enqueued ∨ r.nextFireAt ≤ x) :
    r.toScheduleDef.Keeps start (s.tick w t) := by
  obtain ⟨r', hr', hdef, hnext⟩ := CronDb.exists_row_tick hr hsingleton hok
  refine ⟨r', hr', hdef, fun x hstart hx => ?_⟩
  rcases h x hstart hx with hold | hahead
  · exact .inl (mem_append_left _ hold)
  rcases hnext with hsame | ⟨p, hp, hid, hnext⟩
  · exact .inr (hsame ▸ hahead)
  obtain ⟨hdue, plan, hplan, rfl⟩ := CronDb.exists_planned hr
    (CronDb.success_of_kept hr hsingleton hok (mem_of_mem_filter hp) hid) hid
  obtain ⟨d, hskip⟩ := skipAlreadyDelivered_eq w s.jobs plan
  obtain rfl := hplan.row_eq
  have hshelter := hok hdue
  have hfire := fireSlot_of_timely hshelter.timely
  rcases Int.lt_or_eq_of_le hahead with hlt | rfl
  · -- the next fire is the least owed instant past the slot
    have hleast : plan.row.zone.instant plan.nextFireAt ≤ x := by
      rw [hplan.nextFireAt_eq, hfire, hs]
      exact (isLeast_nextFire hz _ _).2 ⟨hlt, hx⟩
    have hskipped : plan.row.zone.instant (skipAlreadyDelivered w s.jobs plan).nextFireAt ≤ x ∨
        plan.row.Covers s.jobs x := skipAlreadyDelivered_le_or_covers hz hx hleast
    rcases hskipped with hle | hcovers
    · refine .inr (hnext.trans_le ?_)
      rw [hskip] at hle ⊢
      exact hle
    · exact .inl (mem_append_left _ (hshelter.covered x hlt hx hcovers))
  · -- the slot itself has its immediate job
    refine .inl (mem_append_right _ (mem_flatMap.mpr ⟨_, hp, ?_⟩))
    obtain ⟨arg, harg, hnow⟩ := hplan.immediate
    rw [hskip]
    refine mem_map.mpr ⟨arg, harg, ?_⟩
    rw [hnow]
    exact congrArg (Prod.mk _) (hplan.fireAt_eq.trans hfire)

end

end

/-- A tick shelters the schedule if it is due; what happens between ticks is left open. -/
def Sheltered (w : CronWorker) (d : ScheduleDef) (s : CronDb) : CronEvent → Prop
  | .tick t => ∀ r ∈ s.due t, r.toScheduleDef = d → Shelters w s t r
  | .elsewhere _ _ => True

lemma ScheduleDef.Keeps.step {d : ScheduleDef} (hz : d.zone.Apart) (hs : d.dstStrategy = .allof)
    (hsingleton : w.singleton d.actor = false) (h : d.Keeps start s) (hok : Sheltered w d s e)
    (hstep : cronStep w s e = some s') : d.Keeps start s' := by
  obtain ⟨r, hr, rfl, hkept⟩ := h
  cases e with
  | tick t =>
    cases hstep
    exact keeps_tick hr hsingleton (fun hdue => hok r hdue rfl) hz hs hkept
  | elsewhere jobs configs =>
    cases hstep
    exact ⟨r, hr, rfl, hkept⟩

/-- In every run whose ticks shelter the schedule, each owed instant is enqueued or ahead. -/
theorem occurrences_enqueued_or_ahead (w : CronWorker) (s0 s : CronDb) (r : Schedule)
    (hr : r ∈ s0.schedules.rows) (hz : r.zone.Apart) (hs : r.dstStrategy = .allof)
    (hsingleton : w.singleton r.actor = false)
    (h : Reach (cronStep w) (Sheltered w r.toScheduleDef) s0 s) :
    r.toScheduleDef.Keeps r.nextFireAt s :=
  h.invariant ⟨r, hr, rfl, fun _ hx _ => .inr hx⟩
    fun _ _ _ hkept hok hstep => hkept.step hz hs hsingleton hok hstep

def onceBackChange (k : Nat) : Int := k * day

def onceBackOffset : Nat → Int
  | 0 => 60 * minute
  | _ + 1 => 0

lemma onceBack_increasing (k : Nat) : onceBackChange k < onceBackChange (k + 1) := by
  simp only [onceBackChange, day, minute]
  omega

lemma onceBack_bounded : ∀ k, -day < onceBackOffset k ∧ onceBackOffset k < day
  | 0 => by decide
  | k + 1 => by
    simp only [onceBackOffset]
    decide

lemma onceBack_ordered : ∀ k, onceBackChange k + max (onceBackOffset k) (onceBackOffset (k + 1)) ≤
      onceBackChange (k + 1) + min (onceBackOffset (k + 1)) (onceBackOffset (k + 2))
  | 0 => by decide
  | k + 1 => by
    simp only [onceBackChange, onceBackOffset, day, minute]
    omega

def onceBackZone : Zone where
  change := onceBackChange
  offset := onceBackOffset
  increasing := onceBack_increasing
  bounded := onceBack_bounded
  ordered := onceBack_ordered

lemma onceBack_changeAligned (k : Nat) : minute ∣ onceBackChange k := by
  simp only [onceBackChange, day, minute]
  omega

lemma onceBack_offsetAligned : ∀ k, minute ∣ onceBackOffset k
  | 0 => by decide
  | k + 1 => Int.dvd_zero _

lemma onceBack_affects (h : onceBackZone.Affects k w) : k = 0 ∧ w < 60 * minute := by
  cases k with
  | zero => exact ⟨rfl, h.2.trans_le (by decide)⟩
  | succ k => exact absurd rfl h.offset_ne

lemma onceBack_settles (w : Int) : ∃ n : Nat, ∀ k, ¬ onceBackZone.Affects k (w + minute * n) := by
  refine ⟨(60 * minute - w).toNat, fun k hk => ?_⟩
  have := (onceBack_affects hk).2
  simp only [minute] at this
  omega

def onceBack : MinuteZone where
  toZone := onceBackZone
  name := "Etc/OnceBack"
  changeAligned := onceBack_changeAligned
  offsetAligned := onceBack_offsetAligned
  settles := onceBack_settles
  utc h := absurd h (by decide)

lemma onceBack_apart : onceBack.Apart := by
  intro i j hij _ hj
  have hfirst : onceBackZone.Affects j (onceBackZone.first j) := ⟨le_rfl, hj⟩
  exact absurd (onceBack_affects hfirst).1 (Nat.ne_zero_of_lt hij)

lemma onceBack_wall (h : u < 0) : onceBack.wall u = u + 60 * minute :=
  Zone.wall_eq (Nat.le_zero.mp (Zone.era_le_of_lt_change (show u < onceBack.change 0 from h)))

lemma onceBack_affects_zero : onceBack.Affects 0 0 := ⟨by decide, by decide⟩

def overlapSchedule : ScheduleDef where
  id := 0
  actor := "report"
  zone := onceBack
  cron := everyMinute onceBack
  dstStrategy := .allof
  payloadFactory := none

def overlapRow : Schedule := ⟨overlapSchedule, ⟨-61 * minute, true, 0⟩⟩

lemma overlap_distinct : ([overlapRow].map fun r => r.id).Nodup := nodup_singleton _

def overlapDb : CronDb where
  schedules := ⟨[overlapRow], overlap_distinct⟩
  jobs := []
  actorConfigs _ := some ⟨none⟩
  enqueued := []

def overlapWorker (cap : Int) : CronWorker where
  actorPolicies := [("report", ⟨false, some cap⟩)]
  catchUpWindow := 60 * second
  autoDisableThreshold := 5

def overlapTick : Tick where
  serverNow := -61 * minute
  transactionNow := -61 * minute
  limit := 100
  payload _ := .resolved
  newJobId _ n := n
  struck := []

lemma overlap_answer : computeNextFireAfter overlapSchedule.cron (-61 * minute) .allof =
      [⟨0, false⟩, ⟨0, true⟩] := by
  have hwall : onceBack.wall (-61 * minute) = -minute := onceBack_wall (by decide)
  have hnext : onceBack.wall (-61 * minute + minute) = 0 := onceBack_wall (by decide)
  have hunaff : ∀ k, ¬ onceBack.Affects k (onceBack.wall (-61 * minute)) := by
    intro k hk
    rw [hwall] at hk
    obtain ⟨rfl, -⟩ := onceBack_affects hk
    exact absurd hk.1 (by decide)
  have hpair := answer_of_unaffected (c := everyMinute onceBack) hunaff
    (getNextAware_everyMinute (Int.dvd_mul_left ..)) ⟨0, hnext ▸ onceBack_affects_zero⟩
  rw [hnext] at hpair
  exact hpair

def overlapPlan (cap : Int) : FireSuccess where
  row := overlapRow
  fireAt := -61 * minute
  enqueueArgs := [fireArgs (overlapWorker cap) overlapTick overlapSchedule ⟨none⟩ 0 none,
    fireArgs (overlapWorker cap) overlapTick overlapSchedule ⟨none⟩ 1 (some ⟨0, true⟩)]
  nextFireAt := ⟨0, false⟩

lemma overlap_due : overlapDb.due overlapTick = [overlapRow] := rfl

lemma overlap_planFire (cap : Int) :
    planFire (overlapWorker cap) overlapDb.actorConfigs overlapTick overlapRow =
      .ok (overlapPlan cap) :=
  planFire_of_pair rfl (fun h => by cases h.1) (by decide) rfl rfl overlap_answer

lemma overlap_successes (cap : Int) :
    overlapDb.successes (overlapWorker cap) overlapTick = [overlapPlan cap] := by
  rw [CronDb.successes, overlap_due, filterMap_cons, overlap_planFire]
  exact congrArg (· :: []) (skipAlreadyDelivered_nil _)

lemma overlap_deferred (cap : Int) : overlapDb.deferred (overlapWorker cap) overlapTick = [] := by
  rfl

lemma overlap_policies (cap : Int) : ¬ (overlapWorker cap).actorPolicies.isEmpty = true :=
  Bool.false_ne_true

lemma overlap_turns (cap : Int) :
    overlapDb.turns (overlapWorker cap) overlapTick = [(⟨[], []⟩, overlapPlan cap)] := by
  rw [CronDb.turns, if_neg (overlap_policies cap), overlap_successes]
  rfl

lemma overlap_sheltered :
    Sheltered (overlapWorker 2) overlapSchedule overlapDb (.tick overlapTick) := by
  rintro r hr -
  obtain rfl := mem_singleton.mp hr
  refine ⟨by decide, ?_, fun turn hturn _ cap hcap => ?_, ?_⟩
  · rintro ⟨hfactory, -⟩
    cases hfactory
  · rw [overlap_turns] at hturn
    obtain rfl := mem_singleton.mp hturn
    cases hcap
    decide
  · rintro x - - ⟨j, hj, -⟩
    cases hj

theorem overlap_both_kept : overlapRow ∈ overlapDb.schedules.rows ∧
      overlapDb.remaining (overlapWorker 2) ⟨[], []⟩ "report" 2 = 2 ∧
      overlapSchedule.Keeps overlapRow.nextFireAt (overlapDb.tick (overlapWorker 2) overlapTick) :=
  ⟨mem_singleton_self _, rfl, occurrences_enqueued_or_ahead (overlapWorker 2) overlapDb _ overlapRow
      (mem_singleton_self _) onceBack_apart rfl rfl (.next .start overlap_sheltered rfl)⟩

lemma overlap_judged : overlapDb.judged (overlapWorker 1) overlapTick =
    ([(overlapPlan 1).trim 1 ⟨0, true⟩], []) := by
  rw [CronDb.judged, if_neg (overlap_policies 1), overlap_successes]
  rfl

/-- With room for one job the plan is trimmed, and the first pass is neither enqueued nor ahead. -/
theorem overlap_trimmed_lost :
    overlapDb.turns (overlapWorker 1) overlapTick = [(⟨[], []⟩, overlapPlan 1)] ∧
      overlapDb.remaining (overlapWorker 1) ⟨[], []⟩ "report" 1 = 1 ∧
      ((overlapDb.tick (overlapWorker 1) overlapTick).schedules.rows.map fun r =>
        r.nextFireAt) = [0] ∧
      (overlapDb.tick (overlapWorker 1) overlapTick).enqueued = [(0, -61 * minute)] ∧
      onceBack.Affects 0 (onceBack.wall (-60 * minute)) ∧ overlapSchedule.Owes (-60 * minute) ∧
      ¬ overlapSchedule.Keeps overlapRow.nextFireAt
        (overlapDb.tick (overlapWorker 1) overlapTick) := by
  have hwall : onceBack.wall (-60 * minute) = 0 := onceBack_wall (by decide)
  have howes : overlapSchedule.Owes (-60 * minute) :=
    .inl ⟨MinuteZone.wall_aligned.mpr (Int.dvd_mul_left ..), .inl rfl⟩
  have hlanded : overlapDb.landed (overlapWorker 1) overlapTick =
      [(overlapPlan 1).trim 1 ⟨0, true⟩] := by
    rw [CronDb.landed, overlap_judged]
    rfl
  have hsuppressed : overlapDb.suppressed (overlapWorker 1) overlapTick = [] := by
    rw [CronDb.suppressed, overlap_judged, overlap_deferred]
    rfl
  have hrows : ((overlapDb.tick (overlapWorker 1) overlapTick).schedules.rows.map fun r =>
      r.nextFireAt) = [0] := by
    have hlater := onceBack_affects_zero.instant_true
    rw [CronDb.tick, hlanded, hsuppressed]
    refine congrArg (· :: []) ((strikeFailed_nextFireAt _ _).trans hlater)
  have henqueued : (overlapDb.tick (overlapWorker 1) overlapTick).enqueued =
      [(0, -61 * minute)] := by
    rw [CronDb.tick, hlanded]
    rfl
  refine ⟨overlap_turns 1, rfl, hrows, henqueued, hwall ▸ onceBack_affects_zero, howes, ?_⟩
  rintro ⟨r, hr, -, h⟩
  have hzero := mem_singleton.mp (hrows ▸ mem_map_of_mem hr)
  rcases h (-60 * minute) (by decide) howes with hold | hahead
  · rw [henqueued] at hold
    exact absurd hold (by decide)
  · rw [hzero] at hahead
    exact absurd hahead (by decide)

end TaskQ.Cron
