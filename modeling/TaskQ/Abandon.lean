import TaskQ.TerminalFence

namespace TaskQ.Jobs

open Runs Table List

/-- `POLL_CANCEL_FLAGS_SQL`. -/
def Row.polled (j : Row) (worker : WorkerId) : Prop :=
  j.lockedByWorker = some worker ∧ j.cancelRequestedAt.isSome ∧ j.status = .running

instance (j : Row) : Decidable (j.polled worker) := inferInstanceAs (Decidable (_ ∧ _ ∧ _))

/-- The job table and the controllers' abandons, `queue`d or `detached`, each with the claim it was
queued for. -/
structure Controller where
  history : History := {}
  queue : List (JobId × Claim) := []
  detached : List (JobId × Claim) := []
  moved : List (JobId × Claim × Int) := []

inductive Tick where
  /-- A statement of anyone else; only the controllers send `mark_abandoned`. -/
  | db (a : Act)
  /-- `run_in_tx` queues the row it polled past both graces. -/
  | queue (id : JobId) (c : Claim)
  /-- `run_post_tx` takes the entry and its write commits. -/
  | drain (id : JobId) (c : Claim) (now : Stamp) (p : Progress)
  | requeue (id : JobId) (c : Claim)
  /-- The drain is cut off: the entry goes back, the shielded write goes on. -/
  | detach (id : JobId) (c : Claim)
  | land (id : JobId) (c : Claim) (now : Stamp) (p : Progress)
  /-- During a shutdown a held entry is drained by `mark_cancelled`. -/
  | drainShutdown (id : JobId) (c : Claim) (now : Stamp) (p : Progress)

def Act.abandons : Act → Bool
  | .run (.markAbandoned _ _) _ => true
  | _ => false

def Controller.abandon (s : Controller) (id : JobId) (c : Claim) (now : Stamp) (p : Progress) :
    Controller :=
  match (s.history.rows id).bind fun j => j.markAbandoned now p with
  | none => s
  | some j =>
    { s with
      history := { s.history with rows := s.history.rows.set id j }
      moved := (id, c, j.claimEpoch) :: s.moved }

def Controller.step (s : Controller) : Tick → Option Controller
  | .db a =>
    if a.abandons then none else (s.history.step a).map fun h => { s with history := h }
  | .queue id c =>
    if (id, c) ∈ s.history.claims ∧
        ∃ j ∈ s.history.rows id, j.polled c.worker ∧ j.cancelPhase ≠ .none then
      some { s with queue := s.queue ++ [(id, c)] }
    else none
  | .drain id c now p =>
    if (id, c) ∈ s.queue then
      some (Controller.abandon { s with queue := s.queue.erase (id, c) } id c now p)
    else none
  | .requeue id c =>
    if (id, c) ∈ s.queue then some { s with queue := (id, c) :: s.queue.erase (id, c) } else none
  | .detach id c =>
    if (id, c) ∈ s.queue then
      some { s with
        queue := (id, c) :: s.queue.erase (id, c), detached := (id, c) :: s.detached }
    else none
  | .land id c now p =>
    if (id, c) ∈ s.detached then
      some (Controller.abandon { s with detached := s.detached.erase (id, c) } id c now p)
    else none
  | .drainShutdown id c now p =>
    if (id, c) ∈ s.queue then
      (s.history.step (.write id c now (.cancelled p))).map fun h =>
        { s with history := h, queue := s.queue.erase (id, c) }
    else none

def Controller.pending (s : Controller) (id : JobId) (c : Claim) : Prop :=
  (id, c) ∈ s.queue ∨ (id, c) ∈ s.detached

def Tick.queued : Tick → Option (JobId × Claim)
  | .queue id c => some (id, c)
  | _ => none

def Tick.escalation : Tick → Option (WorkerId × List JobId)
  | .db (.run (.cancelEscalation worker) ids) => some (worker, ids)
  | _ => none

/-- Abandons are queued for the row's own claim, and phase 2 is entered with no abandon of another.
-/
def OwnClaim (s : Controller) (a : Tick) : Prop :=
  (∀ q ∈ a.queued, ∀ j ∈ s.history.rows q.1, j.claimEpoch = q.2.epoch) ∧
    ∀ e ∈ a.escalation, ∀ id ∈ e.2, ∀ j ∈ s.history.rows id, (j.cancelEscalation e.1).isSome →
      ∀ x ∈ s.queue ++ s.detached, x.1 = id → x.2.epoch = j.claimEpoch

instance (s : Controller) : Decidable (OwnClaim s a) :=
  inferInstanceAs (Decidable ((∀ q ∈ a.queued, ∀ j ∈ s.history.rows q.1, _) ∧
    ∀ e ∈ a.escalation, ∀ id ∈ e.2, ∀ j ∈ s.history.rows id, _ → ∀ x ∈ s.queue ++ s.detached, _))

lemma History.step_row {s s' : History} {id : JobId} (hs : s.step a = some s')
    (hj : s'.rows id = some j') :
    s.rows id = some j' ∨ (∃ n now, j' = NewJob.row n now) ∨ ∃ j, s.rows id = some j ∧
      ((∃ worker, Claimed worker j j') ∨ (∃ f, Landing f j j') ∨
        ∃ stmt ids, a = .run stmt ids ∧ id ∈ ids ∧ stmt.apply j = some j') := by
  cases a with
  | enqueue n now =>
    obtain ⟨-, rfl⟩ := matched hs
    rcases set_some hj with ⟨-, rfl⟩ | ⟨-, hj⟩
    · exact .inr (.inl ⟨n, now, rfl⟩)
    · exact .inl hj
  | claim k worker now lease =>
    obtain ⟨i, hi, rfl⟩ := Option.map_eq_some_iff.mp hs
    obtain ⟨j, hk, hc⟩ := Option.bind_eq_some_iff.mp hi
    rcases set_some hj with ⟨rfl, rfl⟩ | ⟨-, hj⟩
    · exact .inr (.inr ⟨j, hk, .inl ⟨worker, Row.claimed hc⟩⟩)
    · exact .inl hj
  | write k c now o =>
    obtain ⟨-, rfl | ⟨j, w, hk, hw, rfl⟩⟩ := History.write_cases hs
    · exact .inl hj
    rcases set_some hj with ⟨rfl, rfl⟩ | ⟨-, hj⟩
    · exact .inr (.inr ⟨j, hk, .inr (.inl ⟨c.fence, o.landing hw⟩)⟩)
    · exact .inl hj
  | run stmt ids =>
    cases hs
    rcases Table.update_some hj with hj | ⟨hid, j, hk, happly⟩
    · exact .inl hj
    · exact .inr (.inr ⟨j, hk, .inr (.inr ⟨stmt, ids, rfl, hid, happly⟩)⟩)

structure Table.Sound (t : Table) : Prop where
  leased : ∀ id j, t id = some j → j.status = .running → j.lockExpiresAt.isSome
  quiet : ∀ id j, t id = some j → j.waiting → j.cancelPhase = .none

lemma Row.not_waiting {j : Row} (h : j.status = .running) : ¬ j.waiting := by
  rintro (hw | hw) <;> rw [h] at hw <;> cases hw

lemma Table.Sound.step {s s' : History} (h : s.rows.Sound) (hs : s.step a = some s') :
    s'.rows.Sound := by
  refine ⟨fun id j' hj' hrun => ?_, fun id j' hj' hw => ?_⟩
  · rcases History.step_row hs hj' with hj | ⟨n, now, rfl⟩ |
      ⟨j, hj, ⟨worker, hc⟩ | ⟨f, hl⟩ | ⟨stmt, ids, -, -, happly⟩⟩
    · exact h.leased id j' hj hrun
    · exact absurd (n.row_waiting now) (Row.not_waiting hrun)
    · exact hc.lease
    · exact absurd hrun hl.running
    · obtain ⟨hjr, hx⟩ := (Stmt.changes happly).running hrun
      exact hx (h.leased id j hj hjr)
  · rcases History.step_row hs hj' with hj | ⟨n, now, rfl⟩ |
      ⟨j, hj, ⟨worker, hc⟩ | ⟨f, hl⟩ | ⟨stmt, ids, -, -, happly⟩⟩
    · exact h.quiet id j' hj hw
    · rfl
    · exact absurd hw (Row.not_waiting hc.running)
    · exact hl.waiting hw
    rcases (Stmt.changes happly).waiting hw with hp | ⟨hjw, hp⟩
    · exact hp
    · exact hp.trans (h.quiet id j hj hjw)

structure Controller.Sound (s : Controller) : Prop where
  table : s.history.rows.Sound
  own : ∀ id j, s.history.rows id = some j → j.status = .running → j.cancelPhase = .forced →
    ∀ c, s.pending id c → c.epoch = j.claimEpoch
  moved : ∀ x ∈ s.moved, x.2.1.epoch = x.2.2

section
variable {s s' : Controller} {id : JobId} {c : Claim}

namespace Controller.Sound

lemma mono (h : s.Sound) (hrows : s'.history = s.history)
    (hmoved : s'.moved = s.moved) (hp : ∀ id c, s'.pending id c → s.pending id c) : s'.Sound where
  table := hrows ▸ h.table
  own id j hj hrun hf c hc := h.own id j (hrows ▸ hj) hrun hf c (hp id c hc)
  moved := hmoved ▸ h.moved

lemma queue (h : s.Sound)
    (hown : ∀ j, s.history.rows id = some j → j.claimEpoch = c.epoch) :
    Controller.Sound { s with queue := s.queue ++ [(id, c)] } where
  table := h.table
  own k j hj hrun hf d hd := by
    rcases hd with hd | hd
    · rcases mem_append.mp hd with hd | hd
      · exact h.own k j hj hrun hf d (.inl hd)
      · cases mem_singleton.mp hd
        exact (hown j hj).symm
    · exact h.own k j hj hrun hf d (.inr hd)
  moved := h.moved

lemma db {h' : History} (h : s.Sound) (hs : s.history.step a = some h')
    (hown : ∀ worker ids, a = .run (.cancelEscalation worker) ids → ∀ id ∈ ids,
      ∀ j ∈ s.history.rows id, (j.cancelEscalation worker).isSome → ∀ c, s.pending id c →
        c.epoch = j.claimEpoch) : Controller.Sound { s with history := h' } where
  table := h.table.step hs
  own id j' hj' hrun hforce c hc := by
    rcases History.step_row hs hj' with hj | ⟨n, now, rfl⟩ |
      ⟨j, hj, ⟨worker, hclaim⟩ | ⟨f, hl⟩ | ⟨stmt, ids, ha, hid, happly⟩⟩
    · exact h.own id j' hj hrun hforce c hc
    · exact absurd (n.row_waiting now) (Row.not_waiting hrun)
    · -- a claim starts without a cancel
      have hquiet := h.table.quiet id j hj (.inl hclaim.pending)
      rw [hclaim.phase, hquiet] at hforce
      cases hforce
    · exact absurd hrun hl.running
    · have hch := Stmt.changes happly
      rw [hch.epoch]
      rcases hch.forced hrun hforce with hf | ⟨worker, rfl⟩
      · exact h.own id j hj (hch.running hrun).1 hf c hc
      · exact hown worker ids ha id hid j hj (by rw [Option.isSome_iff_exists]; exact ⟨j', happly⟩)
          c hc
  moved := h.moved

lemma abandon (h : s.Sound)
    (hown : ∀ j, s.history.rows id = some j → j.status = .running → j.cancelPhase = .forced →
      c.epoch = j.claimEpoch) : (s.abandon id c now p).Sound := by
  unfold Controller.abandon
  split
  · exact h
  next j' hj' =>
    obtain ⟨j, hj, hmark⟩ := Option.bind_eq_some_iff.mp hj'
    obtain ⟨⟨hrun, hphase⟩, rfl⟩ := matched hmark
    have hforce : j.cancelPhase = .forced := by
      refine hphase.resolve_right fun hnone => ?_
      have hleased := h.table.leased id j hj hrun
      rw [hnone] at hleased
      cases hleased
    refine ⟨⟨fun k i hi hir => ?_, fun k i hi hiw => ?_⟩, fun k i hi hir => ?_,
      forall_mem_cons.mpr ⟨hown j hj hrun hforce, h.moved⟩⟩
    · rcases set_some hi with ⟨-, rfl⟩ | ⟨-, hi⟩
      · cases hir
      · exact h.table.leased k i hi hir
    · rcases set_some hi with ⟨-, rfl⟩ | ⟨-, hi⟩
      · rcases hiw with hiw | hiw <;> cases hiw
      · exact h.table.quiet k i hi hiw
    · rcases set_some hi with ⟨-, rfl⟩ | ⟨-, hi⟩
      · cases hir
      · exact h.own k i hi hir

lemma step (h : s.Sound) (hown : OwnClaim s a) (hs : s.step a = some s') :
    s'.Sound := by
  cases a with
  | db a =>
    simp only [Controller.step] at hs
    split at hs
    · cases hs
    obtain ⟨h', hh, rfl⟩ := Option.map_eq_some_iff.mp hs
    refine h.db hh fun worker ids ha id hid j hj hesc c hc => ?_
    subst ha
    exact hown.2 (worker, ids) rfl id hid j hj hesc (id, c) (mem_append.mpr hc) rfl
  | queue id c =>
    obtain ⟨-, rfl⟩ := matched hs
    exact h.queue fun j hj => hown.1 (id, c) rfl j hj
  | drain id c now p =>
    obtain ⟨hmem, rfl⟩ := matched hs
    have hrest : Controller.Sound { s with queue := s.queue.erase (id, c) } :=
      h.mono rfl rfl fun _ _ hp => hp.imp_left mem_of_mem_erase
    exact hrest.abandon fun j hj hrun hf => h.own id j hj hrun hf c (.inl hmem)
  | requeue id c =>
    obtain ⟨hmem, rfl⟩ := matched hs
    exact h.mono rfl rfl fun k d hp => hp.imp_left fun hd => by
      rcases mem_cons.mp hd with hd | hd
      · exact hd ▸ hmem
      · exact mem_of_mem_erase hd
  | detach id c =>
    obtain ⟨hmem, rfl⟩ := matched hs
    refine h.mono rfl rfl fun k d hp => ?_
    rcases hp with hd | hd <;> rcases mem_cons.mp hd with hd | hd
    · exact .inl (hd ▸ hmem)
    · exact .inl (mem_of_mem_erase hd)
    · exact .inl (hd ▸ hmem)
    · exact .inr hd
  | land id c now p =>
    obtain ⟨hmem, rfl⟩ := matched hs
    have hrest : Controller.Sound { s with detached := s.detached.erase (id, c) } :=
      h.mono rfl rfl fun _ _ hp => hp.imp_right mem_of_mem_erase
    exact hrest.abandon fun j hj hrun hf => h.own id j hj hrun hf c (.inr hmem)
  | drainShutdown id c now p =>
    simp only [Controller.step] at hs
    split at hs
    · obtain ⟨h', hh, rfl⟩ := Option.map_eq_some_iff.mp hs
      exact (h.db hh nofun).mono rfl rfl fun _ _ hp => hp.imp_left mem_of_mem_erase
    · cases hs

end Controller.Sound

/-- In every run that keeps to `OwnClaim`, an abandon moves only the claim it was queued for. -/
theorem abandon_moves_own_claim (h : Reach Controller.step OwnClaim {} s) :
    ∀ x ∈ s.moved, x.2.1.epoch = x.2.2 := by
  have h0 : Controller.Sound {} :=
    ⟨⟨fun _ _ h => (by cases h), fun _ _ h => (by cases h)⟩, fun _ _ h => (by cases h), nofun⟩
  exact (h.invariant h0 fun _ _ _ hI hok hs => Controller.Sound.step hI hok hs).moved

def heldUpAbandon : List Tick :=
  [.db (.enqueue { id := 1, actor := "report" } 0), .db (.claim 1 7 10 1000000),
    .db (.run (.cancelRequest 20) [1]), .db (.run (.cancelEscalation 7) [1]),
    .queue 1 ⟨7, 1, 1⟩, .requeue 1 ⟨7, 1, 1⟩,
    .db (.run (.sweepReclaim 100000000 100000000 60000000 1000000) [1]),
    .db (.run (.retryJob 110000000) [1]), .db (.claim 1 8 120000000 1000000),
    .db (.run (.cancelRequest 120000010) [1]), .db (.run (.cancelEscalation 8) [1]),
    .drain 1 ⟨7, 1, 1⟩ 120000020 {}]

theorem heldUpAbandon_moves_later_claim :
    ∃ s, Reach Controller.step (fun _ _ => True) {} s ∧ (1, ⟨7, 1, 1⟩, 2) ∈ s.moved :=
  ⟨final Controller.step {} heldUpAbandon, .of_final (by decide), by decide⟩

def promptAbandon : List Tick :=
  [.db (.enqueue { id := 1, actor := "report" } 0), .db (.claim 1 7 10 1000000),
    .db (.run (.cancelRequest 20) [1]), .db (.run (.cancelEscalation 7) [1]),
    .queue 1 ⟨7, 1, 1⟩, .requeue 1 ⟨7, 1, 1⟩, .drain 1 ⟨7, 1, 1⟩ 30 {},
    .db (.run (.retryJob 40) [1]), .db (.claim 1 8 50 1000000),
    .db (.run (.cancelRequest 60) [1]), .db (.run (.cancelEscalation 8) [1]),
    .queue 1 ⟨8, 2, 2⟩, .drain 1 ⟨8, 2, 2⟩ 70 {}]

theorem abandon_moves_own_claim_promptAbandon :
    (final Controller.step {} promptAbandon).moved = [(1, ⟨8, 2, 2⟩, 2), (1, ⟨7, 1, 1⟩, 1)] ∧
      ∀ x ∈ (final Controller.step {} promptAbandon).moved, x.2.1.epoch = x.2.2 :=
  ⟨by decide, abandon_moves_own_claim (.of_decide (by decide) (by decide))⟩

end

end TaskQ.Jobs
