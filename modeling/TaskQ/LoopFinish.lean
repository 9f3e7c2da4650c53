import TaskQ.LoopResume

namespace TaskQ.Loops
open Runs Recovery LoopDecl

def Driver.phase (d : Driver α) : Nat :=
  match d.pc with
  | .top _ _ => if d.rounds = 0 then 12 else 7
  | .ended => 11
  | .readState => 9
  | .init => 8
  | .memo _ _ => 6
  | .claimLedger _ _ => 5
  | .body _ _ => 4
  | .record _ _ => 3
  | .advance _ _ => 2
  | .exhaust _ _ | .finalize _ => 1

def Recovery.phase (s : Recovery V Doc) : Nat :=
  if s.row.status.terminal then 0 else s.driver.elim 10 fun p => p.2.phase

def LoopDecl.rank (D : LoopDecl V Doc) (s : Recovery V Doc) : Nat :=
  (D.spec.cap + 1 - s.counter) * 13 + s.phase

def Recovery.Manned (s : Recovery V Doc) : Prop :=
  s.row.status ≠ .crashed ∧ (s.row.status = .running → s.driver.isSome = true)

section
variable {D : LoopDecl V Doc} {s s' : Recovery V Doc} {c : Identity} {d : Driver V} {i : Nat}

lemma Recovery.phase_live (hopen : s.row.status.terminal = false)
    (hd : s.driver = some (c, d)) : s.phase = d.phase := by
  rw [phase, hopen, hd]
  rfl

lemma Driver.phase_le (d : Driver α) : d.phase ≤ 12 := by
  rw [phase]
  split
  · split
    all_goals decide
  all_goals decide

lemma Recovery.phase_le (s : Recovery V Doc) : s.phase ≤ 12 := by
  rw [phase]
  split
  · decide
  cases s.driver with
  | none => simp
  | some p => exact p.2.phase_le

lemma LoopDecl.rank_lt (hcnt : s'.counter = s.counter) (hphase : s'.phase < s.phase) :
    D.rank s' < D.rank s := by
  rw [rank, rank, hcnt]
  exact Nat.add_lt_add_left hphase _

lemma LoopDecl.rank_lt_of_advance (hcnt : s'.counter = s.counter + 1)
    (hle : s.counter + 1 ≤ D.spec.cap) : D.rank s' < D.rank s := by
  have hphase := s'.phase_le
  rw [rank, rank, hcnt]
  omega

lemma phase_topNext {spec : LoopSpec α} :
    ({ rounds := n, pc := topNext spec i carry false } : Driver α).phase < 7 := by
  rw [topNext, if_neg Bool.false_ne_true]
  split
  · simp [Driver.phase]
  · simp [Driver.phase]

lemma phase_memoNext {memo : Option (IterRow α)} :
    ({ rounds := n, pc := memoNext i carry memo } : Driver α).phase < 6 := by
  cases memo with
  | none => simp [memoNext, Driver.phase]
  | some l =>
    rw [memoNext]
    split
    all_goals simp [Driver.phase]

lemma phase_recordNext {value : Returned α} :
    ({ rounds := n, pc := recordNext i value } : Driver α).phase < 3 := by
  cases value with
  | done | refine | other => simp [recordNext, Driver.phase]

lemma Recovery.Manned.of_running (hst : s.row.status = .running)
    (hd : s.driver.isSome = true) : s.Manned :=
  ⟨by rw [hst]; decide, fun _ => hd⟩

lemma Recovery.Manned.of_idle
    (h : (s.row.status = .crashed || s.row.status = .running) = false) : s.Manned := by
  obtain ⟨hcrash, hrun⟩ := Bool.or_eq_false_iff.mp h
  exact ⟨of_decide_eq_false hcrash, fun hst => absurd hst (of_decide_eq_false hrun)⟩

lemma LoopDecl.Sound.drive_descends (h : D.Sound s) (hopen : s.row.status.terminal = false)
    (hd : s.driver = some (c, d)) (hpc : d.pc ≠ .ended) :
    ∃ s', D.driveLoop s c d = some s' ∧ s'.Manned ∧ D.rank s' < D.rank s := by
  obtain ⟨hholds, hpoint⟩ := (h.live hopen).2 c d hd
  have hphase := phase_live hopen hd
  have hrun : s.row.status = .running := (LoopRow.holds_iff.mp hholds).1
  -- the driver moves on, and the row keeps its counter
  have hmoves : ∀ d' : Driver V, ∀ u : Recovery V Doc, u.driver = some (c, d') →
      u.row.status = .running → u.counter = s.counter → d'.phase < d.phase →
      u.Manned ∧ D.rank u < D.rank s := by
    intro d' u hd' hst hcnt hlt
    refine ⟨.of_running hst (by rw [hd']; rfl), rank_lt hcnt ?_⟩
    rw [phase_live (by rw [hst]; rfl) hd', hphase]
    exact hlt
  rw [PcSound] at hpoint
  rw [Driver.phase] at hmoves
  rw [driveLoop]
  cases hat : d.pc with
  | readState =>
    rw [hat] at hpoint hmoves
    refine ⟨_, rfl, hmoves _ _ rfl hrun rfl ?_⟩
    cases s.row.iteration with
    | none => exact Nat.lt_succ_self 8
    | some i =>
      change (if d.rounds = 0 then 12 else 7) < 9
      rw [hpoint]
      decide
  | init =>
    rw [hat] at hpoint hmoves
    rw [loopInit_running hrun]
    refine ⟨_, rfl, hmoves _ _ rfl hrun ?_ ?_⟩
    · change 0 = s.counter
      rw [counter, hpoint.2]
      rfl
    · change (if d.rounds = 0 then 12 else 7) < 8
      rw [hpoint.1]
      decide
  | top i raw =>
    rw [hat] at hmoves
    cases hrounds : d.rounds with
    | zero =>
      rw [hrounds] at hmoves
      exact ⟨_, rfl, hmoves _ _ rfl hrun rfl (Nat.lt_succ_self 11)⟩
    | succ n =>
      rw [hrounds] at hmoves
      exact ⟨_, rfl, hmoves _ _ rfl hrun rfl phase_topNext⟩
  | memo i raw =>
    rw [hat] at hmoves
    exact ⟨_, rfl, hmoves _ _ rfl hrun rfl phase_memoNext⟩
  | claimLedger i raw =>
    rw [hat] at hmoves
    exact ⟨_, rfl, hmoves _ _ rfl hrun rfl (Nat.lt_succ_self 4)⟩
  | body i raw =>
    rw [hat] at hpoint hmoves
    obtain ⟨-, ⟨x, hraw, -⟩, -⟩ := hpoint
    dsimp only
    rw [hraw]
    exact ⟨_, rfl, hmoves _ _ rfl hrun rfl (Nat.lt_succ_self 3)⟩
  | record i value =>
    rw [hat] at hmoves
    exact ⟨_, rfl, hmoves _ _ rfl hrun rfl phase_recordNext⟩
  | advance i raw =>
    rw [hat] at hpoint hmoves
    dsimp only
    cases hrow : loopAdvance D.rowSpec c (i + 1) (D.codec.write raw) s.row with
    | none => exact ⟨_, rfl, hmoves _ _ rfl hrun rfl (Nat.lt_succ_self 1)⟩
    | some row =>
      have hle : i + 1 ≤ D.rowSpec.cap := loopAdvance_below hrow hpoint.1
      have hcnt := counter_eq hpoint.1
      obtain ⟨-, rfl⟩ := loopAdvance_some hrow
      refine ⟨_, rfl, .of_running hrun rfl, rank_lt_of_advance ?_ ?_⟩
      · rw [hcnt]
        rfl
      · rw [hcnt]
        exact hle
  | exhaust errorClass message =>
    rw [hat] at hpoint
    obtain ⟨rfl, rfl, -⟩ := hpoint
    obtain ⟨hstatus, -⟩ := exhaustLoop_holds hholds
    refine ⟨_, rfl, .of_idle (by rw [hstatus]; rfl), rank_lt ?_ ?_⟩
    · exact congrArg (·.getD 0) exhaustLoop_kept.1
    rw [hphase, Driver.phase, hat, phase]
    rw [hstatus]
    exact Nat.one_pos
  | finalize payload =>
    dsimp only
    rw [if_pos hholds, finalizeSuccess, if_pos hholds]
    refine ⟨_, rfl, .of_idle rfl, rank_lt rfl ?_⟩
    rw [hphase, Driver.phase, hat]
    exact Nat.one_pos
  | ended => exact absurd hat hpc

lemma LoopDecl.Sound.descends (h : D.Sound s) (hman : s.Manned)
    (hopen : s.row.status.terminal = false) :
    ∃ a s', Smooth s a ∧ D.step s a = some s' ∧ s'.Manned ∧ D.rank s' < D.rank s := by
  cases hd : s.driver with
  | none =>
    have hwaits : s.row.status = .pending ∨ s.row.status = .scheduled := by
      have hidle : s.row.status ≠ .running := by
        intro hrun
        have hsome := hman.2 hrun
        rw [hd] at hsome
        cases hsome
      cases hst : s.row.status with
      | pending => exact .inl rfl
      | scheduled => exact .inr rfl
      | running => exact absurd hst hidle
      | succeeded | failed | cancelled | crashed | abandoned =>
        rw [hst] at hopen
        cases hopen
    refine ⟨.claim 0 0, _, trivial, if_pos ?_, .of_running rfl rfl, rank_lt rfl ?_⟩
    · rcases hwaits with hst | hst
      · simp [hd, hst]
      · simp [hd, hst]
    · rw [phase_live rfl rfl, phase, hopen, hd]
      exact Nat.lt_succ_self 9
  | some p =>
    obtain ⟨c, d⟩ := p
    by_cases hpc : d.pc = .ended
    · have hholds := ((h.live hopen).2 c d hd).1
      refine ⟨.park, _, trivial, if_pos ?_, .of_idle rfl, rank_lt rfl ?_⟩
      · rw [hd]
        simp [hpc, Pc.isEnded, hholds]
      · rw [phase_live hopen hd, Driver.phase, hpc]
        exact Nat.lt_succ_self 10
    · obtain ⟨s', hdrive, hmanned', hlt⟩ := h.drive_descends hopen hd hpc
      refine ⟨.drive, s', trivial, ?_, hmanned', hlt⟩
      rw [LoopDecl.step, hd]
      exact hdrive

lemma LoopDecl.Sound.finishes (hs : D.Survives) (h : D.Sound s) (hman : s.Manned) :
    ∃ u e, Reach D.step Smooth s u ∧ u.ending = some e ∧ D.endsAt u.counter = some e := by
  have hdescends : ∀ t : Recovery V Doc, D.Sound t ∧ t.Manned → t.row.status.terminal = true ∨
      ∃ a t', Smooth t a ∧ D.step t a = some t' ∧ (D.Sound t' ∧ t'.Manned) ∧
        D.rank t' < D.rank t := by
    rintro t ⟨hsound, hman⟩
    cases hst : t.row.status.terminal with
    | true => exact .inl rfl
    | false =>
      obtain ⟨a, t', hok, hstep, hmanned', hlt⟩ := hsound.descends hman hst
      exact .inr ⟨a, t', hok, hstep, ⟨hsound.step hs hstep, hmanned'⟩, hlt⟩
  obtain ⟨u, hreach, ⟨hsound, hstill⟩, hterm⟩ := Reach.exists_of_descent
    (P := fun t => D.Sound t ∧ t.Manned) D.rank ⟨h, hman⟩ hdescends
  rcases (hsound.closed hterm).1 with ⟨hcrash, -⟩ | ⟨e, hend, hends, -⟩
  · exact absurd hcrash hstill.1
  · exact ⟨u, e, hreach, hend, hends⟩

end

/-- The loop's node ends so when nothing interrupts its drivers. -/
def LoopDecl.Uninterrupted (D : LoopDecl V Doc) (e : Ending Doc) : Prop :=
  ∃ u, Reach D.step Smooth {} u ∧ u.ending = some e

section
variable {D : LoopDecl V Doc} {s : Recovery V Doc}

lemma LoopDecl.sound_of_reach (hs : D.Survives) (h : Reach D.step ok {} s) : D.Sound s :=
  h.invariant .start fun _ _ _ hI _ hstep => hI.step hs hstep

lemma LoopDecl.Sound.endsAt_ending (h : D.Sound s) (he : s.ending = some e) :
    D.endsAt s.counter = some e ∧ s.consumed = s.recorded := by
  cases hst : s.row.status.terminal with
  | true =>
    rcases (h.closed hst).1 with ⟨hcrash, -⟩ | ⟨e', he', hends, hrec, hcon⟩
    · rw [ending, hcrash] at he
      cases he
    · cases he.symm.trans he'
      exact ⟨hends, hcon.trans hrec.symm⟩
  | false =>
    rw [ending] at he
    split at he
    next hsucceeded =>
      rw [hsucceeded] at hst
      cases hst
    next hfail =>
      rw [hfail] at hst
      cases hst
    · cases he

lemma LoopDecl.Sound.consumed_prefix (h : D.Sound s) : s.consumed <+: s.recorded := by
  have hkept : D.trace s.counter <+: s.recorded := by
    rcases h.recorded with hrec | hrec
    · rw [hrec]
    · rw [hrec]
      exact trace_prefix
  cases hst : s.row.status.terminal with
  | false => exact (h.live hst).1 ▸ hkept
  | true =>
    rcases (h.closed hst).1 with ⟨-, -, hcon⟩ | ⟨e, -, -, hrec, hcon⟩
    · exact hcon ▸ hkept
    · rw [hcon, hrec]

lemma LoopDecl.Sound.recorded_sorted (h : D.Sound s) :
    s.recorded.Pairwise fun p q => p.1 < q.1 := by
  rcases h.recorded with hrec | hrec
  · rw [hrec]
    exact trace_sorted
  · rw [hrec]
    exact trace_sorted

lemma LoopDecl.reclaim_manned (hrun : s.row.status = .running) (hd : s.driver = none)
    (hbud : D.hasBudget s.row = true) : ∃ u, D.step s .reclaim = some u ∧ u.Manned := by
  refine ⟨_, if_pos (by simp [hd, hrun]), ?_⟩
  rw [reclaimed, if_pos hbud]
  exact .of_idle rfl

/-- However often its drivers fail, a loop ends as the uninterrupted run does unless the sweep finds
it without attempts, and takes every recorded outcome once and in order. -/
theorem loop_recovers (hs : D.Survives) (h : Reach D.step (fun _ _ => True) {} s) :
    ∃ e, D.Uninterrupted e ∧ (∀ e', D.Uninterrupted e' → e' = e) ∧
      (∀ e', s.ending = some e' → e' = e ∧ s.consumed = s.recorded) ∧
      (s.row.status.terminal = true → s.ending = none →
        s.row.status = .crashed ∧ D.hasBudget s.row = false) ∧
      (s.recorded.Pairwise fun p q => p.1 < q.1) ∧ s.consumed <+: s.recorded ∧
      (s.row.status.terminal = false →
        (s.row.status = .running → s.driver = none → D.hasBudget s.row = true) →
        ∃ u, Reach D.step Undisturbed s u ∧ u.ending = some e) := by
  have hsound := sound_of_reach hs h
  obtain ⟨u, e, hu, hending, hends⟩ :=
    (LoopDecl.Sound.start (D := D)).finishes hs (.of_idle rfl)
  refine ⟨e, ⟨u, hu, hending⟩, ?_, ?_, ?_, hsound.recorded_sorted, hsound.consumed_prefix, ?_⟩
  · rintro e' ⟨u', hu', he'⟩
    exact endsAt_unique ((sound_of_reach hs hu').endsAt_ending he').1 hends
  · intro e' he'
    obtain ⟨hends', hconsumed⟩ := hsound.endsAt_ending he'
    exact ⟨endsAt_unique hends' hends, hconsumed⟩
  · intro hterminal hnone
    rcases (hsound.closed hterminal).1 with ⟨hcrashed, hspent, -⟩ | ⟨e', he', -⟩
    · exact ⟨hcrashed, hspent⟩
    · cases hnone.symm.trans he'
  · intro hopen hbudget
    have hquiet : ∀ (t : Recovery V Doc) a, Smooth t a → Undisturbed t a := by
      intro t a ha
      cases a with
      | claim | drive | park => trivial
      | crash | fault | reclaim | capSweep => cases ha
    have hends_of : ∀ t, D.Sound t → t.Manned →
        ∃ v, Reach D.step Undisturbed t v ∧ v.ending = some e := by
      intro t ht hmanned
      obtain ⟨v, e', hv, hv', hends'⟩ := ht.finishes hs hmanned
      obtain rfl := endsAt_unique hends' hends
      exact ⟨v, hv.mono hquiet, hv'⟩
    have hcrashed : s.row.status ≠ .crashed := by
      intro hst
      rw [hst] at hopen
      cases hopen
    by_cases hdead : s.row.status = .running ∧ s.driver = none
    · obtain ⟨t, ht, hmanned⟩ := reclaim_manned hdead.1 hdead.2 (hbudget hdead.1 hdead.2)
      obtain ⟨v, hv, hv'⟩ := hends_of t (hsound.step hs ht) hmanned
      exact ⟨v, (Reach.next .start trivial ht).trans hv, hv'⟩
    · refine hends_of s hsound ⟨hcrashed, fun hrunning => ?_⟩
      rw [Option.isSome_iff_ne_none]
      exact fun hd => hdead ⟨hrunning, hd⟩

end

def intCodec : Codec Nat Nat where
  jsonable := id
  dumps := some
  loads := id
  isDict _ := false
  typeName _ := "int"

def oneRefine : LoopDecl Nat Nat where
  spec := ⟨"count", some 3, some 0⟩
  codec := intCodec
  carryType := some ⟨"int", Option.isSome, .native⟩
  body x := if x = some 0 then .refine (some 1) else .done x
  maxAttempts := 3
  retryKind := .transient

lemma oneRefine_survives : oneRefine.Survives := by
  have hnative : ∀ raw, oneRefine.rehydrate raw = some raw := by
    intro raw
    cases raw with
    | none => rfl
    | some n => rfl
  have hwrite : ∀ v, oneRefine.codec.read (oneRefine.codec.write v) = v := by
    intro v
    cases v with
    | none => rfl
    | some n => rfl
  constructor
  · exact ⟨⟨some 0, hnative _, hnative _⟩, rfl⟩
  · intro x f _ _
    refine ⟨⟨f, hnative f, ?_⟩, ?_⟩
    · rw [hwrite, hnative]
    · rw [hwrite]
  · intro x p _ _
    rw [hwrite]

def drives (n : Nat) : List Happening := List.replicate n .drive

theorem loop_recovers_once : ∃ s : Recovery Nat Nat, s.ending = some (.result (some (some 1))) ∧
      oneRefine.Uninterrupted (.result (some (some 1))) ∧ s.recorded.length = 2 ∧
      s.consumed = s.recorded := by
  let events := [.claim 7 0] ++ drives 7 ++ [.crash, .reclaim, .claim 8 0] ++ drives 10
  let s := final oneRefine.step {} events
  have hreach : Reach oneRefine.step (fun _ _ => True) {} s :=
    .of_final (by decide +kernel)
  have hending : s.ending = some (.result (some (some 1))) := by decide +kernel
  obtain ⟨e, he, -, hends, -⟩ := loop_recovers oneRefine_survives hreach
  obtain ⟨rfl, hconsumed⟩ := hends _ hending
  exact ⟨s, hending, he, by decide +kernel, hconsumed⟩

/-- Three drivers die, and the sweep closes a loop whose uninterrupted run has a result. -/
theorem crashes_spend_attempts : oneRefine.Survives ∧ ∃ s : Recovery Nat Nat,
    Reach oneRefine.step (fun _ _ => True) {} s ∧ s.row.status = .crashed ∧ s.ending = none ∧
      oneRefine.Uninterrupted (.result (some (some 1))) := by
  let death : List Happening := [.claim 7 0, .drive, .crash, .reclaim]
  let s := final oneRefine.step {} (death ++ death ++ death)
  let u := final oneRefine.step {} ([.claim 7 0] ++ drives 14)
  have hreach : Reach oneRefine.step (fun _ _ => True) {} s :=
    .of_final (by decide +kernel)
  have hsmooth : Reach oneRefine.step Smooth {} u := by
    refine .of_exec (exec_final (by decide +kernel)) ?_
    refine .of_checks (fun _ a => a = .drive || a = .claim 7 0) (by decide +kernel) ?_
    intro t a ha
    simp only [Bool.or_eq_true, decide_eq_true_eq] at ha
    rcases ha with rfl | rfl
    · trivial
    · trivial
  exact ⟨oneRefine_survives, s, hreach, by decide +kernel, by decide +kernel, u, hsmooth,
    by decide +kernel⟩

end TaskQ.Loops
