import TaskQ.LoopRecovery

namespace TaskQ.Loops
open Runs Bool

structure LoopDecl.Backed (D : LoopDecl V Doc) (recorded : List (Nat × IterResult Doc))
    (ledger : List (IterRow Doc)) : Prop where
  sound : l ∈ ledger → l.stepKey = iterKey D.rowSpec i →
    l.status = .running ∨ ∃ o, l.status = .succeeded o ∧ (i, o) ∈ recorded
  complete : (i, o) ∈ recorded →
    ∃ l ∈ ledger, l.stepKey = iterKey D.rowSpec i ∧ l.status = .succeeded o

section
variable {D : LoopDecl V Doc} {ledger : List (IterRow Doc)} {o : IterResult Doc} {i : Nat}

lemma memoizedStepResult_isSome {ledger : List (IterRow α)} (hl : l ∈ ledger)
    (hkey : l.stepKey = key) (hterm : l.status.terminal = true) :
    (memoizedStepResult key ledger).isSome = true := by
  have hfold : ∀ (rows : List (IterRow α)) (best : Option (IterRow α)),
      best.isSome = true ∨ rows ≠ [] → (rows.foldl
        (fun best l => if best.any fun b => l.attempt ≤ b.attempt then best else some l)
        best).isSome = true := by
    intro rows
    induction rows with
    | nil => exact fun best h => h.resolve_right fun hne => hne rfl
    | cons x rows ih =>
      intro best _
      apply ih
      left
      cases best with
      | none => rfl
      | some b =>
        dsimp only
        split
        · rfl
        · rfl
  apply hfold
  right
  exact List.ne_nil_of_mem (List.mem_filter.mpr ⟨hl, by simp [hkey, hterm]⟩)

lemma LoopDecl.Backed.memo_none (h : D.Backed (D.trace i) ledger) :
    memoizedStepResult (iterKey D.rowSpec i) ledger = none := by
  cases hmemo : memoizedStepResult (iterKey D.rowSpec i) ledger with
  | none => rfl
  | some l =>
    obtain ⟨hl, hkey, hterm⟩ := mem_of_memoizedStepResult hmemo
    rcases h.sound hl hkey with hrun | ⟨o, -, ho⟩
    · rw [hrun] at hterm
      cases hterm
    · exact absurd (mem_trace.mp ho).1 (Nat.lt_irrefl i)

lemma LoopDecl.Backed.memo_some (h : D.Backed (D.trace (i + 1)) ledger)
    (ho : D.outcomeAt i = some o) : ∃ l,
      memoizedStepResult (iterKey D.rowSpec i) ledger = some l ∧ l.status = .succeeded o := by
  obtain ⟨l0, hl0, hkey0, hstatus₀⟩ := h.complete (mem_trace.mpr ⟨Nat.lt_succ_self i, ho⟩)
  have hsome := memoizedStepResult_isSome hl0 hkey0 (by rw [hstatus₀]; rfl)
  obtain ⟨l, hmemo⟩ := Option.isSome_iff_exists.mp hsome
  refine ⟨l, hmemo, ?_⟩
  obtain ⟨hl, hkey, hterm⟩ := mem_of_memoizedStepResult hmemo
  rcases h.sound hl hkey with hrun | ⟨o', hst, ho'⟩
  · rw [hrun] at hterm
    cases hterm
  · cases ho.symm.trans (mem_trace.mp ho').2
    exact hst

lemma mem_claimStepLedger {ledger : List (IterRow α)} :
    ∃ l ∈ claimStepLedger key attempt ledger, l.stepKey = key ∧ l.attempt = attempt := by
  rw [claimStepLedger]
  split
  next hany =>
    obtain ⟨l, hl, heq⟩ := List.any_eq_true.mp hany
    simp only [and_eq_true, decide_eq_true_eq] at heq
    exact ⟨l, hl, heq⟩
  · exact ⟨⟨key, attempt, .running⟩, by simp, rfl, rfl⟩

lemma LoopDecl.Backed.claims (h : D.Backed recorded ledger) :
    D.Backed recorded (claimStepLedger key attempt ledger) := by
  rw [claimStepLedger]
  split
  · exact h
  constructor
  · intro l i hl hkey
    rcases List.mem_append.mp hl with hl | hl
    · exact h.sound hl hkey
    · obtain rfl := List.mem_singleton.mp hl
      exact .inl rfl
  · intro i o hmem
    obtain ⟨l, hl, hrest⟩ := h.complete hmem
    exact ⟨l, List.mem_append_left _ hl, hrest⟩

lemma LoopDecl.Backed.records (h : D.Backed (D.trace i) ledger) (hl : l ∈ ledger)
    (hkey : l.stepKey = iterKey D.rowSpec i) (hatt : l.attempt = attempt)
    (ho : D.outcomeAt i = some o) : D.Backed (D.trace (i + 1))
      (ledgerTerminal (iterKey D.rowSpec i) attempt (.succeeded o) ledger) := by
  constructor
  · intro l' j hl' hkey'
    obtain ⟨l0, hl0, rfl⟩ := List.mem_map.mp hl'
    split at hkey'
    next hown =>
      rw [if_pos hown]
      have hkey0 := of_decide_eq_true (and_eq_true_iff.mp hown).1
      obtain rfl := iterKey_inj (hkey0.symm.trans hkey')
      exact .inr ⟨o, rfl, mem_trace.mpr ⟨Nat.lt_succ_self _, ho⟩⟩
    next hother =>
      rw [if_neg hother]
      rcases h.sound hl0 hkey' with hrun | ⟨o', hst, ho'⟩
      · exact .inl hrun
      · exact .inr ⟨o', hst, trace_prefix.subset ho'⟩
  · intro j o' hmem
    obtain ⟨hlt, ho'⟩ := mem_trace.mp hmem
    rcases Nat.lt_succ_iff_lt_or_eq.mp hlt with hlt | rfl
    · obtain ⟨l0, hl0, hkey0, hstatus₀⟩ := h.complete (mem_trace.mpr ⟨hlt, ho'⟩)
      refine ⟨l0, List.mem_map.mpr ⟨l0, hl0, if_neg ?_⟩, hkey0, hstatus₀⟩
      intro hown
      have hkey1 := of_decide_eq_true (and_eq_true_iff.mp hown).1
      exact absurd (iterKey_inj (hkey0.symm.trans hkey1)) (Nat.ne_of_lt hlt)
    · cases ho.symm.trans ho'
      refine ⟨_, List.mem_map.mpr ⟨l, hl, if_pos ?_⟩, hkey, rfl⟩
      simp [hkey, hatt]

end

def Recovery.Entered (D : LoopDecl V Doc) (s : Recovery V Doc) (c : Identity) (i : Nat) : Prop :=
  ∃ l ∈ s.ledger, l.stepKey = iterKey D.rowSpec i ∧ l.attempt = c.attempt

def LoopDecl.PcSound (D : LoopDecl V Doc) (s : Recovery V Doc) (c : Identity) (d : Driver V) :
    Prop :=
  match d.pc with
  | .readState => d.rounds = 10000
  | .init => d.rounds = 10000 ∧ s.row.iteration = none
  | .top i raw => s.row.iteration = some i ∧ D.Fits i raw
  | .memo i raw => s.row.iteration = some i ∧ D.Fits i raw ∧ D.capped i = false
  | .claimLedger i raw => s.row.iteration = some i ∧ D.Fits i raw ∧ D.capped i = false ∧
      s.recorded = D.trace i
  | .body i raw => s.row.iteration = some i ∧ D.Fits i raw ∧ D.capped i = false ∧
      s.recorded = D.trace i ∧ s.Entered D c i
  | .record i value => s.row.iteration = some i ∧
      (∃ x, D.enters i = some x ∧ value = (D.body x).returned) ∧ D.capped i = false ∧
      s.recorded = D.trace i ∧ s.Entered D c i
  | .advance i raw => s.row.iteration = some i ∧ s.recorded = D.trace (i + 1) ∧
      D.outcomeAt i = some (.refine (D.codec.write raw)) ∧
      (i + 1 ≤ D.spec.cap → D.Fits (i + 1) raw ∧ D.Fits (i + 1) (D.codec.read (D.codec.write raw)))
  | .exhaust errorClass message => errorClass = none ∧ message = none ∧
      s.recorded = D.trace (s.counter + 1) ∧ D.endsAt s.counter = some capExhausted
  | .finalize payload => s.recorded = D.trace (s.counter + 1) ∧
      D.outcomeAt s.counter = some (.done (D.codec.write payload)) ∧
      D.endsAt s.counter = some (.result (D.codec.encodeResult payload))
  | .ended => True

def LoopDecl.Closed (D : LoopDecl V Doc) (s : Recovery V Doc) : Prop :=
  (s.row.status = .crashed ∧ D.hasBudget s.row = false ∧ s.consumed = D.trace s.counter) ∨
    ∃ e, s.ending = some e ∧ D.endsAt s.counter = some e ∧
      s.recorded = D.trace (s.counter + 1) ∧ s.consumed = D.trace (s.counter + 1)

structure LoopDecl.Sound (D : LoopDecl V Doc) (s : Recovery V Doc) : Prop where
  backed : D.Backed s.recorded s.ledger
  recorded : s.recorded = D.trace s.counter ∨ s.recorded = D.trace (s.counter + 1)
  carry : s.row.iteration = some i → D.Fits i (D.codec.read s.row.carry)
  live : s.row.status.terminal = false → s.consumed = D.trace s.counter ∧
    ∀ c d, s.driver = some (c, d) → s.row.holds c = true ∧ D.PcSound s c d
  closed : s.row.status.terminal = true → D.Closed s ∧
    ∀ c d, s.driver = some (c, d) → d.pc = .ended

section
variable {D : LoopDecl V Doc} {s s' : Recovery V Doc} {c : Identity} {d : Driver V} {i : Nat}
  {raw : Option V}

lemma Recovery.counter_eq (h : s.row.iteration = some i) : s.counter = i := by
  rw [counter, h]
  rfl

variable {r : LoopRow α}

lemma LoopRow.open_of_holds (h : r.holds c = true) : r.status.terminal = false := by
  rw [(holds_iff.mp h).1]
  rfl

lemma Recovery.current_eq (hrec : s.recorded = D.trace (s.counter + 1))
    (hcon : s.consumed = D.trace s.counter) :
    s.consumed ++ s.current = D.trace (s.counter + 1) := by
  rw [current, hrec, LoopDecl.filter_trace, hcon, LoopDecl.trace]

namespace LoopDecl.Sound

lemma of_open (hopen : s.row.status.terminal = false)
    (hback : D.Backed s.recorded s.ledger)
    (hrecorded : s.recorded = D.trace s.counter ∨ s.recorded = D.trace (s.counter + 1))
    (hcarry : ∀ i, s.row.iteration = some i → D.Fits i (D.codec.read s.row.carry))
    (hcons : s.consumed = D.trace s.counter)
    (hdriver : ∀ c d, s.driver = some (c, d) → s.row.holds c = true ∧ D.PcSound s c d) :
    D.Sound s where
  backed := hback
  recorded := hrecorded
  carry hi := hcarry _ hi
  live _ := ⟨hcons, hdriver⟩
  closed hterm := absurd (hopen.symm.trans hterm) false_ne_true

lemma goto (h : D.Sound s) (hholds : s.row.holds c = true)
    (hpc : D.PcSound s c { d with pc }) : D.Sound (s.goto c d pc) := by
  have hopen := LoopRow.open_of_holds hholds
  refine .of_open hopen h.backed h.recorded (fun i => h.carry) (h.live hopen).1 ?_
  intro c' d' hd'
  cases hd'
  exact ⟨hholds, hpc⟩

lemma ends (h : D.Sound s) (hiter : row.iteration = s.row.iteration)
    (hcarry : row.carry = s.row.carry) (hterm : row.status.terminal = true)
    (hcl : D.Closed { s.goto c d .ended with row, result, consumed }) :
    D.Sound { s.goto c d .ended with row, result, consumed } where
  backed := h.backed
  recorded := by
    rw [Recovery.counter]
    rw [hiter]
    exact h.recorded
  carry hi := by
    rw [hcarry]
    exact h.carry (hiter.symm.trans hi)
  live hopen := absurd (hterm.symm.trans hopen) true_eq_false.mp
  closed _ := by
    refine ⟨hcl, fun c' d' hd' => ?_⟩
    cases hd'
    rfl

lemma top (h : D.Sound s) (hiter : s.row.iteration = some i)
    (hfits : D.Fits i raw) : D.PcSound s c { rounds := n, pc := topNext D.spec i raw false } := by
  have hnext : topNext D.spec i raw false =
      if D.capped i then .exhaust none none else .memo i raw := rfl
  rw [hnext]
  split
  next hcap =>
    obtain ⟨x, -, hx⟩ := hfits
    have hcnt := Recovery.counter_eq hiter
    have htrace := trace_succ_none (outcomeAt_capped hcap)
    refine ⟨rfl, rfl, ?_, ?_⟩
    · rw [hcnt]
      rcases h.recorded with hrec | hrec
      · rw [hrec, hcnt, htrace]
      · rw [hrec, hcnt]
    · rw [hcnt]
      exact endsAt_capped hx hcap
  next hcap => exact ⟨hiter, hfits, eq_false_iff.mpr hcap⟩

lemma memo (hs : D.Survives) (h : D.Sound s) (hiter : s.row.iteration = some i)
    (hfits : D.Fits i raw) (hcap : D.capped i = false) : D.PcSound s c { d with
      pc := memoNext i raw
        ((memoizedStepResult (iterKey D.rowSpec i) s.ledger).map (·.map D.codec.read)) } := by
  have hcnt := Recovery.counter_eq hiter
  have hback := h.backed
  rcases h.recorded with hrec | hrec
  · rw [hrec, hcnt] at hback
    rw [hback.memo_none]
    exact ⟨hiter, hfits, hcap, hrec.trans (by rw [hcnt])⟩
  · obtain ⟨x, -, hx⟩ := hfits
    have ho := outcomeAt_eq hx hcap
    rw [hrec, hcnt] at hback
    obtain ⟨l, hmemo, hst⟩ := hback.memo_some ho
    rw [hmemo, Option.map_some, memoNext, IterRow.map, hst]
    cases hbody : D.body x with
    | done p =>
      have hpay := hs.payload (passed_of_enters hx) hbody
      have hwrite := Codec.write_eq_of_encodeResult hpay
      refine ⟨hrec, ?_, ?_⟩
      · rw [hcnt, ho, hbody, hwrite]
        rfl
      · rw [hcnt, hpay]
        exact endsAt_done hx hcap hbody
    | refine f =>
      obtain ⟨-, hwrite⟩ := hs.feedback (passed_of_enters hx) hbody
      refine ⟨hiter, hrec.trans (by rw [hcnt]), ?_, fun hle => ?_⟩
      · rw [ho, hbody, hwrite]
        rfl
      have hnext := (hs.fits_feedback hx hcap hbody hle).2
      rw [hwrite]
      exact ⟨hnext, hnext⟩

lemma claimLedger (h : D.Sound s) (hholds : s.row.holds c = true)
    (hiter : s.row.iteration = some i) (hfits : D.Fits i raw) (hcap : D.capped i = false)
    (hrec : s.recorded = D.trace i) : D.Sound { s.goto c d (.body i raw) with
      ledger := claimStepLedger (iterKey D.rowSpec i) c.attempt s.ledger } := by
  have hopen := LoopRow.open_of_holds hholds
  refine .of_open hopen h.backed.claims h.recorded (fun i => h.carry) (h.live hopen).1 ?_
  intro c' d' hd'
  cases hd'
  exact ⟨hholds, hiter, hfits, hcap, hrec, mem_claimStepLedger⟩

end LoopDecl.Sound

lemma IterResult.returned_status (r : IterResult α) (f : Option α → Option β) :
    (r.returned.map f).status = .succeeded (r.map f) := by
  cases r with
  | done p => rfl
  | refine p => rfl

lemma LoopDecl.PcSound.recordNext (hs : D.Survives) (hiter : s.row.iteration = some i)
    (hx : D.enters i = some x) (hcap : D.capped i = false) (hrec : s.recorded = D.trace (i + 1)) :
    D.PcSound s c { d with pc := Loops.recordNext i (D.body x).returned } := by
  have hcnt := Recovery.counter_eq hiter
  have ho := outcomeAt_eq hx hcap
  cases hbody : D.body x with
  | done p =>
    rw [hbody] at ho
    refine ⟨hrec.trans (by rw [hcnt]), ?_, ?_⟩
    · rw [hcnt]
      exact ho
    · rw [hcnt]
      exact endsAt_done hx hcap hbody
  | refine f =>
    rw [hbody] at ho
    exact ⟨hiter, hrec, ho, fun hle => hs.fits_feedback hx hcap hbody hle⟩

lemma LoopDecl.Sound.record (hs : D.Survives) (h : D.Sound s) (hholds : s.row.holds c = true)
    (hiter : s.row.iteration = some i) (hx : D.enters i = some x) (hcap : D.capped i = false)
    (hrec : s.recorded = D.trace i) (hent : s.Entered D c i)
    (hpc : d.pc = .record i (D.body x).returned) (hdrive : D.driveLoop s c d = some s') :
    D.Sound s' := by
  have hopen := LoopRow.open_of_holds hholds
  have ho := outcomeAt_eq hx hcap
  obtain ⟨l, hl, hkey, hatt⟩ := hent
  have hback := (hrec ▸ h.backed).records hl hkey hatt ho
  have hrec' : s.recorded ++ [(i, (D.body x).map D.codec.write)] = D.trace (i + 1) := by
    rw [hrec, trace_succ ho]
  rw [driveLoop, hpc] at hdrive
  dsimp only at hdrive
  rw [IterResult.returned_status] at hdrive
  cases hdrive
  apply LoopDecl.Sound.of_open
  · exact hopen
  · rw [← hrec'] at hback
    exact hback
  · right
    exact hrec'.trans (congrArg (fun n => D.trace (n + 1)) (Recovery.counter_eq hiter).symm)
  · exact fun i => h.carry
  · exact (h.live hopen).1
  · intro c' d' hd'
    cases hd'
    exact ⟨hholds, LoopDecl.PcSound.recordNext hs hiter hx hcap hrec'⟩

lemma LoopDecl.Sound.init (hs : D.Survives) (h : D.Sound s) (hholds : s.row.holds c = true)
    (hiter : s.row.iteration = none) :
    D.Sound { s.goto c d (.top 0 (D.spec.initialCarry.map D.codec.jsonable)) with
      row := loopInit D.rowSpec s.row } := by
  have hopen := LoopRow.open_of_holds hholds
  have hcnt : s.counter = 0 := by
    rw [Recovery.counter, hiter]
    rfl
  obtain ⟨hlive, hstore⟩ := hs.fits_initial
  rw [loopInit_running (LoopRow.holds_iff.mp hholds).1]
  apply LoopDecl.Sound.of_open
  · exact hopen
  · exact h.backed
  · exact hcnt ▸ h.recorded
  · intro i hi
    cases hi
    exact hstore
  · exact hcnt ▸ (h.live hopen).1
  · intro c' d' hd'
    cases hd'
    exact ⟨hholds, rfl, hlive⟩

lemma loopAdvance_below {spec : LoopSpec α} {r r' : LoopRow α}
    (h : loopAdvance spec c j carry r = some r') (hiter : r.iteration = some i) :
    i + 1 ≤ spec.cap := by
  rw [loopAdvance, hiter] at h
  split at h
  next hguard => exact of_decide_eq_true (and_eq_true_iff.mp hguard).2
  · cases h

lemma loopAdvance_refused {spec : LoopSpec α}
    (h : loopAdvance spec c j carry r = none) (hholds : r.holds c = true)
    (hiter : r.iteration = some i) : ¬ i + 1 ≤ spec.cap := by
  intro hle
  rw [loopAdvance, hiter, if_pos] at h
  · cases h
  · exact and_eq_true_iff.mpr ⟨hholds, decide_eq_true hle⟩

lemma LoopDecl.Sound.advance (h : D.Sound s) (hholds : s.row.holds c = true)
    (hiter : s.row.iteration = some i) (hrec : s.recorded = D.trace (i + 1))
    (ho : D.outcomeAt i = some (.refine (D.codec.write raw))) (hfits : i + 1 ≤ D.spec.cap →
      D.Fits (i + 1) raw ∧ D.Fits (i + 1) (D.codec.read (D.codec.write raw)))
    (hrow : loopAdvance D.rowSpec c (i + 1) (D.codec.write raw) s.row = some row) :
    D.Sound { s.goto c d (.top (i + 1) raw) with
      row
      consumed := s.consumed ++ [(i, .refine (D.codec.write raw))] } := by
  have hopen := LoopRow.open_of_holds hholds
  have hle := loopAdvance_below hrow hiter
  obtain ⟨hlive, hstore⟩ := hfits hle
  obtain ⟨-, rfl⟩ := loopAdvance_some hrow
  apply LoopDecl.Sound.of_open
  · exact hopen
  · exact h.backed
  · exact .inl hrec
  · intro j hj
    cases hj
    exact hstore
  · have hcons := (h.live hopen).1
    rw [Recovery.counter_eq hiter] at hcons
    change s.consumed ++ _ = D.trace (i + 1)
    rw [hcons, trace_succ ho]
  · intro c' d' hd'
    cases hd'
    exact ⟨hholds, rfl, hlive⟩

lemma LoopDecl.PcSound.refused (hholds : s.row.holds c = true) (hiter : s.row.iteration = some i)
    (hrec : s.recorded = D.trace (i + 1)) (ho : D.outcomeAt i = some (.refine (D.codec.write raw)))
    (hrow : loopAdvance D.rowSpec c (i + 1) (D.codec.write raw) s.row = none) :
    D.PcSound s c { d with pc := .exhaust none none } := by
  have hcnt := Recovery.counter_eq hiter
  obtain ⟨x, hx, hcap, hbody⟩ := enters_of_outcomeAt ho
  refine ⟨rfl, rfl, hrec.trans (by rw [hcnt]), ?_⟩
  rw [hcnt]
  cases hreturn : D.body x with
  | done p =>
    rw [hreturn] at hbody
    cases hbody
  | refine f =>
    have hle := loopAdvance_refused hrow hholds hiter
    exact endsAt_refused hx hcap hreturn hle

lemma exhaustLoop_holds (h : r.holds c = true) : (exhaustLoop c none none r).status = .failed ∧
      (exhaustLoop c none none r).errorClass = some loopErrorCap ∧
      (exhaustLoop c none none r).iterationState = some capState := by
  rw [exhaustLoop, if_pos h]
  exact ⟨rfl, rfl, rfl⟩

lemma LoopDecl.Sound.exhaust (h : D.Sound s) (hholds : s.row.holds c = true)
    (hrec : s.recorded = D.trace (s.counter + 1)) (hends : D.endsAt s.counter = some capExhausted) :
    D.Sound { s.goto c d .ended with
      row := exhaustLoop c none none s.row
      consumed := if s.row.holds c then s.consumed ++ s.current else s.consumed } := by
  have hcons := (h.live (LoopRow.open_of_holds hholds)).1
  obtain ⟨hst, hclass, hstate⟩ := exhaustLoop_holds hholds
  obtain ⟨hiter, hcarry⟩ := exhaustLoop_kept (r := s.row) (c := c)
  rw [if_pos hholds, Recovery.current_eq hrec hcons]
  refine h.ends hiter hcarry (by rw [hst]; rfl) (.inr ⟨capExhausted, ?_, ?_⟩)
  · rw [Recovery.ending]
    rw [hst, hclass, hstate]
    rfl
  · rw [Recovery.counter]
    rw [hiter]
    exact ⟨hends, hrec, rfl⟩

lemma LoopDecl.Sound.finalize (h : D.Sound s) (hholds : s.row.holds c = true)
    (hrec : s.recorded = D.trace (s.counter + 1))
    (ho : D.outcomeAt s.counter = some (.done (D.codec.write raw)))
    (hends : D.endsAt s.counter = some (.result (D.codec.encodeResult raw))) :
    D.Sound { s.goto c d .ended with
      row := finalizeSuccess c s.row
      result := D.codec.encodeResult raw
      consumed := s.consumed ++ [(s.counter, .done (D.codec.write raw))] } := by
  have hcons := (h.live (LoopRow.open_of_holds hholds)).1
  rw [finalizeSuccess, if_pos hholds]
  refine h.ends rfl rfl rfl (.inr ⟨_, rfl, hends, hrec, ?_⟩)
  change s.consumed ++ _ = D.trace (s.counter + 1)
  rw [hcons, trace_succ ho]

lemma LoopDecl.Sound.drive (hs : D.Survives) (h : D.Sound s) (hd : s.driver = some (c, d))
    (hdrive : D.driveLoop s c d = some s') : D.Sound s' := by
  cases hterm : s.row.status.terminal with
  | true =>
    have hended := (h.closed hterm).2 c d hd
    rw [driveLoop, hended] at hdrive
    cases hdrive
  | false =>
    obtain ⟨hholds, hpoint⟩ := (h.live hterm).2 c d hd
    obtain ⟨rounds, pc⟩ := d
    cases pc with
    | readState =>
      cases hdrive
      apply h.goto hholds
      cases hiter : s.row.iteration with
      | none => exact ⟨hpoint, hiter⟩
      | some i => exact ⟨hiter, h.carry hiter⟩
    | init =>
      cases hdrive
      exact h.init hs hholds hpoint.2
    | top i raw =>
      rw [driveLoop] at hdrive
      dsimp only at hdrive
      split at hdrive
      · cases hdrive
        exact h.goto hholds trivial
      · cases hdrive
        exact h.goto hholds (h.top hpoint.1 hpoint.2)
    | memo i raw =>
      cases hdrive
      exact h.goto hholds (h.memo hs hpoint.1 hpoint.2.1 hpoint.2.2)
    | claimLedger i raw =>
      cases hdrive
      obtain ⟨hiter, hfits, hcap, hrec⟩ := hpoint
      exact h.claimLedger hholds hiter hfits hcap hrec
    | body i raw =>
      obtain ⟨hiter, ⟨x, hraw, hx⟩, hcap, hrec, hent⟩ := hpoint
      rw [driveLoop] at hdrive
      dsimp only at hdrive
      rw [hraw] at hdrive
      cases hdrive
      exact h.goto hholds ⟨hiter, ⟨x, hx, rfl⟩, hcap, hrec, hent⟩
    | record i value =>
      obtain ⟨hiter, ⟨x, hx, rfl⟩, hcap, hrec, hent⟩ := hpoint
      exact h.record hs hholds hiter hx hcap hrec hent rfl hdrive
    | advance i raw =>
      obtain ⟨hiter, hrec, ho, hfits⟩ := hpoint
      rw [driveLoop] at hdrive
      dsimp only at hdrive
      split at hdrive
      next row hrow =>
        cases hdrive
        exact h.advance hholds hiter hrec ho hfits hrow
      next hrow =>
        cases hdrive
        exact h.goto hholds (.refused hholds hiter hrec ho hrow)
    | exhaust errorClass message =>
      obtain ⟨rfl, rfl, hrec, hends⟩ := hpoint
      cases hdrive
      exact h.exhaust hholds hrec hends
    | finalize payload =>
      obtain ⟨hrec, ho, hends⟩ := hpoint
      rw [driveLoop] at hdrive
      dsimp only at hdrive
      rw [if_pos hholds] at hdrive
      cases hdrive
      exact h.finalize hholds hrec ho hends
    | ended =>
      cases hdrive

section
variable (h : D.Sound s)
include h

namespace LoopDecl.Sound

lemma released (hopen : s.row.status.terminal = false)
    (hiter : row.iteration = s.row.iteration) (hcarry : row.carry = s.row.carry)
    (hrow : row.status.terminal = false) : D.Sound { s with row, driver := none } := by
  apply LoopDecl.Sound.of_open
  · exact hrow
  · exact h.backed
  · rw [Recovery.counter]
    rw [hiter]
    exact h.recorded
  · intro i hi
    rw [hcarry]
    exact h.carry (hiter.symm.trans hi)
  · rw [Recovery.counter]
    rw [hiter]
    exact (h.live hopen).1
  · intro c d hd
    cases hd

lemma claim (hopen : s.row.status.terminal = false) : D.Sound { s with
      row := { s.row with
        status := .running
        lockedByWorker := some worker
        attempt := s.row.attempt + 1
        claimEpoch := epoch }
      driver := some (⟨worker, s.row.attempt + 1, epoch⟩, {}) } := by
  refine .of_open rfl h.backed h.recorded (fun i => h.carry) (h.live hopen).1 ?_
  intro c d hd
  cases hd
  exact ⟨LoopRow.holds_iff.mpr ⟨rfl, rfl, rfl, rfl⟩, rfl⟩

lemma crash : D.Sound { s with driver := none } where
  backed := h.backed
  recorded := h.recorded
  carry := h.carry
  live hopen := ⟨(h.live hopen).1, fun c d hd => by cases hd⟩
  closed hterm := ⟨(h.closed hterm).1, fun c d hd => by cases hd⟩

lemma fault : D.Sound { s with row := s.row.repend, driver := none } := by
  rw [LoopRow.repend]
  split
  next hrun => exact h.released (by rw [hrun]; rfl) rfl rfl rfl
  · exact h.crash

lemma capSweep (hrun : s.row.status = .running)
    (hiter : s.row.iteration = some i) (hcap : D.capped i = true) (hd : s.driver = none) :
    D.Sound { s with row := s.row.capSwept, consumed := s.consumed ++ s.current } := by
  have hopen : s.row.status.terminal = false := by
    rw [hrun]
    rfl
  have hcnt := Recovery.counter_eq hiter
  obtain ⟨x, -, hx⟩ := h.carry hiter
  have hrec : s.recorded = D.trace (s.counter + 1) := by
    rcases h.recorded with hrec | hrec
    · rw [hrec, hcnt, trace_succ_none (outcomeAt_capped hcap)]
    · exact hrec
  rw [Recovery.current_eq hrec (h.live hopen).1]
  refine ⟨h.backed, h.recorded, h.carry, nofun, fun _ => ⟨.inr ⟨capExhausted, rfl, ?_⟩, ?_⟩⟩
  · refine ⟨?_, hrec, rfl⟩
    change D.endsAt s.counter = _
    rw [hcnt]
    exact endsAt_capped hx hcap
  · intro c d hd'
    cases hd.symm.trans hd'

lemma reclaim (hrun : s.row.status = .running)
    (hd : s.driver = none) : D.Sound { s with row := D.reclaimed s.row } := by
  have hopen : s.row.status.terminal = false := by
    rw [hrun]
    rfl
  rw [reclaimed]
  split
  · exact hd ▸ h.released hopen rfl rfl rfl
  next hspent =>
    refine ⟨h.backed, h.recorded, h.carry, nofun, fun _ => ⟨.inl ?_, ?_⟩⟩
    · exact ⟨rfl, eq_false_iff.mpr hspent, (h.live hopen).1⟩
    · intro c d hd'
      cases hd.symm.trans hd'

end LoopDecl.Sound

end

lemma LoopDecl.Sound.step (hs : D.Survives) (h : D.Sound s) (hstep : D.step s a = some s') :
    D.Sound s' := by
  cases a with
  | claim worker epoch =>
    obtain ⟨hguard, rfl⟩ := matched hstep
    simp only [and_eq_true, or_eq_true, decide_eq_true_eq] at hguard
    apply h.claim
    rcases hguard.2 with hst | hst
    · rw [hst]
      rfl
    · rw [hst]
      rfl
  | drive =>
    obtain ⟨⟨c, d⟩, hd, hdrive⟩ := Option.bind_eq_some_iff.mp hstep
    exact h.drive hs hd hdrive
  | crash =>
    obtain ⟨-, rfl⟩ := matched hstep
    exact h.crash
  | fault =>
    obtain ⟨-, rfl⟩ := matched hstep
    exact h.fault
  | park =>
    obtain ⟨hguard, rfl⟩ := matched hstep
    obtain ⟨p, -, hguard⟩ := (Option.any_eq_true _ _).mp hguard
    exact h.released (LoopRow.open_of_holds (and_eq_true_iff.mp hguard).2) rfl rfl rfl
  | reclaim =>
    obtain ⟨hguard, rfl⟩ := matched hstep
    simp only [and_eq_true, Option.isNone_iff_eq_none, decide_eq_true_eq] at hguard
    exact h.reclaim hguard.2 hguard.1
  | capSweep =>
    obtain ⟨hguard, rfl⟩ := matched hstep
    simp only [and_eq_true, Option.isNone_iff_eq_none, decide_eq_true_eq] at hguard
    obtain ⟨⟨hd, hrun⟩, hany⟩ := hguard
    obtain ⟨i, hiter, hcap⟩ := (Option.any_eq_true _ _).mp hany
    exact h.capSweep hrun hiter hcap hd

lemma LoopDecl.Sound.start : D.Sound ({} : Recovery V Doc) where
  backed := ⟨nofun, nofun⟩
  recorded := .inl rfl
  carry := nofun
  live _ := ⟨rfl, nofun⟩
  closed := nofun

end

end TaskQ.Loops
