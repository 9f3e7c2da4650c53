import Mathlib.Data.Finset.Card
import TaskQ.LoopDriver

namespace TaskQ.Loops
open Runs List

def LoopRow.unadvanced (r : LoopRow α) : Bool := r.iteration.all (· = 0)

/-- A `LOOP_INIT_SQL` that finds the row running finds a counter that is not past zero. -/
def InitInTime (s : State α) : Event α → Prop
  | .drive c _ _ => ∀ d, s.drivers c = some d → d.pc = .init → s.row.status = .running →
      s.row.unadvanced = true
  | _ => True

def Lands (spec : LoopSpec α) (s : State α) (a : Event α) : Prop :=
  ∃ c stop outcome d i carry, a = .drive c stop outcome ∧ s.drivers c = some d ∧
    d.pc = .advance i carry ∧ (loopAdvance spec c (i + 1) carry s.row).isSome = true

section
variable {spec : LoopSpec α} {r r' : LoopRow α}

lemma LoopRow.unadvanced_iff : r.unadvanced = true ↔ ∀ i, r.iteration = some i → i = 0 := by
  rw [unadvanced]
  cases r.iteration with
  | none => simp
  | some i => simp

lemma LoopRow.holds_iff : r.holds c = true ↔ r.status = .running ∧
    r.lockedByWorker = some c.worker ∧ r.attempt = c.attempt ∧ r.claimEpoch = c.epoch := by
  simp [holds, and_assoc]

lemma LoopRow.holds_unique (h : r.holds c = true) (h' : r.holds c' = true) : c' = c := by
  obtain ⟨-, hw, ha, he⟩ := holds_iff.mp h
  obtain ⟨-, hw', ha', he'⟩ := holds_iff.mp h'
  cases c
  cases c'
  simp_all

lemma loopInit_running (h : r.status = .running) :
    loopInit spec r = { r with iteration := some 0, carry := spec.initialCarry } := if_pos h

lemma loopInit_not_running (h : r.status ≠ .running) : loopInit spec r = r := if_neg h

lemma loopAdvance_some (h : loopAdvance spec c i carry r = some r') :
    r.holds c = true ∧ r' = { r with iteration := some i, carry := carry } := by
  obtain ⟨hguard, h⟩ := Option.ite_none_right_eq_some.mp h
  exact ⟨(Bool.and_eq_true_iff.mp hguard).1, (Option.some.inj h).symm⟩

def LeavesOthers (c : Identity) (r r' : LoopRow α) : Prop :=
  ∀ c', c' ≠ c → r'.holds c' = true → r.holds c' = true ∧
    (∀ i, r.iteration = some i → r'.iteration = some i) ∧
    (r.unadvanced = true → r'.unadvanced = true)

lemma LeavesOthers.refl : LeavesOthers c r r := fun _ _ h => ⟨h, fun _ hi => hi, fun hu => hu⟩

lemma LeavesOthers.ends (h : r'.status ≠ .running) : LeavesOthers c r r' :=
  fun _ _ hholds => absurd (LoopRow.holds_iff.mp hholds).1 h

lemma leavesOthers_loopInit (h : r.status = .running → r.unadvanced = true) :
    LeavesOthers c r (loopInit spec r) := by
  by_cases hrun : r.status = .running
  · rw [loopInit_running hrun]
    intro c' _ hholds
    refine ⟨hholds, fun i hi => ?_, fun _ => rfl⟩
    rw [LoopRow.unadvanced_iff.mp (h hrun) i hi]
  · rw [loopInit_not_running hrun]
    exact .refl

lemma leavesOthers_loopAdvance (h : loopAdvance spec c i carry r = some r') :
    LeavesOthers c r r' := by
  obtain ⟨hholds, rfl⟩ := loopAdvance_some h
  intro c' hc' hholds'
  exact absurd (LoopRow.holds_unique hholds hholds') hc'

lemma leavesOthers_exhaustLoop : LeavesOthers c r (exhaustLoop c errorClass message r) := by
  rw [exhaustLoop]
  split
  · exact .ends (by simp)
  · exact .refl

lemma leavesOthers_finalizeSuccess : LeavesOthers c r (finalizeSuccess c r) := by
  rw [finalizeSuccess]
  split
  · exact .ends (by simp)
  · exact .refl

lemma iterKey_inj (h : iterKey spec i = iterKey spec j) : i = j := by
  rw [iterKey, iterKey, String.append_right_inj] at h
  exact Joined.toString_inj.mp h

lemma mem_of_memoizedStepResult {ledger : List (IterRow α)}
    (h : memoizedStepResult key ledger = some l) :
    l ∈ ledger ∧ l.stepKey = key ∧ l.status.terminal = true := by
  have hfold : ∀ (rows : List (IterRow α)) best,
      rows.foldl (fun best l => if best.any fun b => l.attempt ≤ b.attempt then best else some l)
        best = some l → best = some l ∨ l ∈ rows := by
    intro rows
    induction rows with
    | nil => exact fun best h => .inl h
    | cons x rows ih =>
      intro best h
      rcases ih _ h with hbest | hmem
      · dsimp only at hbest
        split at hbest
        · exact .inl hbest
        · cases hbest
          exact .inr mem_cons_self
      · exact .inr (mem_cons_of_mem _ hmem)
  rcases hfold _ _ h with hnone | hmem
  · cases hnone
  obtain ⟨hmem, hkey⟩ := mem_filter.mp hmem
  obtain ⟨hkey, hterm⟩ := Bool.and_eq_true_iff.mp hkey
  exact ⟨hmem, of_decide_eq_true hkey, hterm⟩

end

def Pc.iteration : Pc α → Option Nat
  | .top i _ | .memo i _ | .claimLedger i _ | .body i _ | .record i _ | .advance i _ => some i
  | .readState | .init | .exhaust _ _ | .finalize _ | .ended => none

structure Pc.Sound (spec : LoopSpec α) (r : LoopRow α) (recorded : List (Nat × Option α))
    (c : Identity) (pc : Pc α) : Prop where
  sync : r.holds c = true → pc.iteration = some i → r.iteration = some i
  init : r.holds c = true → pc = .init → r.unadvanced = true
  evidence : pc = .advance i carry → (i, carry) ∈ recorded
  below : pc = .memo i carry ∨ pc = .claimLedger i carry → spec.maxIterations = some m → i < m

structure Sound (spec : LoopSpec α) (s : State α) : Prop where
  points : s.drivers c = some d → d.pc.Sound spec s.row s.recorded c
  ledger : l ∈ s.ledger → l.stepKey = iterKey spec i → l.status = .succeeded (.refine f) →
    (i, f) ∈ s.recorded
  carry : s.row.iteration = some (i + 1) → (i, s.row.carry) ∈ s.recorded
  started : i ∈ s.started → spec.maxIterations = some m → i < m

section
variable {spec : LoopSpec α} {r r' : LoopRow α} {pc : Pc α}

lemma Pc.Sound.idle (hpc : pc.iteration = none) (hinit : pc ≠ .init) :
    pc.Sound spec r recorded c where
  sync _ hi := by rw [hpc] at hi; cases hi
  init _ hi := absurd hi hinit
  evidence h := by rw [h] at hpc; cases hpc
  below h := by
    rcases h with h | h
    all_goals
      rw [h] at hpc
      cases hpc

lemma Pc.Sound.within (hpc : pc.iteration = some i)
    (hsync : r.holds c = true → r.iteration = some i)
    (hev : ∀ j carry, pc = .advance j carry → (j, carry) ∈ recorded)
    (hbelow : ∀ j carry m, pc = .memo j carry ∨ pc = .claimLedger j carry →
      spec.maxIterations = some m → j < m) : pc.Sound spec r recorded c where
  sync hholds hi := by
    cases hpc.symm.trans hi
    exact hsync hholds
  init _ h := by rw [h] at hpc; cases hpc
  evidence h := hev _ _ h
  below h hm := hbelow _ _ _ h hm

lemma Pc.Sound.other (h : pc.Sound spec r recorded c') (hr : LeavesOthers c r r')
    (hc : c' ≠ c) (hsub : recorded ⊆ recorded') : pc.Sound spec r' recorded' c' where
  sync hholds hi := by
    obtain ⟨hholds, hcnt, -⟩ := hr c' hc hholds
    exact hcnt _ (h.sync hholds hi)
  init hholds hi := by
    obtain ⟨hholds, -, hunadvanced⟩ := hr c' hc hholds
    exact hunadvanced (h.init hholds hi)
  evidence hpc := hsub (h.evidence hpc)
  below := h.below

end

section
variable {spec : LoopSpec α} {s s' : State α} {carry : Option α}

section
variable (h : Sound spec s)
include h

lemma Sound.drives {s' : State α} (hdrivers : s'.drivers = Function.update s.drivers c (some d'))
    (hrow : LeavesOthers c s.row s'.row) (hsub : s.recorded ⊆ s'.recorded)
    (hpoint : d'.pc.Sound spec s'.row s'.recorded c)
    (hled : ∀ l ∈ s'.ledger, ∀ i f, l.stepKey = iterKey spec i →
      l.status = .succeeded (.refine f) → (i, f) ∈ s'.recorded)
    (hcarry : ∀ i, s'.row.iteration = some (i + 1) → (i, s'.row.carry) ∈ s'.recorded)
    (hstart : ∀ i ∈ s'.started, ∀ m, spec.maxIterations = some m → i < m) : Sound spec s' where
  points {c' d} hd := by
    rw [hdrivers] at hd
    by_cases hc : c' = c
    · subst hc
      rw [Function.update_self] at hd
      cases hd
      exact hpoint
    · rw [Function.update_of_ne hc] at hd
      exact (h.points hd).other hrow hc hsub
  ledger hl hkey hst := hled _ hl _ _ hkey hst
  carry hi := hcarry _ hi
  started hi hm := hstart _ hi _ hm

lemma Sound.goto (hpoint : pc.Sound spec s.row s.recorded c) : Sound spec (s.goto c d pc) := by
  refine h.drives rfl .refl (List.Subset.refl _) hpoint ?_ ?_ ?_
  · exact fun l hl i f => h.ledger hl
  · exact fun i => h.carry
  · exact fun i hi m => h.started hi

lemma Sound.writes (hrow : LeavesOthers c s.row row) (hpoint : pc.Sound spec row s.recorded c)
    (hcarry : ∀ i, row.iteration = some (i + 1) → (i, row.carry) ∈ s.recorded) :
    Sound spec { s.goto c d pc with row } := by
  refine h.drives rfl hrow (List.Subset.refl _) hpoint ?_ hcarry ?_
  · exact fun l hl i f => h.ledger hl
  · exact fun i hi m => h.started hi

section
variable (hd : s.drivers c = some d)
include hd

lemma Sound.top (hpc : d.pc = .top i carry) :
    (topNext spec i carry stop).Sound spec s.row s.recorded c := by
  have hpoint := h.points hd
  rw [hpc] at hpoint
  rw [topNext]
  split
  · exact .idle rfl nofun
  split
  · exact .idle rfl nofun
  next hcap =>
    refine .within rfl (fun hholds => hpoint.sync hholds rfl) nofun ?_
    rintro j carry' m (hj | hj) hm
    · cases hj
      rw [hm] at hcap
      exact Nat.lt_of_not_le fun hle => hcap (decide_eq_true hle)
    · cases hj

lemma Sound.memo (hpc : d.pc = .memo i carry) :
    (memoNext i carry (memoizedStepResult (iterKey spec i) s.ledger)).Sound spec s.row
      s.recorded c := by
  have hpoint := h.points hd
  rw [hpc] at hpoint
  have hclm : (Pc.claimLedger i carry).Sound spec s.row s.recorded c := by
    refine .within rfl (fun hholds => hpoint.sync hholds rfl) nofun ?_
    rintro j carry' m (hj | hj) hm
    · cases hj
    · cases hj
      exact hpoint.below (.inl rfl) hm
  cases hmemo : memoizedStepResult (iterKey spec i) s.ledger with
  | none => exact hclm
  | some l =>
    obtain ⟨hl, hkey, -⟩ := mem_of_memoizedStepResult hmemo
    rw [memoNext]
    split
    · exact .idle rfl nofun
    next feedback hst =>
      refine .within rfl (fun hholds => hpoint.sync hholds rfl) ?_ nofun
      rintro j carry' hj
      cases hj
      exact h.ledger hl hkey hst
    · exact .idle rfl nofun
    · exact hclm

lemma Sound.body (hpc : d.pc = .body i carry) :
    (bodyNext i outcome).Sound spec s.row s.recorded c := by
  have hpoint := h.points hd
  rw [hpc] at hpoint
  cases outcome with
  | returned value => exact .within rfl (fun hholds => hpoint.sync hholds rfl) nofun nofun
  | raised typeName message => exact .idle rfl nofun
  | left => exact .idle rfl nofun

lemma Sound.claimLedger
    (hpc : d.pc = .claimLedger i carry) : Sound spec { s.goto c d (.body i carry) with
      ledger := claimStepLedger (iterKey spec i) c.attempt s.ledger
      started := i :: s.started } := by
  have hpoint := h.points hd
  rw [hpc] at hpoint
  refine h.drives rfl .refl (List.Subset.refl _)
    (.within rfl (fun hholds => hpoint.sync hholds rfl) nofun nofun) ?_ (fun i => h.carry) ?_
  · intro l hl j f hkey hst
    dsimp only [claimStepLedger] at hl
    split at hl
    · exact h.ledger hl hkey hst
    rcases mem_append.mp hl with hl | hl
    · exact h.ledger hl hkey hst
    · obtain rfl := mem_singleton.mp hl
      cases hst
  · intro j hj m hm
    rcases mem_cons.mp hj with rfl | hj
    · exact hpoint.below (.inr rfl) hm
    · exact h.started hj hm

lemma Sound.record
    (hpc : d.pc = .record i value) : Sound spec { s.goto c d (recordNext i value) with
      ledger := ledgerTerminal (iterKey spec i) c.attempt value.status s.ledger
      recorded := recordedOf i value ++ s.recorded } := by
  have hpoint := h.points hd
  rw [hpc] at hpoint
  have hsub : s.recorded ⊆ recordedOf i value ++ s.recorded := subset_append_right _ _
  refine h.drives rfl .refl hsub ?_ ?_ (fun i hi => hsub (h.carry hi)) fun i hi m => h.started hi
  · cases value with
    | done | other => exact .idle rfl nofun
    | refine feedback =>
      refine .within rfl (fun hholds => hpoint.sync hholds rfl) ?_ nofun
      rintro j carry hj
      cases hj
      exact mem_cons_self
  · intro l hl j f hkey hst
    obtain ⟨l0, hl0, rfl⟩ := mem_map.mp hl
    split at hkey
    next hown =>
      -- the row of this very iteration now has what the body returned
      rw [if_pos hown] at hst
      have hkey0 := of_decide_eq_true (Bool.and_eq_true_iff.mp hown).1
      obtain rfl := iterKey_inj (hkey0.symm.trans hkey)
      cases value with
      | done payload => cases hst
      | other typeName => cases hst
      | refine feedback =>
        cases hst
        exact mem_cons_self
    next hother =>
      rw [if_neg hother] at hst
      exact hsub (h.ledger hl0 hkey hst)

end

lemma Sound.init (hok : s.row.status = .running → s.row.unadvanced = true) :
    Sound spec { s.goto c d (.top 0 spec.initialCarry) with row := loopInit spec s.row } := by
  refine h.writes (leavesOthers_loopInit hok) (.within rfl ?_ nofun nofun) ?_
  · intro hholds
    by_cases hrun : s.row.status = .running
    · rw [loopInit_running hrun]
    · rw [loopInit_not_running hrun] at hholds
      exact absurd (LoopRow.holds_iff.mp hholds).1 hrun
  · intro i hi
    by_cases hrun : s.row.status = .running
    · rw [loopInit_running hrun] at hi
      cases hi
    · rw [loopInit_not_running hrun] at hi ⊢
      exact h.carry hi

lemma Sound.advance (hd : s.drivers c = some d)
    (hpc : d.pc = .advance i carry) (hrow : loopAdvance spec c (i + 1) carry s.row = some row) :
    Sound spec { s.goto c d (.top (i + 1) carry) with row } := by
  have hev := (h.points hd).evidence hpc
  have hleaves := leavesOthers_loopAdvance hrow
  obtain ⟨-, rfl⟩ := loopAdvance_some hrow
  refine h.writes hleaves (.within rfl (fun _ => rfl) nofun nofun) ?_
  intro j hj
  obtain rfl : i = j := Nat.succ.inj (Option.some.inj hj)
  exact hev

lemma Sound.ends (hrow : LeavesOthers c s.row row)
    (hsame : row.iteration = s.row.iteration ∧ row.carry = s.row.carry) :
    Sound spec { s.goto c d .ended with row } := by
  refine h.writes hrow (.idle rfl nofun) fun i hi => ?_
  rw [hsame.2]
  exact h.carry (hsame.1.symm.trans hi)

end

lemma exhaustLoop_kept {r : LoopRow α} :
    (exhaustLoop c errorClass message r).iteration = r.iteration ∧
      (exhaustLoop c errorClass message r).carry = r.carry := by
  rw [exhaustLoop]
  split
  · exact ⟨rfl, rfl⟩
  · exact ⟨rfl, rfl⟩

lemma finalizeSuccess_kept {r : LoopRow α} :
    (finalizeSuccess c r).iteration = r.iteration ∧ (finalizeSuccess c r).carry = r.carry := by
  rw [finalizeSuccess]
  split
  · exact ⟨rfl, rfl⟩
  · exact ⟨rfl, rfl⟩

lemma Sound.driveLoop (h : Sound spec s) (hd : s.drivers c = some d)
    (hok : d.pc = .init → s.row.status = .running → s.row.unadvanced = true)
    (hs : driveLoop spec s c d stop outcome = some s') : Sound spec s' := by
  rw [Loops.driveLoop] at hs
  split at hs
  · cases hs
    refine h.goto ?_
    split
    next hnone =>
      refine ⟨nofun, fun _ _ => ?_, nofun, by rintro _ _ _ (hpc | hpc) <;> cases hpc⟩
      rw [LoopRow.unadvanced, hnone]
      rfl
    next i hi => exact .within rfl (fun _ => hi) nofun nofun
  next hpc =>
    cases hs
    exact h.init (hok hpc)
  next i carry hpc =>
    split at hs
    · cases hs
      exact h.goto (.idle rfl nofun)
    · cases hs
      exact h.goto (h.top hd hpc)
  next i carry hpc =>
    cases hs
    exact h.goto (h.memo hd hpc)
  next i carry hpc =>
    cases hs
    exact h.claimLedger hd hpc
  next i carry hpc =>
    cases hs
    exact h.goto (h.body hd hpc)
  next i value hpc =>
    cases hs
    exact h.record hd hpc
  next i carry hpc =>
    split at hs
    next row hrow =>
      cases hs
      exact h.advance hd hpc hrow
    · cases hs
      exact h.goto (.idle rfl nofun)
  · cases hs
    exact h.ends leavesOthers_exhaustLoop exhaustLoop_kept
  · cases hs
    exact h.ends leavesOthers_finalizeSuccess finalizeSuccess_kept
  · cases hs

lemma Pc.Sound.unheld {pc : Pc α} (h : pc.Sound spec r recorded c)
    (hr : r'.status ≠ .running) : pc.Sound spec r' recorded c where
  sync hholds := absurd (LoopRow.holds_iff.mp hholds).1 hr
  init hholds := absurd (LoopRow.holds_iff.mp hholds).1 hr
  evidence := h.evidence
  below := h.below

lemma Sound.step (h : Sound spec s) (hok : InitInTime s a) (hs : step spec s a = some s') :
    Sound spec s' := by
  cases a with
  | claim c =>
    obtain ⟨-, rfl⟩ := matched hs
    refine h.drives rfl ?_ (List.Subset.refl _) (.idle rfl nofun) (fun l hl i f => h.ledger hl)
      (fun i => h.carry) fun i hi m => h.started hi
    intro c' hc hholds
    exact absurd (LoopRow.holds_unique (LoopRow.holds_iff.mpr ⟨rfl, rfl, rfl, rfl⟩) hholds) hc
  | lapse =>
    obtain ⟨-, rfl⟩ := matched hs
    exact ⟨fun hd => (h.points hd).unheld nofun, h.ledger, h.carry, h.started⟩
  | drive c stop outcome =>
    obtain ⟨d, hd, hs⟩ := Option.bind_eq_some_iff.mp hs
    exact h.driveLoop hd (hok d hd) hs

lemma Sound.start : Sound spec (State.start : State α) where
  points hd := by cases hd
  ledger hl := by cases hl
  carry hi := by cases hi
  started hi := by cases hi

lemma row_driveLoop (hs : driveLoop spec s c d stop outcome = some s') :
    s'.row.iteration = s.row.iteration ∨ d.pc = .init ∧ s'.row = loopInit spec s.row ∨
      ∃ i carry, d.pc = .advance i carry ∧
        loopAdvance spec c (i + 1) carry s.row = some s'.row := by
  obtain ⟨rounds, pc⟩ := d
  rw [Loops.driveLoop] at hs
  cases pc with
  | readState | memo | claimLedger | body | record =>
    cases hs
    exact .inl rfl
  | top i carry =>
    dsimp only at hs
    split at hs
    all_goals
      cases hs
      exact .inl rfl
  | init =>
    cases hs
    exact .inr (.inl ⟨rfl, rfl⟩)
  | advance i carry =>
    dsimp only at hs
    split at hs
    next row hrow =>
      cases hs
      exact .inr (.inr ⟨i, carry, rfl, hrow⟩)
    · cases hs
      exact .inl rfl
  | exhaust =>
    cases hs
    exact .inl exhaustLoop_kept.1
  | finalize =>
    cases hs
    exact .inl finalizeSuccess_kept.1
  | ended =>
    cases hs

section
variable (h : Sound spec s)
include h

lemma Sound.raises (hd : s.drivers c = some d)
    (hpc : d.pc = .advance i carry) (hrow : loopAdvance spec c (i + 1) carry s.row = some r) :
    s.row.iteration = some i ∧ r.iteration = some (i + 1) := by
  obtain ⟨hholds, rfl⟩ := loopAdvance_some hrow
  exact ⟨(h.points hd).sync hholds (by rw [hpc]; rfl), rfl⟩

lemma Sound.counter (hok : InitInTime s a)
    (hs : Loops.step spec s a = some s') (hi : s.row.iteration = some i) :
    ∃ j, s'.row.iteration = some j ∧ i ≤ j := by
  cases a with
  | claim | lapse =>
    obtain ⟨-, rfl⟩ := matched hs
    exact ⟨i, hi, Nat.le_refl i⟩
  | drive c stop outcome =>
    obtain ⟨d, hd, hs⟩ := Option.bind_eq_some_iff.mp hs
    rcases row_driveLoop hs with hsame | ⟨hpc, hrow⟩ | ⟨j, carry, hpc, hrow⟩
    · exact ⟨i, hsame.trans hi, Nat.le_refl i⟩
    · by_cases hrun : s.row.status = .running
      · obtain rfl := LoopRow.unadvanced_iff.mp (hok d hd hpc hrun) i hi
        rw [hrow, loopInit_running hrun]
        exact ⟨0, rfl, Nat.le_refl 0⟩
      · rw [hrow, loopInit_not_running hrun]
        exact ⟨i, hi, Nat.le_refl i⟩
    · obtain ⟨hj, hj'⟩ := h.raises hd hpc hrow
      cases hi.symm.trans hj
      exact ⟨i + 1, hj', Nat.le_succ i⟩

lemma Sound.lands (ha : Lands spec s a) (hs : Loops.step spec s a = some s') :
    ∃ i, s.row.iteration = some i ∧ s'.row.iteration = some (i + 1) := by
  obtain ⟨c, stop, outcome, d, i, carry, rfl, hd, hpc, hsome⟩ := ha
  obtain ⟨row, hrow⟩ := Option.isSome_iff_exists.mp hsome
  obtain ⟨d', hd', hs⟩ := Option.bind_eq_some_iff.mp hs
  cases hd.symm.trans hd'
  rw [Loops.driveLoop, hpc] at hs
  dsimp only at hs
  rw [hrow] at hs
  cases hs
  exact ⟨i, h.raises hd hpc hrow⟩

lemma Sound.card_started (hm : spec.maxIterations = some m) : s.started.toFinset.card ≤ m := by
  have hsub : s.started.toFinset ⊆ Finset.range m := by
    intro i hi
    exact Finset.mem_range.mpr (h.started (mem_toFinset.mp hi) hm)
  exact (Finset.card_le_card hsub).trans_eq (Finset.card_range m)

end

/-- In a run whose initial writes are in time the counter only goes up by one, and the carry is what
the iteration before recorded. -/
theorem loop_progress_monotone (h : Reach (step spec) InitInTime State.start s) :
    (∀ a s', InitInTime s a → step spec s a = some s' →
      (∀ i, s.row.iteration = some i → ∃ j, s'.row.iteration = some j ∧ i ≤ j) ∧
      (Lands spec s a → ∃ i, s.row.iteration = some i ∧ s'.row.iteration = some (i + 1))) ∧
    (∀ i, s.row.iteration = some (i + 1) → (i, s.row.carry) ∈ s.recorded) ∧
    ∀ m, spec.maxIterations = some m → s.started.toFinset.card ≤ m := by
  have hsound : Sound spec s := h.invariant Sound.start fun _ _ _ hI hok hs => hI.step hok hs
  refine ⟨fun a s' hok hs => ⟨fun i hi => ?_, fun ha => ?_⟩, fun i hi => ?_, fun m hm => ?_⟩
  · exact hsound.counter hok hs hi
  · exact hsound.lands ha hs
  · exact hsound.carry hi
  · exact hsound.card_started hm

/-- `LOOP_INIT_SQL` finds the row under its driver's claim, as if it had the advance's fence. -/
def InitFenced (s : State α) : Event α → Prop
  | .drive c _ _ => ∀ d, s.drivers c = some d → d.pc = .init → s.row.status = .running →
      s.row.holds c = true
  | _ => True

/-- With the fence every initial write of a run is in time. -/
theorem inTime_of_fenced (h : Reach (step spec) InitFenced State.start s) :
    (∀ a, InitFenced s a → InitInTime s a) ∧ Reach (step spec) InitInTime State.start s := by
  have hinTime : ∀ s a, Sound spec s → InitFenced s a → InitInTime s a := by
    intro s a hsound hok
    cases a with
    | claim | lapse => trivial
    | drive c stop outcome =>
      exact fun d hd hpc hrun => (hsound.points hd).init (hok d hd hpc hrun) hpc
  have hstep : ∀ s a s', Sound spec s → InitFenced s a → step spec s a = some s' → Sound spec s' :=
    fun s a s' hI hok hs => hI.step (hinTime s a hI hok) hs
  have hsound : Sound spec s := h.invariant Sound.start hstep
  exact ⟨fun a => hinTime s a hsound, h.mono_of_invariant Sound.start hstep hinTime⟩

end

def twoRounds : LoopSpec String := ⟨"refine", some 2, none⟩

def firstClaim : Identity := ⟨7, 1, 0⟩

def secondClaim : Identity := ⟨8, 2, 0⟩

def firstIteration (c : Identity) : List (Event String) :=
  replicate 8 (.drive c false (.returned (.refine (some "draft"))))

/-- The first driver is delayed, and its `LOOP_INIT_SQL` arrives after the second's advance. -/
theorem late_init_resets : ∃ s s' : State String, ∃ a,
      Reach (step twoRounds) (fun _ _ => True) State.start s ∧ step twoRounds s a = some s' ∧
        s.row.iteration = some 1 ∧ s'.row.iteration = some 0 ∧ s'.row.holds secondClaim = true := by
  let late : Event String := .drive firstClaim false .left
  let events : List (Event String) :=
    [.claim firstClaim, late, .lapse, .claim secondClaim] ++ firstIteration secondClaim
  let s := final (step twoRounds) State.start events
  have hreach : Reach (step twoRounds) (fun _ _ => True) State.start s :=
    .of_final (by decide +kernel)
  exact ⟨s, final (step twoRounds) s [late], late, hreach, step_final (by decide +kernel),
    by decide +kernel, by decide +kernel, by decide +kernel⟩

def inTime (s : State String) : Event String → Bool
  | .drive c _ _ => (s.drivers c).all fun d => d.pc != .init || s.row.unadvanced
  | _ => true

lemma inTime_sound (h : inTime s a = true) : InitInTime s a := by
  cases a with
  | claim | lapse => trivial
  | drive c stop outcome =>
    intro d hd hpc _
    simpa [inTime, hd, hpc] using h

theorem loop_handed_over :
    ∃ s : State String, s.row.iteration = some 1 ∧ s.row.carry = some "draft" ∧
      (0, some "draft") ∈ s.recorded ∧ s.started.toFinset.card ≤ 2 := by
  let events : List (Event String) :=
    [.claim firstClaim] ++ firstIteration firstClaim ++ [.lapse, .claim secondClaim,
      .drive secondClaim false .left]
  let s := final (step twoRounds) State.start events
  have hreach : Reach (step twoRounds) InitInTime State.start s :=
    .of_exec (exec_final (by decide +kernel))
      (.of_checks inTime (by decide +kernel) fun _ _ => inTime_sound)
  obtain ⟨-, hcarry, hstarted⟩ := loop_progress_monotone hreach
  have hone : s.row.iteration = some 1 := by decide +kernel
  have hdraft : s.row.carry = some "draft" := by decide +kernel
  exact ⟨s, hone, hdraft, hdraft ▸ hcarry 0 hone, hstarted 2 rfl⟩

theorem inTime_of_fenced_driven : ∃ s s' : State String,
    step twoRounds s (.drive firstClaim false .left) = some s' ∧ s.row.iteration = none ∧
      s'.row.iteration = some 0 ∧ s.row.unadvanced = true := by
  let a : Event String := .drive firstClaim false .left
  let s := final (step twoRounds) State.start [.claim firstClaim, a]
  have hreach : Reach (step twoRounds) InitFenced State.start s :=
    .of_exec (exec_final (by decide +kernel))
      ⟨trivial, fun s hs => ⟨by cases hs; exact fun d hd hpc hrun => rfl, fun _ _ => trivial⟩⟩
  exact ⟨s, final (step twoRounds) s [a], step_final (by decide +kernel), rfl, rfl,
    (inTime_of_fenced hreach).1 a (fun _ _ _ _ => rfl) _ rfl rfl rfl⟩

end TaskQ.Loops
