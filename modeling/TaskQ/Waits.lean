import TaskQ.Joined
import TaskQ.Release

namespace TaskQ
open List

inductive Deferral where
  | snooze
  | retryAfter (consumeBudget : Bool)

inductive DeferralDisposition where
  | snooze | retryAfterConsuming
  deriving DecidableEq

def deferralDisposition : Deferral → DeferralDisposition
  | .retryAfter true => .retryAfterConsuming
  | .snooze | .retryAfter false => .snooze

def minDeferralInterval : Time := 1000

inductive DeferVerdict where
  | deferred | exhausted | cancelFenced | fenced
  deriving DecidableEq

/-- `NODE_DEFER_SQL`'s verdict: the claim fence, the cancel fence, the consuming arm's budget. -/
def deferVerdict (c : Claim) (d : DeferralDisposition) (r : JobRow) : DeferVerdict :=
  if r.status = .running && sqlEq r.lockedByWorker (some c.worker) && r.attempt = c.attempt &&
      sqlEq r.claimEpoch (some 0) then
    if r.cancelMarked then .cancelFenced
    else if d = .snooze || r.retryKind = .indefinite || r.attempt < r.maxAttempts then .deferred
    else .exhausted
  else .fenced

lemma deferVerdict_attempt {r : JobRow} (h : deferVerdict c d r ≠ .fenced) :
    r.attempt = c.attempt := by
  unfold deferVerdict at h
  split at h
  · rename_i hc
    simp only [Bool.and_eq_true, decide_eq_true_eq] at hc
    exact hc.1.2
  · exact absurd rfl h

def nodeDefer (db : Snapshot) (now : Time) (c : Claim) (delay : Time) (d : DeferralDisposition) :
    Writes :=
  let effectiveDelay :=
    if d = .retryAfterConsuming then delay else max delay minDeferralInterval
  update db (fun k r => k = c.job && deferVerdict c d r = .deferred) fun _ r =>
    { r with
      status := if 0 < effectiveDelay then .scheduled else .pending
      scheduledAt := now + effectiveDelay, lockedByWorker := none, lockExpiresAt := none
      cancelPhase := 0, attempt := if d = .retryAfterConsuming then c.attempt else c.attempt - 1 }

def loopAdvance (db : Snapshot) (c : Claim) (next maxIterations : Nat) : Writes :=
  update db (fun k r => k = c.job && r.status = .running &&
      (r.metadata.iteration.any fun i => i + 1 ≤ maxIterations) &&
      r.lockedByWorker = some c.worker && r.attempt = c.attempt && r.claimEpoch = some 0)
    fun _ r => { r with metadata := { r.metadata with iteration := some next } }

def cursorKey (attempt : Nat) (signalName : String) : String :=
  "hold_cursor_" ++ attempt.repr ++ "_" ++ signalName

def faceKey (attempt : Nat) (signalName : String) : String :=
  "timeout_face_" ++ attempt.repr ++ "_" ++ signalName

lemma append_cons_cancel {x : Char} (h : x ∉ l) (h' : x ∉ l')
    (e : l ++ x :: m = l' ++ x :: m') : l = l' ∧ m = m' := by
  have htake : ∀ {l m : List Char}, x ∉ l → (l ++ x :: m).takeWhile (· != x) = l := by
    intro l m h
    have hne : ∀ a ∈ l, (a != x) = true := fun a ha => bne_iff_ne.mpr fun hx => h (hx ▸ ha)
    simp [takeWhile_append_of_pos hne]
  obtain rfl : l = l' := (htake h).symm.trans ((congrArg _ e).trans (htake h'))
  exact ⟨rfl, (cons.inj (append_cancel_left e)).2⟩

lemma toList_siteKey (kind : String) (attempt : Nat) (name : String) :
    (kind ++ attempt.repr ++ "_" ++ name).toList =
      kind.toList ++ (attempt.repr.toList ++ '_' :: name.toList) := by
  rw [String.toList_append, String.toList_append, String.toList_append, append_assoc, append_assoc]
  rfl

lemma cursorKey_inj : cursorKey a n = cursorKey b m ↔ a = b ∧ n = m := by
  refine ⟨fun h => ?_, fun ⟨ha, hn⟩ => by rw [ha, hn]⟩
  have hl := (toList_siteKey "hold_cursor_" a n).symm.trans
    ((congrArg String.toList h).trans (toList_siteKey "hold_cursor_" b m))
  have hdigits : ∀ n : Nat, '_' ∉ n.repr.toList := Joined.not_mem_toString rfl
  obtain ⟨hd, hm⟩ := append_cons_cancel (hdigits a) (hdigits b) (append_cancel_left hl)
  exact ⟨Joined.toString_inj.mp (String.toList_inj.mp hd), String.toList_inj.mp hm⟩

lemma cursorKey_ne_faceKey : cursorKey a n ≠ faceKey b m := by
  intro h
  have hl := (toList_siteKey "hold_cursor_" a n).symm.trans
    ((congrArg String.toList h).trans (toList_siteKey "timeout_face_" b m))
  exact absurd (cons.inj hl).1 (by decide)

def JobRow.mark (r : JobRow) (key : String) : Option Nat := r.metadata.waitMarks.lookup key

/-- The unfenced `UPDATE` with which a wait site writes one of its keys. -/
def setMark (db : Snapshot) (job : JobId) (key : String) (v : Nat) : Writes :=
  update db (fun k _ => k = job) fun _ r =>
    { r with metadata := { r.metadata with waitMarks := (key, v) :: r.metadata.waitMarks } }

/-- The deadline of `wait_until`, as `normalize_timer_when` gives it. -/
inductive When where
  | absolute (t : Time)
  | relative (d : Time)
  deriving DecidableEq

/-- A wait of a workflow body; `names` are the names of the payload models. -/
inductive WaitCall where
  | waitSignal (names : List String) (timeout : Option Time := none)
  | waitUntil (key : String) (when : When)
  deriving DecidableEq

namespace WaitCall

def signalName : WaitCall → String
  | .waitSignal [name] _ => name
  | .waitSignal names _ => String.intercalate "|" names
  | .waitUntil key _ => timerMark ++ key

def reads : WaitCall → List String
  | .waitSignal names _ => names ++ [String.intercalate "|" names]
  | .waitUntil key _ => [timerMark ++ key]

def accepted : WaitCall → Bool
  | .waitSignal names _ => !names.isEmpty && names.all fun n => !startsWith timerMark n
  | .waitUntil key _ => !startsWith timerMark key

def isTimer : WaitCall → Bool
  | .waitSignal _ _ => false
  | .waitUntil _ _ => true

def deadline (now : Time) : WaitCall → Option Time
  | .waitSignal _ timeout => timeout.map (now + ·)
  | .waitUntil _ (.absolute t) => some t
  | .waitUntil _ (.relative d) => some (now + d)

lemma signalName_mem_reads (w : WaitCall) : w.signalName ∈ w.reads := by
  cases w with
  | waitSignal names _ =>
    match names with
    | [] => exact mem_append_right _ (mem_singleton_self _)
    | [_] => exact mem_append_left _ (mem_singleton_self _)
    | _ :: _ :: _ => exact mem_append_right _ (mem_singleton_self _)
  | waitUntil => exact mem_singleton_self _

end WaitCall

structure NodeAddr where
  workflow : JobId
  nodeKey : String
  mapIndex : Option Nat := none
  deriving DecidableEq

def SignalRow.addr (r : SignalRow) : NodeAddr := ⟨r.workflow, r.nodeKey, r.mapIndex⟩

def holdsOf (rows : List (HoldId × SignalRow)) (node : NodeAddr) (names : List String)
    (st : SignalStatus) : List (HoldId × SignalRow) :=
  rows.filter fun p => p.2.addr = node && p.2.signalName ∈ names && p.2.status = st

def answerQueue (rows : List (HoldId × SignalRow)) (node : NodeAddr) (names : List String) :
    List (HoldId × SignalRow) :=
  (holdsOf rows node names .delivered).insertionSort fun p q => p.2.holdEpoch ≤ q.2.holdEpoch

def latestHold (rows : List (HoldId × SignalRow)) (node : NodeAddr) (names : List String)
    (st : SignalStatus) : Option (HoldId × SignalRow) :=
  ((holdsOf rows node names st).insertionSort fun p q => q.2.holdEpoch ≤ p.2.holdEpoch).head?

def nextEpoch (rows : List (HoldId × SignalRow)) (node : NodeAddr) : Nat :=
  ((rows.filter fun p => p.2.addr = node).map fun p => p.2.holdEpoch).foldr max 0 + 1

variable {rows : List (HoldId × SignalRow)}

lemma mem_answerQueue : p ∈ answerQueue rows node names ↔
    p ∈ rows ∧ p.2.addr = node ∧ p.2.signalName ∈ names ∧ p.2.status = .delivered := by
  simp only [answerQueue, mem_insertionSort, holdsOf, mem_filter, Bool.and_eq_true,
    decide_eq_true_eq, and_assoc]

lemma answerQueue_congr
    (h : ∀ p ∈ rows, p.2.addr = node → (p.2.signalName ∈ names ↔ p.2.signalName ∈ names')) :
    answerQueue rows node names = answerQueue rows node names' := by
  unfold answerQueue holdsOf
  congr 1
  refine filter_congr fun p hp => ?_
  by_cases ha : p.2.addr = node
  · simp only [ha, h p hp ha]
  · simp [ha]

end TaskQ
