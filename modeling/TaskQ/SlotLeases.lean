import TaskQ.Rows
import TaskQ.Runs

namespace TaskQ.SlotLeases

open Runs

structure Claim where
  job : JobId
  worker : WorkerId
  number : Nat
  deriving DecidableEq

/-- A `reservation_slots` row; the ghost `owner` is its claim and that claim's last lease end. -/
structure Slot where
  bucketName : String
  slotIndex : Nat
  jobId : Option JobId := none
  heldByWorkerId : Option WorkerId := none
  acquiredAt : Option Time := none
  leaseExpiresAt : Option Time := none
  owner : Option (Claim × Time) := none

def Slot.free (x : Slot) (now : Time) : Bool := x.jobId.isNone || x.leaseExpiresAt.any (· < now)

/-- `_ACQUIRE_SQL` on one of the free slots that no peer has locked. -/
def Slot.acquire (c : Claim) (bucket : String) (index : Nat) (now lease : Time) (x : Slot) : Slot :=
  if x.bucketName = bucket ∧ x.slotIndex = index ∧ x.free now then
    { x with
      jobId := some c.job, heldByWorkerId := some c.worker, acquiredAt := some now
      leaseExpiresAt := some (now + lease), owner := some (c, now + lease) }
  else x

/-- `_RELEASE_SQL`, and with a fence `_RELEASE_FENCED_SQL`. -/
def Slot.release (bucket : String) (index : Nat) (worker : WorkerId) (fence : Option Time)
    (x : Slot) : Slot :=
  if x.bucketName = bucket ∧ x.slotIndex = index ∧ x.heldByWorkerId = some worker ∧
      ∀ stamp ∈ fence, x.acquiredAt = some stamp then
    { x with
      jobId := none, heldByWorkerId := none, acquiredAt := none, leaseExpiresAt := none
      owner := none }
  else x

/-- `UPDATE_RESERVATION_LEASES`; `running` has the claims of the running jobs. -/
def Slot.extend (running : JobId → Option Claim) (worker : WorkerId) (disowned : List JobId)
    (now lease : Time) (x : Slot) : Slot :=
  if x.jobId.any fun j => (running j).any (·.worker == worker) && decide (j ∉ disowned) then
    { x with
      leaseExpiresAt := some (now + lease)
      owner := x.owner.map fun o =>
        (o.1, if running o.1.job = some o.1 then now + lease else o.2) }
  else x

structure World where
  running : JobId → Option Claim := fun _ => none
  made : List Claim := []
  slots : List Slot

inductive Act where
  | claim (job : JobId) (worker : WorkerId)
  | finish (job : JobId)
  | acquire (c : Claim) (bucket : String) (index : Nat) (now lease : Time)
  | release (bucket : String) (index : Nat) (worker : WorkerId) (fence : Option Time)
  | extend (worker : WorkerId) (disowned : List JobId) (now lease : Time)

def step (s : World) : Act → Option World
  | .claim job worker =>
    if (s.running job).isNone then
      some { s with
        running := Function.update s.running job (some ⟨job, worker, s.made.length⟩)
        made := ⟨job, worker, s.made.length⟩ :: s.made }
    else none
  | .finish job => some { s with running := Function.update s.running job none }
  | .acquire c bucket index now lease =>
    -- the handler asks for a slot without a look at its claim
    if c ∈ s.made then some { s with slots := s.slots.map (.acquire c bucket index now lease) }
    else none
  | .release bucket index worker fence =>
    some { s with slots := s.slots.map (.release bucket index worker fence) }
  | .extend worker disowned now lease =>
    some { s with slots := s.slots.map (.extend s.running worker disowned now lease) }

/-- A job is claimed when no slot carries its id, and a superseded claim acquires none. -/
def HandedOver (s : World) : Act → Prop
  | .claim job _ => ∀ x ∈ s.slots, x.jobId ≠ some job
  | .acquire c .. => ∀ c' ∈ s.running c.job, c' = c
  | _ => True

instance (s : World) (a : Act) : Decidable (HandedOver s a) :=
  match a with
  | .claim .. => inferInstanceAs (Decidable (∀ x ∈ s.slots, _))
  | .acquire c .. => inferInstanceAs (Decidable (∀ c' ∈ s.running c.job, c' = c))
  | .finish _ | .release .. | .extend .. => inferInstanceAs (Decidable True)

def Owned (running : JobId → Option Claim) (x : Slot) : Prop :=
  ∀ j, x.jobId = some j → ∃ c e, x.owner = some (c, e) ∧ c.job = j ∧ x.leaseExpiresAt = some e ∧
    ∀ c' ∈ running j, c' = c

section
variable (h : Owned running x)
include h

lemma Owned.claim (hne : x.jobId ≠ some job) : Owned (Function.update running job c) x := by
  intro j hj
  have hjob : j ≠ job := fun heq => hne (heq ▸ hj)
  rw [Function.update_of_ne hjob]
  exact h j hj

lemma Owned.finish : Owned (Function.update running job none) x := by
  intro j hj
  obtain ⟨c, e, ho, hcj, hl, hc⟩ := h j hj
  refine ⟨c, e, ho, hcj, hl, ?_⟩
  intro c' hc'
  by_cases hjob : j = job
  · rw [hjob, Function.update_self] at hc'
    cases hc'
  · rw [Function.update_of_ne hjob] at hc'
    exact hc c' hc'

lemma Owned.acquire (hc : ∀ c' ∈ running c.job, c' = c) :
    Owned running (x.acquire c bucket index now lease) := by
  unfold Slot.acquire
  split
  · intro j hj
    cases hj
    exact ⟨c, now + lease, rfl, rfl, rfl, hc⟩
  · exact h

lemma Owned.release : Owned running (x.release bucket index worker fence) := by
  unfold Slot.release
  split
  · intro j hj
    cases hj
  · exact h

lemma Owned.extend : Owned running (x.extend running worker disowned now lease) := by
  unfold Slot.extend
  split
  next hext =>
    intro j hj
    obtain ⟨c, e, ho, rfl, -, hc⟩ := h j hj
    -- the extension finds a running claim, and that is the owner
    have hrun : running c.job = some c := by
      rw [show x.jobId = some c.job from hj, Option.any_some, Bool.and_eq_true] at hext
      cases hr : running c.job with
      | none =>
        rw [hr] at hext
        cases hext.1
      | some c' => rw [hc c' hr]
    exact ⟨c, now + lease, by simp [ho, hrun], rfl, rfl, hc⟩
  · exact h

end

lemma owned_step {s s' : World} (h : ∀ x ∈ s.slots, Owned s.running x) (hok : HandedOver s a)
    (hs : step s a = some s') : ∀ x ∈ s'.slots, Owned s'.running x := by
  cases a with
  | claim job worker =>
    obtain ⟨_, rfl⟩ := matched hs
    exact fun x hx => (h x hx).claim (hok x hx)
  | finish job =>
    cases hs
    exact fun x hx => (h x hx).finish
  | acquire c bucket index now lease =>
    obtain ⟨_, rfl⟩ := matched hs
    exact List.forall_mem_map.mpr fun x hx => (h x hx).acquire hok
  | release bucket index worker fence =>
    cases hs
    exact List.forall_mem_map.mpr fun x hx => (h x hx).release
  | extend worker disowned now lease =>
    cases hs
    exact List.forall_mem_map.mpr fun x hx => (h x hx).extend

/-- A held slot is extended only under its own claim and is free once that lease is over. -/
theorem slot_lease_ends_with_claim {s0 s : World} {x : Slot} {j : JobId}
    (hstart : ∀ x ∈ s0.slots, x.jobId = none) (h : Reach step HandedOver s0 s) (hx : x ∈ s.slots)
    (hj : x.jobId = some j) :
    ∃ c e, x.owner = some (c, e) ∧ c.job = j ∧ (∀ c', s.running j = some c' → c' = c) ∧
      ∀ t, x.free t = true ↔ e < t := by
  have hinv : ∀ x ∈ s.slots, Owned s.running x :=
    h.invariant (fun x hx j hj => by cases (hstart x hx).symm.trans hj)
      fun _ _ _ hI hok hs => owned_step hI hok hs
  obtain ⟨c, e, ho, hcj, hl, hc⟩ := hinv x hx j hj
  refine ⟨c, e, ho, hcj, hc, fun t => ?_⟩
  rw [Slot.free, hj, hl]
  simp

def oneSlot : World := { slots := [⟨"api", 0, none, none, none, none, none⟩] }

def released : List Act :=
  [.claim 1 7, .acquire ⟨1, 7, 0⟩ "api" 0 0 60, .extend 7 [] 20 60, .release "api" 0 7 (some 0),
    .finish 1, .claim 1 8, .acquire ⟨1, 8, 1⟩ "api" 0 30 60, .extend 8 [] 50 60]

theorem slot_lease_ends_with_claim_released :
    ∃ x ∈ (final step oneSlot released).slots, ∃ c e, x.owner = some (c, e) ∧ c.job = 1 ∧
      (∀ c', (final step oneSlot released).running 1 = some c' → c' = c) ∧
      ∀ t, x.free t = true ↔ e < t :=
  ⟨_, List.mem_cons_self, slot_lease_ends_with_claim (by decide)
    (.of_decide (by decide +kernel) (by decide +kernel)) List.mem_cons_self (by decide +kernel)⟩

def leaked : List Act :=
  [.claim 1 7, .acquire ⟨1, 7, 0⟩ "api" 0 0 60, .finish 1, .claim 1 8, .extend 8 [] 50 60]

/-- The slot that the ended claim left until 60 is held until 110. -/
theorem leaked_slot_extended :
    ∃ s, exec step oneSlot leaked = some s ∧ s.running 1 = some ⟨1, 8, 1⟩ ∧
      ∃ x ∈ s.slots, x.owner = some (⟨1, 7, 0⟩, 60) ∧ x.free 61 = false ∧
        x.leaseExpiresAt = some 110 :=
  ⟨final step oneSlot leaked, exec_final (by decide +kernel), by decide +kernel, by decide +kernel⟩

end TaskQ.SlotLeases
