import TaskQ.Sites

namespace TaskQ
open Runs Option Runner

structure WaitState where
  attempt : Nat
  loop : Bool
  marks : List (String × Nat)

def JobRow.waitState (r : JobRow) : WaitState :=
  ⟨r.attempt, r.metadata.loopKind, r.metadata.waitMarks⟩

def cursorIn (marks : List (String × Nat)) (attempt : Nat) (signalName : String) : Nat :=
  (marks.lookup (cursorKey attempt signalName)).getD 0

def Runner.waitState (s : Runner) (k : JobId) : Option WaitState :=
  (s.db.jobs k).map JobRow.waitState

def KeepsWaits (db : Snapshot) (w : Writes) : Prop :=
  ∀ k r, w k = some r → ∃ r0, db.jobs k = some r0 ∧ r.waitState = r0.waitState

variable {db : Snapshot}

lemma keepsWaits_update (hf : ∀ k r, (f k r).waitState = r.waitState) :
    KeepsWaits db (update db p f) := by
  intro k r h
  obtain ⟨r0, hr0, -, rfl⟩ := update_some.mp h
  exact ⟨r0, hr0, hf k r0⟩

lemma KeepsWaits.andThen (h : KeepsWaits db w)
    (h' : KeepsWaits (db.write w) w') : KeepsWaits db (w.andThen w') := by
  intro k r hr
  rcases or_eq_some_iff.mp hr with hr | ⟨-, hr⟩
  · obtain ⟨r1, hr1, he1⟩ := h' k r hr
    rcases or_eq_some_iff.mp hr1 with hw | ⟨-, hd⟩
    · obtain ⟨r0, hr0, he0⟩ := h k r1 hw
      exact ⟨r0, hr0, he1.trans he0⟩
    · exact ⟨r1, hd, he1⟩
  · exact h k r hr

lemma keepsWaits_none : KeepsWaits db fun _ => none := by
  intro k r h
  cases h

lemma keepsWaits_retryWorkflowNode : KeepsWaits db (retryWorkflowNode db now flow key) := by
  unfold retryWorkflowNode
  dsimp only
  split
  · exact keepsWaits_none
  refine KeepsWaits.andThen (KeepsWaits.andThen (KeepsWaits.andThen ?_ ?_) ?_) ?_
  · exact keepsWaits_update fun _ _ => rfl
  · exact keepsWaits_update fun _ _ => rfl
  · rw [← Snapshot.write_andThen]
    exact keepsWaits_update fun _ _ => rfl
  · rw [← Snapshot.write_andThen, ← Snapshot.write_andThen]
    exact keepsWaits_update fun _ _ => rfl

lemma keepsWaits_cancelOneRun : KeepsWaits db (cancelOneRun db flow reason) := by
  unfold cancelOneRun
  dsimp only
  split
  · exact keepsWaits_none
  · refine KeepsWaits.andThen (keepsWaits_update fun _ _ => rfl) (keepsWaits_update fun _ r => ?_)
    split <;> rfl

variable {s s' : Runner}

lemma KeepsWaits.waitState (h : KeepsWaits s.db w) (k : JobId) :
    (s.write w).waitState k = s.waitState k := by
  unfold Runner.waitState Runner.write Snapshot.write
  dsimp only
  cases hw : w k with
  | none => rw [none_or]
  | some r =>
    obtain ⟨r0, hr0, he⟩ := h k r hw
    rw [some_or, hr0, map_some, map_some, he]

lemma jobs_write_update (db : Snapshot) : (db.write (update db p f)).jobs k =
    (db.jobs k).map fun r => if p k r then f k r else r := by
  unfold Snapshot.write update
  dsimp only
  cases hr : db.jobs k with
  | none => rfl
  | some r => by_cases hp : p k r = true <;> simp [hp]

lemma waitState_setMark : (s.write (setMark s.db job key n)).waitState k =
    (s.waitState k).map fun v =>
      if k = job then { v with marks := (key, n) :: v.marks } else v := by
  unfold Runner.waitState Runner.write setMark
  rw [jobs_write_update, map_map, map_map]
  congr 1
  funext r
  by_cases hk : k = job <;> simp [hk, JobRow.waitState]

lemma cursorIn_cons_of_ne (h : cursorKey a n ≠ key) :
    cursorIn ((key, m) :: marks) a n = cursorIn marks a n := by
  simp only [cursorIn, List.lookup_cons, beq_eq_false_iff_ne.mpr h]

lemma cursorIn_cons_self : cursorIn ((cursorKey a n, m) :: marks) a n = m := by
  simp [cursorIn, List.lookup_cons]

structure Positioned (holds : List (HoldId × SignalRow)) (marks : List (String × Nat))
    (b : Body) : Prop where
  cursor : ∀ n, cursorIn marks b.claim.attempt n = b.consumed.count n
  read : ∀ w loop c, b.pc.position = some (w, loop, c) →
    loop = false ∧ c = b.consumed.count w.signalName
  starved : ∀ w, b.pc.starved = some w →
    (answerQueue holds b.node [w.signalName]).length ≤ b.consumed.count w.signalName

structure Replaying (s : Runner) : Prop where
  unused : ∀ k v, s.waitState k = some v → v.loop = false →
    ∀ a n, v.attempt < a → cursorIn v.marks a n = 0
  live : ∀ (e : Nat) b, s.bodies[e]? = some b → b.pc ≠ .over →
    ∃ v, s.waitState b.claim.job = some v ∧ b.claim.attempt ≤ v.attempt ∧
      (v.loop = false → Positioned s.holds v.marks b)
  apart : ∀ (e e' : Nat) b b', s.bodies[e]? = some b → s.bodies[e']? = some b' → b.pc ≠ .over →
    b'.pc ≠ .over → b'.claim.job = b.claim.job → b'.claim.attempt = b.claim.attempt → e' = e

lemma Runner.waitState_put (s : Runner) : (s.put e b).waitState k = s.waitState k := rfl

lemma Runner.waitState_start (s : Runner) : (s.start b).waitState k = s.waitState k := rfl

lemma Runner.bodies_put (h : (s.put e b).bodies[i]? = some c) :
    i = e ∧ c = b ∨ i ≠ e ∧ s.bodies[i]? = some c := Positions.of_set h

lemma Replaying.of_same (h : Replaying s) (hv : ∀ k, s'.waitState k = s.waitState k)
    (hb : ∀ (e : Nat) b', s'.bodies[e]? = some b' → b'.pc ≠ .over →
      ∃ b, s.bodies[e]? = some b ∧ b.pc ≠ .over ∧ b'.claim = b.claim ∧
        ∀ v, s.waitState b.claim.job = some v → v.loop = false →
          Positioned s.holds v.marks b → Positioned s'.holds v.marks b') : Replaying s' := by
  refine ⟨fun k v hk => h.unused k v (hv k ▸ hk), fun e b' he hl => ?_, ?_⟩
  · obtain ⟨b, hbe, hbl, hc, hp⟩ := hb e b' he hl
    obtain ⟨v, hbv, ha, hpos⟩ := h.live e b hbe hbl
    exact ⟨v, by rw [hc, hv, hbv], by rw [hc]; exact ha, fun hloop => hp v hbv hloop (hpos hloop)⟩
  · intro e1 e2 b1 b2 h1 h2 hl1 hl2 hj ha
    obtain ⟨c1, hc1, hcl1, he1, -⟩ := hb e1 b1 h1 hl1
    obtain ⟨c2, hc2, hcl2, he2, -⟩ := hb e2 b2 h2 hl2
    rw [he1, he2] at hj ha
    exact h.apart e1 e2 c1 c2 hc1 hc2 hcl1 hcl2 hj ha

section
variable {s s' : Runner}

section
variable (h : Replaying s)
include h

namespace Replaying

lemma write (hw : KeepsWaits s.db w) : Replaying (s.write w) :=
  h.of_same hw.waitState fun _ b he hl => ⟨b, he, hl, rfl, fun _ _ _ hp => hp⟩

lemma put (hb : s.bodies[e]? = some b) (hl : b.pc ≠ .over) (hc : b'.claim = b.claim)
    (hp : b'.pc ≠ .over → ∀ v, s.waitState b.claim.job = some v → v.loop = false →
      Positioned s.holds v.marks b → Positioned s.holds v.marks b') : Replaying (s.put e b') := by
  refine h.of_same (fun _ => rfl) fun i c hi hcl => ?_
  rcases bodies_put hi with ⟨rfl, rfl⟩ | ⟨-, hi⟩
  · exact ⟨b, hb, hl, hc, hp hcl⟩
  · exact ⟨c, hi, hcl, rfl, fun _ _ _ hpos => hpos⟩

lemma leave (hb : s.bodies[e]? = some b) (hl : b.pc ≠ .over)
    (hc : b'.claim = b.claim) (hn : b'.consumed = b.consumed) (hr : b'.pc.position = none)
    (hst : b'.pc.starved = none) : Replaying (s.put e b') := by
  refine h.put hb hl hc fun _ v _ _ hp => ⟨fun n => ?_, fun w loop c hpc => ?_, fun w hw => ?_⟩
  · rw [hc, hn]
    exact hp.cursor n
  · rw [hr] at hpc
    cases hpc
  · rw [hst] at hw
    cases hw

lemma mark (hb : s.bodies[e]? = some b) (hl : b.pc ≠ .over)
    (hc : b'.claim = b.claim) (hkey : ∀ a n, a ≠ b.claim.attempt → cursorKey a n ≠ key)
    (hp : ∀ marks, Positioned s.holds marks b → Positioned s.holds ((key, m) :: marks) b') :
    Replaying ((s.write (setMark s.db b.claim.job key m)).put e b') := by
  obtain ⟨v0, hv0, ha0, hpos0⟩ := h.live e b hb hl
  refine ⟨fun k v hk hloop a n ha => ?_, fun i c hi hcl => ?_, ?_⟩
  · rw [waitState_put, waitState_setMark] at hk
    obtain ⟨u, hu, rfl⟩ := map_eq_some_iff.mp hk
    split at ha
    · rename_i hkj
      rw [if_pos hkj] at hloop ⊢
      subst hkj
      obtain rfl := some.inj (hu.symm.trans hv0)
      rw [cursorIn_cons_of_ne (hkey a n (by dsimp only at ha; omega))]
      exact h.unused _ u hu hloop a n ha
    · rename_i hkj
      rw [if_neg hkj] at hloop ⊢
      exact h.unused k u hu hloop a n ha
  · rw [waitState_put, waitState_setMark]
    rcases bodies_put hi with ⟨rfl, rfl⟩ | ⟨hne, hi⟩
    · refine ⟨_, by rw [hc, hv0, map_some, if_pos rfl], by rw [hc]; exact ha0, ?_⟩
      exact fun hloop => hp _ (hpos0 hloop)
    obtain ⟨v, hv, ha, hpos⟩ := h.live i c hi hcl
    refine ⟨_, by rw [hv, map_some], ?_, ?_⟩
    · split <;> exact ha
    split
    · rename_i hjob
      intro hloop
      obtain ⟨hcur, hread, hst⟩ := hpos hloop
      refine ⟨fun n => ?_, hread, hst⟩
      rw [cursorIn_cons_of_ne (hkey _ n fun hat => ?_)]
      · exact hcur n
      · exact hne (h.apart e i b c hb hi hl hcl hjob hat)
    · exact hpos
  · intro e1 e2 b1 b2 h1 h2 hl1 hl2 hj ha
    rcases bodies_put h1 with ⟨rfl, rfl⟩ | ⟨-, hs1⟩
    · rcases bodies_put h2 with ⟨rfl, rfl⟩ | ⟨-, hs2⟩
      · rfl
      · rw [hc] at hj ha
        exact h.apart e1 e2 b b2 hb hs2 hl hl2 hj ha
    · rcases bodies_put h2 with ⟨rfl, rfl⟩ | ⟨-, hs2⟩
      · rw [hc] at hj ha
        exact h.apart e1 e2 b1 b hs1 hb hl1 hl hj ha
      · exact h.apart e1 e2 b1 b2 hs1 hs2 hl1 hl2 hj ha

lemma defer (hb : s.bodies[e]? = some b) (hl : b.pc ≠ .over)
    (hv : s.waitState b.claim.job = some v) (hat : v.attempt = b.claim.attempt)
    (hn : n = b.claim.attempt ∨ n = b.claim.attempt - 1 ∧ b.consumed = [])
    (hw : ∀ k, (s.write w).waitState k =
      if k = b.claim.job then some { v with attempt := n } else s.waitState k) :
    Replaying ((s.write w).put e { b with pc := .over }) := by
  have hpos : v.loop = false → Positioned s.holds v.marks b := by
    obtain ⟨u, hu, -, hpos⟩ := h.live e b hb hl
    cases hu.symm.trans hv
    exact hpos
  have hother : ∀ i c, ((s.write w).put e { b with pc := .over }).bodies[i]? = some c →
      c.pc ≠ .over → i ≠ e ∧ s.bodies[i]? = some c := by
    intro i c hi hcl
    rcases bodies_put hi with ⟨-, rfl⟩ | hi
    · exact absurd rfl hcl
    · exact hi
  refine ⟨fun k u hk hloop a m ha => ?_, fun i c hi hcl => ?_, ?_⟩
  · rw [waitState_put, hw] at hk
    split at hk
    · cases hk
      dsimp only at ha hloop
      by_cases hlt : v.attempt < a
      · exact h.unused _ v hv hloop a m hlt
      -- the attempt given back is the one whose execution consumed nothing
      rcases hn with rfl | ⟨rfl, hnil⟩
      · omega
      obtain rfl : a = b.claim.attempt := by omega
      have hcur := (hpos hloop).cursor m
      rw [hnil, List.count_nil] at hcur
      exact hcur
    · exact h.unused k u hk hloop a m ha
  · obtain ⟨hne, hi⟩ := hother i c hi hcl
    obtain ⟨u, hu, ha, hp⟩ := h.live i c hi hcl
    rw [waitState_put, hw]
    by_cases hj : c.claim.job = b.claim.job
    · rw [if_pos hj]
      obtain rfl := some.inj (hu.symm.trans (hj ▸ hv))
      have hat' : c.claim.attempt ≠ b.claim.attempt := fun he =>
        hne (h.apart e i b c hb hi hl hcl hj he)
      exact ⟨_, rfl, by dsimp only; omega, hp⟩
    · rw [if_neg hj]
      exact ⟨u, hu, ha, hp⟩
  · intro e1 e2 b1 b2 h1 h2 hl1 hl2 hj ha
    exact h.apart e1 e2 b1 b2 (hother e1 b1 h1 hl1).2 (hother e2 b2 h2 hl2).2 hl1 hl2 hj ha

lemma claim (hv : s.waitState job = some v) (hw : ∀ k, (s.write w).waitState k =
      if k = job then some { v with attempt := v.attempt + 1 } else s.waitState k) :
    Replaying ((s.write w).start { claim := ⟨job, worker, v.attempt + 1⟩, node }) := by
  have hold : ∀ (i : Nat) c, s.bodies[i]? = some c → c.pc ≠ .over → c.claim.job = job →
      c.claim.attempt ≤ v.attempt := by
    intro i c hi hcl hj
    obtain ⟨u, hu, ha, -⟩ := h.live i c hi hcl
    obtain rfl := some.inj (hu.symm.trans (hj ▸ hv))
    exact ha
  refine ⟨fun k u hk hloop a m ha => ?_, fun i c hi hcl => ?_, ?_⟩
  · rw [waitState_start, hw] at hk
    split at hk
    · cases hk
      exact h.unused job v hv hloop a m (Nat.lt_of_succ_lt ha)
    · exact h.unused k u hk hloop a m ha
  · rw [waitState_start, hw]
    rcases Positions.of_concat hi with hi | ⟨-, rfl⟩
    · obtain ⟨u, hu, ha, hp⟩ := h.live i c hi hcl
      by_cases hj : c.claim.job = job
      · rw [if_pos hj]
        obtain rfl := some.inj (hu.symm.trans (hj ▸ hv))
        exact ⟨_, rfl, Nat.le_succ_of_le ha, hp⟩
      · rw [if_neg hj]
        exact ⟨u, hu, ha, hp⟩
    · refine ⟨_, if_pos rfl, le_rfl, fun hloop => ?_⟩
      exact ⟨fun m => h.unused job v hv hloop _ m (Nat.lt_succ_self _),
        fun _ _ _ hpc => (nomatch hpc), fun _ hpc => (nomatch hpc)⟩
  · intro e1 e2 b1 b2 h1 h2 hl1 hl2 hj ha
    rcases Positions.of_concat h1 with h1 | ⟨rfl, rfl⟩ <;>
      rcases Positions.of_concat h2 with h2 | ⟨rfl, rfl⟩
    · exact h.apart e1 e2 b1 b2 h1 h2 hl1 hl2 hj ha
    · have := hold e1 b1 h1 hl1 hj.symm
      dsimp only at ha
      omega
    · have := hold e2 b2 h2 hl2 hj
      dsimp only at ha
      omega
    · rfl

end Replaying

end

lemma filter_map_of_fixed {l : List α} {g : α → α} {p : α → Bool}
    (h : ∀ x ∈ l, g x = x ∨ p x = false ∧ p (g x) = false) : (l.map g).filter p = l.filter p := by
  induction l with
  | nil => rfl
  | cons x l ih =>
    have ih := ih fun y hy => h y (List.mem_cons_of_mem _ hy)
    rcases h x List.mem_cons_self with hx | ⟨hx, hgx⟩
    · rw [List.map_cons, hx, List.filter_cons, List.filter_cons, ih]
    · rw [List.map_cons, List.filter_cons_of_neg (by simp [hgx]),
        List.filter_cons_of_neg (by simp [hx]), ih]

lemma answerQueue_settle (hf : f.Guarded)
    (h : ∀ p ∈ s.holds, p.2.addr = node → p.2.signalName = name →
      ∀ r, f p.1 p.2 = some r → r.status ≠ .delivered) :
    answerQueue (s.settle f).holds node [name] = answerQueue s.holds node [name] := by
  unfold answerQueue holdsOf settle
  rw [filter_map_of_fixed fun p hp => ?_]
  cases hr : f p.1 p.2 with
  | none => exact .inl rfl
  | some r =>
    obtain ⟨hheld, -, hid⟩ := hf _ _ _ hr
    refine .inr ⟨by simp [hheld], ?_⟩
    rw [getD_some, SignalRow.addr_of_identity hid, SignalRow.signalName_of_identity hid]
    by_cases hsite : p.2.addr = node ∧ p.2.signalName = name
    · simp [h p hp hsite.1 hsite.2 r hr]
    rw [not_and] at hsite
    by_cases ha : p.2.addr = node
    · simp [hsite ha]
    · simp [ha]

lemma Replaying.settle (h : Replaying s) (hf : f.Guarded)
    (hd : ∀ p ∈ s.holds, ∀ r, f p.1 p.2 = some r → r.status = .delivered →
      ∀ b ∈ s.bodies, ∀ w, b.pc.starved = some w → b.node = p.2.addr →
        w.signalName ≠ p.2.signalName) : Replaying (s.settle f) := by
  refine h.of_same (fun _ => rfl) fun e b hb hl => ⟨b, hb, hl, rfl, fun v _ _ hp => ?_⟩
  refine ⟨hp.cursor, hp.read, fun w hw => ?_⟩
  rw [answerQueue_settle hf]
  · exact hp.starved w hw
  · intro p hmem haddr hname r hr hst
    exact hd p hmem r hr hst b (List.mem_of_getElem? hb) w hw haddr.symm hname.symm

lemma answerQueue_holdInsert {r : SignalRow} (h : holdInsert rows hold r = some rows')
    (hr : r.status = .held) : answerQueue rows' node names = answerQueue rows node names := by
  unfold holdInsert at h
  split at h
  · cases h
  cases h
  unfold answerQueue holdsOf
  simp [hr]

lemma Replaying.registerHold (h : Replaying s) (hb : s.bodies[e]? = some b) (hl : b.pc ≠ .over) :
    Replaying (s.registerHold e b now hold w epoch) := by
  unfold Runner.registerHold
  dsimp only
  split
  · exact h.leave hb hl rfl rfl rfl rfl
  rename_i holds hins
  have hk : KeepsWaits s.db (holdNode s.db b.claim.job hold (w.deadline now)) :=
    keepsWaits_update fun _ _ => rfl
  refine h.of_same hk.waitState fun i c hi hcl => ?_
  rcases bodies_put (s := s) hi with ⟨rfl, rfl⟩ | ⟨-, hi⟩
  · exact absurd rfl hcl
  refine ⟨c, hi, hcl, rfl, fun _ _ _ hp => ⟨hp.cursor, hp.read, fun w hw => ?_⟩⟩
  rw [answerQueue_holdInsert hins rfl]
  exact hp.starved w hw

lemma waitCursor_eq (hv : s.waitState c.job = some v) (hl : v.loop = false) :
    waitCursor s.db c w = (false, cursorIn v.marks c.attempt w.signalName) := by
  obtain ⟨r, hr, rfl⟩ := map_eq_some_iff.mp hv
  have hk : r.metadata.loopKind = false := hl
  simp only [waitCursor, hr, any_some, hk, bind_some]
  rfl

lemma afterQueue_of_false (queue : List (HoldId × SignalRow)) :
    afterQueue queue w false cursor = match queue[cursor]? with
      | some answer => .answered w false cursor answer
      | none => .readHeld w := rfl

lemma Sited.queue_eq (h : Sited waits s) (hw : SitesApart waits) (hb : b ∈ s.bodies)
    (hc : b.pc.call = some w) :
    answerQueue s.holds b.node w.reads = answerQueue s.holds b.node [w.signalName] := by
  obtain ⟨hdecl, hacc⟩ := h.calls b hb w hc
  refine answerQueue_congr fun p hp haddr => ?_
  obtain ⟨w', hw', -, hname⟩ := h.minted p hp
  rw [haddr] at hw'
  rw [← hname, List.mem_singleton]
  exact ⟨hw.reads hdecl hacc hw', fun he => he ▸ w.signalName_mem_reads⟩

lemma Replaying.exec (h : Replaying s) (hsite : Sited waits s) (hw : SitesApart waits)
    (hb : s.bodies[e]? = some b) (hl : b.pc ≠ .over) (he : s.exec e b now hold = some s') :
    Replaying s' := by
  unfold Runner.exec at he
  split at he
  case h_1 w hpc =>
    cases he
    refine h.put hb hl rfl fun _ v hv hloop hp => ⟨hp.cursor, fun w' loop c hpos => ?_, ?_⟩
    · rw [waitCursor_eq hv hloop] at hpos
      cases hpos
      exact ⟨rfl, hp.cursor _⟩
    · exact fun _ hw => nomatch hw
  case h_2 w loop cursor hpc =>
    cases he
    refine h.put hb hl rfl fun _ v hv hloop hp => ?_
    obtain ⟨rfl, rfl⟩ := hp.read w loop cursor (by rw [hpc]; rfl)
    rw [hsite.queue_eq hw (List.mem_of_getElem? hb) (by rw [hpc]; rfl), afterQueue_of_false]
    refine ⟨hp.cursor, fun w' loop c hpos => ?_, fun w' hst => ?_⟩
    · split at hpos
      · cases hpos
        exact ⟨rfl, rfl⟩
      · cases hpos
    · split at hst
      · cases hst
      rename_i hq
      cases hst
      exact List.getElem?_eq_none_iff.mp hq
  case h_3 w loop cursor p hpc =>
    have hnext : ∀ v : WaitState, v.loop = false → Positioned s.holds v.marks b →
        loop = false ∧ cursor = b.consumed.count w.signalName := fun v _ hp =>
      hp.read w loop cursor (by rw [hpc]; rfl)
    split at he
    · rename_i hlp
      cases he
      refine h.put hb hl rfl fun _ v hv hloop hp => ?_
      exact absurd ((hnext v hloop hp).1.symm.trans hlp) (by decide)
    · cases he
      refine h.mark hb hl rfl (fun a n ha hk => ha (cursorKey_inj.mp hk).1) fun marks hp => ?_
      obtain ⟨-, rfl⟩ := hp.read w loop cursor (by rw [hpc]; rfl)
      refine ⟨fun n => ?_, fun _ _ _ hpos => (nomatch hpos), fun _ hst => (nomatch hst)⟩
      by_cases hn : n = w.signalName
      · rw [hn, cursorIn_cons_self, List.count_cons_self]
      rw [cursorIn_cons_of_ne fun hk => hn (cursorKey_inj.mp hk).2,
        List.count_cons_of_ne (Ne.symm hn)]
      exact hp.cursor n
  case h_4 w epoch hpc =>
    cases he
    refine h.mark hb hl rfl (fun a n _ => cursorKey_ne_faceKey) fun marks hp => ?_
    refine ⟨fun n => ?_, fun _ _ _ hpos => (nomatch hpos), fun _ hst => (nomatch hst)⟩
    exact hp.cursor n
  case h_5 w epoch hpc =>
    split at he
    · cases he
    · cases he
      exact h.registerHold hb hl
  case h_6 =>
    obtain ⟨pc', hpc, rfl⟩ := map_eq_some_iff.mp he
    obtain ⟨-, hr, -, hs⟩ := readOn_starved hpc
    refine h.put hb hl rfl fun _ v _ _ hp =>
      ⟨hp.cursor, fun w loop c hpos => ?_, fun w hst => hp.starved w (hs w hst)⟩
    rw [show WaitPc.position _ = none from hr] at hpos
    cases hpos

lemma waitState_nodeDefer (hr : s.db.jobs c.job = some r)
    (hd : deferVerdict c d r = .deferred) (k : JobId) :
    (s.write (nodeDefer s.db now c delay d)).waitState k =
      if k = c.job then
        some { r.waitState with
          attempt := if d = .retryAfterConsuming then c.attempt else c.attempt - 1 }
      else s.waitState k := by
  unfold Runner.waitState Runner.write nodeDefer
  rw [jobs_write_update]
  by_cases hk : k = c.job
  · subst hk
    simp [hr, hd, JobRow.waitState]
  · simp [hk]

lemma keepsWaits_nodeDefer (h : ∀ r, db.jobs c.job = some r → deferVerdict c d r ≠ .deferred) :
    KeepsWaits db (nodeDefer db now c delay d) := by
  intro k r hr
  unfold nodeDefer at hr
  obtain ⟨r0, hr0, hp, -⟩ := update_some.mp hr
  simp only [Bool.and_eq_true, decide_eq_true_eq] at hp
  exact absurd hp.2 (h r0 (hp.1 ▸ hr0))

lemma Replaying.deferRowLaw (h : Replaying s) (hb : s.bodies[e]? = some b) (hl : b.pc ≠ .over)
    (hn : deferralDisposition exc = .retryAfterConsuming ∨ b.consumed = []) :
    Replaying (s.deferRowLaw e b now exc delay) := by
  unfold Runner.deferRowLaw
  dsimp only
  obtain ⟨v, hv, -, -⟩ := h.live e b hb hl
  obtain ⟨r, hr, rfl⟩ := map_eq_some_iff.mp hv
  rw [hr, map_some]
  by_cases hd : deferVerdict b.claim (deferralDisposition exc) r = .deferred
  · rw [hd]
    have hat := deferVerdict_attempt (by rw [hd]; nofun)
    refine h.defer hb hl hv hat ?_ (waitState_nodeDefer hr hd)
    split
    · exact .inl rfl
    · rename_i hne
      exact .inr ⟨rfl, hn.resolve_left hne⟩
  · have hk : KeepsWaits s.db
        (nodeDefer s.db now b.claim delay (deferralDisposition exc)) :=
      keepsWaits_nodeDefer fun r' hr' => by rwa [some.inj (hr'.symm.trans hr)]
    refine (h.write hk).leave hb hl rfl rfl ?_ ?_
    all_goals split <;> rfl

/-- No execution stands between its queue read and the end of a wait at the hold's site. -/
def Runner.unattended (s : Runner) (hold : HoldId) : Bool :=
  s.holds.all fun p => p.1 ≠ hold || s.bodies.all fun b =>
    !(b.node = p.2.addr && b.pc.starved.any fun w => w.signalName = p.2.signalName)

/-- Waits are declared, a refunded execution took no answer, and none comes amid a wait's reads. -/
def Runner.replayable (waits : NodeAddr → List WaitCall) (s : Runner) (a : RunnerEvent) : Bool :=
  s.declared waits a && match a with
    | .deferStep e _ exc _ => deferralDisposition exc = .retryAfterConsuming ||
        s.bodies[e]?.all fun b => b.consumed.isEmpty
    | .resolve _ hold _ | .fire _ hold => s.unattended hold
    | _ => true

lemma Replaying.deliver (h : Replaying s) (hf : f.Guarded)
    (hone : ∀ k r r', f k r = some r' → k = hold) (hu : s.unattended hold = true) :
    Replaying (s.settle f) := by
  refine h.settle hf fun p hp r hr _ b hb w hw hnode hname => ?_
  simp only [unattended, List.all_eq_true, Bool.or_eq_true, decide_eq_true_eq,
    Bool.not_eq_true', Bool.and_eq_false_imp] at hu
  rcases hu p hp with hne | hall
  · exact hne (hone _ _ _ hr)
  have hany := hall b hb hnode
  rw [hw, any_some, decide_eq_false_iff_not] at hany
  exact hany hname

lemma Replaying.act (h : Replaying s) (hsite : Sited waits s) (hw : SitesApart waits)
    (hb : s.bodies[e]? = some b) (hl : b.pc ≠ .over) (hr : s.replayable waits a = true)
    (ha : a.body = some e) (hs : s.act e b a = some s') : Replaying s' := by
  have hend : ∀ {w : Writes}, KeepsWaits s.db w →
      Replaying ((s.write w).put e { b with pc := .over }) := fun hk =>
    (h.write hk).leave hb hl rfl rfl rfl rfl
  cases a with
  | wait e' w =>
    obtain ⟨-, rfl⟩ := matched hs
    refine h.leave hb hl rfl rfl ?_ ?_
    all_goals dsimp only; split <;> rfl
  | exec e' now hold => exact h.exec hsite hw hb hl hs
  | deferStep e' now exc delay =>
    cases ha
    obtain ⟨-, rfl⟩ := matched hs
    simp only [replayable, declared, hb, all_some, Bool.true_and,
      Bool.or_eq_true, decide_eq_true_eq, List.isEmpty_iff] at hr
    exact h.deferRowLaw hb hl hr
  | repend | finalize =>
    cases hs
    exact hend (keepsWaits_update fun _ _ => rfl)
  | stop =>
    cases hs
    exact h.leave hb hl rfl rfl rfl rfl
  | advance =>
    obtain ⟨-, rfl⟩ := matched hs
    exact h.write (keepsWaits_update fun _ _ => rfl)
  | claim | reclaim | retryNode | cancelRun | resolve | expire | fire | resume => cases hs

lemma waitState_nodeClaim (hr : nodeClaim s.db now job worker job = some r) : ∃ v,
    s.waitState job = some v ∧ r.attempt = v.attempt + 1 ∧
    ∀ k, (s.write (nodeClaim s.db now job worker)).waitState k =
      if k = job then some { v with attempt := v.attempt + 1 } else s.waitState k := by
  obtain ⟨r0, hr0, hp, rfl⟩ := update_some.mp hr
  refine ⟨r0.waitState, by rw [Runner.waitState, hr0, map_some], rfl, fun k => ?_⟩
  unfold Runner.waitState Runner.write nodeClaim
  rw [jobs_write_update]
  by_cases hk : k = job
  · subst hk
    simp only [decide_true, Bool.true_and] at hp
    simp [hr0, hp, JobRow.waitState]
  · simp [hk]

lemma Replaying.outside (h : Replaying s) (hr : s.replayable waits a = true)
    (hs : s.outside a = some s') : Replaying s' := by
  cases a with
  | claim now flow job worker =>
    obtain ⟨r, hrow, hs⟩ := bind_eq_some_iff.mp hs
    obtain ⟨-, rfl⟩ := matched hs
    obtain ⟨v, hv, hat, hw⟩ := waitState_nodeClaim hrow
    rw [hat]
    exact h.claim hv hw
  | reclaim | resume =>
    cases hs
    exact h.write (keepsWaits_update fun _ _ => rfl)
  | retryNode =>
    cases hs
    exact h.write keepsWaits_retryWorkflowNode
  | cancelRun now flow reason =>
    simp only [Runner.outside, ite_none_left_eq_some, some.injEq] at hs
    obtain ⟨-, rfl⟩ := hs
    refine (h.write keepsWaits_cancelOneRun).settle guarded_cancelRunSignals ?_
    intro p _ r hr hst
    obtain ⟨-, rfl⟩ := matched hr
    cases hst
  | resolve now hold payload =>
    cases hs
    refine h.deliver guarded_resolveHold (fun k r r' hf => ?_) ((Bool.and_eq_true _ _).mp hr).2
    simp only [resolveHold, resolveCas, signalCas, ite_none_left_eq_some,
      ite_none_right_eq_some, Bool.and_eq_true, decide_eq_true_eq] at hf
    exact hf.2.1.1.1
  | expire now hold =>
    cases hs
    refine h.settle guarded_expireHold ?_
    intro p _ r hr hst
    simp only [expireHold, expirySweep, ite_none_right_eq_some, some.injEq] at hr
    obtain ⟨-, -, rfl⟩ := hr
    cases hst
  | fire now hold =>
    cases hs
    refine h.deliver guarded_fireHold (fun k r r' hf => ?_) ((Bool.and_eq_true _ _).mp hr).2
    simp only [fireHold, timerFire, ite_none_right_eq_some, List.mem_singleton] at hf
    exact hf.2.1
  | wait | exec | deferStep | repend | finalize | stop | advance => cases hs

lemma Replaying.step (h : Replaying s) (hsite : Sited waits s) (hw : SitesApart waits)
    (hr : s.replayable waits a = true) (hs : s.step a = some s') : Replaying s' := by
  unfold Runner.step at hs
  split at hs
  · exact h.outside hr hs
  rename_i e ha
  obtain ⟨b, hb, hs⟩ := bind_eq_some_iff.mp hs
  simp only [ite_none_left_eq_some] at hs
  exact h.act hsite hw hb hs.1 hr ha hs.2

lemma Runner.Fresh.replaying (h : s.Fresh) : Replaying s := by
  refine ⟨fun k v hv _ a n _ => ?_, fun e b hb => ?_, fun e _ b _ hb => ?_⟩
  · obtain ⟨r, hr, rfl⟩ := map_eq_some_iff.mp hv
    rw [show r.waitState.marks = [] from h.marks k r hr]
    rfl
  all_goals
    rw [h.bodies] at hb
    cases hb

end

def Runner.delivered (s : Runner) (node : NodeAddr) (signalName : String) :
    List (HoldId × SignalRow) :=
  answerQueue s.holds node [signalName]

/-- The wait after `k` answers of its site takes the next one, and mints a hold only if none is
left. -/
theorem reexecution_replays_answers (hw : SitesApart waits) (h0 : s0.Fresh)
    (h : Reach Runner.step (fun s a => s.replayable waits a = true) s0 s)
    (hb : s.bodies[e]? = some b) (hr : s.db.jobs b.claim.job = some r)
    (hl : r.metadata.loopKind = false) (hs : s.step (.exec e now hold) = some s') :
    (∀ w loop cursor, b.pc = .readQueue w loop cursor →
      (s'.bodies[e]?.bind fun b' => b'.pc.answer) =
        (s.delivered b.node w.signalName)[b.consumed.count w.signalName]?) ∧
    ∀ w epoch, b.pc = .register w epoch →
      (s.delivered b.node w.signalName).length ≤ b.consumed.count w.signalName := by
  obtain ⟨hsite, hrep⟩ : Sited waits s ∧ Replaying s :=
    h.invariant (I := fun s => Sited waits s ∧ Replaying s) ⟨h0.sited, h0.replaying⟩
      fun _ _ _ hI hok hs =>
        ⟨hI.1.step ((Bool.and_eq_true _ _).mp hok).1 hs, hI.2.step hI.1 hw hok hs⟩
  simp only [Runner.step, RunnerEvent.body, hb, bind_some, ite_none_left_eq_some] at hs
  obtain ⟨hlive, hs⟩ := hs
  have hpos : Positioned s.holds r.waitState.marks b := by
    obtain ⟨v, hv, -, hpos⟩ := hrep.live e b hb hlive
    rw [Runner.waitState, hr, map_some, some.injEq] at hv
    subst hv
    exact hpos hl
  refine ⟨fun w loop cursor hpc => ?_, fun w epoch hpc => hpos.starved w (by rw [hpc]; rfl)⟩
  obtain ⟨rfl, rfl⟩ := hpos.read w loop cursor (by rw [hpc]; rfl)
  simp only [Runner.act, Runner.exec, hpc, some.injEq] at hs
  subst hs
  rw [Runner.put, List.getElem?_set_self (List.getElem?_eq_some_iff.mp hb).1, bind_some,
    hsite.queue_eq hw (List.mem_of_getElem? hb) (by rw [hpc]; rfl), afterQueue_of_false,
    delivered]
  split <;> rename_i hq <;> rw [hq] <;> rfl

def snoozeAfterAnswer : List RunnerEvent :=
  approveOnce ++ [.exec 1 0 0, .deferStep 1 2 .snooze 1000, .claim 2000 0 1 7] ++
    .wait 2 approveGate :: List.replicate 5 (.exec 2 2000 1)

/-- After a snooze the new execution mints a hold without consuming the delivered answers. -/
theorem snooze_skips_answer : ∃ s s' b, Reach Runner.step (fun _ _ => True) twoGates s ∧
      s.step (.exec 2 2000 1) = some s' ∧ s.bodies[2]? = some b ∧
      b.pc = .register approveGate 2 ∧ b.consumed = [] ∧
      s.delivered b.node approveGate.signalName = [(0, approval)] ∧
      s'.minted = [(1, reviewNode, approveGate), (0, reviewNode, approveGate)] := by
  obtain ⟨s', hs, hm⟩ := map_eq_some_iff.mp
    (show ((final Runner.step twoGates snoozeAfterAnswer).step (.exec 2 2000 1)).map minted =
      some [(1, reviewNode, approveGate), (0, reviewNode, approveGate)] by decide)
  exact ⟨_, s', { claim := ⟨1, 7, 2⟩, node := reviewNode, pc := .register approveGate 2 },
    .of_final (by decide), hs, by decide, rfl, rfl, by decide, hm⟩

theorem reexecution_replays_answers_approve :
    ∃ (s s' : Runner) (b : Body), s.step (.exec 1 0 0) = some s' ∧ s.bodies[1]? = some b ∧
      b.pc = .readQueue approveGate false 0 ∧
      (s'.bodies[1]?.bind fun b' => b'.pc.answer) = some (0, approval) := by
  let s := final Runner.step twoGates approveOnce.dropLast
  have hrun : Reach Runner.step (fun s a => s.replayable (fun _ => [approveGate]) a = true)
      twoGates s :=
    .of_exec (exec_final (by decide)) (.of_checks
      (replayable fun _ => [approveGate]) (by decide) fun _ _ h => h)
  have hapart : SitesApart fun _ => [approveGate] := by
    intro node names timeout h names' timeout' h' _
    simp only [approveGate, List.mem_singleton] at h h'
    rw [h, h']
  obtain ⟨s', hs⟩ := isSome_iff_exists.mp
    (show (s.step (.exec 1 0 0)).isSome = true by decide)
  obtain ⟨r, hr, hloop⟩ := map_eq_some_iff.mp
    (show (s.db.jobs 1).map (fun r => r.metadata.loopKind) = some false by decide)
  have hb : s.bodies[1]? = some
      { claim := ⟨1, 7, 2⟩, node := reviewNode, pc := .readQueue approveGate false 0 } := by
    decide
  have hend := reexecution_replays_answers hapart (fresh_ofRows (by decide)) hrun hb hr
    hloop hs
  refine ⟨s, s', _, hs, hb, rfl, (hend.1 _ _ _ rfl).trans ?_⟩
  decide

end TaskQ
