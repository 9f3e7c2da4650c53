import TaskQ.BulkTwinScan
import TaskQ.CapPartition

namespace TaskQ.Bulk
open UniqueIndex List EnqueueDb Admission
open Jobs (Stamp BatchId BatchRow)

/-- The same jobs are left, and the same rows returned or errors of one class raised. -/
def Agrees (pg : Reply α) (mem : InMemoryReply α) : Prop :=
  mem.state.jobs = pg.jobs ∧
    match pg.result, mem.result with
    | .ok a, .ok b => a = b
    | .error e, .error f => e.family = f.family
    | _, _ => False

section
variable {db : EnqueueDb} {a : EnqueueArgs} {l : List EnqueueArgs} {returned : List JobRecord}

lemma EnqueueDb.fits_iff : Fits db.jobs.rows (a.row now) ↔ db.twin.pairHolder a = none ∧
    (a.singleton && (db.twin.scanSingletonPreflight a.actor).isSome) = false ∧
    (db.twin.get a.id).isSome = false := by
  have hid : (db.twin.get a.id).isSome = conflicts JobRecord.key db.jobs.rows (a.row now) :=
    twin_get_isSome (a.row now)
  have hsing : (a.singleton && (db.twin.scanSingletonPreflight a.actor).isSome) =
      conflicts JobRecord.singletonActor db.jobs.rows (a.row now) := by
    rw [conflicts, a.row_singletonActor]
    cases a.singleton <;> rfl
  have hpair : db.twin.pairHolder a = none ↔
      conflicts JobRecord.pair db.jobs.rows (a.row now) = false := by
    rw [twin_pairHolder, conflicts_eq_false, a.row_pair]
    cases a.pair <;> simp
  rw [hid, hsing, hpair]
  exact ⟨fun h => ⟨h.pair, h.singleton, h.id⟩, fun h => ⟨h.2.2, h.2.1, h.1⟩⟩

lemma EnqueueDb.enqueue_state (h : db.twin.enqueue parse now a = .ok (r, m)) :
    m = db.twin ∨ ∃ hf : Fits db.jobs.rows (a.row now), r = a.row now ∧
      m = EnqueueDb.twin { db with jobs := db.jobs.snoc (a.row now) hf } := by
  unfold InMemoryBackend.enqueue at h
  split at h
  · cases h
    exact .inl rfl
  split at h
  · cases h
  split at h
  · cases h
  split at h
  · cases h
  split at h
  · split at h
    · cases h
    · cases h
      exact .inl rfl
  next hpair =>
    split at h
    · cases h
    split at h
    · cases h
    next hsing =>
      split at h
      · cases h
      next hid =>
        cases h
        have hf : Fits db.jobs.rows (a.row now) := fits_iff.mpr
          ⟨hpair, Bool.eq_false_of_not_eq_true hsing, Bool.eq_false_of_not_eq_true hid⟩
        exact .inr ⟨hf, rfl, twin_store hf⟩

lemma EnqueueDb.insertAll_state (db : EnqueueDb) (parse : String → Option BatchId) (now : Stamp)
    (l : List EnqueueArgs) : ∃ (t : JobsTable) (new : List JobRecord),
    (db.twin.insertAll parse now l).1 = EnqueueDb.twin { db with jobs := t } ∧
      t.rows = db.jobs.rows ++ new ∧
      (db.twin.insertAll parse now l).2.1.map Prod.fst = new.map fun r => r.id := by
  induction l generalizing db with
  | nil => exact ⟨db.jobs, [], rfl, (append_nil _).symm, rfl⟩
  | cons a l ih =>
    rw [InMemoryBackend.insertAll]
    split
    · exact ⟨db.jobs, [], rfl, (append_nil _).symm, rfl⟩
    next row m hm =>
      rcases enqueue_state hm with rfl | ⟨hf, rfl, rfl⟩
      · obtain ⟨t, new, ht, hrows, hids⟩ := ih db
        refine ⟨t, new, ht, hrows, ?_⟩
        have hsame : ((db.twin.get a.id).isNone && (db.twin.get a.id).isSome) = false := by
          cases db.twin.get a.id <;> rfl
        simp only [hsame]
        exact hids
      · obtain ⟨t, new, ht, hrows, hids⟩ :=
          ih { db with jobs := db.jobs.snoc (a.row now) hf }
        have hnew : ((db.twin.get a.id).isNone && ((twin
            { db with jobs := db.jobs.snoc (a.row now) hf }).get a.id).isSome) = true := by
          rw [Bool.and_eq_true, Option.isNone_iff_eq_none, ← Option.not_isSome_iff_eq_none,
            Bool.not_eq_true]
          refine ⟨(fits_iff.mp hf).2.2, find?_isSome.mpr ⟨a.row now, ?_, ?_⟩⟩
          · exact mem_append_right _ (mem_singleton_self _)
          · exact decide_eq_true rfl
        refine ⟨t, a.row now :: new, ht, hrows.trans (append_assoc ..), ?_⟩
        exact (congrArg (map Prod.fst) (if_pos hnew)).trans (congrArg (a.id :: ·) hids)

lemma rollbackInsertedRows_jobs (m : InMemoryBackend) (inserted : List (JobId × Option Pair)) :
    (m.rollbackInsertedRows inserted).jobs =
      m.jobs.filter fun r => r.id ∉ inserted.map Prod.fst := by
  induction inserted generalizing m with
  | nil => simp [InMemoryBackend.rollbackInsertedRows]
  | cons x inserted ih =>
    refine (ih _).trans ?_
    rw [filter_filter]
    refine filter_congr fun r _ => ?_
    simp only [map_cons, mem_cons, not_or, Bool.decide_and, Bool.and_comm, ne_eq]

lemma EnqueueDb.rollback_insertAll (db : EnqueueDb) (parse : String → Option BatchId)
    (now : Stamp) (l : List EnqueueArgs) : ((db.twin.insertAll parse now l).1.rollbackInsertedRows
      (db.twin.insertAll parse now l).2.1).jobs = db.jobs.rows := by
  obtain ⟨t, new, ht, hrows, hids⟩ := db.insertAll_state parse now l
  rw [rollbackInsertedRows_jobs, ht, hids]
  have hu := t.ids
  rw [hrows] at hu
  obtain ⟨-, -, hapart⟩ := pairwise_append.mp hu
  have hold : ∀ r ∈ db.jobs.rows, decide (r.id ∉ new.map fun r => r.id) = true := by
    intro r hr
    rw [decide_eq_true_eq, mem_map]
    rintro ⟨x, hx, hid⟩
    exact hapart r hr x hx r.id rfl (congrArg some hid)
  have hnew : ∀ r ∈ new, ¬ decide (r.id ∉ new.map fun r => r.id) = true := by
    intro r hr
    rw [decide_eq_true_eq, not_not]
    exact mem_map_of_mem hr
  rw [twin, hrows, filter_append, filter_eq_self.mpr hold, filter_eq_nil_iff.mpr hnew, append_nil]

lemma enqueue_bare (m : InMemoryBackend) (henc : a.unencodable = none) :
    m.enqueue parse now { a with maxPending := none, uniqueFor := none } =
      if a.singleton && (m.scanSingletonPreflight a.actor).isSome then
        .error (.singletonCollision a.actor ((m.scanSingletonPreflight a.actor).map fun r => r.id))
      else
        match m.pairHolder a with
        | some r =>
          if r.actor ≠ a.actor then .error (.actorMismatch a.actor r.actor (some r.id))
          else .ok (r, m)
        | none =>
          match m.terminalBatch parse a with
          | some b => .error (.batchIdExists b)
          | none =>
            if (m.get a.id).isSome then .error .uniqueViolation
            else .ok (a.row now, m.store now a) := by
  have hbare : m.uniqueHit now { a with maxPending := none, uniqueFor := none } = none := rfl
  rw [InMemoryBackend.enqueue, hbare]
  rw [henc]
  cases hsing : a.singleton with
  | false =>
    have hscan : ((m.scanSingletonPreflight a.actor).filter fun _ => false) = none := by
      cases m.scanSingletonPreflight a.actor <;> rfl
    rw [hscan]
    rfl
  | true =>
    cases hrow : m.scanSingletonPreflight a.actor with
    | some r => rfl
    | none =>
      rfl

inductive Looped (hs : List Hit) (ends out : List JobRecord) :
    InMemoryBackend × List (JobId × Option Pair) × Except EnqueueError (List JobRecord) → Prop
  | raised (h : ∃ x ∈ hs, x.clash = true) (he : e.family = .singletonCollision) :
      Looped hs ends out (m, inserted, .error e)
  | stored (h : ∀ x ∈ hs, x.clash = false) (hm : m.jobs = out) :
      Looped hs ends out (m, inserted, .ok ends)

lemma Looped.cons (h : Looped hs ends out reply) (r : JobRecord)
    (inserted : List (JobId × Option Pair)) :
    Looped hs (r :: ends) out (reply.1, inserted, reply.2.2.map (r :: ·)) := by
  cases h with
  | raised hx he => exact .raised hx he
  | stored hx hm => exact .stored hx hm

lemma Looped.cons_hit (h : Looped hs ends out reply) (hx : x.clash = false) :
    Looped (x :: hs) ends out reply := by
  cases h with
  | raised h he =>
    obtain ⟨y, hy, hc⟩ := h
    exact .raised ⟨y, mem_cons_of_mem _ hy, hc⟩ he
  | stored h hm => exact .stored (forall_mem_cons.mpr ⟨hx, h⟩) hm

lemma EnqueueDb.looped (h : insertBatch now db.jobs.rows l = .ok (out, returned))
    (henc : ∀ a ∈ l, a.unencodable = none) (hterm : ∀ a ∈ l, db.twin.terminalBatch parse a = none)
    (hactor : ∀ x ∈ hits now db.jobs.rows l, x.held.actor = x.item.actor) :
    Looped (hits now db.jobs.rows l) (resolved now db.jobs.rows l) out
      (db.twin.insertAll parse now l) := by
  induction l generalizing db returned with
  | nil =>
    cases h
    exact .stored (fun _ hx => by cases hx) rfl
  | cons a l ih =>
    obtain ⟨ha, henc⟩ := forall_mem_cons.mp henc
    obtain ⟨hta, hterm⟩ := forall_mem_cons.mp hterm
    rw [hits] at hactor ⊢
    rw [resolved, InMemoryBackend.insertAll, enqueue_bare _ ha]
    rcases insertBatch_cons h with ⟨r, hr, hl⟩ | ⟨rest, hnone, hf, hl, rfl⟩
    · rw [hr] at hactor ⊢
      obtain ⟨hra, hactor⟩ := forall_mem_cons.mp hactor
      dsimp only at hra ⊢
      have hclash : (a.singleton && (db.twin.scanSingletonPreflight a.actor).isSome) =
        Hit.clash ⟨a, r, db.jobs.rows⟩ := rfl
      rw [hclash, twin_pairHolder, hr]
      cases hc : Hit.clash ⟨a, r, db.jobs.rows⟩ with
      | true => exact .raised ⟨_, mem_cons_self, hc⟩ rfl
      | false =>
        simp only [Bool.false_eq_true, if_false, hra, ne_eq, not_true_eq_false]
        exact ((ih hl henc hterm hactor).cons_hit hc).cons ..
    · obtain ⟨hpair, hsing, hid⟩ := fits_iff.mp hf
      rw [hnone] at hactor ⊢
      rw [hsing, hpair, hta, hid, twin_store hf]
      have hl : insertBatch now (jobs { db with
        jobs := db.jobs.snoc (a.row now) hf }).rows l = .ok (out, rest) := hl
      exact (ih hl henc hterm hactor).cons ..

lemma insertAll_family (m : InMemoryBackend) (henc : ∀ a ∈ l, a.unencodable = none)
    (h : (m.insertAll parse now l).2.2 = .error e) : e.family ≠ .valueError := by
  induction l generalizing m e with
  | nil => cases h
  | cons a l ih =>
    obtain ⟨ha, henc⟩ := forall_mem_cons.mp henc
    rw [InMemoryBackend.insertAll] at h
    split at h
    next e' he =>
      cases h
      rw [enqueue_bare m ha] at he
      split at he
      · cases he
        exact fun hv => by cases hv
      split at he
      · split at he
        · cases he
          exact fun hv => by cases hv
        · cases he
      · split at he
        · cases he
          exact fun hv => by cases hv
        split at he
        · cases he
          exact fun hv => by cases hv
        · cases he
    next m' _ =>
      dsimp only at h
      cases hrest : (m'.insertAll parse now l).2.2 with
      | error e' =>
        rw [hrest] at h
        cases h
        exact ih m' henc hrest
      | ok rows =>
        rw [hrest] at h
        cases h

end

section
variable {parse : String → Option BatchId} {db : EnqueueDb} {args : List EnqueueArgs}

/-- Some item's `metadata.batch_id` is a text that the constructor `UUID` refuses. -/
def NamesJunk (parse : String → Option BatchId) (args : List EnqueueArgs) : Prop :=
  ∃ a ∈ args, ∃ raw, a.batchIdText = some raw ∧ parse raw = none

def NamesTerminal (parse : String → Option BatchId) (db : EnqueueDb) (args : List EnqueueArgs) :
    Prop := ∃ a ∈ args, ∃ b, a.batchIdText.bind parse = some b ∧ batchTerminal db.batches b = true

lemma membershipBatchIds_junk (h : NamesJunk parse args) :
    ∃ raw, membershipBatchIds parse args ids = .error (.invalidBatchId raw) := by
  obtain ⟨a, ha, raw, hraw, hjunk⟩ := h
  induction args generalizing ids with
  | nil => cases ha
  | cons c l ih =>
    rw [membershipBatchIds]
    rcases mem_cons.mp ha with rfl | ha
    · rw [hraw]
      dsimp only
      rw [hjunk]
      exact ⟨raw, rfl⟩
    · split
      · exact ih ha
      split
      · exact ⟨_, rfl⟩
      · exact ih ha

lemma membershipBatchIds_ok (h : ¬ NamesJunk parse args)
    (hids : ∀ q ∈ ids, parse q.1 = some q.2) : ∃ out, membershipBatchIds parse args ids = .ok out ∧
      ∀ b, b ∈ out ↔ b ∈ ids.map Prod.snd ∨ ∃ a ∈ args, a.batchIdText.bind parse = some b := by
  induction args generalizing ids with
  | nil => exact ⟨_, rfl, fun b => by simp⟩
  | cons a l ih =>
    have hl : ¬ NamesJunk parse l := fun ⟨x, hx, hraw⟩ => h ⟨x, mem_cons_of_mem _ hx, hraw⟩
    rw [membershipBatchIds]
    cases hraw : a.batchIdText with
    | none =>
      obtain ⟨out, hout, hb⟩ := ih hl hids
      refine ⟨out, hout, fun b => ?_⟩
      rw [hb, exists_mem_cons_iff, hraw]
      simp
    | some raw =>
      cases hparse : parse raw with
      | none => exact absurd ⟨a, mem_cons_self, raw, hraw, hparse⟩ h
      | some c =>
        have hagree : ∀ q ∈ ids, q.1 = raw → q.2 = c := by
          rintro q hq rfl
          exact Option.some.inj ((hids q hq).symm.trans hparse)
        have hset : ∀ q ∈ Dict.set raw c ids, parse q.1 = some q.2 := by
          intro q hq
          rcases (Dict.mem_set hagree).mp hq with rfl | hq
          · exact hparse
          · exact hids q hq
        obtain ⟨out, hout, hb⟩ := ih hl hset
        refine ⟨out, ?_, fun b => ?_⟩
        · dsimp only
          rw [hparse]
          exact hout
        rw [hb, exists_mem_cons_iff, hraw, Option.bind_some, hparse, Option.some.injEq]
        simp only [mem_map, Dict.mem_set hagree, or_and_right, exists_or, exists_eq_left]
        rw [or_comm (a := c = b), or_assoc]

lemma membershipBatchIds_nil (h : ¬ NamesJunk parse args) :
    ∃ out, membershipBatchIds parse args [] = .ok out ∧
      ∀ b, b ∈ out ↔ ∃ a ∈ args, a.batchIdText.bind parse = some b := by
  have hnil : ∀ q ∈ ([] : List (String × BatchId)), parse q.1 = some q.2 :=
    fun _ hq => by cases hq
  obtain ⟨out, hout, hmem⟩ := membershipBatchIds_ok h hnil
  exact ⟨out, hout, fun b => (hmem b).trans (or_iff_right not_mem_nil)⟩

lemma EnqueueDb.twin_terminalBatch : db.twin.terminalBatch parse a = some b ↔
    a.batchIdText.bind parse = some b ∧ batchTerminal db.batches b = true :=
  Option.filter_eq_some_iff

lemma EnqueueDb.twin_terminalBatch_eq_none (h : ¬ NamesTerminal parse db args) (ha : a ∈ args) :
    db.twin.terminalBatch parse a = none :=
  Option.eq_none_iff_forall_ne_some.mpr fun b hb =>
    h ⟨a, ha, b, twin_terminalBatch.mp hb⟩

lemma EnqueueDb.twin_capRefusals (db : EnqueueDb) (args : List EnqueueArgs) :
    db.twin.capRefusals args = db.capRefusals args := by
  rw [db.capRefusals_eq]
  exact batchCapRefusalKernel_congr fun q _ => db.twin_index_isSome q.2

section
variable (db) (enforce : Bool) (hargs : args ≠ []) (henc : Bulk.unencodable args = none)
include hargs henc

lemma EnqueueDb.admission_junk (h : NamesJunk parse args) :
    ∃ raw, db.admission parse enforce args = .error (.invalidBatchId raw) := by
  obtain ⟨raw, hraw⟩ := membershipBatchIds_junk h
  refine ⟨raw, ?_⟩
  rw [admission, if_neg (by simpa using hargs), henc, hraw]

lemma EnqueueDb.admission_terminal (hj : ¬ NamesJunk parse args)
    (h : NamesTerminal parse db args) :
    ∃ b, db.admission parse enforce args = .error (.batchIdExists b) := by
  obtain ⟨out, hout, hmem⟩ := membershipBatchIds_nil hj
  obtain ⟨a, ha, b, hb, hterm⟩ := h
  have hsome := find?_isSome.mpr ⟨b, (hmem b).mpr ⟨a, ha, hb⟩, hterm⟩
  obtain ⟨c, hc⟩ := Option.isSome_iff_exists.mp hsome
  refine ⟨c, ?_⟩
  rw [admission, if_neg (by simpa using hargs), henc, hout]
  dsimp only
  rw [hc]

lemma EnqueueDb.admission_open (hj : ¬ NamesJunk parse args)
    (h : ¬ NamesTerminal parse db args) : db.admission parse enforce args =
      .ok (.of (if enforce then db.capRefusals args else []) args) := by
  obtain ⟨out, hout, hmem⟩ := membershipBatchIds_nil hj
  have hnone : out.find? (batchTerminal db.batches) = none := by
    refine find?_eq_none.mpr fun b hb hterm => ?_
    obtain ⟨a, ha, hb⟩ := (hmem b).mp hb
    exact h ⟨a, ha, b, hb, hterm⟩
  rw [admission, if_neg (by simpa using hargs), henc, hout]
  dsimp only
  rw [hnone]

lemma EnqueueDb.twin_admission_terminal (h : NamesTerminal parse db args) :
    ∃ b, db.twin.admission parse enforce args = .error (.batchIdExists b) := by
  obtain ⟨a, ha, b, hb⟩ := h
  have hsome : (args.findSome? (db.twin.terminalBatch parse)).isSome := by
    rw [findSome?_isSome_iff]
    exact ⟨a, ha, by rw [twin_terminalBatch.mpr hb, Option.isSome_some]⟩
  obtain ⟨c, hc⟩ := Option.isSome_iff_exists.mp hsome
  refine ⟨c, ?_⟩
  rw [InMemoryBackend.admission, if_neg (by simpa using hargs), henc, hc]

lemma EnqueueDb.twin_admission_open (h : ¬ NamesTerminal parse db args) :
    db.twin.admission parse enforce args =
      .ok (.of (if enforce then db.capRefusals args else []) args) := by
  have hnone := findSome?_eq_none_iff.mpr fun _ ha => twin_terminalBatch_eq_none h ha
  rw [InMemoryBackend.admission, if_neg (by simpa using hargs), henc, hnone]
  rw [db.twin_capRefusals]

end

end

section
variable {parse : String → Option BatchId} {db : EnqueueDb} {now : Stamp} {enforce : Bool}
  {args : List EnqueueArgs} {ad : Admission} {returned : List JobRecord}

lemma unencodable_eq_none : unencodable args = none ↔ ∀ a ∈ args, a.unencodable = none := by
  rw [unencodable, findSome?_eq_none_iff]
  constructor
  · intro h a ha
    obtain ⟨i, hi, rfl⟩ := getElem_of_mem ha
    exact Option.map_eq_none_iff.mp (h (args[i], i) (mk_mem_zipIdx_iff_getElem?.mpr
      (getElem?_eq_getElem hi)))
  · rintro h ⟨a, i⟩ hai
    exact Option.map_eq_none_iff.mpr (h a (fst_mem_of_mem_zipIdx hai))

lemma EnqueueDb.enqueueBatch_of_admission (h : db.admission parse enforce args = .ok ad) :
    db.enqueueBatch parse now enforce args =
      match insertBatch now db.jobs.rows ad.admitted with
      | .error v => ⟨.error (insertError db.jobs.rows ad.admitted v), db.jobs.rows⟩
      | .ok (rows, returned) =>
        match assemble rows returned ad.admitted with
        | .error e => ⟨.error e, db.jobs.rows⟩
        | .ok result => ⟨ad.raise args result.length result, rows⟩ := by
  rw [enqueueBatch, h]
  dsimp only
  split
  next hnil =>
    rw [isEmpty_iff.mp hnil]
    rfl
  · rfl

lemma EnqueueDb.twin_violation (h : insertBatch now db.jobs.rows args = r) :
    db.twin.firstRowViolation false [] [] [] args = aborted r := by
  rw [← h, ← db.scanned.insertBatch]

section
variable (had : db.twin.admission parse enforce args = .ok ad)
include had

lemma EnqueueDb.twin_aborts (h : insertBatch now db.jobs.rows ad.admitted = .error v) :
    ∃ e, db.twin.enqueueBatch parse now enforce args = ⟨.error e, db.twin⟩ ∧
      e.family = (insertError db.jobs.rows ad.admitted v).family := by
  obtain ⟨e, he, hfam⟩ := preflight_of_scan (db.twin_violation h)
  refine ⟨e, ?_, hfam⟩
  rw [InMemoryBackend.enqueueBatch, had]
  dsimp only
  rw [he]

variable (h : insertBatch now db.jobs.rows ad.admitted = .ok (out, returned))
include h

omit had in
lemma EnqueueDb.twin_preflight :
    db.twin.preflight ad.admitted = db.twin.checkBatchIdempotencyActors [] ad.admitted := by
  rw [InMemoryBackend.preflight, db.twin_violation h]
  rfl

omit had in
lemma EnqueueDb.twin_preflight_eq_none : db.twin.preflight ad.admitted = none ↔
    ∀ x ∈ hits now db.jobs.rows ad.admitted, x.held.actor = x.item.actor := by
  rw [twin_preflight h]
  refine checkBatchIdempotencyActors_eq_none (fun p => ?_) h
  rw [db.twin_pair, lookup_nil, Option.or_none]

lemma EnqueueDb.twin_foreign
    (hx : ¬ ∀ x ∈ hits now db.jobs.rows ad.admitted, x.held.actor = x.item.actor) :
    ∃ e, db.twin.enqueueBatch parse now enforce args = ⟨.error e, db.twin⟩ ∧
      e.family = .actorMismatch := by
  rw [← twin_preflight_eq_none h] at hx
  obtain ⟨e, he⟩ := Option.ne_none_iff_exists'.mp hx
  refine ⟨e, ?_, ?_⟩
  · rw [InMemoryBackend.enqueueBatch, had]
    dsimp only
    rw [he]
  · rw [twin_preflight h] at he
    exact checkBatchIdempotencyActors_family he

variable (hx : ∀ x ∈ hits now db.jobs.rows ad.admitted, x.held.actor = x.item.actor)
  (henc : ∀ a ∈ ad.admitted, a.unencodable = none)
  (hterm : ∀ a ∈ ad.admitted, db.twin.terminalBatch parse a = none)
include hx henc hterm

lemma EnqueueDb.twin_clash (hc : ∃ x ∈ hits now db.jobs.rows ad.admitted, x.clash = true) :
    ∃ e m, db.twin.enqueueBatch parse now enforce args = ⟨.error e, m⟩ ∧
      e.family = .singletonCollision ∧ m.jobs = db.jobs.rows := by
  have hloop := looped h henc hterm hx
  have hback := db.rollback_insertAll parse now ad.admitted
  rw [InMemoryBackend.enqueueBatch, had]
  dsimp only
  rw [(twin_preflight_eq_none h).mpr hx]
  revert hloop hback
  generalize db.twin.insertAll parse now ad.admitted = reply
  intro hloop hback
  cases hloop with
  | raised _ he => exact ⟨_, _, rfl, he, hback⟩
  | stored hn _ =>
    obtain ⟨x, hx, hxc⟩ := hc
    rw [hn x hx] at hxc
    cases hxc

lemma EnqueueDb.twin_stores (hc : ∀ x ∈ hits now db.jobs.rows ad.admitted, x.clash = false) :
    ∃ m, db.twin.enqueueBatch parse now enforce args =
      ⟨ad.raise args (resolved now db.jobs.rows ad.admitted).length
        (resolved now db.jobs.rows ad.admitted), m⟩ ∧ m.jobs = out := by
  have hloop := looped h henc hterm hx
  rw [InMemoryBackend.enqueueBatch, had]
  dsimp only
  rw [(twin_preflight_eq_none h).mpr hx]
  revert hloop
  generalize db.twin.insertAll parse now ad.admitted = reply
  intro hloop
  cases hloop with
  | raised hn _ =>
    obtain ⟨x, hx, hxc⟩ := hn
    rw [hc x hx] at hxc
    cases hxc
  | stored _ hm => exact ⟨_, rfl, hm⟩

end

lemma agrees_error {pg : Reply α} {mem : InMemoryReply α} (hpg : pg.result = .error e)
    (hmem : mem.result = .error f) (hjobs : mem.state.jobs = pg.jobs) :
    Agrees pg mem ↔ e.family = f.family := by
  rw [Agrees, hpg, hmem]
  exact and_iff_right hjobs

lemma agrees_raise {v w : α} (hjobs : m.jobs = rows) :
    Agrees ⟨ad.raise args i v, rows⟩ ⟨ad.raise args j w, m⟩ ↔ (ad.refusals = [] → v = w) := by
  rw [Agrees, raise, raise]
  cases hr : ad.refusals with
  | nil => simp [hjobs]
  | cons r rest => simp [hjobs, EnqueueError.family]

lemma raise_family {v : α} (h : ad.raise args i v = .error e) :
    e.family = .batchMaxPendingExceeded := by
  rw [raise] at h
  split at h
  · cases h
  · cases h
    rfl

lemma not_agrees_raise {v : α} (he : e.family ≠ .batchMaxPendingExceeded) :
    ¬ Agrees ⟨ad.raise args i v, rows⟩ ⟨.error e, m⟩ := by
  rw [Agrees, raise]
  split
  · exact fun h => h.2
  · exact fun h => he h.2.symm

def Mirrored (now : Stamp) (rows : List JobRecord) (ad : Admission) : Prop :=
  match insertBatch now rows ad.admitted with
  | .error _ => True
  | .ok (_, returned) =>
    (∃ x ∈ hits now rows ad.admitted, x.Foreign returned) ∨
      ∀ x ∈ hits now rows ad.admitted, x.held.actor = x.item.actor ∧ x.clash = false ∧
        (ad.refusals = [] → x.Aliased returned → x.held.id = x.item.id)

lemma EnqueueDb.batch_agrees (hpg : db.admission parse enforce args = .ok ad)
    (had : db.twin.admission parse enforce args = .ok ad)
    (henc : ∀ a ∈ ad.admitted, a.unencodable = none)
    (hterm : ∀ a ∈ ad.admitted, db.twin.terminalBatch parse a = none) :
    Agrees (db.enqueueBatch parse now enforce args) (db.twin.enqueueBatch parse now enforce args) ↔
      Mirrored now db.jobs.rows ad := by
  rw [enqueueBatch_of_admission hpg, Mirrored]
  cases h : insertBatch now db.jobs.rows ad.admitted with
  | error v =>
    obtain ⟨e, he, hfam⟩ := twin_aborts had h
    rw [he]
    exact iff_of_true ((agrees_error rfl rfl rfl).mpr hfam.symm) trivial
  | ok p =>
    obtain ⟨out, returned⟩ := p
    obtain ⟨t, rfl⟩ := insertBatch_table h
    have hout : ∀ r ∈ returned, r ∈ t.rows := by
      rw [insertBatch_append h]
      exact fun r hr => mem_append_right _ hr
    have hasm := assembled h (fun _ hr => hr) hout
    dsimp only
    generalize assemble t.rows returned ad.admitted = reply at hasm ⊢
    cases hasm with
    | raised hforeign hfam =>
      obtain ⟨x, hx, hxf⟩ := hforeign
      obtain ⟨e, he, hfam'⟩ := twin_foreign had h fun hall => hxf.1 (hall x hx)
      rw [he]
      exact iff_of_true ((agrees_error rfl rfl rfl).mpr (hfam.trans hfam'.symm))
        (.inl ⟨x, hx, hxf⟩)
    | gathered hnone hends =>
      rw [or_iff_right fun ⟨x, hx, hxf⟩ => hnone x hx hxf]
      by_cases hactor : ∀ x ∈ hits now db.jobs.rows ad.admitted, x.held.actor = x.item.actor
      · by_cases hclash : ∃ x ∈ hits now db.jobs.rows ad.admitted, x.clash = true
        · obtain ⟨e, m, he, hfam, -⟩ := twin_clash had h hactor henc hterm hclash
          rw [he]
          refine iff_of_false (not_agrees_raise (by rw [hfam]; decide)) fun hall => ?_
          obtain ⟨x, hx, hxc⟩ := hclash
          rw [(hall x hx).2.1] at hxc
          cases hxc
        · have hclash' : ∀ x ∈ hits now db.jobs.rows ad.admitted, x.clash = false :=
            fun x hx => Bool.eq_false_of_not_eq_true fun hc => hclash ⟨x, hx, hc⟩
          obtain ⟨m, hm, hjobs⟩ := twin_stores had h hactor henc hterm hclash'
          rw [hm, agrees_raise hjobs, hends]
          exact ⟨fun hids x hx => ⟨hactor x hx, hclash' x hx, fun hr => hids hr x hx⟩,
            fun hall hr x hx => (hall x hx).2.2 hr⟩
      · obtain ⟨e, he, hfam⟩ := twin_foreign had h hactor
        rw [he]
        exact iff_of_false (not_agrees_raise (by rw [hfam]; decide))
          fun hall => hactor fun x hx => (hall x hx).1

lemma Admission.of_nil (args : List EnqueueArgs) : Admission.of [] args = ⟨[], args⟩ := by
  simp [of]

lemma EnqueueDb.fast_agrees (hpg : db.admission parse enforce args = .ok ad)
    (had : db.twin.admission parse enforce args = .ok ad)
    (henc : ∀ a ∈ ad.admitted, a.unencodable = none)
    (hterm : ∀ a ∈ ad.admitted, db.twin.terminalBatch parse a = none) :
    Agrees (db.enqueueBatchFast parse now enforce args)
      (db.twin.enqueueBatchFast parse now enforce args) := by
  have hscan : db.twin.firstRowViolation true [] [] [] ad.admitted =
    aborted (copyRecords now db.jobs.rows ad.admitted) := db.scanned.copyRecords
  rw [enqueueBatchFast, hpg, InMemoryBackend.enqueueBatchFast, had]
  dsimp only
  cases h : copyRecords now db.jobs.rows ad.admitted with
  | error v =>
    rw [h] at hscan
    obtain ⟨e, he, hfam⟩ := db.preflightFast_of_scan hscan
    rw [he]
    split
    next hnil =>
      rw [isEmpty_iff.mp hnil] at h
      cases h
    · exact (agrees_error rfl rfl rfl).mpr hfam.symm
  | ok out =>
    rw [h] at hscan
    have hpre : db.twin.preflightFast ad.admitted = none := by
      rw [InMemoryBackend.preflightFast, hscan]
      rfl
    rw [hpre]
    dsimp only
    split
    · exact (agrees_raise rfl).mpr fun _ => rfl
    next hne =>
      have hne : ad.admitted ≠ [] := fun hnil => hne (isEmpty_iff.mpr hnil)
      have hopen : ¬ NamesTerminal parse db ad.admitted := by
        rintro ⟨a, ha, b, hb⟩
        have hsome := twin_terminalBatch.mpr hb
        rw [hterm a ha] at hsome
        cases hsome
      have hinner : db.twin.admission parse false ad.admitted = .ok ⟨[], ad.admitted⟩ := by
        rw [db.twin_admission_open false hne (unencodable_eq_none.mpr henc) hopen,
          if_neg Bool.false_ne_true, of_nil]
      obtain ⟨hins, hnone⟩ := db.scanned.unhit now hscan
      have hnone' : ∀ x ∈ hits now db.jobs.rows ad.admitted, False := by
        rw [hnone]
        exact fun _ hx => by cases hx
      obtain ⟨m, hm, hjobs⟩ := twin_stores hinner hins
        (fun x hx => (hnone' x hx).elim) henc hterm fun x hx => (hnone' x hx).elim
      rw [hm]
      obtain ⟨rfl, hids⟩ := copyRecords_append h
      rw [map_fixup hids]
      exact (agrees_raise hjobs).mpr fun _ => length_resolved.symm

lemma EnqueueDb.twin_family (hargs : args ≠ []) (henc : unencodable args = none)
    (h : (db.twin.enqueueBatch parse now enforce args).result = .error e) :
    e.family ≠ .valueError := by
  by_cases hterm : NamesTerminal parse db args
  · obtain ⟨b, hb⟩ := db.twin_admission_terminal enforce hargs henc hterm
    rw [InMemoryBackend.enqueueBatch, hb] at h
    cases h
    exact fun hv => by cases hv
  · rw [InMemoryBackend.enqueueBatch, db.twin_admission_open enforce hargs henc hterm] at h
    dsimp only at h
    split at h
    next hpre =>
      cases h
      exact preflight_family hpre
    · split at h
      next hall =>
        cases h
        refine insertAll_family db.twin ?_ (congrArg (fun x => x.2.2) hall)
        exact fun a ha => unencodable_eq_none.mp henc a (mem_of_mem_filter ha)
      · rw [raise_family h]
        decide

end

def dailySync (id : JobId) : EnqueueArgs where
  id := id
  actor := "sync"
  idempotencyKey := some "daily"
  metadata := [("singleton", .bool true)]

def syncWaiting : EnqueueDb where
  jobs :=
    { rows := [(dailySync 1).row 0]
      ids := List.pairwise_singleton _ _, singletons := List.pairwise_singleton _ _
      pairs := List.pairwise_singleton _ _ }
  maxPending _ := none
  batches _ := none

def junkBatchId : List EnqueueArgs :=
  [{ id := 1, actor := "mail", metadata := [("batch_id", .str "nightly")] }]

def sharedId : List EnqueueArgs :=
  [{ id := 2, actor := "mail", idempotencyKey := some "welcome" },
    { id := 2, actor := "mail", idempotencyKey := some "invoice" }]

end TaskQ.Bulk
