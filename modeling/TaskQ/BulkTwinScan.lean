import TaskQ.BulkTwin

namespace TaskQ.Bulk
open UniqueIndex List Function Option InMemoryBackend EnqueueDb JobRecord
open Jobs (Stamp BatchId BatchRow)

/-- The in-memory backend with the jobs, the actor configs and the batches of `db`. -/
def EnqueueDb.twin (db : EnqueueDb) : InMemoryBackend where
  jobs := db.jobs.rows
  idempotencyIndex p := (holder pair db.jobs.rows p).map fun r => r.id
  maxPending := db.maxPending
  batches := db.batches

structure Hit where
  item : EnqueueArgs
  held : JobRecord
  rows : List JobRecord

def hits (now : Stamp) (rows : List JobRecord) : List EnqueueArgs → List Hit
  | [] => []
  | a :: l =>
    match a.pair.bind (holder pair rows) with
    | some h => ⟨a, h, rows⟩ :: hits now rows l
    | none => hits now (rows ++ [a.row now]) l

def Hit.clash (x : Hit) : Bool :=
  x.item.singleton && (holder singletonActor x.rows x.item.actor).isSome

section
variable {db : EnqueueDb}

namespace EnqueueDb

lemma twin_get_isSome (r : JobRecord) :
    (db.twin.get r.id).isSome = conflicts key db.jobs.rows r := by
  simp [InMemoryBackend.get, twin, conflicts, key, holder]

lemma twin_pair (db : EnqueueDb) (p : Pair) :
    (db.twin.idempotencyIndex p).bind db.twin.get = holder pair db.jobs.rows p := by
  simp only [twin]
  cases hh : holder pair db.jobs.rows p with
  | none => rfl
  | some r => exact Unique.find?_of_mem db.jobs.ids (of_holder hh).1

lemma twin_pairHolder (a : EnqueueArgs) :
    db.twin.pairHolder a = a.pair.bind (holder pair db.jobs.rows) := by
  simp only [pairHolder, db.twin_pair]

lemma twin_index_isSome (db : EnqueueDb) (p : Pair) :
    (db.twin.idempotencyIndex p).isSome = (holder pair db.jobs.rows p).isSome :=
  isSome_map ..

lemma twin_scan (db : EnqueueDb) (actor : String) :
    db.twin.scanSingletonPreflight actor = holder singletonActor db.jobs.rows actor :=
  rfl

lemma twin_store {a : EnqueueArgs} (hf : Fits db.jobs.rows (a.row now)) :
    db.twin.store now a = EnqueueDb.twin { db with jobs := db.jobs.snoc (a.row now) hf } := by
  simp only [InMemoryBackend.store, twin, JobsTable.snoc, InMemoryBackend.mk.injEq,
    true_and, and_true]
  funext q
  rw [holder_snoc hf.pair, a.row_pair]
  cases a.pair with
  | none => rfl
  | some p =>
    dsimp only
    by_cases hpq : q = p
    · subst hpq
      rw [update_self, if_pos rfl]
      rfl
    · rw [update_of_ne hpq, if_neg fun h => hpq (some.inj h).symm]

end EnqueueDb

end

section
variable {m : InMemoryBackend} {rows : List JobRecord}

structure Scanned (m : InMemoryBackend) (rows : List JobRecord) (ids : List JobId)
    (pairs : List Pair) (singletons : List String) : Prop where
  id : ∀ r, conflicts key rows r = ((m.get r.id).isSome || ids.contains r.id)
  pair : ∀ r, conflicts pair rows r =
    r.pair.any fun p => (m.idempotencyIndex p).isSome || pairs.contains p
  singleton : ∀ r, conflicts singletonActor rows r =
    r.singletonActor.any fun actor =>
      (m.scanSingletonPreflight actor).isSome || singletons.contains actor

lemma EnqueueDb.scanned (db : EnqueueDb) : Scanned db.twin db.jobs.rows [] [] [] where
  id r := by rw [twin_get_isSome, contains_nil, Bool.or_false]
  pair r := by simp [twin_index_isSome, conflicts]
  singleton r := by simp [twin_scan, conflicts]

lemma Scanned.snoc (h : Scanned m rows ids pairs singletons) {a : EnqueueArgs} {x : JobRecord}
    (hid : x.id = a.id) (hp : x.pair = a.pair)
    (hs : x.singletonActor = if a.singleton then some a.actor else none) :
    Scanned m (rows ++ [x]) (a.id :: ids) (a.pair.toList ++ pairs)
      (if a.singleton then a.actor :: singletons else singletons) where
  id r := by
    rw [conflicts_snoc, h.id]
    simp [key, hid, Bool.or_assoc, Bool.or_comm, eq_comm]
  pair r := by
    rw [conflicts_snoc, h.pair, hp]
    cases r.pair with
    | none => rfl
    | some q => cases a.pair <;> simp [Bool.or_assoc, Bool.or_comm, eq_comm]
  singleton r := by
    rw [conflicts_snoc, h.singleton, hs]
    cases r.singletonActor with
    | none => rfl
    | some q => cases a.singleton <;> simp [Bool.or_assoc, Bool.or_comm, eq_comm]

def aborted : Except Violation α → Option Violation
  | .error v => some v
  | .ok _ => none

section
variable (h : Scanned m rows ids pairs singletons)
include h

lemma Scanned.firstRowViolation_cons
    {a : EnqueueArgs} {x : JobRecord} (hid : x.id = a.id) (hp : x.pair = a.pair)
    (hs : x.singletonActor = if a.singleton then some a.actor else none) :
    m.firstRowViolation raise ids pairs singletons (a :: l) =
      if conflicts JobRecord.pair rows x && !raise then
        m.firstRowViolation raise ids pairs singletons l
      else if conflicts key rows x then some .pkey
      else if conflicts singletonActor rows x then some .singleton
      else if conflicts JobRecord.pair rows x then some .idempotency
      else
        m.firstRowViolation raise (a.id :: ids) (a.pair.toList ++ pairs)
          (if a.singleton then a.actor :: singletons else singletons) l := by
  have hsing : conflicts singletonActor rows x = (a.singleton &&
      ((m.scanSingletonPreflight a.actor).isSome || singletons.contains a.actor)) := by
    rw [h.singleton, hs]
    cases a.singleton <;> rfl
  rw [firstRowViolation, h.pair, h.id, hsing, hid, hp]

lemma Scanned.insertBatch :
    m.firstRowViolation false ids pairs singletons l = aborted (insertBatch now rows l) := by
  induction l generalizing rows ids pairs singletons with
  | nil => rfl
  | cons a l ih =>
    rw [h.firstRowViolation_cons (x := a.row now) rfl rfl a.row_singletonActor, Bulk.insertBatch,
      insertRow, Bool.not_false, Bool.and_true]
    split
    · exact ih h
    split
    · rfl
    split
    · rfl
    rw [ih (h.snoc (x := a.row now) rfl rfl a.row_singletonActor)]
    dsimp only
    split
    next he => rw [he]
    next he => rw [he]; rfl

lemma Scanned.copyRecords :
    m.firstRowViolation true ids pairs singletons l = aborted (copyRecords now rows l) := by
  induction l generalizing rows ids pairs singletons with
  | nil => rfl
  | cons a l ih =>
    have hs : (a.copied now).singletonActor = if a.singleton then some a.actor else none :=
      a.copied_singletonActor.trans a.row_singletonActor
    rw [h.firstRowViolation_cons (x := a.copied now) rfl rfl hs, Bulk.copyRecords, insertRow,
      Bool.not_true, Bool.and_false, if_neg Bool.false_ne_true]
    split
    · rfl
    split
    · rfl
    split
    · rfl
    · exact ih (h.snoc (x := a.copied now) rfl rfl hs)

end

def InMemoryBackend.Violates (m : InMemoryBackend) (raise : Bool) (ids : List JobId)
    (pairs : List Pair) (singletons : List String) (a : EnqueueArgs) : Violation → Prop
  | .pkey => (m.get a.id).isSome = true ∨ a.id ∈ ids
  | .singleton => a.singleton = true ∧
      ((m.scanSingletonPreflight a.actor).isSome = true ∨ a.actor ∈ singletons)
  | .idempotency => raise = true ∧
      ∃ p, a.pair = some p ∧ ((m.idempotencyIndex p).isSome = true ∨ p ∈ pairs)

lemma firstRowViolation_cons
    (h : m.firstRowViolation raise ids pairs singletons (a :: l) = some v) :
    m.firstRowViolation raise ids pairs singletons l = some v ∧ raise = false ∨
      m.Violates raise ids pairs singletons a v ∨
      m.firstRowViolation raise (a.id :: ids) (a.pair.toList ++ pairs)
        (if a.singleton then a.actor :: singletons else singletons) l = some v := by
  rw [firstRowViolation] at h
  split at h
  next hp => exact .inl ⟨h, by simpa using (Bool.and_eq_true_iff.mp hp).2⟩
  next hp =>
    right
    split at h
    next hid =>
      cases h
      exact .inl (by simpa [InMemoryBackend.Violates] using hid)
    · split at h
      next hs =>
        cases h
        exact .inl (by simpa [InMemoryBackend.Violates] using hs)
      · split at h
        next hpair =>
          cases h
          rw [hpair] at hp
          exact .inl ⟨by simpa using hp, by simpa [Option.any_eq_true] using hpair⟩
        · exact .inr h

lemma firstRowViolation_ne_idempotency (l : List EnqueueArgs) :
    m.firstRowViolation false ids pairs singletons l ≠ some .idempotency := by
  induction l generalizing ids pairs singletons with
  | nil => exact some_ne_none _ |>.symm
  | cons a l ih =>
    intro h
    rcases firstRowViolation_cons h with ⟨h, -⟩ | hv | h
    · exact ih h
    · cases hv.1
    · exact ih h

lemma checkBatchJobIds_of_scan (hids : ids ⊆ seen)
    (h : m.firstRowViolation raise ids pairs singletons l = some .pkey) :
    m.checkBatchJobIds seen l = some .uniqueViolation := by
  induction l generalizing ids pairs singletons seen with
  | nil => cases h
  | cons a l ih =>
    rw [checkBatchJobIds]
    split
    · rfl
    next hnew =>
      rw [Bool.or_eq_true, contains_iff_mem] at hnew
      rcases firstRowViolation_cons h with ⟨h, -⟩ | hid | h
      · exact ih (subset_cons_of_subset _ hids) h
      · exact absurd (hid.imp_right (hids ·)) hnew
      · exact ih (cons_subset_cons _ hids) h

lemma firstSingletonCollisionActor_of_scan (hseen : singletons ⊆ seen)
    (h : m.firstRowViolation raise ids pairs singletons l = some .singleton) :
    ∃ actor, firstSingletonCollisionActor
      (fun actor => (m.scanSingletonPreflight actor).isSome) seen l = some actor := by
  induction l generalizing ids pairs singletons seen with
  | nil => cases h
  | cons a l ih =>
    rw [firstSingletonCollisionActor]
    split
    next hs =>
      split
      · exact ⟨_, rfl⟩
      next hnew =>
        rw [Bool.or_eq_true, contains_iff_mem] at hnew
        rcases firstRowViolation_cons h with ⟨h, -⟩ | hsing | h
        · exact ih (subset_cons_of_subset _ hseen) h
        · exact absurd (hsing.2.symm.imp_left (hseen ·)) hnew
        · rw [if_pos hs] at h
          exact ih (cons_subset_cons _ hseen) h
    next hs =>
      rcases firstRowViolation_cons h with ⟨h, -⟩ | hs' | h
      · exact ih hseen h
      · exact absurd hs'.1 hs
      · rw [if_neg hs] at h
        exact ih hseen h

lemma firstDuplicateIdempotencyPair_of_scan (hseen : pairs ⊆ seen)
    (h : m.firstRowViolation true ids pairs singletons l = some .idempotency) :
    ∃ p, firstDuplicateIdempotencyPair (fun p => (m.idempotencyIndex p).isSome) seen l =
      some p := by
  induction l generalizing ids pairs singletons seen with
  | nil => cases h
  | cons a l ih =>
    rw [firstDuplicateIdempotencyPair]
    split
    next hnone =>
      rcases firstRowViolation_cons h with ⟨-, hr⟩ | ⟨-, p, hp, -⟩ | h
      · cases hr
      · cases hnone.symm.trans hp
      · rw [hnone] at h
        exact ih hseen h
    next p hp =>
      split
      · exact ⟨p, rfl⟩
      next hnew =>
        rw [Bool.or_eq_true, contains_iff_mem] at hnew
        rcases firstRowViolation_cons h with ⟨-, hr⟩ | ⟨-, q, hq, hdup⟩ | h
        · cases hr
        · cases hp.symm.trans hq
          exact absurd (hdup.symm.imp_left (hseen ·)) hnew
        · rw [hp] at h
          exact ih (cons_subset_cons _ hseen) h

end

section
variable {rows returned : List JobRecord} {l : List EnqueueArgs}

def resolved (now : Stamp) (rows : List JobRecord) : List EnqueueArgs → List JobRecord
  | [] => []
  | a :: l =>
    match a.pair.bind (holder pair rows) with
    | some h => h :: resolved now rows l
    | none => a.row now :: resolved now (rows ++ [a.row now]) l

lemma insertBatch_cons (h : insertBatch now rows (a :: l) = .ok (out, returned)) :
    (∃ r, a.pair.bind (holder pair rows) = some r ∧
        insertBatch now rows l = .ok (out, returned)) ∨
      ∃ rest, a.pair.bind (holder pair rows) = none ∧ Fits rows (a.row now) ∧
        insertBatch now (rows ++ [a.row now]) l = .ok (out, rest) ∧
        returned = a.row now :: rest := by
  rw [insertBatch] at h
  split at h
  next hc =>
    obtain ⟨p, r, hp, hr⟩ := conflicts_eq_true.mp hc
    rw [a.row_pair] at hp
    exact .inl ⟨r, by rw [hp, bind_some, hr], h⟩
  · split at h
    · cases h
    next rows' hrow =>
      split at h
      · cases h
      next out' rest hrest =>
        cases h
        obtain ⟨hf, rfl⟩ := fits_of_insertRow hrow
        refine .inr ⟨rest, ?_, hf, hrest, rfl⟩
        cases hp : a.pair with
        | none => rfl
        | some p => exact conflicts_eq_false.mp hf.pair p hp

def Hit.Aliased (returned : List JobRecord) (x : Hit) : Prop := ∃ r ∈ returned, r.id = x.item.id

def Hit.Foreign (returned : List JobRecord) (x : Hit) : Prop :=
  x.held.actor ≠ x.item.actor ∧ ¬ x.Aliased returned

inductive Assembled (returned : List JobRecord) (hs : List Hit) (ends : List JobRecord) :
    Except EnqueueError (List JobRecord) → Prop
  | raised (h : ∃ x ∈ hs, x.Foreign returned) (he : e.family = .actorMismatch) :
      Assembled returned hs ends (.error e)
  | gathered (h : ∀ x ∈ hs, ¬ x.Foreign returned)
      (hr : result = ends ↔ ∀ x ∈ hs, x.Aliased returned → x.held.id = x.item.id) :
      Assembled returned hs ends (.ok result)

lemma Assembled.cons_new (h : Assembled returned hs ends reply) :
    Assembled returned hs (r :: ends) (reply.map (r :: ·)) := by
  cases h with
  | raised hx he => exact .raised hx he
  | gathered hx hr => exact .gathered hx ((cons_inj_right r).trans hr)

lemma Assembled.cons_hit (h : Assembled returned hs ends reply) (hx : ¬ x.Foreign returned)
    (hr : r = x.held ↔ (x.Aliased returned → x.held.id = x.item.id)) :
    Assembled returned (x :: hs) (x.held :: ends) (reply.map (r :: ·)) := by
  cases h with
  | raised h he =>
    obtain ⟨y, hy, hf⟩ := h
    exact .raised ⟨y, mem_cons_of_mem _ hy, hf⟩ he
  | gathered h hends =>
    refine .gathered (forall_mem_cons.mpr ⟨hx, h⟩) ?_
    rw [cons.injEq, hr, hends, forall_mem_cons]

lemma find?_own {t : JobsTable} (h : ∀ r ∈ returned, r ∈ t.rows) (hr : r ∈ returned) :
    (returned.find? fun x => x.id = r.id) = some r := by
  have hsome : (returned.find? fun x => x.id = r.id).isSome :=
    find?_isSome.mpr ⟨r, hr, decide_eq_true rfl⟩
  obtain ⟨x, hx⟩ := isSome_iff_exists.mp hsome
  have hid : x.id = r.id := by simpa using find?_some hx
  rw [hx, t.ids.eq_of_key (h x (mem_of_find?_eq_some hx)) (h r hr) (congrArg some hid) rfl]

lemma assembled {t : JobsTable} (h : insertBatch now rows l = .ok (t.rows, rest))
    (hrest : ∀ r ∈ rest, r ∈ returned) (hret : ∀ r ∈ returned, r ∈ t.rows) :
    Assembled returned (hits now rows l) (resolved now rows l) (assemble t.rows returned l) := by
  induction l generalizing rows rest with
  | nil => exact .gathered (fun _ hx => by cases hx) (by simp [resolved, hits])
  | cons a l ih =>
    rw [hits, resolved, assemble]
    rcases insertBatch_cons h with ⟨r, hheld, hl⟩ | ⟨rest', hnone, hf, hl, rfl⟩
    · have hstays : a.pair.bind (holder pair t.rows) = some r := by
        obtain ⟨p, hp, hr⟩ := bind_eq_some_iff.mp hheld
        rw [hp, bind_some, insertBatch_append hl, holder_append_of_some hr]
      have hmem : r ∈ t.rows := by
        obtain ⟨p, -, hr⟩ := bind_eq_some_iff.mp hstays
        exact (of_holder hr).1
      have ih := ih hl hrest
      rw [hheld]
      dsimp only
      split
      next r' hfound =>
        -- a new row has the item's id: the assembly takes it for the item's own
        have hid : r'.id = a.id := by simpa using find?_some hfound
        have halias : Hit.Aliased returned ⟨a, r, rows⟩ :=
          ⟨r', mem_of_find?_eq_some hfound, hid⟩
        refine ih.cons_hit (fun hx => hx.2 halias) ⟨?_, fun hx => ?_⟩
        · rintro rfl _
          exact hid
        · exact t.ids.eq_of_key (hret r' (mem_of_find?_eq_some hfound)) hmem
            (congrArg some (hid.trans (hx halias).symm)) rfl
      next hnot =>
        have halias : ¬ Hit.Aliased returned ⟨a, r, rows⟩ := by
          rintro ⟨r', hr', hid⟩
          simpa [hid] using find?_eq_none.mp hnot r' hr'
        rw [hstays]
        dsimp only
        split
        next hactor => exact .raised ⟨⟨a, r, rows⟩, mem_cons_self, hactor, halias⟩ rfl
        next hactor =>
          exact ih.cons_hit (x := ⟨a, r, rows⟩) (fun hx => hactor hx.1)
            ⟨fun _ hx => absurd hx halias, fun _ => rfl⟩
    · obtain ⟨hown, hrest⟩ := forall_mem_cons.mp hrest
      have hfound : (returned.find? fun r => r.id = a.id) = some (a.row now) :=
        find?_own hret hown
      rw [hnone, hfound]
      exact (ih hl hrest).cons_new

lemma length_resolved : (resolved now rows l).length = l.length := by
  induction l generalizing rows with
  | nil => rfl
  | cons a l ih =>
    rw [resolved]
    split
    · exact congrArg (· + 1) ih
    · exact congrArg (· + 1) ih

lemma Scanned.unhit (h : Scanned m rows ids pairs singletons) (now : Stamp)
    (hscan : m.firstRowViolation true ids pairs singletons l = none) :
    Bulk.insertBatch now rows l = .ok (rows ++ l.map (·.row now), l.map (·.row now)) ∧
      hits now rows l = [] := by
  induction l generalizing rows ids pairs singletons with
  | nil => exact ⟨by rw [map_nil, append_nil]; rfl, rfl⟩
  | cons a l ih =>
    rw [h.firstRowViolation_cons (x := a.row now) rfl rfl a.row_singletonActor, Bool.not_true,
      Bool.and_false, if_neg Bool.false_ne_true] at hscan
    split at hscan
    · cases hscan
    next hid =>
      split at hscan
      · cases hscan
      next hsing =>
        split at hscan
        · cases hscan
        next hpair =>
          have hf : Fits rows (a.row now) := ⟨Bool.eq_false_of_not_eq_true hid,
            Bool.eq_false_of_not_eq_true hsing, Bool.eq_false_of_not_eq_true hpair⟩
          obtain ⟨hins, hnone⟩ :=
            ih (h.snoc (x := a.row now) rfl rfl a.row_singletonActor) hscan
          have hnew : a.pair.bind (holder JobRecord.pair rows) = none := by
            cases hp : a.pair with
            | none => rfl
            | some p => exact conflicts_eq_false.mp hf.pair p hp
          constructor
          · rw [Bulk.insertBatch, hf.pair, if_neg Bool.false_ne_true, hf.insertRow]
            dsimp only
            rw [hins, append_assoc]
            rfl
          · rw [hits, hnew]
            exact hnone

end

section
variable {m : InMemoryBackend} {rows returned : List JobRecord} {l : List EnqueueArgs}

lemma checkBatchIdempotencyActors_eq_none
    (hheld : ∀ p, (((m.idempotencyIndex p).bind m.get).map fun r => (r.actor, r.id)).or
      (holders.lookup p) = (holder pair rows p).map fun r => (r.actor, r.id))
    (h : insertBatch now rows l = .ok (out, returned)) :
    m.checkBatchIdempotencyActors holders l = none ↔
      ∀ x ∈ hits now rows l, x.held.actor = x.item.actor := by
  induction l generalizing rows holders returned with
  | nil => simp [checkBatchIdempotencyActors, hits]
  | cons a l ih =>
    rw [checkBatchIdempotencyActors, hits]
    rcases insertBatch_cons h with ⟨r, hr, hl⟩ | ⟨rest, hnone, hf, hl, rfl⟩
    · obtain ⟨p, hp, hr'⟩ := bind_eq_some_iff.mp hr
      have hfound : ((m.pairHolder a).map fun r => (r.actor, r.id)).or (holders.lookup p) =
          some (r.actor, r.id) := by
        rw [pairHolder, hp, bind_some, hheld, hr', map_some]
      rw [hr, hp]
      dsimp only
      rw [hfound, forall_mem_cons]
      dsimp only
      split
      next hactor => exact iff_of_false (some_ne_none _) fun hn => hactor hn.1
      next hactor =>
        rw [ih hheld hl]
        exact ⟨fun hn => ⟨not_not.mp hactor, hn⟩, fun hn => hn.2⟩
    · rw [hnone]
      cases hp : a.pair with
      | none =>
        refine ih (fun p => ?_) hl
        rw [hheld, holder_snoc hf.pair, a.row_pair, hp, if_neg (some_ne_none p).symm]
      | some p =>
        rw [hp, bind_some] at hnone
        have hfound : ((m.pairHolder a).map fun r => (r.actor, r.id)).or (holders.lookup p) =
            none := by
          rw [pairHolder, hp, bind_some, hheld, hnone, map_none]
        dsimp only
        rw [hfound]
        refine ih (fun q => ?_) hl
        rw [Dict.lookup_set, holder_snoc hf.pair, a.row_pair, hp]
        by_cases hq : q = p
        · subst hq
          have hstore := hheld q
          rw [hnone, map_none, or_eq_none_iff] at hstore
          rw [hstore.1, if_pos rfl, if_pos rfl]
          rfl
        · rw [if_neg hq, if_neg fun hpq => hq (some.inj hpq).symm, hheld]

lemma checkBatchIdempotencyActors_family
    (h : m.checkBatchIdempotencyActors holders l = some e) : e.family = .actorMismatch := by
  induction l generalizing holders with
  | nil => cases h
  | cons a l ih =>
    rw [checkBatchIdempotencyActors] at h
    split at h
    · exact ih h
    split at h
    · split at h
      · cases h
        rfl
      · exact ih h
    · exact ih h

lemma preflight_of_scan (h : m.firstRowViolation false [] [] [] l = some v) :
    ∃ e, m.preflight l = some e ∧ e.family = (insertError rows l' v).family := by
  rw [preflight, h]
  cases v with
  | pkey =>
    rw [checkBatchJobIds_of_scan (fun _ hi => hi) h]
    exact ⟨_, rfl, rfl⟩
  | singleton =>
    obtain ⟨actor, hactor⟩ := firstSingletonCollisionActor_of_scan (fun _ hx => hx) h
    dsimp only [checkBatchSingletons]
    rw [hactor]
    exact ⟨_, rfl, rfl⟩
  | idempotency => exact absurd h (firstRowViolation_ne_idempotency l)

lemma checkBatchJobIds_family (h : m.checkBatchJobIds seen l = some e) :
    e.family = .uniqueViolation := by
  induction l generalizing seen with
  | nil => cases h
  | cons a l ih =>
    rw [checkBatchJobIds] at h
    split at h
    · cases h
      rfl
    · exact ih h

lemma preflight_family (h : m.preflight l = some e) : e.family ≠ .valueError := by
  rw [preflight, or_eq_some_iff] at h
  rcases h with h | ⟨-, h⟩
  · split at h
    · rw [checkBatchJobIds_family h]
      decide
    · obtain ⟨actor, -, rfl⟩ := map_eq_some_iff.mp h
      exact fun hv => by cases hv
    · cases h
    · cases h
  · rw [checkBatchIdempotencyActors_family h]
    decide

lemma EnqueueDb.preflightFast_of_scan (db : EnqueueDb)
    (h : db.twin.firstRowViolation true [] [] [] l = some v) :
    ∃ e, db.twin.preflightFast l = some e ∧ e.family = (copyError db.jobs.rows l v).family := by
  rw [preflightFast, h]
  cases v with
  | pkey =>
    rw [checkBatchJobIds_of_scan (fun _ hi => hi) h]
    exact ⟨_, rfl, rfl⟩
  | singleton =>
    obtain ⟨actor, hactor⟩ := firstSingletonCollisionActor_of_scan (fun _ hx => hx) h
    dsimp only [checkBatchSingletons]
    rw [hactor]
    exact ⟨_, rfl, rfl⟩
  | idempotency =>
    obtain ⟨p, hp⟩ := firstDuplicateIdempotencyPair_of_scan (fun _ hq => hq) h
    dsimp only [copyError]
    rw [hp]
    simp only [db.twin_index_isSome] at hp
    rw [hp]
    simp only [db.twin_pair]
    exact ⟨_, rfl, rfl⟩

end

end TaskQ.Bulk
