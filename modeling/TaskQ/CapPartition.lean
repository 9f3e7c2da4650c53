import Mathlib.Data.List.Induction
import TaskQ.BulkEnqueue

namespace TaskQ.Bulk
open UniqueIndex Option Dict EnqueueArgs
open Jobs (Stamp BatchId BatchRow)

/-- All items of one actor carry the same `max_pending`. -/
def UniformCaps (args : List EnqueueArgs) : Prop :=
  ∀ a ∈ args, ∀ b ∈ args, a.actor = b.actor → a.maxPending = b.maxPending

def newRows (stored : Pair → Bool) (seen : List Pair) : List EnqueueArgs → Nat
  | [] => 0
  | a :: l =>
    match a.pair with
    | none => newRows stored seen l + 1
    | some p => newRows stored (p :: seen) l + if stored p || seen.contains p then 0 else 1

def unsharedRows (stored : Pair → Bool) (actor : String) (seen : List Pair) : List EnqueueArgs → Nat
  | [] => 0
  | a :: l =>
    match a.maxPending, a.pair with
    | none, _ => unsharedRows stored actor seen l
    | some _, none => unsharedRows stored actor seen l + if a.actor = actor then 1 else 0
    | some _, some p =>
      unsharedRows stored actor (p :: seen) l +
        if a.actor = actor ∧ (stored p || seen.contains p) = false then 1 else 0

section
variable (db : EnqueueDb) (args : List EnqueueArgs)

def EnqueueDb.stored (p : Pair) : Bool := (holder JobRecord.pair db.jobs.rows p).isSome

def EnqueueDb.ownRows (actor : String) : Nat :=
  newRows db.stored [] (args.filter fun a => a.actor = actor)

def EnqueueDb.unsharedRows (actor : String) : Nat := Bulk.unsharedRows db.stored actor [] args

def EnqueueDb.cap (a : EnqueueArgs) : Option Int :=
  a.maxPending.map fun carried => (db.maxPending a.actor).getD carried

def EnqueueDb.refused : List String := (db.capRefusals args).map Refusal.actor

end

def CapPartitionExact (parse : String → Option BatchId) (db : EnqueueDb) (now : Stamp)
    (args : List EnqueueArgs) : Prop :=
  let inserted := (db.enqueueBatch parse now true args).jobs
  let copied := (db.enqueueBatchFast parse now true args).jobs
  ∀ a ∈ args, ∀ cap, db.cap a = some cap →
    (a.actor ∉ db.refused args →
      pendingCount inserted a.actor ≤ cap ∧ pendingCount copied a.actor ≤ cap) ∧
    (a.actor ∈ db.refused args ↔
      cap < pendingCount db.jobs.rows a.actor + db.ownRows args a.actor) ∧
    (a.actor ∈ db.refused args →
      ∀ r, r ∈ inserted ∨ r ∈ copied → r.actor = a.actor → r ∈ db.jobs.rows)

section
variable {args : List EnqueueArgs}

def EnqueueArgs.capped (actor : String) (a : EnqueueArgs) : Bool :=
  a.maxPending.isSome && a.actor = actor

lemma capGroups_counts : ((args.foldl capGroupStep ([], [])).1.lookup actor).getD 0 =
    args.countP (·.capped actor) := by
  induction args using List.reverseRecOn with
  | nil => rfl
  | append_singleton l a ih =>
    rw [List.foldl_concat, List.countP_append, List.countP_singleton, ← ih, capGroupStep]
    cases hm : a.maxPending with
    | none => simp [capped, hm]
    | some cap =>
      rw [lookup_set]
      by_cases ha : actor = a.actor
      · subst ha
        simp [capped, hm]
      · simp [capped, hm, ha, Ne.symm ha]

lemma capGroups_nodup : ((args.foldl capGroupStep ([], [])).1.map Prod.fst).Nodup := by
  induction args using List.reverseRecOn with
  | nil => exact List.nodup_nil
  | append_singleton l a ih =>
    rw [List.foldl_concat, capGroupStep]
    cases a.maxPending with
    | none => exact ih
    | some cap => exact nodup_keys_set ih

lemma capGroups_caps (hu : UniformCaps args) :
    (args.foldl capGroupStep ([], [])).2.lookup actor = some cap ↔
      ∃ a ∈ args, a.actor = actor ∧ a.maxPending = some cap := by
  induction args using List.reverseRecOn generalizing actor cap with
  | nil => simp
  | append_singleton l a ih =>
    have hl : UniformCaps l := fun x hx y hy =>
      hu x (List.mem_append_left _ hx) y (List.mem_append_left _ hy)
    simp only [List.mem_append, List.mem_singleton, or_and_right, exists_or, exists_eq_left,
      List.foldl_concat, capGroupStep]
    rw [← ih hl]
    cases hm : a.maxPending with
    | none => simp
    | some carried =>
      have hold : ∀ c, (l.foldl capGroupStep ([], [])).2.lookup a.actor = some c →
          c = carried := by
        intro c hc
        obtain ⟨x, hx, hxa, hxc⟩ := (ih hl).mp hc
        have hsame := hu x (List.mem_append_left _ hx) a (by simp) hxa
        rw [hxc, hm] at hsame
        exact some.inj hsame
      by_cases ha : a.actor = actor
      · subst ha
        have hlook : (if ((l.foldl capGroupStep ([], [])).2.lookup a.actor).all (carried < ·) then
              set a.actor carried (l.foldl capGroupStep ([], [])).2
            else (l.foldl capGroupStep ([], [])).2).lookup a.actor = some carried := by
          cases hc : (l.foldl capGroupStep ([], [])).2.lookup a.actor with
          | none => rw [all_none, if_pos rfl, lookup_set, if_pos rfl]
          | some c =>
            obtain rfl := hold c hc
            rw [all_some, if_neg (by simp), hc]
        rw [hlook, some.injEq]
        refine ⟨fun h => .inr ⟨rfl, h⟩, ?_⟩
        rintro (h | ⟨-, h⟩)
        · exact (hold cap h).symm
        · exact h
      · have hlook : (if ((l.foldl capGroupStep ([], [])).2.lookup a.actor).all (carried < ·) then
              set a.actor carried (l.foldl capGroupStep ([], [])).2
            else (l.foldl capGroupStep ([], [])).2).lookup actor =
            (l.foldl capGroupStep ([], [])).2.lookup actor := by
          split
          · rw [lookup_set, if_neg (Ne.symm ha)]
          · rfl
        simp [hlook, ha]

lemma mem_batchCapGroups (hu : UniformCaps args) : (actor, count, cap) ∈ batchCapGroups args ↔
      count = args.countP (·.capped actor) ∧ ∃ a ∈ args, a.actor = actor ∧
        a.maxPending = some cap := by
  simp only [batchCapGroups, List.mem_filterMap, map_eq_some_iff, Prod.mk.injEq]
  constructor
  · rintro ⟨⟨x, n⟩, hg, c, hc, rfl, rfl, rfl⟩
    rw [mem_iff_lookup capGroups_nodup] at hg
    have hn : ((args.foldl capGroupStep ([], [])).1.lookup x).getD 0 = _ := capGroups_counts
    rw [hg, getD_some] at hn
    exact ⟨hn, (capGroups_caps hu).mp hc⟩
  · rintro ⟨rfl, a, ha, rfl, hm⟩
    have hpos : 0 < args.countP (·.capped a.actor) :=
      List.countP_pos_iff.mpr ⟨a, ha, by simp [capped, hm]⟩
    have hn : ((args.foldl capGroupStep ([], [])).1.lookup a.actor).getD 0 = _ := capGroups_counts
    cases hlook : (args.foldl capGroupStep ([], [])).1.lookup a.actor with
    | none =>
      rw [hlook, getD_none] at hn
      omega
    | some n =>
      rw [hlook, getD_some] at hn
      refine ⟨(a.actor, n), (mem_iff_lookup capGroups_nodup).mpr hlook, cap, ?_, rfl, hn, rfl⟩
      exact (capGroups_caps hu).mpr ⟨a, ha, rfl, hm⟩

lemma dedupedCounts_add_unsharedRows (stored : Pair → Bool) (seen : List Pair)
    (counts : List (String × Nat)) (actor : String) :
    ((dedupedCounts stored seen (capKeyedPairs args) counts).lookup actor).getD 0 +
        unsharedRows stored actor seen args =
      (counts.lookup actor).getD 0 + args.countP (·.capped actor) := by
  induction args generalizing seen counts with
  | nil => rfl
  | cons a l ih =>
    rw [List.countP_cons]
    cases hm : a.maxPending with
    | none =>
      have hc : a.capped actor = false := by simp [capped, hm]
      have hk : capKeyedPairs (a :: l) = capKeyedPairs l := by simp [capKeyedPairs, hm]
      rw [hk, unsharedRows, hm, hc]
      exact ih seen counts
    | some cap =>
      have hc : a.capped actor = decide (a.actor = actor) := by simp [capped, hm]
      cases hp : a.pair with
      | none =>
        have hk : capKeyedPairs (a :: l) = capKeyedPairs l := by simp [capKeyedPairs, hm, hp]
        rw [hk, unsharedRows, hm, hp, hc]
        have := ih seen counts
        simp only [decide_eq_true_eq]
        omega
      | some p =>
        have hk : capKeyedPairs (a :: l) = (a.actor, p) :: capKeyedPairs l := by
          simp [capKeyedPairs, hm, hp]
        rw [hk, unsharedRows, hm, hp, hc, dedupedCounts]
        simp only [decide_eq_true_eq]
        cases hdup : stored p || seen.contains p with
        | false =>
          have := ih (p :: seen) counts
          simp only [Bool.false_eq_true, if_false, and_true]
          omega
        | true =>
          have := ih (p :: seen) (set a.actor ((counts.lookup a.actor).getD 0 + 1) counts)
          rw [lookup_set] at this
          simp only [if_true, Bool.true_eq_false, and_false, if_false]
          by_cases ha : a.actor = actor
          · subst ha
            simp only [if_true, getD_some] at this ⊢
            omega
          · rw [if_neg (Ne.symm ha)] at this
            rw [if_neg ha]
            omega

lemma dedupedCounts_congr {counts : List (String × Nat)}
    (h : ∀ q ∈ keyed, stored q.2 = stored' q.2) :
    dedupedCounts stored seen keyed counts = dedupedCounts stored' seen keyed counts := by
  induction keyed generalizing seen counts with
  | nil => rfl
  | cons q keyed ih =>
    obtain ⟨actor, p⟩ := q
    rw [dedupedCounts, dedupedCounts, h (actor, p) List.mem_cons_self]
    exact ih fun q hq => h q (List.mem_cons_of_mem _ hq)

lemma batchCapRefusalKernel_congr (h : ∀ q ∈ capKeyedPairs args, stored q.2 = stored' q.2) :
    batchCapRefusalKernel args overrides stored existing =
      batchCapRefusalKernel args overrides stored' existing := by
  simp only [batchCapRefusalKernel, dedupedCounts_congr h]

lemma mem_batchCapRefusalKernel (hu : UniformCaps args) (ha : a ∈ args)
    (hm : a.maxPending = some carried) :
    a.actor ∈ (batchCapRefusalKernel args overrides stored existing).map Refusal.actor ↔
      (overrides a.actor).getD carried <
        existing a.actor + (unsharedRows stored a.actor [] args : Int) := by
  have hsum : ((dedupedCounts stored [] (capKeyedPairs args) []).lookup a.actor).getD 0 + _ =
      0 + _ := dedupedCounts_add_unsharedRows stored [] [] a.actor
  simp only [batchCapRefusalKernel, List.mem_map, List.mem_filterMap, Prod.exists]
  constructor
  · rintro ⟨r, ⟨actor, count, c, hg, hr⟩, hactor⟩
    obtain ⟨hlt, rfl⟩ := Runs.matched hr
    subst hactor
    obtain ⟨rfl, b, hb, hba, hbm⟩ := (mem_batchCapGroups hu).mp hg
    have hsame := hu b hb a ha hba
    rw [hbm, hm, some.injEq] at hsame
    subst hsame
    omega
  · intro hlt
    refine ⟨⟨a.actor, existing a.actor, (overrides a.actor).getD carried⟩, ⟨a.actor,
      args.countP (·.capped a.actor), carried, (mem_batchCapGroups hu).mpr ⟨rfl, a, ha, rfl, hm⟩,
      ?_⟩, rfl⟩
    rw [if_pos (by omega)]

lemma EnqueueDb.capRefusals_eq (db : EnqueueDb) (args : List EnqueueArgs) : db.capRefusals args =
    batchCapRefusalKernel args db.maxPending db.stored (pendingCount db.jobs.rows) := by
  refine batchCapRefusalKernel_congr fun q hq => ?_
  rw [Bool.eq_iff_iff, EnqueueDb.stored, holder_isSome]
  simp only [List.any_eq_true, List.mem_filter, decide_eq_true_eq]
  constructor
  · rintro ⟨r, ⟨hr, -⟩, hp⟩
    exact ⟨r, hr, hp⟩
  · rintro ⟨r, hr, hp⟩
    refine ⟨r, ⟨hr, ?_⟩, hp⟩
    rw [hp, any_some, List.contains_iff_mem]
    exact List.mem_map_of_mem hq

lemma mem_refused {db : EnqueueDb} (hu : UniformCaps args) (ha : a ∈ args)
    (hc : db.cap a = some cap) : a.actor ∈ db.refused args ↔
      cap < pendingCount db.jobs.rows a.actor + (db.unsharedRows args a.actor : Int) := by
  obtain ⟨carried, hm, rfl⟩ := map_eq_some_iff.mp hc
  rw [EnqueueDb.refused, db.capRefusals_eq]
  exact mem_batchCapRefusalKernel hu ha hm

lemma unsharedRows_le_newRows (hcap : ∀ a ∈ args, a.actor = actor → a.maxPending ≠ none)
    (hseen : ∀ p, own.contains p = true → seen.contains p = true) :
    unsharedRows stored actor seen args ≤
      newRows stored own (args.filter fun a => a.actor = actor) := by
  induction args generalizing seen own with
  | nil => exact Nat.le_refl 0
  | cons a l ih =>
    have hl : ∀ x ∈ l, x.actor = actor → x.maxPending ≠ none :=
      fun x hx => hcap x (List.mem_cons_of_mem _ hx)
    by_cases ha : a.actor = actor
    · obtain ⟨cap, hm⟩ := ne_none_iff_exists'.mp (hcap a List.mem_cons_self ha)
      rw [List.filter_cons_of_pos (by simp [ha]), newRows, unsharedRows, hm]
      cases hp : a.pair with
      | none =>
        have hle := ih hl hseen
        simp only [if_pos ha]
        omega
      | some p =>
        have hseen' : ∀ q, (p :: own).contains q = true → (p :: seen).contains q = true := by
          intro q hq
          simp only [List.contains_cons, Bool.or_eq_true] at hq ⊢
          exact hq.imp_right (hseen q)
        have hle := ih hl hseen'
        dsimp only
        by_cases hdup : (stored p || own.contains p) = true
        · have hdup' : (stored p || seen.contains p) = true := by
            rw [Bool.or_eq_true] at hdup ⊢
            exact hdup.imp_right (hseen p)
          rw [if_pos hdup, hdup', if_neg (by simp)]
          exact hle
        · rw [if_neg hdup]
          split <;> omega
    · rw [List.filter_cons_of_neg (by simp [ha]), unsharedRows]
      cases a.maxPending with
      | none => exact ih hl hseen
      | some cap =>
        cases hp : a.pair with
        | none =>
          rw [if_neg ha]
          exact ih hl hseen
        | some p =>
          dsimp only
          rw [if_neg fun h => ha h.1]
          refine ih hl fun q hq => ?_
          rw [List.contains_cons, hseen q hq, Bool.or_true]

end

section
variable {rows out returned : List JobRecord} {l : List EnqueueArgs}

lemma pendingCount_snoc : pendingCount (rows ++ [(a : EnqueueArgs).row now]) actor =
    pendingCount rows actor + if a.actor = actor then 1 else 0 := by
  rw [pendingCount, List.countP_append, List.countP_singleton, a.row_waiting, a.row_actor]
  simp [pendingCount]

def Carried (stored : Pair → Bool) (seen : List Pair) (rows : List JobRecord) : Prop :=
  ∀ p, (stored p || seen.contains p) = true → (holder JobRecord.pair rows p).isSome

section
variable (h : Carried stored seen rows)
include h

lemma Carried.cons (hp : (holder JobRecord.pair rows p).isSome) :
    Carried stored (p :: seen) rows := by
  intro q hq
  simp only [List.contains_cons, Bool.or_eq_true, beq_iff_eq] at hq
  rcases hq with hq | rfl | hq
  · exact h q (by rw [hq, Bool.true_or])
  · exact hp
  · exact h q (by rw [hq, Bool.or_true])

lemma Carried.append : Carried stored seen (rows ++ more) := by
  intro p hp
  obtain ⟨r, hr⟩ := isSome_iff_exists.mp (h p hp)
  rw [holder_append_of_some hr]
  rfl

lemma Carried.not_dup {r : JobRecord}
    (hr : conflicts JobRecord.pair rows r = false) (hp : r.pair = some p) :
    (stored p || seen.contains p) = false := by
  rw [← Bool.not_eq_true]
  intro hdup
  have hsome := h p hdup
  rw [conflicts_eq_false.mp hr p hp] at hsome
  cases hsome

end

lemma holds_snoc (r : JobRecord) (hp : r.pair = some p) :
    (holder JobRecord.pair (rows ++ [r]) p).isSome :=
  holder_isSome.mpr ⟨r, by simp, hp⟩

lemma pendingCount_insertBatch (h : insertBatch now rows l = .ok (out, returned))
    (hs : Carried stored seen rows) : pendingCount out actor ≤
      pendingCount rows actor + newRows stored seen (l.filter fun a => a.actor = actor) := by
  induction l generalizing rows seen returned with
  | nil =>
    cases h
    exact Nat.le_add_right ..
  | cons a l ih =>
    rw [insertBatch] at h
    split at h
    next hskip =>
      obtain ⟨p, r, hp, hr⟩ := conflicts_eq_true.mp hskip
      rw [a.row_pair] at hp
      by_cases ha : a.actor = actor
      · have hle := ih h (hs.cons (isSome_iff_exists.mpr ⟨r, hr⟩))
        rw [List.filter_cons_of_pos (by simp [ha]), newRows, hp]
        dsimp only
        omega
      · rw [List.filter_cons_of_neg (by simp [ha])]
        exact ih h hs
    next hnew =>
      rw [Bool.not_eq_true] at hnew
      split at h
      · cases h
      next rows' hrow =>
        split at h
        · cases h
        next out' returned' hrest =>
          cases h
          obtain ⟨-, rfl⟩ := fits_of_insertRow hrow
          by_cases ha : a.actor = actor
          · rw [List.filter_cons_of_pos (by simp [ha]), newRows]
            cases hp : a.pair with
            | none =>
              have hle := ih hrest hs.append
              rw [pendingCount_snoc, if_pos ha] at hle
              dsimp only
              omega
            | some p =>
              have hle := ih hrest (hs.append.cons (holds_snoc (a.row now) hp))
              rw [pendingCount_snoc, if_pos ha] at hle
              dsimp only
              rw [hs.not_dup hnew hp]
              simp only [Bool.false_eq_true, if_false]
              omega
          · have hle := ih hrest hs.append
            rw [pendingCount_snoc, if_neg ha] at hle
            rw [List.filter_cons_of_neg (by simp [ha])]
            exact hle

lemma newRows_copyRecords (h : copyRecords now rows l = .ok out) (hs : Carried stored seen rows) :
    newRows stored seen (l.filter fun a => a.actor = actor) =
      (l.filter fun a => a.actor = actor).length := by
  induction l generalizing rows seen with
  | nil => rfl
  | cons a l ih =>
    rw [copyRecords] at h
    split at h
    · cases h
    next rows' hrow =>
      obtain ⟨hf, rfl⟩ := fits_of_insertRow hrow
      by_cases ha : a.actor = actor
      · rw [List.filter_cons_of_pos (by simp [ha]), newRows, List.length_cons]
        cases hp : a.pair with
        | none => exact congrArg (· + 1) (ih h hs.append)
        | some p =>
          dsimp only
          rw [hs.not_dup hf.pair hp, ih h (hs.append.cons (holds_snoc (a.copied now) hp))]
          rfl
      · rw [List.filter_cons_of_neg (by simp [ha])]
        exact ih h hs.append

lemma pendingCount_append_row : pendingCount (rows ++ l.map (·.row now)) actor =
    pendingCount rows actor + (l.filter fun a => a.actor = actor).length := by
  rw [pendingCount, List.countP_append, List.countP_map, ← List.countP_eq_length_filter]
  congr 1
  refine List.countP_congr fun a _ => ?_
  simp [a.row_waiting, a.row_actor]

end

section
variable {parse : String → Option BatchId} {db : EnqueueDb} {now : Stamp}
  {args : List EnqueueArgs}

namespace EnqueueDb

lemma admission_eq (h : db.admission parse true args = .ok ad) :
    ad = .of (db.capRefusals args) args := by
  simp only [EnqueueDb.admission] at h
  split at h
  · cases h
  split at h
  · cases h
  split at h
  · cases h
  split at h
  · cases h
  · exact (Except.ok.inj h).symm

def admitted (db : EnqueueDb) (args : List EnqueueArgs) : List EnqueueArgs :=
  args.filter fun a => a.actor ∉ db.refused args

lemma enqueueBatch_jobs (db : EnqueueDb) (args : List EnqueueArgs) :
    (db.enqueueBatch parse now true args).jobs = db.jobs.rows ∨
      ∃ returned, insertBatch now db.jobs.rows (db.admitted args) =
        .ok ((db.enqueueBatch parse now true args).jobs, returned) := by
  unfold EnqueueDb.enqueueBatch
  split
  · exact .inl rfl
  next ad had =>
    obtain rfl := EnqueueDb.admission_eq had
    split
    · exact .inl rfl
    split
    · exact .inl rfl
    next rows returned hins =>
      split
      · exact .inl rfl
      · exact .inr ⟨returned, hins⟩

lemma enqueueBatchFast_jobs (db : EnqueueDb) (args : List EnqueueArgs) :
    (db.enqueueBatchFast parse now true args).jobs = db.jobs.rows ∨
      ∃ out, copyRecords now db.jobs.rows (db.admitted args) = .ok out ∧
        (db.enqueueBatchFast parse now true args).jobs =
          db.jobs.rows ++ (db.admitted args).map (·.row now) := by
  unfold EnqueueDb.enqueueBatchFast
  split
  · exact .inl rfl
  next ad had =>
    obtain rfl := EnqueueDb.admission_eq had
    split
    · exact .inl rfl
    split
    · exact .inl rfl
    next rows hcopy =>
      obtain ⟨rfl, hids⟩ := copyRecords_append hcopy
      exact .inr ⟨_, hcopy, map_fixup hids⟩

lemma admitted_filter (h : actor ∉ db.refused args) :
    (db.admitted args).filter (fun a => a.actor = actor) =
      args.filter fun a => a.actor = actor := by
  rw [EnqueueDb.admitted, List.filter_filter]
  refine List.filter_congr fun a _ => ?_
  by_cases ha : a.actor = actor <;> simp [ha, h]

lemma carried (db : EnqueueDb) : Carried db.stored [] db.jobs.rows := by
  intro p hp
  simpa [EnqueueDb.stored] using hp

lemma pendingCount_le (parse : String → Option BatchId) (now : Stamp)
    (h : actor ∉ db.refused args) : pendingCount (db.enqueueBatch parse now true args).jobs actor ≤
        pendingCount db.jobs.rows actor + db.ownRows args actor ∧
      pendingCount (db.enqueueBatchFast parse now true args).jobs actor ≤
        pendingCount db.jobs.rows actor + db.ownRows args actor := by
  constructor
  · rcases db.enqueueBatch_jobs args with hsame | ⟨returned, hins⟩
    · rw [hsame]
      exact Nat.le_add_right ..
    refine (pendingCount_insertBatch hins db.carried).trans ?_
    rw [EnqueueDb.admitted_filter h]
    exact le_rfl
  · rcases db.enqueueBatchFast_jobs args with hsame | ⟨out, hcopy, hjobs⟩
    · rw [hsame]
      exact Nat.le_add_right ..
    rw [hjobs, pendingCount_append_row, ← newRows_copyRecords hcopy db.carried,
      EnqueueDb.admitted_filter h]
    exact le_rfl

lemma refused_unwritten (h : r.actor ∈ db.refused args)
    (hr : r ∈ (db.enqueueBatch parse now true args).jobs ∨
      r ∈ (db.enqueueBatchFast parse now true args).jobs) : r ∈ db.jobs.rows := by
  have hunw : ∀ a ∈ db.admitted args, r ≠ a.row now := by
    rintro a ha rfl
    exact of_decide_eq_true (List.mem_filter.mp ha).2 h
  rcases hr with hr | hr
  · rcases db.enqueueBatch_jobs args with hsame | ⟨returned, hins⟩
    · rwa [hsame] at hr
    rw [insertBatch_append hins] at hr
    rcases List.mem_append.mp hr with hr | hr
    · exact hr
    · obtain ⟨a, ha, hra⟩ := mem_returned hins hr
      exact absurd hra (hunw a ha)
  · rcases db.enqueueBatchFast_jobs args with hsame | ⟨out, -, hjobs⟩
    · rwa [hsame] at hr
    rw [hjobs] at hr
    rcases List.mem_append.mp hr with hr | hr
    · exact hr
    · obtain ⟨a, ha, hra⟩ := List.mem_map.mp hr
      exact absurd hra.symm (hunw a ha)

end EnqueueDb

end

/-- The cap partition is exact just if the pairs that two capped actors share decide no refusal. -/
theorem cap_partition_exact_iff (hu : UniformCaps args) :
    CapPartitionExact parse db now args ↔ ∀ a ∈ args, ∀ cap, db.cap a = some cap →
      cap < pendingCount db.jobs.rows a.actor + (db.ownRows args a.actor : Int) →
      cap < pendingCount db.jobs.rows a.actor + (db.unsharedRows args a.actor : Int) := by
  constructor
  · intro h a ha cap hc hlt
    obtain ⟨-, hrefused, -⟩ := h a ha cap hc
    exact (mem_refused hu ha hc).mp (hrefused.mpr hlt)
  · intro h a ha cap hc
    have hcapped : ∀ x ∈ args, x.actor = a.actor → x.maxPending ≠ none := by
      intro x hx hxa hnone
      rw [EnqueueDb.cap, ← hu x hx a ha hxa, hnone] at hc
      cases hc
    have hle : db.unsharedRows args a.actor ≤ db.ownRows args a.actor :=
      unsharedRows_le_newRows hcapped fun p hp => hp
    have hrefused : a.actor ∈ db.refused args ↔
        cap < pendingCount db.jobs.rows a.actor + (db.ownRows args a.actor : Int) := by
      rw [mem_refused hu ha hc]
      exact ⟨fun hlt => by omega, h a ha cap hc⟩
    refine ⟨fun hn => ?_, hrefused, ?_⟩
    · obtain ⟨hbatch, hfast⟩ := EnqueueDb.pendingCount_le parse now hn
      rw [hrefused] at hn
      constructor <;> omega
    · rintro hn r hr hactor
      exact EnqueueDb.refused_unwritten (hactor ▸ hn) hr

instance (args : List EnqueueArgs) : Decidable (UniformCaps args) :=
  inferInstanceAs (Decidable (∀ a ∈ args, ∀ b ∈ args, a.actor = b.actor → a.maxPending = b.maxPending))

def oneWaiting : EnqueueDb where
  jobs :=
    { rows := [{ id := 1, actor := "mail", idempotencyKey := some "welcome" }]
      ids := List.pairwise_singleton _ _, singletons := List.pairwise_singleton _ _
      pairs := List.pairwise_singleton _ _ }
  maxPending _ := none
  batches _ := none

def retriedMail : List EnqueueArgs :=
  [{ id := 2, actor := "mail", maxPending := some 2, idempotencyKey := some "welcome" },
    { id := 3, actor := "mail", maxPending := some 2, idempotencyKey := some "invoice" },
    { id := 4, actor := "mail", maxPending := some 2, idempotencyKey := some "invoice" },
    { id := 5, actor := "report" }]

theorem cap_partition_exact_retriedMail :
    pendingCount (oneWaiting.enqueueBatch (fun _ => none) 0 true retriedMail).jobs "mail" = 2 ∧
      CapPartitionExact (fun _ => none) oneWaiting 0 retriedMail := by
  have hall : ∀ a ∈ retriedMail, ∀ cap ∈ oneWaiting.cap a,
      cap < pendingCount oneWaiting.jobs.rows a.actor +
        (oneWaiting.ownRows retriedMail a.actor : Int) →
      cap < pendingCount oneWaiting.jobs.rows a.actor +
        (oneWaiting.unsharedRows retriedMail a.actor : Int) := by decide
  exact ⟨by decide, (cap_partition_exact_iff (by decide)).mpr hall⟩

def sharedPair : List EnqueueArgs :=
  [{ id := 2, actor := "report", maxPending := some 1, idempotencyKey := some "daily" },
    { id := 3, actor := "report", maxPending := some 1 },
    { id := 4, actor := "mail", maxPending := some 1, idempotencyKey := some "daily" },
    { id := 5, actor := "mail", maxPending := some 1 }]

def noJobs : EnqueueDb where
  jobs := ⟨[], List.Pairwise.nil, List.Pairwise.nil, List.Pairwise.nil⟩
  maxPending _ := none
  batches _ := none

theorem sharedPair_exceeds_cap : UniformCaps sharedPair ∧ noJobs.refused sharedPair = ["report"] ∧
      pendingCount (noJobs.enqueueBatch (fun _ => none) 0 true sharedPair).jobs "mail" = 2 ∧
      ¬ CapPartitionExact (fun _ => none) noJobs 0 sharedPair := by
  refine ⟨by decide, by decide, by decide, fun h => ?_⟩
  obtain ⟨hle, -⟩ := h { id := 5, actor := "mail", maxPending := some 1 } (by decide) 1 rfl
  exact absurd (hle (by decide)).1 (by decide)

end TaskQ.Bulk
