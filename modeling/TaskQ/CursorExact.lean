import Mathlib.Data.List.Dedup
import Mathlib.Data.List.Lex
import Mathlib.Data.Prod.Lex
import Mathlib.Data.List.ReduceOption
import TaskQ.Cursor
import TaskQ.Keyset

namespace TaskQ.Cursor
open List Function Option Column SortColumn JobOrdering

def Column.kind : Column → ColumnKind
  | .id => .uuid
  | .priority => .int
  | .scheduledAt | .createdAt | .finishedAt => .ts

def Column.nullable : Column → Bool
  | .finishedAt => true
  | _ => false

/-- An ordering that describes the columns of `jobs` as they are and ends its ties with `id`. -/
structure JobOrdering.Pageable (o : JobOrdering) : Prop where
  kind : ∀ c ∈ o.columns, c.kind = c.column.kind
  nullable : ∀ c ∈ o.columns, c.nullable = c.column.nullable
  tiebreak : ∃ c ∈ o.columns, c.column = .id

lemma orderings_pageable (f : JobSortField) : (orderings f).Pageable := by
  cases f <;> exact ⟨by decide, by decide, by decide⟩

def CursorValue.rank : CursorValue → Int
  | .int n => n
  | .ts t => t
  | .uuid u => u
  | .text _ => 0

def SortColumn.rank (c : SortColumn) : Option CursorValue → Int ×ₗ Int
  | none => toLex (1, 0)
  | some v => toLex (0, if c.descending then -v.rank else v.rank)

def key (cols : List SortColumn) (r : Row) : List (Int ×ₗ Int) :=
  cols.map fun c => c.rank (c.column.read r)

lemma key_cons (c : SortColumn) (cols : List SortColumn) (r : Row) :
    key (c :: cols) r = c.rank (c.column.read r) :: key cols r := rfl

@[simp] lemma SortColumn.rank_some_lt {c : SortColumn} {a b : CursorValue} :
    c.rank (some a) < c.rank (some b) ↔
      if c.descending then b.rank < a.rank else a.rank < b.rank := by
  cases h : c.descending <;> simp [rank, h, Prod.Lex.toLex_lt_toLex]

@[simp] lemma SortColumn.rank_some_lt_none {c : SortColumn} {a : CursorValue} :
    c.rank (some a) < c.rank none := by
  simp [rank, Prod.Lex.toLex_lt_toLex]

@[simp] lemma SortColumn.rank_some_ne_none {c : SortColumn} {a : CursorValue} :
    c.rank (some a) ≠ c.rank none :=
  rank_some_lt_none.ne

@[simp] lemma SortColumn.rank_some_inj {c : SortColumn} {a b : CursorValue} :
    c.rank (some a) = c.rank (some b) ↔ a.rank = b.rank := by
  cases h : c.descending <;> simp [rank, h]

section
variable {x : Column} {r s : Row} {a b : CursorValue}

lemma Column.nullable_of_read (h : x.read r = none) : x.nullable = true := by
  cases x <;> simp_all [Column.nullable, Column.read]

lemma Column.lt_eq (hr : x.read r = some a) (hs : x.read s = some b) :
    a.lt b = some (decide (a.rank < b.rank)) := by
  cases x <;> simp only [Column.read, some.injEq, map_eq_some_iff] at hr hs
  case priority =>
    subst hr hs
    rfl
  case finishedAt =>
    obtain ⟨t, -, rfl⟩ := hr
    obtain ⟨u, -, rfl⟩ := hs
    simp [CursorValue.lt, CursorValue.rank]
  all_goals
    subst hr hs
    simp [CursorValue.lt, CursorValue.rank]

lemma Column.rank_inj (hr : x.read r = some a) (hs : x.read s = some b) :
    a.rank = b.rank ↔ a = b := by
  cases x <;> simp only [Column.read, some.injEq, map_eq_some_iff] at hr hs
  case finishedAt =>
    obtain ⟨t, -, rfl⟩ := hr
    obtain ⟨u, -, rfl⟩ := hs
    simp [CursorValue.rank, Int.natCast_inj]
  all_goals
    subst hr hs
    simp [CursorValue.rank, Int.natCast_inj]

end

lemma compareKeys_eq (cols : List SortColumn) (r s : Row) :
    compareKeys cols (cols.map fun c => c.column.read r) (cols.map fun c => c.column.read s) =
      some (if key cols r < key cols s then -1 else if key cols s < key cols r then 1 else 0) := by
  induction cols with
  | nil => simp [compareKeys, key]
  | cons c cols ih =>
    simp only [map_cons, compareKeys, ih, key_cons, cons_lt_cons_iff]
    cases hr : c.column.read r with
    | none =>
      cases hs : c.column.read s with
      | none => simp
      | some b => simp [rank_some_lt_none.not_gt, rank_some_ne_none.symm]
    | some a =>
      cases hs : c.column.read s with
      | none => simp
      | some b =>
        simp only [lt_eq hr hs, lt_eq hs hr, rank_some_lt, rank_some_inj]
        rcases lt_trichotomy a.rank b.rank with h | h | h
        · cases c.descending <;> simp [h, h.not_gt, h.ne]
        · cases c.descending <;> simp [h]
        · cases c.descending <;> simp [h, h.not_gt, h.ne']

def Past (cols : List SortColumn) (forward : Bool) (s r : Row) : Prop :=
  if forward then key cols s < key cols r else key cols r < key cols s

instance (cols : List SortColumn) (forward : Bool) : DecidableRel (Past cols forward) :=
  fun _ _ => inferInstanceAs (Decidable (if forward then _ else _))

lemma Past.asymm (h : Past cols forward s r) : ¬ Past cols forward r s := by
  cases forward <;> exact lt_asymm h

lemma past_false : Past cols false s r ↔ Past cols true r s := Iff.rfl

def SortColumn.past (c : SortColumn) (forward : Bool) (y x : Option CursorValue) : Prop :=
  if forward then c.rank y < c.rank x else c.rank x < c.rank y

lemma past_nil : ¬ Past [] forward s r := by
  cases forward <;> simp [Past, key]

lemma past_cons : Past (c :: cols) forward s r ↔
    c.past forward (c.column.read s) (c.column.read r) ∨
      c.column.read s = c.column.read r ∧ Past cols forward s r := by
  have heq : c.rank (c.column.read s) = c.rank (c.column.read r) ↔
      c.column.read s = c.column.read r := by
    cases hs : c.column.read s with
    | none => cases hr : c.column.read r <;> simp [rank_some_ne_none.symm]
    | some b =>
      cases hr : c.column.read r with
      | none => simp
      | some a => simp [rank_inj hs hr]
  cases forward with
  | true => simp [Past, past, key_cons, cons_lt_cons_iff, heq]
  | false => simp [Past, past, key_cons, cons_lt_cons_iff, eq_comm, ← heq]

lemma orderBySql_cons (c : SortColumn) (cols : List SortColumn) (forward : Bool) :
    (mk (c :: cols)).orderBySql forward =
      { column := c.column, descending := c.descending == forward
        nullsFirst := if c.nullable then some (!forward) else none } ::
        (mk cols).orderBySql forward := rfl

lemma orderLe_iff (hn : ∀ c ∈ cols, c.nullable = c.column.nullable) :
    orderLe ((mk cols).orderBySql forward) r s = true ↔ ¬ Past cols forward s r := by
  induction cols with
  | nil => simp [orderLe, orderBySql, past_nil]
  | cons c cols ih =>
    have ih := ih fun c hc => hn c (mem_cons_of_mem _ hc)
    have hc := hn c mem_cons_self
    rw [orderBySql_cons, orderLe, past_cons, past]
    cases hr : c.column.read r with
    | none =>
      -- only a nullable column has a NULL, and its term says where NULLs go
      have hnull := hc.trans (nullable_of_read hr)
      cases hs : c.column.read s with
      | none => simp [OrderTerm.cmp, ih]
      | some b => cases forward <;>
          simp [OrderTerm.cmp, hnull, rank_some_lt_none.not_gt]
    | some a =>
      cases hs : c.column.read s with
      | none =>
        have hnull := hc.trans (nullable_of_read hs)
        cases forward <;> simp [OrderTerm.cmp, hnull, rank_some_lt_none.not_gt]
      | some b =>
        simp only [OrderTerm.cmp, lt_eq hr hs, lt_eq hs hr, rank_some_lt,
          some.injEq, decide_eq_true_eq, ← rank_inj hs hr]
        rcases lt_trichotomy a.rank b.rank with h | h | h
        · cases forward <;> cases c.descending <;> simp [h, h.not_gt, h.ne']
        · cases forward <;> cases c.descending <;> simp [h, ih]
        · cases forward <;> cases c.descending <;> simp [h, h.not_gt, h.ne]

@[simp] lemma Truth.and_eq_true {p q : Truth} :
    p.and q = some true ↔ p = some true ∧ q = some true := by
  rcases p with _ | _ | _ <;> rcases q with _ | _ | _ <;> simp [Truth.and]

@[simp] lemma Truth.or_eq_true {p q : Truth} :
    p.or q = some true ↔ p = some true ∨ q = some true := by
  rcases p with _ | _ | _ <;> rcases q with _ | _ | _ <;> simp [Truth.or]

section
variable {row : Column → Option CursorValue} {bind : Nat → Option CursorValue}

lemma eval_conj {l : List Pred} (row : Column → Option CursorValue)
    (bind : Nat → Option CursorValue) (hl : l ≠ []) :
    (Pred.conj l).eval row bind = some true ↔ ∀ p ∈ l, p.eval row bind = some true := by
  induction l with
  | nil => exact absurd rfl hl
  | cons p l ih =>
    cases l with
    | nil => simp [Pred.conj]
    | cons q l => simp [Pred.conj, Pred.eval, ih]

lemma eval_disj {l : List Pred} :
    (Pred.disj l).eval row bind = some true ↔ ∃ p ∈ l, p.eval row bind = some true := by
  induction l with
  | nil => simp [Pred.disj, Pred.eval]
  | cons p l ih =>
    cases l with
    | nil => simp [Pred.disj]
    | cons q l => simp [Pred.disj, Pred.eval, ih]

def BoundSlot (bind : Nat → Option CursorValue) (s : Option Nat) (v : Option CursorValue) : Prop :=
  s.isNone = v.isNone ∧ s.bind bind = v

lemma slotsFrom_bound (values : List (Option CursorValue)) (first : Nat)
    (before : List CursorValue) :
    List.Forall₂ (BoundSlot (binding first (before ++ values.reduceOption)))
      (slotsFrom (first + before.length) values) values := by
  induction values generalizing before with
  | nil => exact .nil
  | cons v values ih =>
    cases v with
    | none => exact .cons ⟨rfl, rfl⟩ (by simpa using ih before)
    | some a =>
      refine .cons ⟨rfl, ?_⟩ (by simpa [Nat.add_assoc] using ih (before ++ [a]))
      simp [binding]

end

section
variable {bind : Nat → Option CursorValue} {c : SortColumn} {cols : List SortColumn}
  {forward : Bool} {r s : Row} {slot : Option Nat} {slots : List (Option Nat)} {a b : CursorValue}

lemma holds_iff (forward : Bool) (hr : c.column.read r = some a) (hs : c.column.read s = some b) :
    (Op.past (c.descending == forward)).holds a b = true ↔ c.past forward (some b) (some a) := by
  cases hd : c.descending <;> cases forward <;>
    simp [Op.past, Op.holds, past, hd, lt_eq hr hs, lt_eq hs hr]

lemma eval_equalityCmp (hb : BoundSlot bind slot (c.column.read s)) :
    (equalityCmp c slot).eval (Column.read r) bind = some true ↔
      c.column.read s = c.column.read r := by
  obtain ⟨hnone, hbind⟩ := hb
  cases slot with
  | none =>
    have hs := hbind.symm
    rw [hs, equalityCmp, isNone_none, if_pos rfl, Pred.eval]
    cases c.column.read r <;> simp
  | some k =>
    rw [equalityCmp, if_neg (by simp)]
    cases hs : c.column.read s with
    | none => simp [hs] at hnone
    | some b =>
      cases hr : c.column.read r with
      | none => simp [Pred.eval, hr]
      | some a => simp [Pred.eval, hr, hbind, hs, eq_comm]

lemma eval_cmp_one (forward : Bool) (r : Row) (hs : c.column.read s = some b)
    (hbind : slot.bind bind = some b) :
    (Pred.cmp [c] [slot] (.past (c.descending == forward))).eval (Column.read r) bind = some true ↔
      ∃ a, c.column.read r = some a ∧ c.past forward (some b) (some a) := by
  cases hr : c.column.read r with
  | none => simp [Pred.eval, hr, hbind, rowCmp]
  | some a =>
    have hne : c.past forward (some b) (some a) → a ≠ b := by
      rintro h rfl
      cases forward <;> simp [past] at h
    by_cases hab : a = b
    · simpa [Pred.eval, hr, hbind, rowCmp, hab] using fun h => hne (hab ▸ h) hab
    · simp [Pred.eval, hr, hbind, rowCmp, hab, ← holds_iff forward hr hs]

lemma strictCmp_eval (forward : Bool) (r : Row) (hc : c.nullable = c.column.nullable)
    (hb : BoundSlot bind slot (c.column.read s)) :
    (∃ t, strictCmp c (c.column.read s) slot (c.descending == forward) forward = some t ∧
      t.eval (Column.read r) bind = some true) ↔
      c.past forward (c.column.read s) (c.column.read r) := by
  obtain ⟨-, hbind⟩ := hb
  cases hs : c.column.read s with
  | none =>
    -- a NULL seam: nothing follows it forwards, every value precedes it
    have hnull := hc.trans (nullable_of_read hs)
    cases hr : c.column.read r <;> cases forward <;>
      simp [strictCmp, hnull, Pred.eval, hr, past, rank_some_lt_none.not_gt]
  | some b =>
    rw [hs] at hbind
    have hone := eval_cmp_one forward r hs hbind
    simp only [strictCmp, isNone_some, Bool.and_false, Bool.false_eq_true, if_false]
    generalize Pred.cmp [c] [slot] (.past (c.descending == forward)) = comparison at hone ⊢
    cases hr : c.column.read r with
    | none =>
      have hnull := hc.trans (nullable_of_read hr)
      cases forward <;> simp [hnull, Pred.eval, hr, past, hone, rank_some_lt_none.not_gt]
    | some a =>
      by_cases hw : c.nullable && forward
      · simp [hw, Pred.eval, hr, hone]
      · simp [hw, hr, hone]

lemma lexTerms_eval {equalities : List Pred} (hn : ∀ c ∈ cols, c.nullable = c.column.nullable)
    (hb : List.Forall₂ (BoundSlot bind) slots (cols.map fun c => c.column.read s)) :
    (∃ t ∈ lexTerms forward equalities cols (cols.map fun c => c.column.read s) slots,
      t.eval (Column.read r) bind = some true) ↔
      (∀ e ∈ equalities, e.eval (Column.read r) bind = some true) ∧ Past cols forward s r := by
  induction cols generalizing equalities slots with
  | nil => simp [lexTerms, past_nil]
  | cons c cols ih =>
    obtain ⟨slot, slots, hslot, hbs, rfl⟩ := forall₂_cons_right_iff.mp hb
    have ih := @ih slots (equalities ++ [equalityCmp c slot])
      (fun c hc => hn c (mem_cons_of_mem _ hc)) hbs
    have hstrict := strictCmp_eval forward r (hn c mem_cons_self) hslot
    rw [forall_mem_append, forall_mem_singleton, eval_equalityCmp hslot] at ih
    rw [past_cons, ← hstrict]
    simp only [map_cons, lexTerms]
    cases strictCmp c (c.column.read s) slot (c.descending == forward) forward with
    | none =>
      rw [ih]
      simp [and_assoc]
    | some strict =>
      have hconj := eval_conj (Column.read r) bind (concat_ne_nil strict equalities)
      rw [forall_mem_append, forall_mem_singleton] at hconj
      simp only [exists_mem_cons_iff, hconj, ih, and_assoc, ← and_or_left,
        some.injEq, exists_eq_left']

lemma rowCmp_cons {xs ys : List (Option CursorValue)} (hr : c.column.read r = some a)
    (hs : c.column.read s = some b) (hd : (c.descending == forward) = d)
    (ih : rowCmp (.past d) xs ys = some true ↔ Past cols forward s r) :
    rowCmp (.past d) (some a :: xs) (some b :: ys) = some true ↔ Past (c :: cols) forward s r := by
  have hold := holds_iff forward hr hs
  rw [hd] at hold
  rw [past_cons, hr, hs, rowCmp]
  by_cases hab : a = b
  · subst hab
    have hirr : ¬ c.past forward (some a) (some a) := by cases forward <;> simp [past]
    simp [hirr, ih]
  · rw [if_neg hab, ← hold]
    simp [Ne.symm hab]

lemma rowCmp_eval (hn : ∀ c ∈ cols, c.column.nullable = false)
    (hd : ∀ c ∈ cols, (c.descending == forward) = d) :
    rowCmp (.past d) (cols.map fun c => c.column.read r) (cols.map fun c => c.column.read s)
      = some true ↔ Past cols forward s r := by
  induction cols with
  | nil => simp [rowCmp, past_nil]
  | cons c cols ih =>
    have hread (r : Row) : ∃ a, c.column.read r = some a := by
      refine ne_none_iff_exists'.mp fun h => ?_
      simpa [hn c mem_cons_self] using nullable_of_read h
    obtain ⟨a, ha⟩ := hread r
    obtain ⟨b, hb⟩ := hread s
    rw [map_cons, map_cons, ha, hb]
    exact rowCmp_cons ha hb (hd c mem_cons_self)
      (ih (fun c hc => hn c (mem_cons_of_mem _ hc)) fun c hc =>
        hd c (mem_cons_of_mem _ hc))

lemma rowWiseSql_eval (hn : ∀ c ∈ cols, c.nullable = c.column.nullable)
    (htail : cols.tail.any (·.nullable) = false) (hd : ∀ c ∈ cols, (c.descending == forward) = d)
    (hb : List.Forall₂ (BoundSlot bind) slots (cols.map fun c => c.column.read s))
    (hne : cols ≠ []) :
    (rowWiseSql cols (cols.map fun c => c.column.read s) slots forward true).eval
      (Column.read r) bind = some true ↔ Past cols forward s r := by
  cases cols with
  | nil => exact absurd rfl hne
  | cons lead rest =>
    obtain ⟨slot, slots, hslot, hbs, rfl⟩ := forall₂_cons_right_iff.mp hb
    have hrest : ∀ c ∈ rest, c.column.nullable = false := by
      intro c hc
      rw [← hn c (mem_cons_of_mem _ hc)]
      exact Bool.eq_false_iff.mpr fun h =>
        Bool.eq_false_iff.mp htail (any_eq_true.mpr ⟨c, hc, h⟩)
    have hbinds : slots.map (·.bind bind) = rest.map fun c => c.column.read s :=
      forall₂_eq_eq_eq ▸ (forall₂_map_left_iff.mpr (hbs.imp fun _ _ h => h.2))
    have hcmp := rowCmp_eval (r := r) (s := s) hrest fun c hc => hd c (mem_cons_of_mem _ hc)
    have hlead := hd lead mem_cons_self
    simp only [rowWiseSql, map_cons, head?_cons, join_some, tail_cons, hlead, past_cons]
    cases hs : lead.column.read s with
    | none =>
      have hnull := (hn lead mem_cons_self).trans (nullable_of_read hs)
      cases hr : lead.column.read r <;> cases forward <;>
        simp [hnull, Pred.eval, hr, hbinds, hcmp, past, rank_some_lt_none.not_gt]
    | some b =>
      have hslot' := hslot.2.trans hs
      cases hr : lead.column.read r with
      | none =>
        have hnull := (hn lead mem_cons_self).trans (nullable_of_read hr)
        cases forward <;> simp [hnull, Pred.eval, hr, hslot', rowCmp, past,
          rank_some_lt_none.not_gt]
      | some a =>
        have hwhole := rowCmp_cons hr hs hlead hcmp
        rw [past_cons, hr, hs] at hwhole
        by_cases hw : lead.nullable && forward
        · simp [hw, Pred.eval, hr, hslot', hbinds, hwhole]
        · simp [hw, Pred.eval, hr, hslot', hbinds, hwhole]

end

variable {o : JobOrdering}

lemma JobOrdering.Pageable.isAfter_iff (h : o.Pageable) :
    o.isAfter (o.values s) first forward r = some true ↔ Past o.columns forward s r := by
  have hb := slotsFrom_bound (o.values s) first []
  have hne : o.columns ≠ [] := by
    obtain ⟨c, hc, -⟩ := h.tiebreak
    exact ne_nil_of_mem hc
  simp only [isAfter, sqlAfter]
  split
  case isTrue hsame =>
    rw [Bool.and_eq_true, decide_eq_true_eq, Bool.not_eq_true'] at hsame
    obtain ⟨d, hd⟩ := length_eq_one_iff.mp hsame.1
    refine rowWiseSql_eval (d := d) h.nullable hsame.2 (fun c hc => ?_) hb hne
    exact mem_singleton.mp (hd ▸ mem_dedup.mpr (mem_map_of_mem hc))
  case isFalse =>
    rw [lexicographicSql, Pred.eval, eval_disj]
    simp only [List.mem_map, exists_exists_and_eq_and, Pred.eval]
    exact (lexTerms_eval h.nullable hb).trans (and_iff_right (by simp))

lemma splitBar_intercalate (parts : List (List Char)) (hp : ∀ p ∈ parts, '|' ∉ p)
    (hne : parts ≠ []) : splitBar (parts.length - 1) (List.intercalate ['|'] parts) = parts := by
  induction parts with
  | nil => exact absurd rfl hne
  | cons p parts ih =>
    cases parts with
    | nil => simp [splitBar, intercalate]
    | cons q parts =>
      have hplain : ∀ x ∈ p, decide (x ≠ '|') = true := fun x hx =>
        decide_eq_true fun h => hp p mem_cons_self (h ▸ hx)
      have ih := ih (fun p h => hp p (mem_cons_of_mem _ h)) (cons_ne_nil _ _)
      have hjoin : intercalate ['|'] (p :: q :: parts) =
          p ++ '|' :: intercalate ['|'] (q :: parts) := by
        simp [intercalate]
      rw [hjoin, length_cons, length_cons, Nat.add_sub_cancel, splitBar,
        dropWhile_append_of_pos hplain, takeWhile_append_of_pos hplain]
      simpa using ih

lemma format_plain (cx : Codec) (x : Column) (r : Row) : '|' ∉ (format cx (x.read r)).toList := by
  cases x with
  | finishedAt =>
    cases h : r.finishedAt with
    | none => simp [Column.read, h, format]
    | some t => simpa [Column.read, h, format] using (cx.isoformat_plain t).1
  | id => exact (cx.uuidStr_plain _).1
  | priority => exact (cx.intStr_plain _).1
  | scheduledAt | createdAt => exact (cx.isoformat_plain _).1

lemma SortColumn.parse_format (cx : Codec) {c : SortColumn} (r : Row)
    (hk : c.kind = c.column.kind) (hn : c.nullable = c.column.nullable) :
    c.parse cx (format cx (c.column.read r)) = some (c.column.read r) := by
  cases hx : c.column with
  | finishedAt =>
    cases h : r.finishedAt with
    | none => simp [Column.read, h, format, parse, hn, hx, Column.nullable]
    | some t =>
      simp [Column.read, h, format, parse, hk, hx, Column.kind,
        (cx.isoformat_plain t).2, cx.fromisoformat_isoformat]
  | id =>
    simp [Column.read, format, parse, hk, hx, Column.kind, (cx.uuidStr_plain _).2, cx.uuid_uuidStr]
  | priority =>
    have hbound := r.smallint
    have hint4 : -2147483648 ≤ r.priority ∧ r.priority ≤ 2147483647 := by omega
    simp [Column.read, format, parse, hk, hx, Column.kind, (cx.intStr_plain _).2,
      parseInt4, cx.int_intStr, hint4]
  | scheduledAt | createdAt =>
    simp [Column.read, format, parse, hk, hx, Column.kind, (cx.isoformat_plain _).2,
      cx.fromisoformat_isoformat]

lemma parseAll_format (cx : Codec) {cols : List SortColumn} (r : Row)
    (hk : ∀ c ∈ cols, c.kind = c.column.kind) (hn : ∀ c ∈ cols, c.nullable = c.column.nullable) :
    parseAll cx cols (cols.map fun c => format cx (c.column.read r)) =
      some (cols.map fun c => c.column.read r) := by
  induction cols with
  | nil => rfl
  | cons c cols ih =>
    have hc := c.parse_format cx r (hk c mem_cons_self) (hn c mem_cons_self)
    have ih := ih (fun c h => hk c (mem_cons_of_mem _ h)) fun c h =>
      hn c (mem_cons_of_mem _ h)
    simp [parseAll, hc, ih]

lemma JobOrdering.Pageable.decode_encode (h : o.Pageable) (cx : Codec)
    (r : Row) : o.decode cx (o.encode cx r) = some (o.values r) := by
  have hne : o.columns ≠ [] := by
    obtain ⟨c, hc, -⟩ := h.tiebreak
    exact ne_nil_of_mem hc
  have hsplit := splitBar_intercalate
    (o.columns.map fun c => (format cx (c.column.read r)).toList)
    (by simpa using fun (c : SortColumn) _ => format_plain cx c.column r) (by simpa using hne)
  rw [length_map] at hsplit
  rw [decode, encode, String.toList_intercalate, values, List.map_map, List.map_map]
  have hbar : "|".toList = ['|'] := rfl
  simp only [comp_def, hbar]
  rw [hsplit, List.map_map]
  simpa [comp_def] using parseAll_format cx r h.kind h.nullable

/-! Paging. -/

section
variable {o : JobOrdering} {rows : List Row} {n first : Nat}

lemma JobOrdering.Pageable.eq_of_not_past (h : o.Pageable) (hids : (rows.map Row.id).Nodup)
    (hr : r ∈ rows) (hs : s ∈ rows) (hrs : ¬ Past o.columns forward r s)
    (hsr : ¬ Past o.columns forward s r) : r = s := by
  have hkey : key o.columns r = key o.columns s := by
    cases forward
    · exact le_antisymm (not_lt.mp hrs) (not_lt.mp hsr)
    · exact le_antisymm (not_lt.mp hsr) (not_lt.mp hrs)
  obtain ⟨c, hc, hid⟩ := h.tiebreak
  have hrank := map_inj_left.mp hkey c hc
  rw [hid] at hrank
  have hval := (rank_inj (x := .id) (r := r) (s := s) rfl rfl).mp
    (rank_some_inj.mp hrank)
  exact inj_on_of_nodup_map hids hr hs (CursorValue.uuid.inj hval)

def JobOrdering.le (o : JobOrdering) (forward : Bool) (r s : Row) : Prop :=
  orderLe (o.orderBySql forward) r s = true

instance (o : JobOrdering) (forward : Bool) : DecidableRel (o.le forward) :=
  fun _ _ => inferInstanceAs (Decidable (_ = true))

section
variable (h : o.Pageable)
include h

namespace JobOrdering.Pageable

lemma le_iff : o.le forward r s ↔ ¬ Past o.columns forward s r :=
  orderLe_iff h.nullable

lemma sorted (rows : List Row) :
    (rows.insertionSort (o.le forward)).Pairwise (o.le forward) := by
  have : Std.Total (o.le forward) := by
    refine ⟨fun r s => ?_⟩
    rw [h.le_iff, h.le_iff, ← not_and_or]
    exact fun hp => hp.1.asymm hp.2
  have : IsTrans Row (o.le forward) := by
    refine ⟨fun r s t hrs hst => ?_⟩
    rw [h.le_iff] at *
    cases forward
    · exact not_lt.mpr ((not_lt.mp hst).trans (not_lt.mp hrs))
    · exact not_lt.mpr ((not_lt.mp hrs).trans (not_lt.mp hst))
  exact pairwise_insertionSort _ _

lemma sort_eq (hids : (rows.map Row.id).Nodup)
    {l : List Row} (hp : l.Perm rows) (hs : l.Pairwise (Past o.columns forward)) :
    rows.insertionSort (o.le forward) = l := by
  apply Keyset.insertionSort_eq hp hs (fun _ _ => Past.asymm) ?_ (h.sorted rows)
  intro r hr s hs
  rw [h.le_iff]
  constructor
  · intro hsr
    by_cases hrs : Past o.columns forward r s
    · exact .inr hrs
    · exact .inl (h.eq_of_not_past hids hr hs hrs hsr)
  · rintro (rfl | hrs)
    · exact fun hrr => hrr.asymm hrr
    · exact hrs.asymm

lemma sort_pairwise (forward : Bool) (hids : (rows.map Row.id).Nodup) :
    (rows.insertionSort (o.le forward)).Pairwise (Past o.columns forward) := by
  have hperm := perm_insertionSort (o.le forward) rows
  have hnodup := hperm.nodup_iff.mpr hids.of_map
  refine ((h.sorted rows).and hnodup).imp_of_mem fun hr hs hle => ?_
  by_contra hrs
  exact hle.2 (h.eq_of_not_past hids (hperm.subset hr) (hperm.subset hs) hrs (h.le_iff.mp hle.1))

lemma sort_filter (forward : Bool)
    (hids : (rows.map Row.id).Nodup) (p : Row → Bool) :
    (rows.filter p).insertionSort (o.le forward) =
      (rows.insertionSort (o.le forward)).filter p := by
  have hids' : ((rows.filter p).map Row.id).Nodup := hids.sublist (filter_sublist.map _)
  exact h.sort_eq hids' ((perm_insertionSort _ rows).filter p)
    ((h.sort_pairwise forward hids).filter p)

end JobOrdering.Pageable

end

def JobOrdering.next (o : JobOrdering) (rows : List Row) (n : Nat) (forward : Bool)
    (c : Option Row) : List Row :=
  let sorted := rows.insertionSort (o.le forward)
  match c with
  | none => sorted.take n
  | some s => (sorted.filter fun r => decide (Past o.columns forward s r)).take n

lemma JobOrdering.Pageable.page_eq (h : o.Pageable) (hids : (rows.map Row.id).Nodup)
    (cx : Codec) (c : Option Row) :
    o.page cx rows n first forward (c.map (o.encode cx)) = some (o.next rows n forward c) := by
  cases c with
  | none => rfl
  | some s =>
    have hkept : (rows.filter fun r => o.isAfter (o.values s) first forward r == some true) =
        rows.filter fun r => decide (Past o.columns forward s r) := by
      refine filter_congr fun r _ => ?_
      rw [Bool.eq_iff_iff, beq_iff_eq, decide_eq_true_eq, h.isAfter_iff]
    have hsort := h.sort_filter forward hids
      fun r => decide (Past o.columns forward s r)
    simp only [page, selected, map_some, h.decode_encode, hkept, next]
    exact congrArg (fun l => some (l.take n)) hsort

lemma JobOrdering.Pageable.pages_eq (h : o.Pageable) (hids : (rows.map Row.id).Nodup)
    (cx : Codec) (k : Nat) (c : Option Row) :
    o.pages cx rows n first forward k (c.map (o.encode cx)) =
      some (Keyset.pages (o.next rows n forward) k c) := by
  induction k generalizing c with
  | zero => rfl
  | succ k ih =>
    rw [pages, h.page_eq hids, Keyset.pages]
    cases hl : (o.next rows n forward c).getLast? with
    | none => simp [hl]
    | some r =>
      have ih := ih (some r)
      rw [map_some] at ih
      simp [hl, ih]

end

lemma JobOrdering.compareRows_eq (o : JobOrdering) (r s : Row) :
    o.compareRows r s = some (if Past o.columns true r s then -1
      else if Past o.columns true s r then 1 else 0) :=
  compareKeys_eq o.columns r s

lemma JobOrdering.compareRows_neg : o.compareRows r s = some (-1) ↔ Past o.columns true r s := by
  rw [compareRows_eq]
  by_cases hrs : Past o.columns true r s
  · simp [hrs]
  · by_cases hsr : Past o.columns true s r <;> simp [hrs, hsr]

/-- `sql_after` is the order of `compare`, and the pages, forward and backward, are the rows in that
order, each once. -/
theorem keyset_pagination_exact (cx : Codec) (f : JobSortField) (rows : List Row)
    (hids : (rows.map Row.id).Nodup) (n : Nat) (hn : 1 ≤ n) (first : Nat) :
    (∀ r s, ∃ d, (orderings f).compareRows r s = some d ∧
      ((orderings f).isAfter ((orderings f).values s) first true r = some true ↔ 0 < d) ∧
      ((orderings f).isAfter ((orderings f).values s) first false r = some true ↔ d < 0)) ∧
    ∃ sorted : List Row, sorted.Perm rows ∧
      sorted.Pairwise (fun r s => (orderings f).compareRows r s = some (-1)) ∧
      (∀ k, ∃ ps, (orderings f).pages cx rows n first true k none = some ps ∧
        ps.flatten = sorted.take (n * k) ∧ (rows.length ≤ k → ps.flatten = sorted)) ∧
      ∀ before c after, sorted = before ++ c :: after → ∀ k, ∃ ps,
        (orderings f).pages cx rows n first false k (some ((orderings f).encode cx c)) = some ps ∧
        ps.flatten = before.reverse.take (n * k) ∧
        (rows.length ≤ k → ps.flatten = before.reverse) := by
  have hf := orderings_pageable f
  have hall (l : List Row) (k : Nat) (hl : l.length ≤ rows.length) (hk : rows.length ≤ k) :
      l.take (n * k) = l :=
    take_of_length_le ((hl.trans hk).trans (Nat.le_mul_of_pos_left k hn))
  refine ⟨fun r s => ⟨_, (orderings f).compareRows_eq r s, ?_, ?_⟩, ?_⟩
  · rw [hf.isAfter_iff]
    by_cases hrs : Past (orderings f).columns true r s
    · simp [hrs, hrs.asymm]
    · by_cases hsr : Past (orderings f).columns true s r <;> simp [hrs, hsr]
  · rw [hf.isAfter_iff, past_false]
    by_cases hrs : Past (orderings f).columns true r s
    · simp [hrs]
    · by_cases hsr : Past (orderings f).columns true s r <;> simp [hrs, hsr]
  · have hperm := perm_insertionSort ((orderings f).le true) rows
    have hsorted := hf.sort_pairwise true hids
    refine ⟨_, hperm, hsorted.imp compareRows_neg.mpr, fun k => ?_, ?_⟩
    · have hflat := Keyset.flatten_pages ((orderings f).next rows n true) n k
        hsorted (fun _ _ => Past.asymm) rfl fun _ _ => rfl
      exact ⟨_, hf.pages_eq hids cx k none, hflat, fun hk =>
        hflat.trans (hall _ k hperm.length_eq.le hk)⟩
    · intro before c after heq k
      -- the backward scan sorts the same rows the other way round
      have hback : rows.insertionSort ((orderings f).le false) =
          (after.reverse ++ [c]) ++ before.reverse := by
        rw [hf.sort_eq hids (l := (rows.insertionSort ((orderings f).le true)).reverse)
          ((reverse_perm _).trans hperm) (pairwise_reverse.mpr hsorted), heq]
        simp
      have hpast := hf.sort_pairwise false hids
      rw [hback] at hpast
      have hflat := Keyset.flatten_pages_after ((orderings f).next rows n false) n k
        hpast (fun _ _ => Past.asymm)
        (getLast?_concat ..) fun r _ => by rw [← hback]; rfl
      have hlen : before.reverse.length ≤ rows.length := by
        have hl := hperm.length_eq
        rw [heq, length_append] at hl
        rw [length_reverse]
        omega
      exact ⟨_, hf.pages_eq hids cx k (some c), hflat, fun hk => hflat.trans (hall _ k hlen hk)⟩

def readNat (text : String) : Nat := Nat.ofDigitChars 10 text.toList 0

lemma readNat_toString (n : Nat) : readNat (toString n) = n := by
  rw [readNat, Nat.toString_eq_ofList_toDigits, String.toList_ofList, Nat.ofDigitChars_ten_toDigits]

lemma not_mem_toString (n : Nat) (hc : c.isDigit = false) : c ∉ (toString n).toList := by
  rw [Nat.toString_eq_ofList_toDigits, String.toList_ofList]
  intro h
  rw [Nat.isDigit_of_mem_toDigits (by decide) (by decide) h] at hc
  cases hc

lemma toString_plain (n : Nat) : '|' ∉ (toString n).toList ∧ toString n ≠ "" := by
  refine ⟨not_mem_toString n rfl, fun h => ?_⟩
  rw [Nat.toString_eq_ofList_toDigits, ← String.toList_inj, String.toList_ofList] at h
  exact Nat.toDigits_ne_nil h

def readInt (text : String) : Option Int :=
  match text.toList with
  | '-' :: l => some (-readNat (String.ofList l))
  | _ => some (readNat text)

lemma toList_negSucc (n : Nat) :
    (toString (Int.negSucc n)).toList = '-' :: (toString (n + 1)).toList :=
  String.toList_append

lemma readInt_toString (n : Int) : readInt (toString n) = some n := by
  cases n with
  | ofNat n =>
    change readInt (toString n) = _
    rw [readInt]
    split
    next l hl => exact absurd (hl ▸ mem_cons_self) (not_mem_toString n (by decide : '-'.isDigit = _))
    · rw [readNat_toString]
      rfl
  | negSucc n =>
    rw [readInt, toList_negSucc]
    simp only [String.ofList_toList, readNat_toString]
    rfl

lemma toString_int_plain (n : Int) : '|' ∉ (toString n).toList ∧ toString n ≠ "" := by
  cases n with
  | ofNat n => exact toString_plain n
  | negSucc n =>
    rw [ne_eq, ← String.toList_inj, toList_negSucc]
    simpa using (toString_plain (n + 1)).1

/-- Integers as `str` writes them; a timestamp and a UUID by the number that stands for it. -/
def Codec.decimal : Codec where
  intStr := toString
  int := readInt
  isoformat := toString
  fromisoformat text := some (readNat text)
  uuidStr := toString
  uuid text := some (readNat text)
  int_intStr := readInt_toString
  fromisoformat_isoformat t := congrArg some (readNat_toString t)
  uuid_uuidStr u := congrArg some (readNat_toString u)
  intStr_plain := toString_int_plain
  isoformat_plain := toString_plain
  uuidStr_plain := toString_plain

def finishedTies : List Row :=
  [{ id := 3 }, { id := 1, finishedAt := some 5 }, { id := 4 }, { id := 2, finishedAt := some 5 }]

theorem keyset_pagination_exact_finishedTies :
    (finishedTies.map Row.id).Nodup ∧ ∃ sorted : List Row, sorted.Perm finishedTies ∧
      ∀ k, ∃ ps, (orderings .finishedAtDesc).pages .decimal finishedTies 2 1 true k none = some ps ∧
        ps.flatten = sorted.take (2 * k) := by
  have hids : (finishedTies.map Row.id).Nodup := by decide
  obtain ⟨-, sorted, hperm, -, hpages, -⟩ :=
    keyset_pagination_exact .decimal .finishedAtDesc finishedTies hids 2 (by decide) 1
  refine ⟨hids, sorted, hperm, fun k => ?_⟩
  obtain ⟨ps, hps, hflat, -⟩ := hpages k
  exact ⟨ps, hps, hflat⟩

end TaskQ.Cursor
