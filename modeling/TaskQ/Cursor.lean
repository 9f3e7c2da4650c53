import TaskQ.Rows

namespace TaskQ.Cursor

inductive Column where
  | id | priority | scheduledAt | createdAt | finishedAt
  deriving DecidableEq

inductive ColumnKind where
  | int | text | ts | uuid
  deriving DecidableEq

/-- A value that is not NULL; a NULL is `none`. -/
inductive CursorValue where
  | int (n : Int)
  | text (s : String)
  | ts (t : Time)
  | uuid (u : Nat)
  deriving DecidableEq

structure Row where
  id : JobId
  priority : Int := 0
  scheduledAt : Time := 0
  createdAt : Time := 0
  finishedAt : Option Time := none
  smallint : -32768 ≤ priority ∧ priority ≤ 32767 := by decide

/-- `_ROW_READERS`. -/
def Column.read (r : Row) : Column → Option CursorValue
  | .id => some (.uuid r.id)
  | .priority => some (.int r.priority)
  | .scheduledAt => some (.ts r.scheduledAt)
  | .createdAt => some (.ts r.createdAt)
  | .finishedAt => r.finishedAt.map .ts

structure SortColumn where
  column : Column
  kind : ColumnKind
  descending : Bool
  nullable : Bool := false

structure JobOrdering where
  columns : List SortColumn

/-- `none` is the `TypeError` of two incomparable values. -/
def CursorValue.lt : CursorValue → CursorValue → Option Bool
  | .ts x, .ts y => some (decide (x < y))
  | .uuid x, .uuid y => some (decide (x < y))
  | .int x, .int y => some (decide (x < y))
  | .text x, .text y => some (decide (x < y))
  | _, _ => none

def JobOrdering.values (o : JobOrdering) (r : Row) : List (Option CursorValue) :=
  o.columns.map fun c => c.column.read r

def compareKeys : List SortColumn → List (Option CursorValue) → List (Option CursorValue) →
    Option Int
  | [], [], [] => some 0
  | c :: cols, x :: xs, y :: ys =>
    match x, y with
    | none, none => compareKeys cols xs ys
    | none, some _ => some 1
    | some _, none => some (-1)
    | some a, some b => do
      if ← a.lt b then return if c.descending then 1 else -1
      if ← b.lt a then return if c.descending then -1 else 1
      compareKeys cols xs ys
  -- `zip(strict=True)` raises
  | _, _, _ => none

def JobOrdering.compare (o : JobOrdering) (left right : List (Option CursorValue)) : Option Int :=
  compareKeys o.columns left right

def JobOrdering.compareRows (o : JobOrdering) (left right : Row) : Option Int :=
  o.compare (o.values left) (o.values right)

/-! The keyset predicate, as the expression whose text the code renders. -/

inductive Op where
  | lt | gt

inductive Pred where
  | empty
  | isNull (c : Column)
  | isNotNull (c : Column)
  | eq (c : SortColumn) (slot : Option Nat)
  | cmp (cols : List SortColumn) (slots : List (Option Nat)) (op : Op)
  | and (p q : Pred)
  | or (p q : Pred)
  | paren (p : Pred)

def Op.past (descending : Bool) : Op := if descending then .lt else .gt

def Pred.conj : List Pred → Pred
  | [] => .empty
  | [p] => p
  | p :: q :: ps => .and p (Pred.conj (q :: ps))

def Pred.disj : List Pred → Pred
  | [] => .empty
  | [p] => p
  | p :: q :: ps => .or p (Pred.disj (q :: ps))

def equalityCmp (c : SortColumn) (slot : Option Nat) : Pred :=
  if slot.isNone then .isNull c.column else .eq c slot

def strictCmp (c : SortColumn) (value : Option CursorValue) (slot : Option Nat)
    (descending forward : Bool) : Option Pred :=
  let op := Op.past descending
  if c.nullable && value.isNone then if forward then none else some (.isNotNull c.column)
  else if c.nullable && forward then
    some (.paren (.or (.isNull c.column) (.cmp [c] [slot] op)))
  else some (.cmp [c] [slot] op)

def rowWiseSql (columns : List SortColumn) (values : List (Option CursorValue))
    (slots : List (Option Nat)) (forward nullTail : Bool) : Pred :=
  match columns with
  | [] => .empty
  | lead :: rest =>
    let op := Op.past (lead.descending == forward)
    if lead.nullable && values.head?.join.isNone then
      -- the seam is inside the NULL range: only the later columns still discriminate
      let inside := Pred.paren (.and (.isNull lead.column) (.cmp rest slots.tail op))
      if forward then inside else .paren (.or inside (.isNotNull lead.column))
    else
      let whole := Pred.cmp columns slots op
      if lead.nullable && forward then
        if nullTail then .paren (.or (.isNull lead.column) whole) else whole
      else whole

/-- The terms `_lexicographic_sql` collects, with the equalities of the columns before. -/
def lexTerms (forward : Bool) :
    List Pred → List SortColumn → List (Option CursorValue) → List (Option Nat) → List Pred
  | equalities, c :: cols, v :: vs, s :: ss =>
    let rest := lexTerms forward (equalities ++ [equalityCmp c s]) cols vs ss
    match strictCmp c v s (c.descending == forward) forward with
    | some strict => .conj (equalities ++ [strict]) :: rest
    | none => rest
  | _, _, _, _ => []

def lexicographicSql (columns : List SortColumn) (values : List (Option CursorValue))
    (slots : List (Option Nat)) (forward : Bool) : Pred :=
  .paren (.disj ((lexTerms forward [] columns values slots).map .paren))

def slotsFrom : Nat → List (Option CursorValue) → List (Option Nat)
  | _, [] => []
  | k, none :: vs => none :: slotsFrom k vs
  | k, some _ :: vs => some k :: slotsFrom (k + 1) vs

/-- The predicate, and the parameters bound from `firstParam` on. -/
def JobOrdering.sqlAfter (o : JobOrdering) (values : List (Option CursorValue))
    (firstParam : Nat) (forward : Bool := true) (nullTail : Bool := true) :
    Pred × List CursorValue :=
  let slots := slotsFrom firstParam values
  let descending := o.columns.map fun c => c.descending == forward
  let sql :=
    if descending.dedup.length = 1 && !o.columns.tail.any (·.nullable) then
      rowWiseSql o.columns values slots forward nullTail
    else lexicographicSql o.columns values slots forward
  (sql, values.reduceOption)

/-! What the database makes of it: three-valued logic, with `none` for unknown. -/

abbrev Truth := Option Bool

def Truth.and : Truth → Truth → Truth
  | some false, _ | _, some false => some false
  | some true, some true => some true
  | _, _ => none

def Truth.or : Truth → Truth → Truth
  | some true, _ | _, some true => some true
  | some false, some false => some false
  | _, _ => none

def Op.holds (op : Op) (a b : CursorValue) : Bool :=
  match op with
  | .lt => a.lt b == some true
  | .gt => b.lt a == some true

/-- A row-wise comparison, decided at the first pair that differs and unknown after a NULL. -/
def rowCmp (op : Op) : List (Option CursorValue) → List (Option CursorValue) → Truth
  | some a :: xs, some b :: ys => if a = b then rowCmp op xs ys else some (op.holds a b)
  | [], [] => some false
  | _, _ => none

def Pred.eval (row : Column → Option CursorValue) (bind : Nat → Option CursorValue) : Pred → Truth
  | .empty => none
  | .isNull c => some (row c).isNone
  | .isNotNull c => some (row c).isSome
  | .eq c slot =>
    match row c.column, slot.bind bind with
    | some a, some b => some (decide (a = b))
    | _, _ => none
  | .cmp cols slots op => rowCmp op (cols.map fun c => row c.column) (slots.map (·.bind bind))
  | .and p q => (p.eval row bind).and (q.eval row bind)
  | .or p q => (p.eval row bind).or (q.eval row bind)
  | .paren p => p.eval row bind

def binding (firstParam : Nat) (params : List CursorValue) (k : Nat) : Option CursorValue :=
  if firstParam ≤ k then params[k - firstParam]? else none

structure OrderTerm where
  column : Column
  descending : Bool
  /-- `NULLS FIRST`, `NULLS LAST`, or neither written. -/
  nullsFirst : Option Bool

def JobOrdering.orderBySql (o : JobOrdering) (forward : Bool := true) : List OrderTerm :=
  o.columns.map fun c =>
    { column := c.column, descending := c.descending == forward
      nullsFirst := if c.nullable then some (!forward) else none }

def OrderTerm.cmp (t : OrderTerm) : Option CursorValue → Option CursorValue → Ordering
  | none, none => .eq
  | none, some _ => if t.nullsFirst.getD t.descending then .lt else .gt
  | some _, none => if t.nullsFirst.getD t.descending then .gt else .lt
  | some a, some b =>
    if a.lt b = some true then if t.descending then .gt else .lt
    else if b.lt a = some true then if t.descending then .lt else .gt
    else .eq

def orderLe : List OrderTerm → Row → Row → Bool
  | [], _, _ => true
  | t :: ts, r, s =>
    match t.cmp (t.column.read r) (t.column.read s) with
    | .lt => true
    | .gt => false
    | .eq => orderLe ts r s

/-! The cursor text. -/

structure Codec where
  intStr : Int → String
  int : String → Option Int
  isoformat : Time → String
  fromisoformat : String → Option Time
  uuidStr : Nat → String
  uuid : String → Option Nat
  int_intStr (n) : int (intStr n) = some n
  fromisoformat_isoformat (t) : fromisoformat (isoformat t) = some t
  uuid_uuidStr (u) : uuid (uuidStr u) = some u
  intStr_plain (n) : '|' ∉ (intStr n).toList ∧ intStr n ≠ ""
  isoformat_plain (t) : '|' ∉ (isoformat t).toList ∧ isoformat t ≠ ""
  uuidStr_plain (u) : '|' ∉ (uuidStr u).toList ∧ uuidStr u ≠ ""

def format (cx : Codec) : Option CursorValue → String
  | none => ""
  | some (.int n) => cx.intStr n
  | some (.text s) => s
  | some (.ts t) => cx.isoformat t
  | some (.uuid u) => cx.uuidStr u

def parseInt4 (cx : Codec) (text : String) : Option Int :=
  (cx.int text).filter fun n => -2147483648 ≤ n ∧ n ≤ 2147483647

/-- The outer `none` is the `ValueError`. -/
def SortColumn.parse (cx : Codec) (c : SortColumn) (text : String) : Option (Option CursorValue) :=
  if text = "" then if c.nullable then some none else none
  else
    match c.kind with
    | .int => (parseInt4 cx text).map fun n => some (.int n)
    | .ts => (cx.fromisoformat text).map fun t => some (.ts t)
    | .uuid => (cx.uuid text).map fun u => some (.uuid u)
    | .text => some (some (.text text))

def JobOrdering.encode (cx : Codec) (o : JobOrdering) (r : Row) : String :=
  "|".intercalate ((o.values r).map (format cx))

/-- `str.split("|", maxsplit)`, on the characters. -/
def splitBar : Nat → List Char → List (List Char)
  | 0, s => [s]
  | n + 1, s =>
    match s.dropWhile (· ≠ '|') with
    | [] => [s]
    | _ :: rest => s.takeWhile (· ≠ '|') :: splitBar n rest

def parseAll (cx : Codec) : List SortColumn → List String → Option (List (Option CursorValue))
  | [], [] => some []
  | c :: cols, p :: ps => do return (← c.parse cx p) :: (← parseAll cx cols ps)
  | _, _ => none

def JobOrdering.decode (cx : Codec) (o : JobOrdering) (cursor : String) :
    Option (List (Option CursorValue)) :=
  parseAll cx o.columns ((splitBar (o.columns.length - 1) cursor.toList).map String.ofList)

inductive JobSortField where
  | scheduledAtAsc | createdAtDesc | finishedAtDesc

def idAsc : SortColumn := { column := .id, kind := .uuid, descending := false }
def idDesc : SortColumn := { column := .id, kind := .uuid, descending := true }

def orderings : JobSortField → JobOrdering
  | .scheduledAtAsc =>
    ⟨[{ column := .priority, kind := .int, descending := true },
      { column := .scheduledAt, kind := .ts, descending := false }, idAsc]⟩
  | .createdAtDesc => ⟨[{ column := .createdAt, kind := .ts, descending := true }, idDesc]⟩
  | .finishedAtDesc =>
    ⟨[{ column := .finishedAt, kind := .ts, descending := true, nullable := true }, idDesc]⟩

/-- Whether a row is past the cursor values, as the database evaluates `sql_after`. -/
def JobOrdering.isAfter (o : JobOrdering) (values : List (Option CursorValue)) (firstParam : Nat)
    (forward : Bool) (r : Row) : Truth :=
  let (sql, params) := o.sqlAfter values firstParam forward
  sql.eval (Column.read r) (binding firstParam params)

/-- The rows past the cursor, all of them when there is none; `none` when it does not decode. -/
def JobOrdering.selected (cx : Codec) (o : JobOrdering) (rows : List Row) (firstParam : Nat)
    (forward : Bool) : Option String → Option (List Row)
  | none => some rows
  | some text => (o.decode cx text).map fun values =>
      rows.filter fun r => o.isAfter values firstParam forward r == some true

def JobOrdering.page (cx : Codec) (o : JobOrdering) (rows : List Row) (n firstParam : Nat)
    (forward : Bool) (cursor : Option String) : Option (List Row) :=
  (o.selected cx rows firstParam forward cursor).map fun kept =>
    (kept.insertionSort fun r s => orderLe (o.orderBySql forward) r s).take n

/-- At most `k` pages, each asked for with the cursor of the last row of the one before. -/
def JobOrdering.pages (cx : Codec) (o : JobOrdering) (rows : List Row) (n firstParam : Nat)
    (forward : Bool) : Nat → Option String → Option (List (List Row))
  | 0, _ => some []
  | k + 1, cursor => do
    let p ← o.page cx rows n firstParam forward cursor
    match p.getLast? with
    | none => return []
    | some r => return p :: (← o.pages cx rows n firstParam forward k (some (o.encode cx r)))

end TaskQ.Cursor
