import TableQuery.Cell.Build
import TableQuery.Driver.Basic
import TableQuery.Driver.Paging
import TableQuery.Operator.Period

/-!
# Rows held in memory

## Main definitions

* `Raw.compare?` — the order of raw values, where they have one.
* `Memory` — rows with a limit and operators of their own.
* `Memory.evaluate`, `Memory.matching` — which rows conditions hold on.
* `Memory.sorted`, `Memory.aggregate` — order and aggregates of rows.
* `Memory.fetch`, `Memory.driver` — the rows as a driver.
-/

namespace TableQuery

open TableQuery.Text (occurs)

/-- The order of two doubles, of which neither is no number. -/
def compareFloats? (x y : Float) : Option Ordering :=
  if x < y then some .lt else if x == y then some .eq else if y < x then some .gt else none

/-- The order of texts of bytes, by their first difference. -/
def compareBytes : List UInt8 → List UInt8 → Ordering
  | [], [] => .eq
  | [], _ :: _ => .lt
  | _ :: _, [] => .gt
  | a :: as, b :: bs => (compare a b).then (compareBytes as bs)

namespace Raw

/-- The order of two values of one kind, or of two numbers. Null is only equal to itself. -/
def compare? : Raw → Raw → Option Ordering
  | null, null => some .eq
  | null, _ => none
  | _, null => none
  | text x, text y => some (compare x y)
  | bytes x, bytes y => some (compareBytes x y)
  | time x, time y => some (compare x y)
  | bool x, bool y => some (compare x y)
  | int x, int y => some (compare x y)
  | uint x, uint y => some (compare x y)
  | x, y =>
    match x.float?, y.float? with
    | some x, some y => compareFloats? x y
    | _, _ => none

/-- The order that rows are sorted by: null comes first, and values without an order count as
equal. -/
def sortOrder (a b : Raw) : Ordering :=
  match a.isNull, b.isNull with
  | true, true => .eq
  | true, false => .lt
  | false, true => .gt
  | false, false => (a.compare? b).getD .eq

end Raw

/-- Insert into a sorted list that is given last item first: behind all that it is not less
than. -/
def insertFromEnd {α : Type} (less : α → α → Bool) (a : α) : List α → List α
  | [] => [a]
  | b :: bs => if less a b then b :: insertFromEnd less a bs else a :: b :: bs

/-- Sort by inserting one item after the other; equal ones keep their order. -/
def sortStably {α : Type} (less : α → α → Bool) (as : List α) : List α :=
  (as.foldl (fun sorted a => insertFromEnd less a sorted) []).reverse

/-- The sum of two words, at the bounds where it would exceed them. -/
def addWithin (a b : Int64) : Int64 :=
  Int64.ofInt (max (-Int.pow 2 63) (min (Int.pow 2 63 - 1) (a.toInt + b.toInt)))

/-- The sum of doubles, where the sum of none is minus zero. -/
def sumFloats (xs : List Float) : Float :=
  xs.foldl (· + ·) (-0.0)

structure Memory where
  rows : List StoredRow
  /-- All rows may only be asked for if they are at most so many. -/
  limit : UInt64
  /-- Operators besides those of the library itself: on a value of a row and the values of the
  condition. -/
  operators : List (String × (Raw → List Raw → Bool))
  deriving Inhabited

namespace Memory

def push (m : Memory) (row : StoredRow) : Memory :=
  { m with rows := m.rows ++ [row] }

/-- An operator that compares a value with the only value of a condition. -/
def comparison? (operator : String) : Option (Raw → Raw → Bool) :=
  let order (accepts : Option Ordering → Bool) : Option (Raw → Raw → Bool) :=
    some fun value arg => accepts (value.compare? arg)
  let search (accepts : List Char → List Char → Bool) : Option (Raw → Raw → Bool) :=
    some fun value arg => accepts arg.display.toList value.display.toList
  if operator = Builtin.eq then order (· == some .eq)
  else if operator = Builtin.ne then order (· != some .eq)
  else if operator = Builtin.gt then order (· == some .gt)
  else if operator = Builtin.lt then order (· == some .lt)
  else if operator = Builtin.ge then order fun o => o == some .gt || o == some .eq
  else if operator = Builtin.le then order fun o => o == some .lt || o == some .eq
  else if operator = Builtin.contains then search occurs
  else if operator = Builtin.lacks then search fun part s => !occurs part s
  else if operator = Builtin.startsWith then search Text.startsWith
  else if operator = Builtin.endsWith then search Text.endsWith
  else none

def isAmong (value : Raw) (args : List Raw) : Bool :=
  args.any fun arg => value.compare? arg == some .eq

/-- A value is a moment of a period that moves with the clock. -/
def isWithin (now : Moment) (operator : String) : Raw → Bool
  | .time t => ((Period.ofOperator? operator now).map fun p => p.holds t).getD false
  | _ => false

/-- An operator that does not compare with one value. -/
def listOperator? (m : Memory) (now : Moment) (operator : String) :
    Option (Raw → List Raw → Bool) :=
  if operator = Builtin.isIn then some isAmong
  else if operator = Builtin.notIn then some fun value args => !isAmong value args
  else if operator = Builtin.isNull then some fun value _ => value.isNull
  else if operator = Builtin.isNotNull then some fun value _ => !value.isNull
  else if (Period.days? operator).isSome then some fun value _ => isWithin now operator value
  else m.operators.lookup operator

def evaluate (m : Memory) (now : Moment) (c : Column) (operator : String) (value : Raw)
    (args : List Raw) : Except QueryError Bool :=
  match comparison? operator, args with
  | some holds, arg :: _ => .ok (holds value arg)
  | some _, [] => .error (.invalidConditionValueCount c.id operator "exactly 1" 0)
  | none, args =>
    match m.listOperator? now operator with
    | some holds => .ok (holds value args)
    | none => .error (.operatorNotSupported c.id operator)

/-- All conditions hold on a row. They are looked at in order up to the first that does not. -/
def holds (m : Memory) (now : Moment) (t : Table) (row : StoredRow) :
    List RawCondition → Except QueryError Bool
  | [] => .ok true
  | condition :: conditions => do
    let c ← t.column condition.column
    let value := (row.get? c).getD .null
    if ← m.evaluate now c condition.operator value condition.values then
      m.holds now t row conditions
    else return false

def matching (m : Memory) (now : Moment) (t : Table) (conditions : List RawCondition) :
    List StoredRow → Except QueryError (List StoredRow)
  | [] => .ok []
  | row :: rows => do
    let holds ← m.holds now t row conditions
    let rest ← m.matching now t conditions rows
    return if holds then row :: rest else rest

/-- Rows in the order asked for. A column that cannot be sorted by leaves them as they are. -/
def sorted (t : Table) (order : Option SortKey) (rows : List StoredRow) : List StoredRow :=
  match order.bind fun key => (t.column? key.column).map fun c => (key, c) with
  | none => rows
  | some (key, c) =>
    let value (row : StoredRow) : Raw := (row.get? c).getD .null
    let less (a b : StoredRow) : Bool :=
      match key.direction with
      | .ascending => (value a).sortOrder (value b) == .lt
      | .descending => (value a).sortOrder (value b) == .gt
    if c.orderable then sortStably less rows else rows

def addend (c : Column) : Raw → Except QueryError Int64
  | .int i => .ok i
  | .uint u =>
    if u.toNat < Nat.pow 2 63 then .ok (Int64.ofNat u.toNat)
    else .error (.failedMapValue c.id (Text.ofInt u.toNat ++ " overflows SUM"))
  | raw => .ok ((raw.float?.getD 0).toInt64)

/-- The sum of values of whole numbers onto a sum, at the bounds where it would exceed them. -/
def sumWhole (c : Column) (sum : Int64) : List Raw → Except QueryError Int64
  | [] => .ok sum
  | raw :: raws => do sumWhole c (addWithin sum (← addend c raw)) raws

/-- An aggregate over rows, in which null and missing values do not count. -/
def aggregate (t : Table) (rows : List StoredRow) (a : AggregateColumn) :
    Except QueryError RawAggregate := do
  let c ← t.column a.column
  let values := (rows.filterMap fun row => row.get? c).filter fun raw => !raw.isNull
  let floats := values.filterMap Raw.float?
  let value ←
    match a.aggregate with
    | .none => .ok .null
    | .sum =>
      if c.kind.isInteger then (sumWhole c 0 values).map .int else .ok (.float (sumFloats floats))
    | .average =>
      .ok (if floats.isEmpty then .null else .float (sumFloats floats / floats.length.toFloat))
  return ⟨a.column, a.aggregate, value⟩

def fetch (m : Memory) (now : Moment) (f : Fetch) : Except QueryError Fetched := do
  let matched ← m.matching now f.table f.conditions m.rows
  let rows := sorted f.table f.order matched
  let aggregates ← f.aggregates.mapM (aggregate f.table rows)
  let total := UInt64.ofNat rows.length
  f.page.checkLimit total m.limit
  return ⟨f.page.window rows, aggregates, f.page.info total⟩

def driver (m : Memory) : Driver :=
  ⟨"memory", fun now _ f => .ofExcept (m.fetch now f)⟩

end Memory

end TableQuery
