import TableQuery.Sql.Clauses
import TableQuery.Sql.Database

/-!
# Rows from a database

The rows of a table are counted, aggregated and read by a statement each, all with the same
conditions.

## Main definitions

* `Sql.Source` — a table of a database.
* `Sql.countStatement`, `Sql.aggregateStatement`, `Sql.selectStatement` — the statements.
* `Sql.Source.fetch` — the rows that a driver is asked for.
-/

namespace TableQuery.Sql

structure Source where
  relation : String
  /-- All rows may only be asked for if they are at most so many. -/
  limit : UInt64
  deriving DecidableEq, Inhabited

def driverName : String := "sql"

def countStatement (relation : String) (conditions : Fragment) : Fragment :=
  .text ("SELECT COUNT(*) AS total FROM " ++ relation) ++ conditions

def aggregateName (i : Nat) : String := "agg_" ++ Text.ofInt i

def numbered {α : Type} (first : Nat) : List α → List (Nat × α)
  | [] => []
  | a :: as => (first, a) :: numbered (first + 1) as

def aggregateStatement (relation : String) (expressions : List String) (conditions : Fragment) :
    Fragment :=
  let items := (numbered 0 expressions).map fun (i, e) => e ++ " AS " ++ aggregateName i
  .text ("SELECT " ++ ", ".intercalate items ++ " FROM " ++ relation) ++ conditions

def selectStatement (d : Dialect) (relation : String) (columns : List Column)
    (conditions : Fragment) (order : String) (page : PageRequest) : Fragment :=
  let items := columns.map fun c => c.expression ++ " AS " ++ quote d c.storageName
  .text ("SELECT " ++ ", ".intercalate items ++ " FROM " ++ relation) ++ conditions ++
    .text order ++ pageClause page

/-- The value of a column in a row. What has not the kind of the column is null. -/
def readValue (row : DbRow) (c : Column) : Except QueryError Raw :=
  let value {α : Type} (r : Reader α) (raw : α → Raw) : Except QueryError Raw :=
    .ok (((DbRow.get? row r c.storageName).map raw).getD .null)
  match c.kind with
  | .bool => value .bool .bool
  | .int => value .int .int
  | .uint =>
    match DbRow.get? row .int c.storageName with
    | none => .ok .null
    | some i =>
      if i < 0 then .error (.failedMapValue c.id (Text.ofInt i.toInt ++ " is negative"))
      else .ok (.uint i.toUInt64)
  | .float => value .float .float
  | .string | .json => value .text .text
  | .time => value .time .time
  | .bytes => value .bytes .bytes

def readRow (row : DbRow) : List Column → Except QueryError (List (String × Raw))
  | [] => .ok []
  | c :: cs => do return (c.storageName, ← readValue row c) :: (← readRow row cs)

def readRows (columns : List Column) : List DbRow → Except QueryError (List StoredRow)
  | [] => .ok []
  | row :: rows => do return .keyed (← readRow row columns) :: (← readRows columns rows)

/-- The value of an aggregate in the row of its statement. A sum of nothing is zero. -/
def readAggregate (row : Option DbRow) (name : String) (c : Column) (a : Aggregate) : Raw :=
  match row, a with
  | none, _ => .null
  | some row, .sum =>
    if c.kind.isInteger then .int ((DbRow.get? row .int name).getD 0)
    else .float ((DbRow.get? row .float name).getD 0)
  | some row, _ => ((DbRow.get? row .float name).map Raw.float).getD .null

def aggregateColumns (d : Dialect) (t : Table) :
    List AggregateColumn → Except QueryError (List (Column × Aggregate × String))
  | [] => .ok []
  | a :: as => do
    let c ← t.column a.column
    let rest ← aggregateColumns d t as
    return ((aggregateExpression d c a.aggregate).map fun e => (c, a.aggregate, e)).toList ++ rest

namespace Source

def count (s : Source) (conditions : Fragment) : Work UInt64 := do
  let rows ← Work.query (countStatement s.relation conditions)
  match rows with
  | [] => return 0
  | row :: _ =>
    let total ← Work.ofExcept (DbRow.get row .int "total")
    return if total < 0 then 0 else total.toUInt64

def aggregates (s : Source) (f : Fetch) (conditions : Fragment) : Work (List RawAggregate) := do
  let columns ← Work.ofExcept (aggregateColumns (← Work.dialect) f.table f.aggregates)
  if columns.isEmpty then return []
  let expressions := columns.map fun (_, _, e) => e
  let rows ← Work.query (aggregateStatement s.relation expressions conditions)
  return (numbered 0 columns).map fun (i, c, a, _) =>
    ⟨c.id, a, readAggregate rows.head? (aggregateName i) c a⟩

def select (s : Source) (f : Fetch) (conditions : Fragment) : Work (List StoredRow) := do
  let columns := selectColumns f.table f.output
  let order := orderClause f.table f.order
  let rows ← Work.query
    (selectStatement (← Work.dialect) s.relation columns conditions order f.page)
  Work.ofExcept (readRows columns rows)

def fetch (s : Source) (now : Moment) (f : Fetch) : Work Fetched := do
  let conditions ← Work.ofExcept (whereClause now f.table f.conditions)
  let total ← s.count conditions
  Work.ofExcept (f.page.checkLimit total s.limit)
  let aggregates ← s.aggregates f conditions
  let rows ← if total = 0 then pure [] else s.select f conditions
  return ⟨rows, aggregates, f.page.info total⟩

/-- The rows that a driver is asked for, from the database that a session is connected to. -/
def fetchFrom (s : Source) (db : Option Database) (now : Moment) (f : Fetch) :
    Except QueryError Fetched × Option Database :=
  match db with
  | none => (.error (.backend ("no database connection in session for " ++ s.relation)), none)
  | some db =>
    let (result, db) := (s.fetch now f).run db
    (result, some db)

end Source

end TableQuery.Sql
