import TableQuery.Schema.Table

/-!
# Drivers

A driver fetches the rows of a table from where they are stored. What it is asked for has been
checked, and the values in it are raw values.

## Main definitions

* `RawCondition`, `AggregateColumn`, `Fetch` — what a driver is asked for.
* `Fetched`, `Reply` — what it answers.
* `Driver` — a driver.
-/

namespace TableQuery

structure RawCondition where
  column : String
  operator : String
  values : List Raw
  deriving Inhabited

structure AggregateColumn where
  column : String
  aggregate : Aggregate
  deriving DecidableEq, Inhabited

/-- What a driver is asked for. -/
structure Fetch where
  table : Table
  /-- All of them hold on the rows asked for. -/
  conditions : List RawCondition
  /-- The columns that the rows must have. -/
  output : List String
  aggregates : List AggregateColumn
  page : PageRequest
  order : Option SortKey
  deriving Inhabited

structure RawAggregate where
  column : String
  aggregate : Aggregate
  value : Raw
  deriving Inhabited

structure Fetched where
  rows : List StoredRow
  aggregates : List RawAggregate
  page : PageInfo
  deriving Inhabited

inductive Reply where
  | fetched (f : Fetched)
  | failed (e : QueryError)
  /-- No answer comes. -/
  | silent

/-- A driver, which may look at the clock. -/
structure Driver where
  name : String
  fetch : Moment → Session → Fetch → Reply

def Reply.ofExcept : Except QueryError Fetched → Reply
  | .ok f => .fetched f
  | .error e => .failed e

end TableQuery
