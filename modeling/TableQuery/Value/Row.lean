import TableQuery.Json.Basic
import TableQuery.Schema.Link
import TableQuery.Value.Basic
import TableQuery.Value.Raw

/-!
# Rows

Rows as stores give them and rows as queries answer with them.

## Main definitions

* `Cell`, `TableRow`, `TableRows` — what a query answers.
* `StoredRow` — a row as a store gives it.
-/

namespace TableQuery

structure Cell where
  column : String
  value : Value
  /-- The parts of a list, or the value alone. -/
  values : List Value
  link : Option Link
  href : Option String
  hrefStyle : Option HrefStyle
  deriving Inhabited

def Cell.plain (column : String) (value : Value) : Cell :=
  ⟨column, value, [], none, none, none⟩

structure ActionOffer where
  id : String
  name : String
  type : ActionType
  formSchema : Option Json
  href : Option String
  hrefStyle : Option HrefStyle
  deriving Inhabited

structure TableRow where
  id : String
  cells : List Cell
  actions : List ActionOffer
  deriving Inhabited

namespace TableRow

def cell? (row : TableRow) (column : String) : Option Cell :=
  row.cells.find? fun c => c.column == column

def value? (row : TableRow) (column : String) : Option Value :=
  (row.cell? column).map Cell.value

end TableRow

structure AggregateResult where
  column : String
  columnName : String
  aggregate : Aggregate
  value : Value
  deriving Inhabited

/-- Where a page stands among all matching rows. -/
structure PageInfo where
  currentPage : UInt64
  pageSize : UInt64
  totalPages : UInt64
  totalResults : UInt64
  deriving DecidableEq, Inhabited

def PageInfo.zero : PageInfo := ⟨0, 0, 0, 0⟩

structure TableRows where
  rows : List TableRow
  aggregates : List AggregateResult
  page : PageInfo
  deriving Inhabited

def TableRows.empty : TableRows := ⟨[], [], .zero⟩

/-- A row as a store gives it. -/
inductive StoredRow where
  /-- Values by the name they are stored under; what is missing is null. -/
  | keyed (values : List (String × Raw))
  /-- Values by column; a column that is missing is not provided. -/
  | record (fields : List (String × Raw))
  /-- A row that is an answer already. -/
  | typed (row : TableRow)
  deriving Inhabited

end TableQuery
