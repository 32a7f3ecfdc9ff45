import TableQuery.Operator.Builtin
import TableQuery.Schema.Link

/-!
# Columns

## Main definitions

* `Column` — a column of a table.
* `Column.filter?`, `Column.supports` — the operators of a column.
* `Column.outboundLink?` — the link that fills a column from another table.
-/

namespace TableQuery

structure Column where
  id : String
  name : String
  kind : StoredKind
  type : ColumnType
  /-- How values are shown: a value format for numbers, a pattern for dates and times. -/
  format : Option String
  /-- The operators that conditions may use. -/
  filters : List Operator
  aggregates : List Aggregate
  link : Option Link
  isKey : Bool
  /-- Not shown unless asked for. -/
  internal : Bool
  required : Bool
  orderable : Bool
  /-- The separator of the parts of a list. -/
  arraySplit : Option String
  href : Option String
  hrefStyle : Option HrefStyle
  width : UInt32
  /-- The name that values are stored under. -/
  storageName : String
  /-- What is read in place of the stored name. -/
  storageExpression : Option String
  optionType : Option String
  deriving DecidableEq, Inhabited

namespace Column

/-- The operator of an id, if conditions may use it. -/
def filter? (c : Column) (operator : String) : Option Operator :=
  c.filters.find? fun op => op.id == operator

def supports (c : Column) (operator : String) : Bool :=
  c.filters.any fun op => op.id == operator

/-- An aggregate may be computed; computing none always may. -/
def supportsAggregate (c : Column) (a : Aggregate) : Bool :=
  a == .none || c.aggregates.contains a

/-- The link that fills the column from another table. A link of a column to itself only says
where its values come from. -/
def outboundLink? (c : Column) : Option Link :=
  c.link.filter fun l => l.localColumn != c.id

def isOutbound (c : Column) : Bool :=
  c.outboundLink?.isSome

def expression (c : Column) : String :=
  c.storageExpression.getD c.storageName

theorem supports_eq_isSome_filter? (c : Column) (operator : String) :
    c.supports operator = (c.filter? operator).isSome := by
  rw [Bool.eq_iff_iff]
  simp [supports, filter?]

end Column

end TableQuery
