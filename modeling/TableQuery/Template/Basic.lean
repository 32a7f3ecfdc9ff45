import TableQuery.Operator.Basic
import TableQuery.Value.Row

/-!
# Templates

A template says what is asked of a table: conditions on its rows, the columns to show, a page and
an order.

## Main definitions

* `Condition`, `OutputColumn`, `Template.Body` — filters and columns.
* `PageRequest`, `SortKey` — page and order.
* `Template` — a template.
-/

namespace TableQuery

structure Condition where
  column : String
  /-- The full id of the operator. -/
  operator : String
  values : List Value
  deriving Inhabited

/-- A condition whose operator may be given without a namespace. -/
def Condition.of (column operator : String) (values : List Value) : Condition :=
  ⟨column, qualify operator, values⟩

structure OutputColumn where
  column : String
  visible : Bool
  aggregate : Aggregate
  deriving DecidableEq, Inhabited

def OutputColumn.plain (column : String) : OutputColumn :=
  ⟨column, true, .none⟩

/-- A page, counted from zero; a page without a size holds all rows. -/
structure PageRequest where
  page : UInt64
  size : UInt64
  deriving DecidableEq, Inhabited

namespace PageRequest

def all : PageRequest := ⟨0, 0⟩

def isPaged (p : PageRequest) : Bool :=
  0 < p.size

end PageRequest

structure SortKey where
  column : String
  direction : Direction
  deriving DecidableEq, Inhabited

/-- The conditions and columns of a template, which are what is saved of it. -/
structure Template.Body where
  filter : List Condition
  output : List OutputColumn
  deriving Inhabited

/-- A question to a table. -/
structure Template where
  id : String
  name : String
  table : String
  body : Template.Body
  page : PageRequest
  order : Option SortKey
  deriving Inhabited

namespace Template

/-- The id of the template that shows every column that is not internal. -/
def emptyId : String := "TPL_EMPTY"

def defaultId : String := "TPL_DEFAULT"

/-- A template with neither id nor name. -/
def temporary (table : String) (body : Body) (page : PageRequest) : Template :=
  ⟨"", "", table, body, page, none⟩

def outputIds (t : Template) : List String :=
  t.body.output.map OutputColumn.column

def onlyVisible (t : Template) : Template :=
  { t with body := { t.body with output := t.body.output.filter OutputColumn.visible } }

end Template

end TableQuery
