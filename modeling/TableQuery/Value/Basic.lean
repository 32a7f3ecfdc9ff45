import TableQuery.Value.Kind
import TableQuery.Decimal.Written
import TableQuery.Text.Integer

/-!
# Typed values

The values that queries take and give. Dates and times are kept as they are shown.

## Main definitions

* `Choice` — an entry of an option list.
* `Value` — a typed value.
* `Value.display` — the text of a value without its type, by which values of different tables
  are matched.
-/

namespace TableQuery

structure Choice where
  id : Int32
  name : String
  deriving DecidableEq, Inhabited

inductive Value where
  | null
  | string (s : String)
  | int (i : Int64)
  | double (x : Float)
  | bool (b : Bool)
  | date (s : String)
  | time (s : String)
  | choice (c : Choice)
  deriving Inhabited

namespace Value

def type? : Value → Option ColumnType
  | null => none
  | string _ => some .string
  | int _ => some .int
  | double _ => some .double
  | bool _ => some .bool
  | date _ => some .date
  | time _ => some .time
  | choice _ => some .choice

def typeName (v : Value) : String :=
  (v.type?.map ColumnType.name).getD "NULL"

def isNull : Value → Bool
  | null => true
  | _ => false

/-- The text of a value that is kept as a text. -/
def text? : Value → Option String
  | string s | date s | time s => some s
  | _ => none

def display : Value → String
  | null => ""
  | string s | date s | time s => s
  | int i => Text.ofInt i.toInt
  | double x => Decimal.ofFloat x
  | bool b => if b then "true" else "false"
  | choice c => Text.ofInt c.id.toInt

@[simp] theorem isNull_eq_false_of_type? {v : Value} {t : ColumnType} (h : v.type? = some t) :
    v.isNull = false := by
  cases v <;> simp_all [type?, isNull]

end Value

end TableQuery
