import TableQuery.Cell.Native
import TableQuery.Decimal.Reader

/-!
# Typed values of texts that were entered

## Main definitions

* `Column.entered` — the typed value of a text, as it stands in an address.
-/

namespace TableQuery

def enteredBool? (s : String) : Option Bool :=
  if ["1", "true", "TRUE", "True", "t", "T"].contains s then some true
  else if ["0", "false", "FALSE", "False", "f", "F"].contains s then some false
  else none

/-- The typed value of a text without blanks at its ends. -/
def ColumnType.entered? (type : ColumnType) (s : String) : Option Value :=
  match type with
  | .string => some (.string s)
  | .int => (Text.readInt64? 10 s.toList).map .int
  | .double => (Decimal.readFloat? s.toList).map .double
  | .bool => (enteredBool? s).map .bool
  | .date => some (.date s)
  | .time => some (.time s)
  | .choice => (Text.readInt32? s.toList).map fun id => .choice ⟨id, ""⟩

/-- The typed value of a text, with blanks around it. -/
def Column.entered (c : Column) (text : String) : Except QueryError Value :=
  let s := Text.trimmed text
  match c.type.entered? s with
  | some v => .ok v
  | none => c.unreadable s

theorem ColumnType.type?_of_entered? {type : ColumnType} {s : String} {v : Value}
    (h : type.entered? s = some v) : v.type? = some type := by
  cases type <;> simp only [entered?, Option.map_eq_some_iff, Option.some.injEq] at h <;>
    grind [Value.type?]

end TableQuery
