import TableQuery.Calendar.Render
import TableQuery.Schema.Compile
import TableQuery.ValueFormat.Render

/-!
# Typed values of raw values

## Main definitions

* `Column.emptyValue` — what a column shows for null.
* `Column.typed` — what a column shows for a raw value.
-/

namespace TableQuery

def Raw.argument? : Raw → Option ValueFormat.Argument
  | int i => some (.int i)
  | uint u => some (.uint u)
  | float x => some (.float x)
  | text s => some (.text s.toList)
  | bool b => some (.bool b)
  | _ => none

namespace Column

def emptyValue (c : Column) : Value :=
  match c.type with
  | .string => .string ""
  | .int => .int 0
  | .double => .double 0
  | .bool => .bool false
  | .date => .date "0000-00-00"
  | .time => .time "0000-00-00T00:00:00Z"
  | .choice => .choice ⟨-1, OptionLists.unknownName⟩

def unshowable {α : Type} (c : Column) (reason : String) : Except QueryError α :=
  .error (.failedMapValue c.id reason)

def pattern (c : Column) : String :=
  c.format.getD (if c.type = .date then Calendar.datePattern else Calendar.timePattern)

def timeText (c : Column) (t : Moment) : Except QueryError String :=
  match Calendar.render? c.pattern t with
  | some s => .ok s
  | none => c.unshowable ("invalid time format " ++ c.pattern)

def wholeNumber (c : Column) : Raw → Except QueryError Int64
  | .int i => .ok i
  | .uint u =>
    if u.toNat < Nat.pow 2 63 then .ok (Int64.ofNat u.toNat)
    else c.unshowable (Text.ofInt u.toNat ++ " overflows INT")
  | .text s =>
    match Text.readInt64? 10 (Text.trim s.toList) with
    | some i => .ok i
    | none => c.unshowable (Text.quoted s ++ " is not an integer")
  | raw => c.unshowable (raw.debug ++ " is not an integer")

def textValue (c : Column) (raw : Raw) : Except QueryError String :=
  match raw with
  | .time t => c.timeText t
  | raw =>
    match raw.argument? with
    | some a => .ok (ValueFormat.sprintf (c.format.getD "%v") a)
    | none => c.unshowable (raw.debug ++ " can not render as STRING")

def boolValue (c : Column) : Raw → Except QueryError Bool
  | .bool b => .ok b
  | .int i => .ok (i != 0)
  | .uint u => .ok (u != 0)
  | raw => c.unshowable (raw.debug ++ " is not a boolean")

/-- A raw value as a date or time, where a text is taken as it is. -/
def dateText (c : Column) : Raw → Except QueryError String
  | .time t => c.timeText t
  | .text s => .ok s
  | raw => c.unshowable (raw.debug ++ " is not a time")

def choiceId (c : Column) (raw : Raw) : Except QueryError Int32 := do
  let i ← c.wholeNumber raw
  if -Int.pow 2 31 ≤ i.toInt ∧ i.toInt < Int.pow 2 31 then return i.toInt32
  else c.unshowable (Text.ofInt i.toInt ++ " overflows option id")

/-- What the column shows for a raw value. -/
def typed (c : Column) (options : OptionLists) (raw : Raw) : Except QueryError Value :=
  if raw.isNull then .ok c.emptyValue
  else
    match c.type with
    | .string => (c.textValue raw).map .string
    | .int => (c.wholeNumber raw).map .int
    | .double =>
      match raw.float? with
      | some x => .ok (.double x)
      | none => c.unshowable (raw.debug ++ " is not a number")
    | .bool => (c.boolValue raw).map .bool
    | .date => (c.dateText raw).map .date
    | .time => (c.dateText raw).map .time
    | .choice =>
      (c.choiceId raw).map fun id => .choice (options.resolve (c.optionType.getD "") id)

@[simp] theorem type?_emptyValue (c : Column) : c.emptyValue.type? = some c.type := by
  unfold emptyValue
  cases c.type <;> rfl

end Column

end TableQuery
