import TableQuery.Calendar.Internet
import TableQuery.Cell.Typed
import TableQuery.ValueFormat.Scan

/-!
# Raw values of typed values

Conditions are given with the values that columns show, and stores compare raw values.

## Main definitions

* `Column.readMoment` — the moment that a text shows in a column.
* `Column.native` — the raw value that a typed value stands for in a column.
-/

namespace TableQuery

namespace Column

def unreadable {α : Type} (c : Column) (text : String) : Except QueryError α :=
  .error (.failedParseValue c.id text)

/-- The moment that a text shows in a column: of a date its midnight, of a time also one in the
form used on the internet. -/
def readMoment? (c : Column) (s : List Char) : Option Moment :=
  if c.type = .date then
    ((Calendar.readDate? c.pattern s).map Moment.midnight).or (Calendar.readMoment? c.pattern s)
  else (Calendar.readMoment? c.pattern s).or (Calendar.readStrict? s)

def readMoment (c : Column) (text : String) : Except QueryError Moment :=
  let s := Text.trim text.toList
  match c.readMoment? s with
  | some t => .ok t
  | none => c.unreadable (String.ofList s)

/-- What the column's format, or another one if it has none, reads in a text. -/
def scan (c : Column) (default text : String) : Option ValueFormat.Scanned :=
  ValueFormat.scan? (c.format.getD default).toList text.toList

def nativeOfText (c : Column) (text : String) : Except QueryError Raw :=
  match c.kind with
  | .int | .uint =>
    match c.scan "%d" text with
    | some (.int i) => .ok (.int i)
    | _ => c.unreadable text
  | .float =>
    match c.scan "%g" text with
    | some (.float x) => .ok (.float x)
    | some (.int i) => .ok (.float (Decimal.ofInt64 i))
    | _ => c.unreadable text
  | .bool =>
    if text = "true" then .ok (.bool true)
    else if text = "false" then .ok (.bool false)
    else c.unreadable text
  | .time => (c.readMoment text).map .time
  | .string | .bytes | .json =>
    if c.format.isNone then .ok (.text text)
    else
      match c.scan "" text with
      | some (.text s) => .ok (.text (String.ofList s))
      | _ => c.unreadable text

/-- The raw value that a typed value stands for. Null stands for the empty text in a column of
texts, and whole numbers for doubles and for entries of option lists. -/
def native (c : Column) (value : Value) : Except QueryError Raw :=
  match c.type, value with
  | .string, .null => c.nativeOfText ""
  | .string, .string s => c.nativeOfText s
  | .int, .int i =>
    if c.kind = .uint ∧ 0 ≤ i then .ok (.uint i.toUInt64) else .ok (.int i)
  | .double, .double x => .ok (.float x)
  | .double, .int i => .ok (.float (Decimal.ofInt64 i))
  | .bool, .bool b => .ok (.bool b)
  | .date, .date s | .time, .time s => (c.readMoment s).map .time
  | .choice, .choice o => .ok (.int o.id.toInt64)
  | .choice, .int i => .ok (.int i)
  | _, value => .error (.invalidConditionValueType c.id c.type value.typeName)

end Column

end TableQuery
