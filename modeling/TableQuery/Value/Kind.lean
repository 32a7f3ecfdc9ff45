import TableQuery.Text.Blank

/-!
# Kinds of values and what can be done with them

The small vocabularies that tables and queries are described with, and the names they are
written by.

## Main definitions

* `ColumnType`, `StoredKind` — the type of a column for those who query it, and the kind of
  value that is stored for it.
* `Aggregate`, `Arity`, `Direction` — what queries ask for.
* `HrefStyle`, `ActionType`, `Access` — how links open, kinds of actions, who sees a template.
-/

namespace TableQuery

/-- The type of a column for those who query it. -/
inductive ColumnType where
  | string
  | int
  | double
  | bool
  | date
  | time
  | choice
  deriving DecidableEq, Repr, Inhabited

namespace ColumnType

def name : ColumnType → String
  | string => "STRING"
  | int => "INT"
  | double => "DOUBLE"
  | bool => "BOOL"
  | date => "DATE"
  | time => "TIME"
  | choice => "OPTION"

def all : List ColumnType := [string, int, double, bool, date, time, choice]

/-- The type of a name in either case with blanks around it; `BOOLEAN` is a second name. An
unknown name is given back in upper case. -/
def ofText (text : String) : Except String ColumnType :=
  let upper := (Text.trimmed text).map Char.toUpper
  if upper = "BOOLEAN" then .ok .bool
  else (all.find? fun t => t.name == upper).elim (.error upper) .ok

end ColumnType

inductive StoredKind where
  | bool
  | int
  | uint
  | float
  | string
  /-- A moment, also for dates. -/
  | time
  | bytes
  | json
  deriving DecidableEq, Repr, Inhabited

namespace StoredKind

def name : StoredKind → String
  | bool => "bool"
  | int => "int"
  | uint => "uint"
  | float => "float"
  | string => "string"
  | time => "time"
  | bytes => "bytes"
  | json => "json"

def all : List StoredKind := [bool, int, uint, float, string, time, bytes, json]

/-- Whole numbers, with or without a sign. -/
def isInteger : StoredKind → Bool
  | int | uint => true
  | _ => false

end StoredKind

inductive Aggregate where
  | none
  | sum
  | average
  deriving DecidableEq, Repr, Inhabited

namespace Aggregate

def name : Aggregate → String
  | none => "NONE"
  | sum => "SUM"
  | average => "AVG"

def all : List Aggregate := [none, sum, average]

/-- The aggregate of a name in either case with blanks around it, where computing nothing has no
name. An unknown name is given back in upper case. -/
def ofText (text : String) : Except String Aggregate :=
  let upper := (Text.trimmed text).map Char.toUpper
  if upper = "SUM" then .ok .sum
  else if upper = "AVG" then .ok .average
  else .error upper

end Aggregate

inductive Arity where
  | none
  | single
  | multiple
  deriving DecidableEq, Repr, Inhabited

namespace Arity

def name : Arity → String
  | none => "NONE"
  | single => "SINGLE"
  | multiple => "MULTIPLE"

def all : List Arity := [none, single, multiple]

def accepts : Arity → Nat → Bool
  | none, count => count = 0
  | single, count => count = 1
  | multiple, count => 1 ≤ count

def expectation : Arity → String
  | none => "0"
  | single => "exactly 1"
  | multiple => "at least 1"

end Arity

inductive HrefStyle where
  | newTab
  | dialog
  deriving DecidableEq, Repr, Inhabited

namespace HrefStyle

def name : HrefStyle → String
  | newTab => "newtab"
  | dialog => "dialog"

def all : List HrefStyle := [newTab, dialog]

/-- The style of a name in either case with blanks around it. An unknown name is given back in
lower case. -/
def ofText (text : String) : Except String HrefStyle :=
  let lower := (Text.trimmed text).map Char.toLower
  (all.find? fun style => style.name == lower).elim (.error lower) .ok

end HrefStyle

inductive Direction where
  | ascending
  | descending
  deriving DecidableEq, Repr, Inhabited

namespace Direction

def name : Direction → String
  | ascending => "ASC"
  | descending => "DESC"

def all : List Direction := [ascending, descending]

end Direction

inductive ActionType where
  | custom
  | jsonForm
  | href
  deriving DecidableEq, Repr, Inhabited

namespace ActionType

def name : ActionType → String
  | custom => "custom"
  | jsonForm => "json_form"
  | href => "href"

def all : List ActionType := [custom, jsonForm, href]

end ActionType

inductive Access where
  | owner
  | everyone
  /-- The owner and the users on a list. -/
  | shared
  deriving DecidableEq, Repr, Inhabited

namespace Access

def name : Access → String
  | .owner => "PRIVATE"
  | .everyone => "PUBLIC"
  | .shared => "SHARED"

def all : List Access := [.owner, .everyone, .shared]

/-- The number that stands for an access in a database. -/
def code : Access → Int32
  | .owner => 0
  | .everyone => 1
  | .shared => 2

def ofCode? (n : Int32) : Option Access :=
  all.find? fun a => a.code == n

@[simp] theorem ofCode?_code (a : Access) : ofCode? a.code = some a := by
  cases a <;> decide

end Access

end TableQuery
