import TableQuery.Query.Find
import TableQuery.Text.FormQuery

/-!
# Queries in addresses

`Code=A&Qty=MIN(3)` asks for the rows with that code and a greater quantity.

## Main definitions

* `groupPairs` — the values of each name.
* `Column.condition` — the condition that values of a column stand for.
* `Engine.findByQuery` — the rows of a query.
-/

namespace TableQuery

open TableQuery.Text (stripStart? stripEnd?)

def insertPair (name value : String) : List (String × List String) → List (String × List String)
  | [] => [(name, [value])]
  | (other, values) :: groups =>
    if other = name then (other, values ++ [value]) :: groups
    else (other, values) :: insertPair name value groups

/-- The values of each name, in order of the first ones. -/
def groupPairs (pairs : List (String × String)) : List (String × List String) :=
  pairs.foldl (fun groups (name, value) => insertPair name value groups) []

/-- What stands between a mark such as `MAX(` and a closing parenthesis. -/
def bounded? (mark text : String) : Option String := do
  let rest ← stripStart? mark.toList text.toList
  let inner ← stripEnd? [')'] rest
  some (String.ofList inner)

/-- The operator of a single value, and the value without its mark. -/
def markedValue (text : String) : String × String :=
  match bounded? "MAX(" text with
  | some inner => (Builtin.lt, inner)
  | none =>
    match bounded? "MIN(" text with
    | some inner => (Builtin.gt, inner)
    | none => (Builtin.eq, text)

namespace Column

def enteredAll (c : Column) : List String → Except QueryError (List Value)
  | [] => .ok []
  | s :: ss => do return (← c.entered s) :: (← c.enteredAll ss)

/-- The condition that values stand for: one is equal, less or greater, several are a list. -/
def condition (c : Column) (values : List String) : Except QueryError Condition :=
  match values with
  | [text] =>
    let (operator, inner) := markedValue text
    do return .of c.id operator [← c.entered inner]
  | values => do return .of c.id Builtin.isIn (← c.enteredAll values)

end Column

namespace Table

def queryConditions (t : Table) : List (String × List String) → Except QueryError (List Condition)
  | [] => .ok []
  | (name, values) :: groups => do
    let c ← t.column name
    let condition ← c.condition values
    return condition :: (← t.queryConditions groups)

end Table

def dropQuestionMarks (query : String) : List Char :=
  query.toList.dropWhile (· == '?')

def Engine.findByQuery (e : Engine) (now : Moment) (session : Session) (table query : String)
    (page : PageRequest) : Run TableRows := do
  let t ← e.registry.find table
  let groups := groupPairs (Text.formPairs (dropQuestionMarks query))
  let filter ← t.queryConditions groups
  e.find now session (.temporary t.id ⟨filter, t.columns.map fun c => .plain c.id⟩ page)

end TableQuery
