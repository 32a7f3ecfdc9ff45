import TableQuery.Text.Blank
import TableQuery.Text.Split
import TableQuery.Text.WordChar

/-!
# Links between tables

A column may take its values from another table: `Material(Code,Id,Name)` says that the value is
`Name` of the row of `Material` whose `Id` is the local `Code`.

## Main definitions

* `Link` — a link.
* `Link.display` — its written form.
* `Link.read?` — the link that a written form denotes.
-/

namespace TableQuery

open TableQuery.Text (isBlank isWord isWordChar splitFirst? stripEnd? splitAtChar)

structure Link where
  /-- The id of the other table. -/
  table : String
  /-- The column here whose value is looked up. -/
  localColumn : String
  /-- The column there in which it is looked up. -/
  searchColumn : String
  /-- The column there whose value is taken. -/
  valueColumn : String
  deriving DecidableEq, Inhabited

namespace Link

def display (l : Link) : String :=
  l.table ++ "(" ++ l.localColumn ++ "," ++ l.searchColumn ++ "," ++ l.valueColumn ++ ")"

/-- A name of a table: word characters and points. -/
def isTableName (s : List Char) : Bool :=
  !s.isEmpty && s.all fun c => c == '.' || isWordChar c

/-- The name before a parenthesis and the names between commas inside it. -/
def parts? (s : List Char) : Option (List Char × List (List Char)) := do
  let (table, rest) ← splitFirst? (· == '(') s
  let inner ← stripEnd? [')'] rest
  let columns := splitAtChar ',' inner
  if isTableName table && columns.all isWord then some (table, columns) else none

/-- The link that a text denotes on a column, with any blanks in it. With one column in the
parentheses the column links to itself, and what is looked up is also what is taken. -/
def read? (column text : String) : Option Link :=
  match parts? (text.toList.filter fun c => !isBlank c) with
  | some (table, [c]) =>
    some ⟨String.ofList table, column, String.ofList c, String.ofList c⟩
  | some (table, [a, b, c]) =>
    some ⟨String.ofList table, String.ofList a, String.ofList b, String.ofList c⟩
  | _ => none

end Link

end TableQuery
