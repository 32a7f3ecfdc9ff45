import TableQuery.Schema.Column
import TableQuery.Session
import TableQuery.Template.Basic

/-!
# Tables

A table has columns, one of which is its key, and may offer actions on its rows.

## Main definitions

* `Form`, `RowAction` — actions on rows.
* `Table` — a table.
* `Table.column?`, `Table.keyColumn?` — its columns.
* `Table.emptyTemplate`, `Table.defaultTemplate` — the templates every table has.
-/

namespace TableQuery

structure Form where
  /-- The description of the form's fields for a row. -/
  schema : Session → TableRow → Except QueryError Json
  /-- What becomes of a form that was filled in. -/
  execute : Session → Json → Except QueryError Unit

inductive RowAction where
  /-- Left to whoever shows the row. -/
  | custom (id name : String)
  /-- Goes to an address. -/
  | href (id name : String) (style : HrefStyle) (address : TableRow → String)
  | form (id name : String) (form : Form)

namespace RowAction

def id : RowAction → String
  | custom id _ | href id _ _ _ | form id _ _ => id

def name : RowAction → String
  | custom _ name | href _ name _ _ | form _ name _ => name

def type : RowAction → ActionType
  | custom .. => .custom
  | href .. => .href
  | form .. => .jsonForm

def form? : RowAction → Option Form
  | form _ _ f => some f
  | _ => none

end RowAction

/-- A table as queries see it. -/
structure Table where
  id : String
  name : String
  description : String
  columns : List Column
  /-- The id of the key column. -/
  key : String
  actions : List RowAction
  /-- Whether an action is offered on a row; all are if not given. -/
  actionFilter : Option (Session → TableRow → String → Bool)
  /-- A change to the template that the table proposes. -/
  proposal : Option (Template → Template)
  deriving Inhabited

namespace Table

def column? (t : Table) (id : String) : Option Column :=
  t.columns.find? fun c => c.id == id

def column (t : Table) (id : String) : Except QueryError Column :=
  match t.column? id with
  | some c => .ok c
  | none => .error (.invalidColumnId t.id id)

def keyColumn? (t : Table) : Option Column :=
  t.column? t.key

def columnIds (t : Table) : List String :=
  t.columns.map Column.id

def hasColumn (t : Table) (id : String) : Bool :=
  (t.column? id).isSome

def action? (t : Table) (id : String) : Option RowAction :=
  t.actions.find? fun a => a.id == id

def actionsFor (t : Table) (session : Session) (row : TableRow) : List RowAction :=
  match t.actionFilter with
  | none => t.actions
  | some offered => t.actions.filter fun a => offered session row a.id

/-- The template that shows every column that is not internal. -/
def emptyTemplate (t : Table) : Template where
  id := Template.emptyId
  name := "Empty template"
  table := t.id
  body := ⟨[], (t.columns.filter fun c => !c.internal).map fun c => .plain c.id⟩
  page := .all
  order := none

def defaultTemplate (t : Table) : Template :=
  let template := { t.emptyTemplate with id := Template.defaultId, name := "Default template" }
  match t.proposal with
  | none => template
  | some change => change template

/-- The form in which a table is shown to those who maintain it. -/
def debug (t : Table) : String :=
  "TableMetaData \x7b id: " ++ Text.quoted t.id ++ ", name: " ++ Text.quoted t.name ++
    ", columns: " ++ Text.quotedList t.columnIds ++ ", key_column_id: " ++ Text.quoted t.key ++
    ", row_actions: " ++ Text.quotedList (t.actions.map RowAction.id) ++ " \x7d"

theorem column_eq_ok_iff {t : Table} {id : String} {c : Column} :
    t.column id = .ok c ↔ t.column? id = some c := by
  unfold column
  cases t.column? id <;> simp

theorem column?_id {t : Table} {id : String} {c : Column} (h : t.column? id = some c) :
    c.id = id := by
  simpa using List.find?_some h

theorem mem_of_column? {t : Table} {id : String} {c : Column} (h : t.column? id = some c) :
    c ∈ t.columns :=
  List.mem_of_find?_eq_some h

end Table

end TableQuery
