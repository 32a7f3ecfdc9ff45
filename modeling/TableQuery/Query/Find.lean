import TableQuery.Cell.Build
import TableQuery.Query.Actions
import TableQuery.Query.Outbound
import TableQuery.Query.Validate

/-!
# Finding rows

A template is checked against its table; its conditions become conditions on raw values; the
driver of the table fetches rows; and the rows become cells in the order asked for.

## Main definitions

* `Engine.split` — the conditions that the driver answers and those that other tables answer.
* `Table.fetchColumns` — the columns that the driver must provide.
* `Engine.findOnce` — a run of a template, given how links are looked up.
* `Engine.findRows`, `Engine.findRow` — the rows of a template, and the row of a key.
-/

namespace TableQuery

def firstOfEach : List String → List String
  | [] => []
  | s :: ss => s :: (firstOfEach ss).filter (· != s)

namespace Table

def nativeValues (c : Column) : List Value → Except QueryError (List Raw)
  | [] => .ok []
  | v :: vs => do return (← c.native v) :: (← nativeValues c vs)

/-- The conditions on columns of the table as conditions on raw values, and the conditions on
columns of other tables with their links. -/
def split (t : Table) : List Condition →
    Except QueryError (List RawCondition × List (Link × Condition))
  | [] => .ok ([], [])
  | condition :: conditions => do
    let c ← t.column condition.column
    match c.outboundLink? with
    | some link =>
      let (direct, linked) ← t.split conditions
      return (direct, (link, condition) :: linked)
    | none =>
      let values ← nativeValues c condition.values
      let (direct, linked) ← t.split conditions
      return (⟨c.id, condition.operator, values⟩ :: direct, linked)

/-- The columns that the driver must provide, each once: those asked for, the local columns of
their links, the key, and the columns of conditions. -/
def fetchColumns (t : Table) (output : List String) (conditions : List RawCondition) :
    List String :=
  let links := output.filterMap fun id => (t.column? id).bind Column.outboundLink?
  firstOfEach
    (output ++ links.map Link.localColumn ++ [t.key] ++ conditions.map RawCondition.column)

def rows (t : Table) (options : OptionLists) (output : List String) :
    List StoredRow → Except QueryError (List TableRow)
  | [] => .ok []
  | stored :: rest => do
    return (← t.row options stored output) :: (← t.rows options output rest)

/-- The value of an aggregate: an average is a double, whatever the type of the column. -/
def aggregateValue (options : OptionLists) (c : Column) (a : RawAggregate) :
    Except QueryError Value :=
  match a.aggregate, a.value with
  | .average, .float x => .ok (.double x)
  | _, raw => c.typed options raw

def aggregates (t : Table) (options : OptionLists) :
    List RawAggregate → Except QueryError (List AggregateResult)
  | [] => .ok []
  | a :: as => do
    let c ← t.column a.column
    let value ← aggregateValue options c a
    return ⟨c.id, c.name, a.aggregate, value⟩ :: (← t.aggregates options as)

end Table

def TableRow.onlyCells (row : TableRow) (output : List String) : TableRow :=
  { row with
    cells := output.filterMap fun id => row.cells.reverse.find? fun cell => cell.column == id }

namespace Engine

def requestedAggregates (output : List OutputColumn) : List AggregateColumn :=
  (output.filter fun o => o.aggregate != .none).map fun o => ⟨o.column, o.aggregate⟩

/-- What the driver answered as rows and aggregates. A simple run neither fills linked cells nor
offers actions. -/
def answer (e : Engine) (session : Session) (find : Template → Run TableRows) (simple : Bool)
    (f : Fetch) (requested : List String) (fetched : Fetched) : Run TableRows := do
  let t := f.table
  let rows ← t.rows e.options f.output fetched.rows
  let rows ← if simple then pure rows else e.outbound find t rows
  let rows := rows.map fun row => row.onlyCells requested
  let aggregates ← t.aggregates e.options fetched.aggregates
  let rows ← if simple then pure rows else Run.ofExcept (t.withOffers session rows)
  return ⟨rows, aggregates, fetched.page⟩

/-- Run a template, given how the templates of its links are run. -/
def findOnce (e : Engine) (now : Moment) (session : Session) (find : Template → Run TableRows)
    (simple : Bool) (template : Template) : Run TableRows := do
  let t ← e.registry.find template.table
  t.validate template
  let (direct, linked) ← t.split template.body.filter
  match ← e.inbound find t (LinkGroup.collect linked) with
  | none => return .empty
  | some translated =>
    let conditions := direct ++ translated
    let d ← e.driver t.id
    let f : Fetch := {
      table := t
      conditions
      output := t.fetchColumns template.outputIds conditions
      aggregates := requestedAggregates template.body.output
      page := template.page
      order := template.order }
    let fetched ← d.ask now session f
    e.answer session find simple f template.outputIds fetched

/-- Run a template simply, where links are followed at most `depth` times behind each other. -/
def findSimple (e : Engine) (now : Moment) (session : Session) :
    (depth : Nat) → Template → Run TableRows
  | 0, _ => .stop .circular
  | depth + 1, template => e.findOnce now session (e.findSimple now session depth) true template

/-- The number of columns. A chain of links that is longer leads in a circle. -/
def columnCount (e : Engine) : Nat :=
  (e.registry.tables.flatMap Table.columns).length

def find (e : Engine) (now : Moment) (session : Session) (template : Template) : Run TableRows :=
  e.findOnce now session (e.findSimple now session (e.columnCount + 1)) false template

/-- The rows of a template with its visible columns. -/
def findRows (e : Engine) (now : Moment) (session : Session) (template : Template) :
    Run TableRows :=
  e.find now session template.onlyVisible

/-- The row of a key, with the columns of a template, whose conditions and page do not count. -/
def findRow (e : Engine) (now : Moment) (session : Session) (template : Template) (id : String) :
    Run TableRow := do
  let t ← e.registry.find template.table
  match t.keyColumn? with
  | none => Run.stop (.error (.internal ("table " ++ t.id ++ " has no key column")))
  | some key =>
    let body := { template.body with filter := [.of key.id Builtin.eq [.string id]] }
    let found ← e.findRows now session { template with body, page := .all }
    match found.rows with
    | row :: _ => return row
    | [] => Run.stop (.error (.noResultForId t.id id))

end Engine

end TableQuery
