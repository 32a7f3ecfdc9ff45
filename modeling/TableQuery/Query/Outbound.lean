import TableQuery.Query.Inbound

/-!
# Cells of linked columns

The cells of a column of another table are filled after the local rows were fetched: the local
values are looked up there, all at once where that table can be asked for a list of values, and
otherwise one after the other.

## Main definitions

* `Findings` — values found for local texts.
* `Engine.lookupAll`, `Engine.lookupEach` — the two ways of looking up.
* `Engine.outbound` — rows with their linked cells filled.
-/

namespace TableQuery

/-- Values found for texts, the last found first. -/
abbrev Findings := List (String × Value)

def Link.template (l : Link) (operator : String) (values : List Value) (page : PageRequest) :
    Template :=
  .temporary l.table ⟨[.of l.searchColumn operator values], l.output⟩ page

namespace Engine

/-- The local values of rows as values of the column searched in: each text once, and null not
at all. -/
def localKeys (l : Link) (search : Column) (seen : List String) :
    List TableRow → Except QueryError (List Value)
  | [] => .ok []
  | row :: rows =>
    match row.value? l.localColumn with
    | none => localKeys l search seen rows
    | some value =>
      if value.isNull || seen.contains value.display then localKeys l search seen rows
      else do
        let key ← search.retyped value
        return key :: (← localKeys l search (value.display :: seen) rows)

/-- What rows of the other table say about texts. -/
def findings (l : Link) (rows : List TableRow) : Findings :=
  (rows.filterMap fun row => do
    some ((← row.value? l.searchColumn).display, ← row.value? l.valueColumn)).reverse

def lookupAll (find : Template → Run TableRows) (l : Link) (search : Column)
    (rows : List TableRow) : Run Findings := do
  let keys ← localKeys l search [] rows
  if keys.isEmpty then return []
  else return findings l (← find (l.template Builtin.isIn keys .all)).rows

/-- Look up the local value of each row, behind what was found already. -/
def lookupEach (find : Template → Run TableRows) (l : Link) (search : Column) (found : Findings) :
    List TableRow → Run Findings
  | [] => return found
  | row :: rows =>
    match (row.value? l.localColumn).filter fun v => !v.isNull with
    | none => lookupEach find l search found rows
    | some value => do
      let key ← search.retyped value
      let answer ← find (l.template Builtin.eq [key] ⟨0, 1⟩)
      match answer.rows.head?.bind fun r => r.value? l.valueColumn with
      | none => lookupEach find l search found rows
      | some v => lookupEach find l search ((key.display, v) :: found) rows

def lookup (e : Engine) (find : Template → Run TableRows) (l : Link) (rows : List TableRow) :
    Run Findings := do
  let remote ← e.registry.find l.table
  let search ← remote.column l.searchColumn
  let _ ← remote.column l.valueColumn
  if search.supports Builtin.isIn then lookupAll find l search rows
  else if search.supports Builtin.eq then lookupEach find l search [] rows
  else Run.stop (.error (.tableColumnNotLinkable remote.id search.id))

/-- Change the first cell of a column. -/
def setCell (column : String) (value : Value) : List Cell → List Cell
  | [] => []
  | cell :: cells =>
    if cell.column = column then { cell with value, values := [value] } :: cells
    else cell :: setCell column value cells

def fillRow (c : Column) (l : Link) (found : Findings) (row : TableRow) : TableRow :=
  let value := (row.value? l.localColumn).bind fun v => found.lookup v.display
  { row with cells := setCell c.id (value.getD c.emptyValue) row.cells }

/-- Rows with the cells of linked columns filled, one column after the other. -/
def fillColumns (e : Engine) (find : Template → Run TableRows) :
    List (Column × Link) → List TableRow → Run (List TableRow)
  | [], rows => return rows
  | (c, l) :: linked, rows => do
    let found ← e.lookup find l rows
    e.fillColumns find linked (rows.map (fillRow c l found))

def linkedColumns (t : Table) (row : TableRow) : List (Column × Link) :=
  row.cells.filterMap fun cell => do
    let c ← t.column? cell.column
    some (c, ← c.outboundLink?)

/-- Rows with their linked cells filled. The first row tells which cells they are. -/
def outbound (e : Engine) (find : Template → Run TableRows) (t : Table) (rows : List TableRow) :
    Run (List TableRow) :=
  match rows with
  | [] => return []
  | row :: _ => e.fillColumns find (linkedColumns t row) rows

end Engine

end TableQuery
