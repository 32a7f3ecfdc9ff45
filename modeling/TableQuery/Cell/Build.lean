import TableQuery.Cell.Typed

/-!
# Cells and rows of stored rows

## Main definitions

* `StoredRow.get?` — the raw value of a column in a stored row.
* `Column.cell` — the cell of a raw value.
* `Table.row` — the row of a stored row.
-/

namespace TableQuery

def StoredRow.get? (row : StoredRow) (c : Column) : Option Raw :=
  match row with
  | keyed values => some ((values.lookup c.storageName).getD .null)
  | record fields => fields.lookup c.id
  | typed _ => none

namespace Column

/-- The values of a cell: the parts of a list, or the value alone. -/
def parts (c : Column) (value : Value) : List Value :=
  match c.arraySplit, value with
  | some separator, .string s =>
    (Text.splitAtText separator.toList s.toList).map fun part => .string (String.ofList part)
  | _, value => [value]

/-- The address of a cell: the column's format for addresses with the raw value in it, or with
the text shown for it. -/
def address? (c : Column) (raw : Raw) (value : Value) : Option String := do
  let format ← c.href
  let text := value.text?.map fun s => ValueFormat.Argument.text s.toList
  let argument ← raw.argument?.or text
  some (ValueFormat.sprintf format argument)

/-- The cell of a raw value; without one, the cell of a column that is not in the row. -/
def cell (c : Column) (options : OptionLists) (raw : Option Raw) : Except QueryError Cell := do
  let value ←
    match raw with
    | some raw => c.typed options raw
    | none => .ok c.emptyValue
  return {
    column := c.id
    value
    values := c.parts value
    link := c.link
    href := raw.bind fun raw => c.address? raw value
    hrefStyle := if raw.isSome ∧ c.href.isSome then c.hrefStyle else none }

end Column

namespace Table

/-- The raw value from which a cell is made: none for a column of another table, and otherwise
one that the row must provide. -/
def source (row : StoredRow) (c : Column) : Except QueryError (Option Raw) :=
  if c.isOutbound then .ok none
  else
    match row.get? c with
    | some raw => .ok (some raw)
    | none => .error (.failedMapValue c.id "row does not provide this column")

def cells (t : Table) (options : OptionLists) (row : StoredRow) :
    List String → Except QueryError (List (Column × Cell))
  | [] => .ok []
  | id :: ids => do
    let c ← t.column id
    let cell ← c.cell options (← source row c)
    return (c, cell) :: (← t.cells options row ids)

/-- The id of a row whose key is not among its cells. -/
def missingId (t : Table) (options : OptionLists) (row : StoredRow) : Except QueryError String :=
  match t.keyColumn?.bind fun key => (row.get? key).map fun raw => (key, raw) with
  | some (key, raw) => (key.typed options raw).map Value.display
  | none => .ok ""

/-- The row of a stored row with the cells of some columns. Its id is the text of its key. -/
def row (t : Table) (options : OptionLists) (stored : StoredRow) (output : List String) :
    Except QueryError TableRow :=
  match stored with
  | .typed row => .ok row
  | stored => do
    let cells ← t.cells options stored output
    let shown := ((cells.filter fun p => p.1.isKey).getLast?.map fun p => p.2.value.display).getD ""
    let id ← if shown = "" then t.missingId options stored else .ok shown
    return ⟨id, cells.map Prod.snd, []⟩

end Table

end TableQuery
