import TableQuery.Cell.Entered
import TableQuery.Query.Run

/-!
# Conditions on linked columns

A condition on a column of another table is answered by that table: the rows found there become
a list of values for the local column of the link. Conditions on columns with the same lookup
are answered together.

## Main definitions

* `Column.retyped` — a value of one column as a value of another.
* `LinkGroup` — conditions that are answered together.
* `LinkGroup.template` — the question to the other table.
* `Engine.inbound` — the conditions on local columns.
-/

namespace TableQuery

def Column.retyped (c : Column) (v : Value) : Except QueryError Value :=
  if v.type? = some c.type then .ok v else c.entered v.display

/-- The links look up the same local column in the same column there. -/
def Link.sameLookup (a b : Link) : Bool :=
  a.table == b.table && a.localColumn == b.localColumn && a.searchColumn == b.searchColumn

/-- The output of a lookup: the column searched in and the column whose value is taken. -/
def Link.output (l : Link) : List OutputColumn :=
  if l.valueColumn = l.searchColumn then [.plain l.searchColumn]
  else [.plain l.searchColumn, .plain l.valueColumn]

/-- Conditions that are answered together, by the link of the first. -/
structure LinkGroup where
  link : Link
  members : List Condition

namespace LinkGroup

/-- The conditions with a further one: in the first group with the same lookup, or in a group of
its own. -/
def insert (link : Link) (condition : Condition) : List LinkGroup → List LinkGroup
  | [] => [⟨link, [condition]⟩]
  | g :: gs =>
    if g.link.sameLookup link then ⟨g.link, g.members ++ [condition]⟩ :: gs
    else g :: insert link condition gs

def collect (conditions : List (Link × Condition)) : List LinkGroup :=
  conditions.foldl (fun groups (link, condition) => insert link condition groups) []

/-- The question to the other table: the rows on which the conditions hold there. -/
def template (g : LinkGroup) : Template :=
  .temporary g.link.table
    ⟨g.members.map fun m => ⟨g.link.valueColumn, m.operator, m.values⟩, g.link.output⟩ .all

/-- The raw values of a local column for rows of the other table, each text once. -/
def keys (l : Link) (here : Column) (seen : List String) :
    List TableRow → Except QueryError (List Raw)
  | [] => .ok []
  | row :: rows =>
    match row.value? l.searchColumn with
    | none => keys l here seen rows
    | some value =>
      if seen.contains value.display then keys l here seen rows
      else do
        let raw ← here.native (← here.retyped value)
        return raw :: (← keys l here (value.display :: seen) rows)

end LinkGroup

namespace Engine

/-- The condition on a local column that a group stands for, unless nothing is found there. -/
def inboundCondition (e : Engine) (find : Template → Run TableRows) (t : Table) (g : LinkGroup) :
    Run (Option RawCondition) := do
  let _ ← e.registry.find g.link.table
  let here ← t.column g.link.localColumn
  let found ← find g.template
  if found.rows.isEmpty then return none
  else return some ⟨here.id, Builtin.isIn, ← LinkGroup.keys g.link here [] found.rows⟩

/-- The conditions on local columns that groups stand for, up to the first for which nothing is
found. -/
def inbound (e : Engine) (find : Template → Run TableRows) (t : Table) :
    List LinkGroup → Run (Option (List RawCondition))
  | [] => return some []
  | g :: gs => do
    match ← e.inboundCondition find t g with
    | none => return none
    | some condition => return (← e.inbound find t gs).map (condition :: ·)

end Engine

end TableQuery
