import TableQuery.Registry.Basic

/-!
# Links of registered tables

Once all tables are there, their links can be followed. Conditions on a column of another table
are answered by that table, so such a column takes over the operators of the column there.

## Main definitions

* `Registry.followLink` — the column whose values a link takes.
* `Registry.linkedColumn` — a column with the operators of the column it is linked to.
* `Registry.validateLinks` — the registry with all links followed.
-/

namespace TableQuery

namespace Registry

/-- The column whose values a link of a table takes, which must be searchable by one of the two
operators that lookups use. -/
def followLink (r : Registry) (t : Table) (l : Link) : Except String Column := do
  if !t.hasColumn l.localColumn then throw "local column not found"
  let remote ← (r.table? l.table).elim (throw "remote table not found") pure
  let search ← (remote.column? l.searchColumn).elim (throw "remote search column not found") pure
  if !search.supports Builtin.eq && !search.supports Builtin.isIn then
    throw "remote search column supports neither EQ nor IN"
  (remote.column? l.valueColumn).elim (throw "remote value column not found") pure

/-- A column after its link was followed. If conditions on the local column may list values, the
column takes over the operators of the column it is linked to. -/
def linkedColumn (r : Registry) (t : Table) (c : Column) : Except SchemaError Column :=
  match c.outboundLink? with
  | none => .ok c
  | some l =>
    match r.followLink t l with
    | .error reason => .error (.invalidLink t.id c.id l.display reason)
    | .ok value =>
      if ((t.column? l.localColumn).map fun k => k.supports Builtin.isIn).getD false then
        .ok { c with filters := value.filters }
      else .ok c

def linkedColumns (r : Registry) (t : Table) : List Column → Except SchemaError (List Column)
  | [] => .ok []
  | c :: cs => do return (← r.linkedColumn t c) :: (← r.linkedColumns t cs)

def linkedTable (r : Registry) (t : Table) : Except SchemaError Table := do
  return { t with columns := ← r.linkedColumns t t.columns }

def linkedTables (r : Registry) : List Table → Except SchemaError (List Table)
  | [] => .ok []
  | t :: ts => do return (← r.linkedTable t) :: (← r.linkedTables ts)

/-- The registry after all links were followed, each as the tables were before. -/
def validateLinks (r : Registry) : Except SchemaError Registry := do
  return ⟨← r.linkedTables r.list⟩

end Registry

end TableQuery
