import TableQuery.Schema.Table

/-!
# Registered tables

## Main definitions

* `Registry` — the tables that can be queried.
* `Registry.register`, `Registry.find`, `Registry.list` — tables and their ids.
-/

namespace TableQuery

/-- The tables that can be queried, with different ids and names. -/
structure Registry where
  tables : List Table
  deriving Inhabited

namespace Registry

def empty : Registry := ⟨[]⟩

def table? (r : Registry) (id : String) : Option Table :=
  r.tables.find? fun t => t.id == id

def find (r : Registry) (id : String) : Except QueryError Table :=
  match r.table? id with
  | some t => .ok t
  | none => .error (.tableNotFound id)

/-- With a further table, whose id and name must be new. -/
def register (r : Registry) (t : Table) : Except SchemaError Registry :=
  if (r.table? t.id).isSome then .error (.duplicateTableId t.id)
  else if r.tables.any fun u => u.name == t.name then .error (.duplicateTableName t.name)
  else .ok ⟨r.tables ++ [t]⟩

def list (r : Registry) : List Table :=
  sortByKey Table.id r.tables

theorem find_eq_ok_iff {r : Registry} {id : String} {t : Table} :
    r.find id = .ok t ↔ r.table? id = some t := by
  unfold find
  cases r.table? id <;> simp

theorem table?_id {r : Registry} {id : String} {t : Table} (h : r.table? id = some t) :
    t.id = id := by
  simpa using List.find?_some h

end Registry

end TableQuery
