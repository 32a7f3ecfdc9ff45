import TableQuery.Sql.Statement

/-!
# Relations and statements on them

Statements that read, insert, change and delete the rows of one relation. Columns are written
with the name of their relation before them where a condition or an order mentions them.

## Main definitions

* `Sql.Relation` — a relation and its columns.
* `Sql.Relation.equals`, `Sql.Relation.oneOf` — conditions on a column.
* `Sql.Relation.select`, `Sql.Relation.insert`, `Sql.Relation.update`, `Sql.Relation.delete` —
  statements.
-/

namespace TableQuery.Sql

def Bound.text (s : String) : Bound := .raw (.text s)

structure Relation where
  name : String
  columns : List String
  deriving DecidableEq, Repr, Inhabited

namespace Relation

/-- A column with the name of its relation. -/
def qualified (r : Relation) (d : Dialect) (column : String) : String :=
  quote d r.name ++ "." ++ quote d column

def equals (r : Relation) (d : Dialect) (column : String) (v : Bound) : Fragment :=
  .text (r.qualified d column ++ " = ") ++ .value v

def oneOf (r : Relation) (d : Dialect) (column : String) (texts : List String) : Fragment :=
  .text (r.qualified d column ++ " IN (") ++
    .join ", " (texts.map fun s => .value (.text s)) ++ .text ")"

def whereAll (conditions : List Fragment) : Fragment :=
  .text " WHERE " ++ .join " AND " conditions

/-- The first of the columns decides the order, then the next one. -/
def orderBy (r : Relation) (d : Dialect) (columns : List String) : Fragment :=
  if columns.isEmpty then []
  else .text (" ORDER BY " ++ ", ".intercalate (columns.map fun c => r.qualified d c ++ " ASC"))

def select (r : Relation) (d : Dialect) (conditions : List Fragment) (order : List String) :
    Fragment :=
  .text ("SELECT " ++ ", ".intercalate (r.columns.map (r.qualified d)) ++ " FROM " ++
    quote d r.name) ++ whereAll conditions ++ r.orderBy d order

def insert (r : Relation) (d : Dialect) (columns : List String) (rows : List (List Bound)) :
    Fragment :=
  let row (values : List Bound) : Fragment :=
    .text "(" ++ .join ", " (values.map Fragment.value) ++ .text ")"
  .text ("INSERT INTO " ++ quote d r.name ++ " (" ++ ", ".intercalate (columns.map (quote d)) ++
    ") VALUES ") ++ .join ", " (rows.map row)

def update (r : Relation) (d : Dialect) (values : List (String × Bound))
    (conditions : List Fragment) : Fragment :=
  .text ("UPDATE " ++ quote d r.name ++ " SET ") ++
    .join ", " (values.map fun (c, v) => .text (quote d c ++ " = ") ++ .value v) ++
    whereAll conditions

def delete (r : Relation) (d : Dialect) (conditions : List Fragment) : Fragment :=
  .text ("DELETE FROM " ++ quote d r.name) ++ whereAll conditions

end Relation

end TableQuery.Sql
