import TableQuery.Driver.Basic
import TableQuery.Exchange.Raw
import TableQuery.Exchange.Template

/-!
# What drivers are asked as JSON

## Main definitions

* `RawCondition.toJson`, `RawAggregate.toJson` — conditions and aggregates of drivers.
* `Fetch.toJson` — what a driver is asked for.
-/

namespace TableQuery

def RawCondition.toJson (c : RawCondition) : Json :=
  .obj [("column_id", .str c.column), ("operator_id", .str c.operator),
    ("values", .arr (c.values.map Raw.toJson))]

def RawCondition.ofJson? (j : Json) : Option RawCondition := do
  let r ← j.record? ["column_id", "operator_id", "values"]
  some ⟨← r.required? "column_id" Json.text?, ← r.required? "operator_id" Json.text?,
    ← r.optional? "values" [] (Json.list? Raw.ofJson?)⟩

def RawAggregate.toJson (a : RawAggregate) : Json :=
  .obj [("column_id", .str a.column), ("method", .str a.aggregate.name), ("value", a.value.toJson)]

def RawAggregate.ofJson? (j : Json) : Option RawAggregate := do
  let r ← j.record? ["column_id", "method", "value"]
  some ⟨← r.required? "column_id" Json.text?,
    ← r.required? "method" (ofName? Aggregate.name Aggregate.all),
    ← r.required? "value" Raw.ofJson?⟩

/-- What a driver is asked for as JSON, where the table is named by its id. -/
def Fetch.toJson (f : Fetch) : Json :=
  .obj [("table", .str f.table.id), ("conditions", .arr (f.conditions.map RawCondition.toJson)),
    ("output", textList f.output),
    ("aggregates", .arr (f.aggregates.map fun a => textList [a.column, a.aggregate.name])),
    ("page", .arr [.int f.page.page.toNat, .int f.page.size.toNat]),
    ("order", (f.order.map SortKey.toJson).getD .null)]

end TableQuery
