import TableQuery.Exchange.Value
import TableQuery.Json.Writer
import TableQuery.Template.Basic

/-!
# Templates as JSON

## Main definitions

* `Template.Body.toJson`, `Template.Body.ofJson?` — what is saved of a template.
* `Template.Body.encode`, `Template.Body.decode?` — the same as a text.
* `Template.toJson`, `Template.ofJson?` — a whole template.
* `TemplateRef` — how a template is named.
-/

namespace TableQuery

namespace Condition

def toJson (c : Condition) : Json :=
  .obj [("column_id", .str c.column), ("operator_id", .str c.operator),
    ("values", .arr (c.values.map Value.toJson))]

def ofJson? (j : Json) : Option Condition := do
  let r ← j.record? ["column_id", "operator_id", "values"]
  some ⟨← r.required? "column_id" Json.text?, ← r.required? "operator_id" Json.text?,
    ← r.optional? "values" [] (Json.list? Value.ofJson?)⟩

end Condition

namespace OutputColumn

def toJson (c : OutputColumn) : Json :=
  .obj [("column_id", .str c.column), ("visible", .bool c.visible),
    ("aggregate", .str c.aggregate.name)]

def ofJson? (j : Json) : Option OutputColumn := do
  let r ← j.record? ["column_id", "visible", "aggregate"]
  some ⟨← r.required? "column_id" Json.text?, ← r.optional? "visible" true Json.bool?,
    ← r.optional? "aggregate" .none (ofName? Aggregate.name Aggregate.all)⟩

end OutputColumn

namespace Template.Body

def toJson (b : Body) : Json :=
  .obj [("filter", .arr (b.filter.map Condition.toJson)),
    ("output", .arr (b.output.map OutputColumn.toJson))]

def ofJson? (j : Json) : Option Body := do
  let r ← j.record? ["filter", "output"]
  some ⟨← r.optional? "filter" [] (Json.list? Condition.ofJson?),
    ← r.optional? "output" [] (Json.list? OutputColumn.ofJson?)⟩

def encode (b : Body) : String :=
  b.toJson.write

def decode? (text : String) : Option Body :=
  (Json.parseLoose? text).bind ofJson?

end Template.Body

namespace PageRequest

def toJson (p : PageRequest) : Json :=
  .obj [("page", .int p.page.toNat), ("page_size", .int p.size.toNat)]

def ofJson? (j : Json) : Option PageRequest := do
  let r ← j.record? ["page", "page_size"]
  some ⟨← r.optional? "page" 0 Json.uint64?, ← r.optional? "page_size" 0 Json.uint64?⟩

end PageRequest

namespace SortKey

def toJson (k : SortKey) : Json :=
  .obj [("column_id", .str k.column), ("order", .str k.direction.name)]

def ofJson? (j : Json) : Option SortKey := do
  let r ← j.record? ["column_id", "order"]
  some ⟨← r.required? "column_id" Json.text?,
    ← r.optional? "order" .ascending (ofName? Direction.name Direction.all)⟩

end SortKey

namespace Template

def toJson (t : Template) : Json :=
  .obj [("id", .str t.id), ("name", .str t.name), ("table_id", .str t.table),
    ("body", t.body.toJson), ("page", t.page.toJson),
    ("order", (t.order.map SortKey.toJson).getD .null)]

def ofJson? (j : Json) : Option Template := do
  let r ← j.record? ["id", "name", "table_id", "body", "page", "order"]
  some {
    id := ← r.optional? "id" "" Json.text?
    name := ← r.optional? "name" "" Json.text?
    table := ← r.required? "table_id" Json.text?
    body := ← r.optional? "body" ⟨[], []⟩ Body.ofJson?
    page := ← r.optional? "page" .all PageRequest.ofJson?
    order := ← r.optional? "order" none (Json.nullable? SortKey.ofJson?) }

end Template

/-- How a template is named: by an id, or by what it holds. -/
inductive TemplateRef where
  | saved (id : String)
  | inline (body : Template.Body)

namespace TemplateRef

def toJson : TemplateRef → Json
  | saved id => .obj [("id", .str id)]
  | inline body => .obj [("inline", body.toJson)]

def ofJson? : Json → Option TemplateRef
  | .obj [("id", j)] => j.text?.map .saved
  | .obj [("inline", j)] => (Template.Body.ofJson? j).map .inline
  | _ => none

end TemplateRef

end TableQuery
