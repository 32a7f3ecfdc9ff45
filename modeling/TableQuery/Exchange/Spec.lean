import TableQuery.Exchange.Value
import TableQuery.Schema.Spec

/-!
# Descriptions of tables as JSON

## Main definitions

* `FieldSpec.toJson`, `FieldSpec.ofJson?` — the description of a field.
* `TableSpec.toJson` — the description of a table.
-/

namespace TableQuery

namespace FieldSpec

def toJson (f : FieldSpec) : Json :=
  .obj [("id", .str f.id), ("kind", .str f.kind.name), ("name", textOrNull f.name),
    ("hidden", .bool f.hidden), ("key", .bool f.key), ("value_type", textOrNull f.valueType),
    ("format", textOrNull f.format), ("filters", textOrNull f.filters),
    ("aggregates", textOrNull f.aggregates), ("link", textOrNull f.link),
    ("internal", .bool f.internal), ("required", .bool f.required),
    ("orderable", .bool f.orderable), ("array_split", textOrNull f.arraySplit),
    ("href", textOrNull f.href), ("href_style", textOrNull f.hrefStyle),
    ("col_width", (f.width.map fun w => Json.int w.toNat).getD .null),
    ("db", textOrNull f.storageName), ("db_expr", textOrNull f.storageExpression),
    ("option_type", textOrNull f.optionType)]

def ofJson? (j : Json) : Option FieldSpec :=
  SpecNotation.json.field? (Json.named? StoredKind.named) j

end FieldSpec

def TableSpec.toJson (s : TableSpec) : Json :=
  .obj [("id", .str s.id), ("name", .str s.name), ("description", .str s.description),
    ("fields", .arr (s.fields.map FieldSpec.toJson))]

end TableQuery
