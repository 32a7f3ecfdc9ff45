import TableQuery.Exchange.Template
import TableQuery.Schema.Table

/-!
# Operators and tables as JSON

What those who build queries must know of the tables that can be queried.

## Main definitions

* `Operator.toJson`, `OperatorNode.toJson` — operators and sets of them.
* `Column.toJson`, `Table.toJson` — columns and tables.
-/

namespace TableQuery

namespace Operator

def toJson (op : Operator) : Json :=
  .obj [("id", .str op.id), ("name", .str op.name), ("arity", .str op.arity.name)]

def idsToJson (ops : List Operator) : Json :=
  textList (ops.map Operator.id)

end Operator

namespace OperatorNode

/-- What is known of a node besides its operators. -/
def ownMembers : OperatorNode → List (String × Json)
  | operator op =>
    [("node", .str "operator"), ("arity", .str op.arity.name),
      ("namespace", .str (namespaceOf op.id))]
  | set _ => [("node", .str "set")]

def toJson (n : OperatorNode) : Json :=
  .obj (n.ownMembers ++ [("id", .str n.id), ("name", .str n.name),
    ("operators", Operator.idsToJson n.operators)])

end OperatorNode

namespace Column

def toJson (c : Column) : Json :=
  .obj [("id", .str c.id), ("name", .str c.name), ("kind", .str c.kind.name),
    ("value_type", .str c.type.name), ("format", textOrNull c.format),
    ("filters", Operator.idsToJson c.filters),
    ("aggregates", textList (c.aggregates.map Aggregate.name)),
    ("link", (c.link.map Link.toJson).getD .null), ("is_key", .bool c.isKey),
    ("internal", .bool c.internal), ("required", .bool c.required),
    ("orderable", .bool c.orderable), ("array_split", textOrNull c.arraySplit),
    ("href", textOrNull c.href), ("href_style", (c.hrefStyle.map HrefStyle.toJson).getD .null),
    ("col_width", .int c.width.toNat), ("storage_name", .str c.storageName),
    ("storage_expr", textOrNull c.storageExpression),
    ("storage_expression", .str c.expression), ("option_type", textOrNull c.optionType),
    ("outbound", .bool c.isOutbound), ("supports_sum", .bool (c.supportsAggregate .sum))]

end Column

def Table.toJson (t : Table) : Json :=
  .obj [("id", .str t.id), ("name", .str t.name), ("description", .str t.description),
    ("key", .str t.key), ("empty", .bool t.columns.isEmpty),
    ("actions", .arr (t.actions.map fun a => textList [a.id, a.type.name])),
    ("columns", .arr (t.columns.map Column.toJson)),
    ("empty_template", t.emptyTemplate.toJson), ("default_template", t.defaultTemplate.toJson)]

end TableQuery
