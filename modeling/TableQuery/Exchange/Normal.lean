import TableQuery.Config
import TableQuery.Exchange.Saved
import TableQuery.Exchange.Spec

/-!
# Normal forms of exchanged values

JSON may leave out members that have a default, write members in any order and add unknown ones.
The normal form of a JSON value is what is written for the value that is read from it.

## Main definitions

* `Exchange.normal` — the normal form through a reader and a writer.
* `Exchange.normalForm?` — the normal form as a value of a type that is given by its name.
-/

namespace TableQuery.Exchange

/-- The normal form of a value, if the reader accepts it. -/
def normal {α : Type} (read : Json → Option α) (write : α → Json) (j : Json) : Option Json :=
  (read j).map write

def normalName {α : Type} (name : α → String) (all : List α) : Json → Option Json :=
  normal (ofName? name all) fun a => .str (name a)

def types : List (String × (Json → Option Json)) :=
  [("Value", normal Value.ofJson? Value.toJson),
    ("OptionValue", normal Choice.ofJson? Choice.toJson),
    ("Cell", normal Cell.ofJson? Cell.toJson),
    ("RowActionInfo", normal ActionOffer.ofJson? ActionOffer.toJson),
    ("TableRow", normal TableRow.ofJson? TableRow.toJson),
    ("AggregateResult", normal AggregateResult.ofJson? AggregateResult.toJson),
    ("PageInfo", normal PageInfo.ofJson? PageInfo.toJson),
    ("TableRows", normal TableRows.ofJson? TableRows.toJson),
    ("Condition", normal Condition.ofJson? Condition.toJson),
    ("TemplateColumn", normal OutputColumn.ofJson? OutputColumn.toJson),
    ("TemplateBody", normal Template.Body.ofJson? Template.Body.toJson),
    ("PageParam", normal PageRequest.ofJson? PageRequest.toJson),
    ("OrderParam", normal SortKey.ofJson? SortKey.toJson),
    ("Template", normal Template.ofJson? Template.toJson),
    ("TemplateRef", normal TemplateRef.ofJson? TemplateRef.toJson),
    ("TableConfig", normal Config.ofJson? Config.toJson),
    ("FieldSpec", normal FieldSpec.ofJson? FieldSpec.toJson),
    ("TableSpec", normal TableSpec.ofJson? TableSpec.toJson),
    ("Link", normal Link.ofJson? Link.toJson),
    ("ValueType", normalName ColumnType.name ColumnType.all),
    ("DataKind", normalName StoredKind.name StoredKind.all),
    ("AggregateMethod", normalName Aggregate.name Aggregate.all),
    ("FilterArity", normalName Arity.name Arity.all),
    ("HrefStyle", normalName HrefStyle.name HrefStyle.all),
    ("Order", normalName Direction.name Direction.all),
    ("RowActionType", normalName ActionType.name ActionType.all),
    ("AccessType", normalName Access.name Access.all),
    ("UserInfo", normal UserInfo.ofJson? UserInfo.toJson),
    ("FileInfo", normal FileInfo.ofJson? FileInfo.toJson),
    ("SavedTemplate", normal SavedTemplate.ofJson? SavedTemplate.toJson)]

def normalForm? (type : String) (j : Json) : Option Json :=
  (types.lookup type).bind fun normal => normal j

end TableQuery.Exchange
