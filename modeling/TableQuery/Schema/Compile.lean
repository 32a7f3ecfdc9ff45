import TableQuery.Calendar.Pattern
import TableQuery.OptionLists
import TableQuery.Schema.Spec
import TableQuery.Schema.Table

/-!
# Tables from their descriptions

A description becomes a table if its fields fit together and exactly one of them is a key.

## Main definitions

* `Vocabulary` — the operators and option lists that descriptions may name.
* `FieldSpec.compile` — the column of a field.
* `TableSpec.compile` — the table of a description.
-/

namespace TableQuery

/-- The operators and option lists that descriptions may name. -/
structure Vocabulary where
  operators : Catalog
  options : OptionLists
  deriving Inhabited

/-- How dates are shown unless a column says otherwise. -/
def Calendar.datePattern : String := "%Y-%m-%d"

def Calendar.timePattern : String := "%Y-%m-%dT%H:%M:%SZ"

namespace StoredKind

def defaultType : StoredKind → ColumnType
  | bool => .bool
  | int | uint => .int
  | float => .double
  | _ => .string

def admits (kind : StoredKind) : ColumnType → Bool
  | .string => true
  | .int | .choice => kind.isInteger
  | .double => kind == .float || kind.isInteger
  | .bool => kind == .bool
  | .date | .time => kind == .time

def defaultFormat (kind : StoredKind) (type : ColumnType) : Option String :=
  match kind, type with
  | int, .string | uint, .string => some "%d"
  | float, .string => some "%g"
  | bool, .string => some "%v"
  | _, .date => some Calendar.datePattern
  | _, .time => some Calendar.timePattern
  | _, _ => none

end StoredKind

/-- The aggregates that a declaration such as `SUM|AVG` names, each once. -/
def Aggregate.declared (text : String) : Except String (List Aggregate) := do
  return (← (TableQuery.declared text).mapM Aggregate.ofText).eraseDups

namespace FieldSpec

/-- The type of the column: the declared one or that of the kind. A moment must be declared to be
a date or a time. -/
def columnType (f : FieldSpec) : Except SchemaError ColumnType := do
  let declared ←
    match f.valueType with
    | none => .ok none
    | some text =>
      match ColumnType.ofText text with
      | .ok type => .ok (some type)
      | .error type => .error (.unknownValueType f.id type)
  match f.kind, declared with
  | .time, some .date => .ok .date
  | .time, some .time => .ok .time
  | .time, _ => .error (.invalidValueTypeForTime f.id)
  | kind, declared =>
    let type := declared.getD kind.defaultType
    if kind.admits type then .ok type else .error (.incompatibleValueType f.id kind type)

/-- The option list of a column of that type, which must exist. -/
def columnOptions (f : FieldSpec) (v : Vocabulary) (type : ColumnType) :
    Except SchemaError (Option String) :=
  if type = .choice then
    match f.optionType with
    | none => .error (.missingOptionType f.id)
    | some options =>
      if v.options.contains options then .ok (some options)
      else .error (.optionTypeNotFound options)
  else .ok none

def columnFilters (f : FieldSpec) (v : Vocabulary) : Except SchemaError (List Operator) :=
  match f.filters with
  | none => .ok []
  | some declaration => v.operators.resolveFilters declaration

def columnAggregates (f : FieldSpec) : Except SchemaError (List Aggregate) :=
  match f.aggregates with
  | none => .ok []
  | some declaration => (Aggregate.declared declaration).mapError (.unknownAggregate f.id)

/-- The link of the column; a blank text is none. -/
def columnLink (f : FieldSpec) : Except SchemaError (Option Link) :=
  match f.link with
  | none => .ok none
  | some text =>
    if text.toList.all Text.isBlank then .ok none
    else
      match Link.read? f.id text with
      | some link => .ok (some link)
      | none => .error (.invalidLinkFormat f.id text)

def columnHrefStyle (f : FieldSpec) : Except SchemaError (Option HrefStyle) :=
  match f.href, f.hrefStyle with
  | none, _ => .ok none
  | some _, none => .ok (some .newTab)
  | some _, some text => ((HrefStyle.ofText text).map some).mapError (.invalidHrefStyle f.id)

/-- The width of the column, at least one. -/
def columnWidth (f : FieldSpec) : Except SchemaError UInt32 :=
  if f.width = some 0 then .error (.invalidColumnWidth f.id) else .ok (f.width.getD 1)

def compile (f : FieldSpec) (v : Vocabulary) : Except SchemaError Column := do
  if f.kind = .bytes ∨ f.kind = .json then throw (.unsupportedFieldKind f.id f.kind)
  let type ← f.columnType
  let optionType ← f.columnOptions v type
  let filters ← f.columnFilters v
  let aggregates ← f.columnAggregates
  let link ← f.columnLink
  let hrefStyle ← f.columnHrefStyle
  let width ← f.columnWidth
  return {
    id := f.id
    name := f.name.getD f.id
    kind := f.kind
    type
    format := f.format.or (f.kind.defaultFormat type)
    filters
    aggregates
    link
    isKey := f.key && type == .string
    internal := f.internal
    required := f.required
    orderable := f.orderable
    arraySplit := f.arraySplit.filter fun s => s != ""
    href := f.href
    hrefStyle
    width
    storageName := f.storageName.getD f.id
    storageExpression := f.storageExpression
    optionType }

end FieldSpec

namespace TableSpec

/-- A column fits behind the columns before it: its id and name are new, and there is no second
key. -/
def checkColumn (table : String) (before : List Column) (c : Column) : Except SchemaError Unit :=
  if before.any fun d => d.id == c.id then .error (.duplicateColumnId table c.id)
  else if before.any fun d => d.name == c.name then .error (.duplicateColumnName table c.name)
  else
    match before.find? Column.isKey with
    | some first =>
      if c.isKey then .error (.multipleKeyColumns table first.id c.id) else .ok ()
    | none => .ok ()

def compileFields (v : Vocabulary) (table : String) (before : List Column) :
    List FieldSpec → Except SchemaError (List Column)
  | [] => .ok before
  | f :: fields => do
    let c ← f.compile v
    checkColumn table before c
    compileFields v table (before ++ [c]) fields

/-- The table of a description. Its key must be searchable. -/
def compile (s : TableSpec) (v : Vocabulary) : Except SchemaError Table := do
  let columns ← compileFields v s.id [] (s.fields.filter fun f => !f.hidden)
  match columns.find? Column.isKey with
  | none => throw (.noKeyColumn s.id)
  | some key =>
    if key.supports Builtin.eq then
      return ⟨s.id, s.name, s.description, columns, key.id, [], none, none⟩
    else throw (.keyColumnMustSupportEq s.id key.id)

end TableSpec

end TableQuery
