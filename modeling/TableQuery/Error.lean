import TableQuery.Value.Kind
import TableQuery.Text.Integer

/-!
# Errors

The causes for which tables are not accepted and queries not answered, and their wording.

## Main definitions

* `SchemaError` — why a table, an operator or an option list is not accepted.
* `QueryError` — why a query or a request about a template fails.
* `SchemaError.message`, `QueryError.message` — the wording.
* `SchemaError.code`, `QueryError.code` — the names by which programs tell errors apart.
-/

namespace TableQuery

/-- Why a table, an operator or an option list is not accepted. -/
inductive SchemaError where
  | duplicateColumnId (table column : String)
  | duplicateColumnName (table name : String)
  | multipleKeyColumns (table first second : String)
  | noKeyColumn (table : String)
  | keyColumnMustSupportEq (table column : String)
  | invalidLinkFormat (column link : String)
  | unsupportedFieldKind (column : String) (kind : StoredKind)
  | unknownValueType (column type : String)
  | invalidValueTypeForTime (column : String)
  | incompatibleValueType (column : String) (kind : StoredKind) (type : ColumnType)
  | unknownAggregate (column aggregate : String)
  | invalidColumnWidth (column : String)
  | invalidHrefStyle (column style : String)
  | missingOptionType (column : String)
  | optionTypeNotFound (type : String)
  | duplicateOptionType (type : String)
  | duplicateTableId (table : String)
  | duplicateTableName (name : String)
  | invalidOperatorId (id : String)
  | reservedNamespace (space : String)
  | duplicateNodeId (id : String)
  | duplicateNodeName (name : String)
  | nodeNotExist (id : String)
  | invalidLink (table column link reason : String)
  /-- The text of a table description cannot be read. -/
  | invalidSpec
  deriving DecidableEq, Repr, Inhabited

namespace SchemaError

def message : SchemaError → String
  | duplicateColumnId table column => "Duplicate column id " ++ column ++ " in table " ++ table
  | duplicateColumnName table name => "Duplicate column name " ++ name ++ " in table " ++ table
  | multipleKeyColumns table first second =>
    "Multiple key columns not allowed in table " ++ table ++ ": " ++ first ++ ", " ++ second
  | noKeyColumn table => "No key column specified for table " ++ table
  | keyColumnMustSupportEq table column =>
    "Key column " ++ column ++ " of table " ++ table ++ " must support EQ"
  | invalidLinkFormat column link =>
    "Invalid link format on column " ++ column ++ ": " ++ link
  | unsupportedFieldKind column kind =>
    "Unsupported field kind " ++ kind.name ++ " on column " ++ column
  | unknownValueType column type => "Unknown value type " ++ type ++ " on column " ++ column
  | invalidValueTypeForTime column =>
    "Column " ++ column ++ " holds a time value and must declare value type DATE or TIME"
  | incompatibleValueType column kind type =>
    "Value type " ++ type.name ++ " cannot be used for kind " ++ kind.name ++ " on column " ++
      column
  | unknownAggregate column aggregate =>
    "Unknown aggregate " ++ aggregate ++ " on column " ++ column
  | invalidColumnWidth column => "Invalid column width on column " ++ column
  | invalidHrefStyle column style => "Invalid href style " ++ style ++ " on column " ++ column
  | missingOptionType column => "Option column " ++ column ++ " must declare an option type"
  | optionTypeNotFound type => "Option type not found: " ++ type
  | duplicateOptionType type => "Duplicate option type: " ++ type
  | duplicateTableId table => "Duplicate table id: " ++ table
  | duplicateTableName name => "Duplicate table name: " ++ name
  | invalidOperatorId id => "Invalid operator id: " ++ id
  | reservedNamespace space => "Namespace " ++ space ++ " is reserved"
  | duplicateNodeId id => "Duplicate operator node id: " ++ id
  | duplicateNodeName name => "Duplicate operator node name: " ++ name
  | nodeNotExist id => "Operator node does not exist: " ++ id
  | invalidLink table column link reason =>
    "Invalid link " ++ link ++ " on " ++ table ++ "." ++ column ++ ": " ++ reason
  | invalidSpec => "Invalid table spec"

/-- The name of an error, which does not change with its wording. -/
def code : SchemaError → String
  | duplicateColumnId .. => "DuplicateColumnId"
  | duplicateColumnName .. => "DuplicateColumnName"
  | multipleKeyColumns .. => "MultipleKeyColumns"
  | noKeyColumn .. => "NoKeyColumn"
  | keyColumnMustSupportEq .. => "KeyColumnMustSupportEq"
  | invalidLinkFormat .. => "InvalidLinkFormat"
  | unsupportedFieldKind .. => "UnsupportedFieldKind"
  | unknownValueType .. => "UnknownValueType"
  | invalidValueTypeForTime .. => "InvalidValueTypeForTime"
  | incompatibleValueType .. => "IncompatibleValueType"
  | unknownAggregate .. => "UnknownAggregate"
  | invalidColumnWidth .. => "InvalidColumnWidth"
  | invalidHrefStyle .. => "InvalidHrefStyle"
  | missingOptionType .. => "MissingOptionType"
  | optionTypeNotFound .. => "OptionTypeNotFound"
  | duplicateOptionType .. => "DuplicateOptionType"
  | duplicateTableId .. => "DuplicateTableId"
  | duplicateTableName .. => "DuplicateTableName"
  | invalidOperatorId .. => "InvalidOperatorId"
  | reservedNamespace .. => "ReservedNamespace"
  | duplicateNodeId .. => "DuplicateNodeId"
  | duplicateNodeName .. => "DuplicateNodeName"
  | nodeNotExist .. => "NodeNotExist"
  | invalidLink .. => "InvalidLink"
  | invalidSpec => "InvalidSpec"

end SchemaError

/-- Why a query or a request about a template fails. -/
inductive QueryError where
  | schema (e : SchemaError)
  | tableNotFound (table : String)
  | invalidColumnId (table column : String)
  | operatorNotSupported (column operator : String)
  /-- The days of a period are not all in the calendar. -/
  | beyondCalendar (column operator : String)
  | invalidConditionValueCount (column operator expected : String) (got : Nat)
  | invalidConditionValueType (column : String) (expected : ColumnType) (got : String)
  | aggregateNotSupported (column : String) (aggregate : Aggregate)
  | emptyOutput (table : String)
  | duplicateOutputColumn (column : String)
  | driverNotFound (table : String)
  | duplicateDriver (table : String)
  | resultExceedMaxLimit (count limit : UInt64)
  | tableColumnNotLinkable (table column : String)
  | noResultForId (table id : String)
  | rowActionNotFound (table action : String)
  | notFormAction (action : String)
  /-- A form has nothing to offer for a row. -/
  | actionNotSupported (action : String)
  | operatePermissionDenied (template : String)
  | publicSharingDisabled
  | templateNotFound (template : String)
  | failedMapValue (column reason : String)
  | failedParseValue (column value : String)
  | sessionTimeout
  | backend (reason : String)
  /-- A stored text cannot be read. -/
  | serialization
  | invalidQuery (reason : String)
  | internal (reason : String)
  deriving DecidableEq, Repr, Inhabited

namespace QueryError

def message : QueryError → String
  | schema e => e.message
  | tableNotFound table => "Table not found: " ++ table
  | invalidColumnId table column => "Invalid column id " ++ column ++ " for table " ++ table
  | operatorNotSupported column operator =>
    "Operator " ++ operator ++ " not supported by column " ++ column
  | beyondCalendar column operator =>
    "Operator " ++ operator ++ " on column " ++ column ++ " reaches beyond the calendar"
  | invalidConditionValueCount column operator expected got =>
    "Operator " ++ operator ++ " on column " ++ column ++ " expects " ++ expected ++
      " value(s), got " ++ Text.ofInt got
  | invalidConditionValueType column expected got =>
    "Invalid value for column " ++ column ++ ": expected " ++ expected.name ++ ", got " ++ got
  | aggregateNotSupported column aggregate =>
    "Aggregate " ++ aggregate.name ++ " not supported by column " ++ column
  | emptyOutput table => "Template output of table " ++ table ++ " is empty"
  | duplicateOutputColumn column => "Duplicate output column " ++ column
  | driverNotFound table => "No driver registered for table " ++ table
  | duplicateDriver table => "Driver already registered for table " ++ table
  | resultExceedMaxLimit count limit =>
    "Result count " ++ Text.ofInt count.toNat ++ " exceeds max limit " ++ Text.ofInt limit.toNat
  | tableColumnNotLinkable table column =>
    "Column " ++ table ++ "." ++ column ++ " can not be used as a link target"
  | noResultForId table id => "No result for id " ++ id ++ " in table " ++ table
  | rowActionNotFound table action =>
    "Row action " ++ action ++ " not found in table " ++ table
  | notFormAction action => "Row action " ++ action ++ " is not a form action"
  | actionNotSupported action => "Row action " ++ action ++ " does not apply to this row"
  | operatePermissionDenied template => "Operation permission denied: " ++ template
  | publicSharingDisabled => "Disable sharing form to all users"
  | templateNotFound template => "Template not found: " ++ template
  | failedMapValue column reason =>
    "Failed to map value for column " ++ column ++ ": " ++ reason
  | failedParseValue column value =>
    "Failed to parse value " ++ value ++ " for column " ++ column
  | sessionTimeout => "Session deadline exceeded"
  | backend reason => "Backend error: " ++ reason
  | serialization => "Serialization error"
  | invalidQuery reason => "Invalid query: " ++ reason
  | internal reason => "Internal error: " ++ reason

def code : QueryError → String
  | schema e => e.code
  | tableNotFound .. => "TableNotFound"
  | invalidColumnId .. => "InvalidColumnId"
  | operatorNotSupported .. => "OperatorNotSupported"
  | beyondCalendar .. => "BeyondCalendar"
  | invalidConditionValueCount .. => "InvalidConditionValueCount"
  | invalidConditionValueType .. => "InvalidConditionValueType"
  | aggregateNotSupported .. => "AggregateNotSupported"
  | emptyOutput .. => "EmptyOutput"
  | duplicateOutputColumn .. => "DuplicateOutputColumn"
  | driverNotFound .. => "DriverNotFound"
  | duplicateDriver .. => "DuplicateDriver"
  | resultExceedMaxLimit .. => "ResultExceedMaxLimit"
  | tableColumnNotLinkable .. => "TableColumnNotLinkable"
  | noResultForId .. => "NoResultForId"
  | rowActionNotFound .. => "RowActionNotFound"
  | notFormAction .. => "NotFormAction"
  | actionNotSupported .. => "ActionNotSupported"
  | operatePermissionDenied .. => "OperatePermissionDenied"
  | publicSharingDisabled => "PublicSharingDisabled"
  | templateNotFound .. => "TemplateNotFound"
  | failedMapValue .. => "FailedMapValue"
  | failedParseValue .. => "FailedParseValue"
  | sessionTimeout => "SessionTimeout"
  | backend .. => "Backend"
  | serialization => "Serialization"
  | invalidQuery .. => "InvalidQuery"
  | internal .. => "Internal"

end QueryError

end TableQuery
