import TableQuery.Json.Reader
import TableQuery.Value.Row

/-!
# Values and rows as JSON

Typed values are objects of a type and a value. Members that say nothing are left out when rows
are written.

## Main definitions

* `Value.toJson`, `Value.ofJson?` — typed values.
* `TableRow.toJson`, `TableRow.ofJson?` — rows with their cells and actions.
* `TableRows.toJson`, `TableRows.ofJson?` — answers.
-/

namespace TableQuery

def namedBy {α : Type} (name : α → String) (all : List α) : List (String × α) :=
  all.map fun a => (name a, a)

def ofName? {α : Type} (name : α → String) (all : List α) (j : Json) : Option α :=
  j.named? (namedBy name all)

/-- A member that is left out where there is nothing. -/
def memberOf {α : Type} (name : String) (toJson : α → Json) : Option α → List (String × Json)
  | none => []
  | some a => [(name, toJson a)]

/-- A list that is left out where it is empty. -/
def listMember {α : Type} (name : String) (toJson : α → Json) : List α → List (String × Json)
  | [] => []
  | as => [(name, .arr (as.map toJson))]

def textOrNull : Option String → Json
  | none => .null
  | some s => .str s

def textList (texts : List String) : Json :=
  .arr (texts.map .str)

namespace Choice

def toJson (c : Choice) : Json :=
  .obj [("id", .int c.id.toInt), ("name", .str c.name)]

def ofJson? (j : Json) : Option Choice := do
  let r ← j.record? ["id", "name"]
  some ⟨← r.required? "id" Json.int32?, ← r.required? "name" Json.text?⟩

end Choice

namespace Value

inductive Tag where
  | null
  | string
  | int
  | double
  | bool
  | date
  | time
  | option
  deriving DecidableEq

def Tag.name : Tag → String
  | null => "null"
  | string => "string"
  | int => "int"
  | double => "double"
  | bool => "bool"
  | date => "date"
  | time => "time"
  | option => "option"

def Tag.all : List Tag := [null, string, int, double, bool, date, time, option]

def tagged (tag : Tag) (content : Json) : Json :=
  .obj [("type", .str tag.name), ("value", content)]

def toJson : Value → Json
  | .null => .obj [("type", .str Tag.null.name)]
  | .string s => tagged .string (.str s)
  | .int i => tagged .int (.int i.toInt)
  | .double x => tagged .double (.float x)
  | .bool b => tagged .bool (.bool b)
  | .date s => tagged .date (.str s)
  | .time s => tagged .time (.str s)
  | .choice c => tagged .option c.toJson

/-- The value of a type and a content, which null may lack. -/
def ofContent? (tag : Tag) (content : Option Json) : Option Value :=
  match tag, content with
  | .null, none => some .null
  | .null, some .null => some .null
  | .null, some _ => none
  | _, none => none
  | .string, some j => j.text?.map .string
  | .int, some j => j.int64?.map .int
  | .double, some j => j.float?.map .double
  | .bool, some j => j.bool?.map .bool
  | .date, some j => j.text?.map .date
  | .time, some j => j.text?.map .time
  | .option, some j => (Choice.ofJson? j).map .choice

/-- The value that a JSON value denotes: an object or a pair. -/
def ofJson? (j : Json) : Option Value := do
  match j with
  | .arr [tag, content] => ofContent? (← ofName? Tag.name Tag.all tag) (some content)
  | .obj _ =>
    let r ← j.record? ["type", "value"]
    let tag ← r.required? "type" (ofName? Tag.name Tag.all)
    ofContent? tag (r.get? "value")
  | _ => none

end Value

namespace Link

def toJson (l : Link) : Json :=
  .obj [("remote_table_id", .str l.table), ("local_column_id", .str l.localColumn),
    ("remote_search_column_id", .str l.searchColumn),
    ("remote_value_column_id", .str l.valueColumn)]

def ofJson? (j : Json) : Option Link := do
  let r ← j.record? ["remote_table_id", "local_column_id", "remote_search_column_id",
    "remote_value_column_id"]
  some ⟨← r.required? "remote_table_id" Json.text?, ← r.required? "local_column_id" Json.text?,
    ← r.required? "remote_search_column_id" Json.text?,
    ← r.required? "remote_value_column_id" Json.text?⟩

end Link

namespace HrefStyle

def toJson (s : HrefStyle) : Json := .str s.name

def ofJson? : Json → Option HrefStyle := ofName? name all

end HrefStyle

namespace Cell

def toJson (c : Cell) : Json :=
  .obj ([("column_id", .str c.column), ("value", c.value.toJson)] ++
    listMember "values" Value.toJson c.values ++ memberOf "link" Link.toJson c.link ++
    memberOf "href" .str c.href ++ memberOf "href_style" HrefStyle.toJson c.hrefStyle)

def ofJson? (j : Json) : Option Cell := do
  let r ← j.record? ["column_id", "value", "values", "link", "href", "href_style"]
  some {
    column := ← r.required? "column_id" Json.text?
    value := ← r.required? "value" Value.ofJson?
    values := ← r.optional? "values" [] (Json.list? Value.ofJson?)
    link := ← r.optional? "link" none (Json.nullable? Link.ofJson?)
    href := ← r.optional? "href" none (Json.nullable? Json.text?)
    hrefStyle := ← r.optional? "href_style" none (Json.nullable? HrefStyle.ofJson?) }

end Cell

namespace ActionOffer

def toJson (a : ActionOffer) : Json :=
  .obj ([("id", .str a.id), ("name", .str a.name), ("action_type", .str a.type.name)] ++
    memberOf "form_schema" (fun j => j) a.formSchema ++ memberOf "href" .str a.href ++
    memberOf "href_style" HrefStyle.toJson a.hrefStyle)

def ofJson? (j : Json) : Option ActionOffer := do
  let r ← j.record? ["id", "name", "action_type", "form_schema", "href", "href_style"]
  some {
    id := ← r.required? "id" Json.text?
    name := ← r.required? "name" Json.text?
    type := ← r.required? "action_type" (ofName? ActionType.name ActionType.all)
    formSchema := ← r.optional? "form_schema" none (Json.nullable? Json.any?)
    href := ← r.optional? "href" none (Json.nullable? Json.text?)
    hrefStyle := ← r.optional? "href_style" none (Json.nullable? HrefStyle.ofJson?) }

end ActionOffer

namespace TableRow

def toJson (row : TableRow) : Json :=
  .obj ([("id", .str row.id), ("cells", .arr (row.cells.map Cell.toJson))] ++
    listMember "actions" ActionOffer.toJson row.actions)

def ofJson? (j : Json) : Option TableRow := do
  let r ← j.record? ["id", "cells", "actions"]
  some ⟨← r.required? "id" Json.text?, ← r.required? "cells" (Json.list? Cell.ofJson?),
    ← r.optional? "actions" [] (Json.list? ActionOffer.ofJson?)⟩

end TableRow

namespace AggregateResult

def toJson (a : AggregateResult) : Json :=
  .obj [("column_id", .str a.column), ("column_name", .str a.columnName),
    ("method", .str a.aggregate.name), ("value", a.value.toJson)]

def ofJson? (j : Json) : Option AggregateResult := do
  let r ← j.record? ["column_id", "column_name", "method", "value"]
  some ⟨← r.required? "column_id" Json.text?, ← r.required? "column_name" Json.text?,
    ← r.required? "method" (ofName? Aggregate.name Aggregate.all),
    ← r.required? "value" Value.ofJson?⟩

end AggregateResult

namespace PageInfo

def toJson (p : PageInfo) : Json :=
  .obj [("current_page", .int p.currentPage.toNat), ("page_size", .int p.pageSize.toNat),
    ("total_pages", .int p.totalPages.toNat), ("total_results", .int p.totalResults.toNat)]

def ofJson? (j : Json) : Option PageInfo := do
  let r ← j.record? ["current_page", "page_size", "total_pages", "total_results"]
  some ⟨← r.required? "current_page" Json.uint64?, ← r.required? "page_size" Json.uint64?,
    ← r.required? "total_pages" Json.uint64?, ← r.required? "total_results" Json.uint64?⟩

end PageInfo

namespace TableRows

def toJson (a : TableRows) : Json :=
  .obj [("rows", .arr (a.rows.map TableRow.toJson)),
    ("aggregates", .arr (a.aggregates.map AggregateResult.toJson)), ("page", a.page.toJson)]

def ofJson? (j : Json) : Option TableRows := do
  let r ← j.record? ["rows", "aggregates", "page"]
  some ⟨← r.required? "rows" (Json.list? TableRow.ofJson?),
    ← r.required? "aggregates" (Json.list? AggregateResult.ofJson?),
    ← r.required? "page" PageInfo.ofJson?⟩

end TableRows

end TableQuery
