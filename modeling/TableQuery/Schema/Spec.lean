import TableQuery.Error
import TableQuery.Json.Reader
import TableQuery.Yaml.Reader

/-!
# Descriptions of tables

Tables are described by their fields. A description can be written as JSON or in the block
style of configuration texts.

## Main definitions

* `FieldSpec`, `TableSpec` — a description of a field and of a table.
* `SpecNotation` — what a notation must offer so that descriptions can be read from it.
* `TableSpec.ofJson?`, `TableSpec.parseJson`, `TableSpec.parseYaml` — descriptions from texts.
-/

namespace TableQuery

structure FieldSpec where
  id : String
  kind : StoredKind
  /-- The name shown, the id if not given. -/
  name : Option String
  /-- No column is made of the field. -/
  hidden : Bool
  key : Bool
  valueType : Option String
  format : Option String
  /-- Ids of operators and sets with bars between them. -/
  filters : Option String
  /-- Names of aggregates with bars between them. -/
  aggregates : Option String
  link : Option String
  internal : Bool
  required : Bool
  orderable : Bool
  arraySplit : Option String
  href : Option String
  hrefStyle : Option String
  width : Option UInt32
  /-- The name that values are stored under, the id if not given. -/
  storageName : Option String
  /-- What is read in place of the stored name. -/
  storageExpression : Option String
  optionType : Option String
  deriving DecidableEq, Inhabited

structure TableSpec where
  id : String
  name : String
  description : String
  fields : List FieldSpec
  deriving DecidableEq, Inhabited

/-- What a notation offers to read descriptions from. -/
structure SpecNotation (ν : Type) where
  /-- The members of the given names, each at most once. -/
  members? : List String → ν → Option (List (String × ν))
  items? : ν → Option (List ν)
  text? : ν → Option String
  flag? : ν → Option Bool
  width? : ν → Option UInt32
  /-- No value. -/
  isNull : ν → Bool

namespace SpecNotation

variable {ν : Type}

def required? {α : Type} (r : List (String × ν)) (name : String) (read : ν → Option α) :
    Option α :=
  (r.lookup name).bind read

def defaulted? {α : Type} (r : List (String × ν)) (name : String) (default : α)
    (read : ν → Option α) : Option α :=
  (r.lookup name).elim (some default) read

/-- A member that may be absent or have no value. -/
def optional? {α : Type} (n : SpecNotation ν) (r : List (String × ν)) (name : String)
    (read : ν → Option α) : Option (Option α) :=
  match r.lookup name with
  | none => some none
  | some v => if n.isNull v then some none else (read v).map some

def fieldMembers : List String :=
  ["id", "kind", "name", "hidden", "key", "value_type", "format", "filters", "aggregates", "link",
    "internal", "required", "orderable", "array_split", "href", "href_style", "col_width", "db",
    "db_expr", "option_type"]

def field? (n : SpecNotation ν) (kind? : ν → Option StoredKind) (v : ν) : Option FieldSpec := do
  let r ← n.members? fieldMembers v
  let flag name := defaulted? r name false n.flag?
  let text name := n.optional? r name n.text?
  some {
    id := ← required? r "id" n.text?
    kind := ← required? r "kind" kind?
    name := ← text "name"
    hidden := ← flag "hidden"
    key := ← flag "key"
    valueType := ← text "value_type"
    format := ← text "format"
    filters := ← text "filters"
    aggregates := ← text "aggregates"
    link := ← text "link"
    internal := ← flag "internal"
    required := ← flag "required"
    orderable := ← flag "orderable"
    arraySplit := ← text "array_split"
    href := ← text "href"
    hrefStyle := ← text "href_style"
    width := ← n.optional? r "col_width" n.width?
    storageName := ← text "db"
    storageExpression := ← text "db_expr"
    optionType := ← text "option_type" }

def table? (n : SpecNotation ν) (kind? : ν → Option StoredKind) (v : ν) : Option TableSpec := do
  let r ← n.members? ["id", "name", "description", "fields"] v
  some {
    id := ← required? r "id" n.text?
    name := ← required? r "name" n.text?
    description := ← defaulted? r "description" "" n.text?
    fields := ← required? r "fields" fun v => do (← n.items? v).mapM (n.field? kind?) }

def json : SpecNotation Json where
  members? := Json.record?
  items? := Json.list? some
  text? := Json.text?
  flag? := Json.bool?
  width? := Json.uint32?
  isNull
    | .null => true
    | _ => false

/-- The members of the given names in a mapping, which must not have one of them twice, or in a
list in the order of the names. -/
def yamlMembers? (names : List String) : Yaml.Node → Option (List (String × Yaml.Node))
  | .list items => if items.length ≤ names.length then some (names.zip items) else none
  | node => do
    let known := (← node.entries?).filter fun e => names.contains e.1
    if Json.distinct (known.map Prod.fst) then some known else none

def yaml : SpecNotation Yaml.Node where
  members? := yamlMembers?
  items? := Yaml.Node.items?
  text? := Yaml.Node.text?
  flag? := Yaml.Node.bool?
  width? node := do
    let n ← node.natural?
    if n < Nat.pow 2 32 then some (UInt32.ofNat n) else none
  isNull := Yaml.Node.isNull

end SpecNotation

def StoredKind.named : List (String × StoredKind) :=
  StoredKind.all.map fun k => (k.name, k)

namespace TableSpec

def ofJson? (j : Json) : Option TableSpec :=
  SpecNotation.json.table? (Json.named? StoredKind.named) j

def parseJson (text : String) : Except SchemaError TableSpec :=
  ((Json.parseLoose? text).bind ofJson?).elim (.error .invalidSpec) .ok

def parseYaml (text : String) : Except SchemaError TableSpec :=
  let kind? (node : Yaml.Node) := node.name?.bind fun name => StoredKind.named.lookup name
  ((Yaml.parse? text).bind (SpecNotation.yaml.table? kind?)).elim (.error .invalidSpec) .ok

end TableSpec

end TableQuery
