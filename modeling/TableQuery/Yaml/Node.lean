import TableQuery.Yaml.Scalar

/-!
# Nodes of configuration texts

A configuration text is a tree of scalars, lists and mappings. What a scalar means is decided by
what is asked of it.

## Main definitions

* `Yaml.Node` — a node of the tree.
* `Yaml.Node.isNull`, `Yaml.Node.bool?`, `Yaml.Node.natural?` — scalars that mean no value, a
  truth value or a natural number.
* `Yaml.Node.items?`, `Yaml.Node.entries?` — lists and mappings.
-/

namespace TableQuery.Yaml

/-- A node. Tags only count on scalars. -/
inductive Node where
  | scalar (text : String) (style : ScalarStyle) (tag : Option String)
  | list (items : List Node)
  | mapping (entries : List (Node × Node))
  deriving Inhabited

namespace Node

def empty : Node := .scalar "" .plain none

def isNullWord (text : String) : Bool :=
  ["~", "null", "Null", "NULL"].contains text

def coreTag (name : String) : String := "tag:yaml.org,2002:" ++ name

/-- The absence of a value: nothing at all, a tilde or `null`. -/
def isNull : Node → Bool
  | .scalar text .plain none => text.isEmpty || isNullWord text
  | .scalar text .plain (some tag) => tag == coreTag "null" && isNullWord text
  | _ => false

def text? : Node → Option String
  | .scalar text _ _ => some text
  | _ => none

/-- The text of a scalar that may mean something else than itself: without quotes, or on lines
of its own with the tag of a core type. -/
def meaningful? (type : String) : Node → Option String
  | .scalar text .plain _ => some text
  | .scalar text .literal (some tag) => if tag = coreTag type then some text else none
  | _ => none

def readBool? (text : String) : Option Bool :=
  if ["true", "True", "TRUE"].contains text then some true
  else if ["false", "False", "FALSE"].contains text then some false
  else none

def bool? (node : Node) : Option Bool :=
  (node.meaningful? "bool").bind readBool?

/-- Digits behind at most one plus sign: decimal without leading zeros, or in base 16, 8 or 2
behind `0x`, `0o` or `0b`. -/
def readNatural? (s : List Char) : Option Nat :=
  let s := (Text.stripStart? ['+'] s).getD s
  match s with
  | '0' :: 'x' :: ds => Text.readNat? 16 ds
  | '0' :: 'o' :: ds => Text.readNat? 8 ds
  | '0' :: 'b' :: ds => Text.readNat? 2 ds
  | '0' :: _ :: _ => none
  | ds => Text.readNat? 10 ds

def natural? (node : Node) : Option Nat :=
  (node.meaningful? "int").bind fun text => readNatural? text.toList

/-- One of several names: the text of a scalar, or its tag if there is no value. -/
def name? : Node → Option String
  | .scalar text _ none => some text
  | .scalar text .plain (some tag) =>
    if text.isEmpty || isNullWord text then
      let s := tag.toList
      some (String.ofList ((Text.stripStart? ['!'] s).getD s))
    else none
  | _ => none

/-- The items of a list; nothing at all is the empty list. -/
def items? : Node → Option (List Node)
  | .list items => some items
  | .scalar "" .plain _ => some []
  | _ => none

def entries? : Node → Option (List (String × Node))
  | .mapping entries => entries.mapM fun (key, value) => key.text?.map fun text => (text, value)
  | .scalar "" .plain _ => some []
  | _ => none

end Node

end TableQuery.Yaml
