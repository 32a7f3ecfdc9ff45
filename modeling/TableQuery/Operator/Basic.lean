import TableQuery.Error
import TableQuery.Text.Split
import TableQuery.Text.WordChar

/-!
# Operators of filters

Operators and named sets of them are kept in one catalog by ids such as `builtin.EQ`: a
namespace, a point and a name.

## Main definitions

* `Operator`, `OperatorSet`, `OperatorNode` — what a catalog holds.
* `qualify` — the full id of an operator of the library itself.
* `Catalog` — the operators known, with `find`, `register`, `registerSet` and
  `resolveFilters`.
-/

namespace TableQuery

structure Operator where
  id : String
  name : String
  arity : Arity
  deriving DecidableEq, Inhabited

/-- A named set of operators, without sets inside it. -/
structure OperatorSet where
  id : String
  name : String
  operators : List Operator
  deriving DecidableEq, Inhabited

/-- The part of an id before its first point. -/
def namespaceOf (id : String) : String :=
  String.ofList (id.toList.takeWhile (· != '.'))

inductive OperatorNode where
  | operator (op : Operator)
  | set (s : OperatorSet)
  deriving DecidableEq, Inhabited

namespace OperatorNode

def id : OperatorNode → String
  | operator op => op.id
  | set s => s.id

def name : OperatorNode → String
  | operator op => op.name
  | set s => s.name

def operators : OperatorNode → List Operator
  | operator op => [op]
  | set s => s.operators

end OperatorNode

def builtinNamespace : String := "builtin"

/-- The full id of an id: without a point it is one of the library itself. -/
def qualify (id : String) : String :=
  if id.toList.contains '.' then id else builtinNamespace ++ "." ++ id

/-- Two words with a point between them. -/
def isOperatorId (id : String) : Bool :=
  match Text.splitAtChar '.' id.toList with
  | [space, name] => Text.isWord space && Text.isWord name
  | _ => false

/-- The parts of a declaration between bars, without blanks at their ends; empty parts are
passed over. -/
def declared (text : String) : List String :=
  (((Text.splitAtChar '|' text.toList).map Text.trim).filter fun part => !part.isEmpty).map
    String.ofList

/-- Without later items that have the key of an earlier one. -/
def firstByKey {α : Type} (key : α → String) : List α → List α
  | [] => []
  | a :: as => a :: (firstByKey key as).filter fun b => key b != key a

/-- In increasing order of a text, where equal ones keep their order. -/
def sortByKey {α : Type} (key : α → String) (as : List α) : List α :=
  as.mergeSort fun a b => key a ≤ key b

structure Catalog where
  /-- The nodes with the ids that they are kept under. -/
  nodes : List (String × OperatorNode)
  /-- The names that are taken. -/
  names : List String
  deriving Inhabited

namespace Catalog

def empty : Catalog := ⟨[], []⟩

def find (c : Catalog) (id : String) : Except SchemaError OperatorNode :=
  match c.nodes.lookup id with
  | some n => .ok n
  | none => .error (.nodeNotExist id)

/-- The operator of a full id, which must not be a set. -/
def findOperator (c : Catalog) (id : String) : Except SchemaError Operator :=
  match c.find id with
  | .ok (.operator op) => .ok op
  | .ok (.set _) => .error (.nodeNotExist id)
  | .error e => .error e

/-- The catalog with a further node, whose id and name must be new. Only the library itself uses
its own namespace. -/
def insert (c : Catalog) (node : OperatorNode) (internal : Bool) : Except SchemaError Catalog :=
  if !isOperatorId node.id then .error (.invalidOperatorId node.id)
  else if namespaceOf node.id = builtinNamespace ∧ internal = false then
    .error (.reservedNamespace builtinNamespace)
  else if (c.nodes.lookup node.id).isSome then .error (.duplicateNodeId node.id)
  else if c.names.contains node.name then .error (.duplicateNodeName node.name)
  else .ok ⟨c.nodes ++ [(node.id, node)], node.name :: c.names⟩

def expand (c : Catalog) (ids : List String) : Except SchemaError (List Operator) := do
  let nodes ← ids.mapM fun id => c.find (qualify id)
  return nodes.flatMap OperatorNode.operators

def buildSet (c : Catalog) (id name : String) (members : List String) :
    Except SchemaError OperatorSet := do
  return ⟨id, name, firstByKey Operator.id (← c.expand members)⟩

def register (c : Catalog) (op : Operator) : Except SchemaError Catalog :=
  c.insert (.operator op) false

def registerSet (c : Catalog) (id name : String) (members : List String) :
    Except SchemaError (Catalog × OperatorSet) := do
  let s ← c.buildSet id name members
  return (← c.insert (.set s) false, s)

/-- The operators that a declaration such as `SSTR|builtin.ISN` stands for, each once and in
order of their ids. -/
def resolveFilters (c : Catalog) (declaration : String) : Except SchemaError (List Operator) := do
  return sortByKey Operator.id (firstByKey Operator.id (← c.expand (declared declaration)))

def list (c : Catalog) : List OperatorNode :=
  sortByKey OperatorNode.id (c.nodes.map Prod.snd)

end Catalog

end TableQuery
