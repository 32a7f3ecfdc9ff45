import TableQuery.Schema.Table

/-!
# Templates that fit their table

## Main definitions

* `Table.validate` — a template asks only for what its table offers.
-/

namespace TableQuery

/-- A value may be compared with the column: it has the column's type, or is null and the column
holds texts. -/
def Column.accepts (c : Column) (v : Value) : Bool :=
  match v.type? with
  | none => c.type == .string
  | some type => type == c.type

namespace Table

def validateValues (c : Column) : List Value → Except QueryError Unit
  | [] => .ok ()
  | v :: vs =>
    if c.accepts v then validateValues c vs
    else .error (.invalidConditionValueType c.id c.type v.typeName)

def validateCondition (t : Table) (condition : Condition) : Except QueryError Unit := do
  let c ← t.column condition.column
  match c.filter? condition.operator with
  | none => throw (.operatorNotSupported c.id condition.operator)
  | some op =>
    let count := condition.values.length
    if op.arity.accepts count then validateValues c condition.values
    else throw (.invalidConditionValueCount c.id op.id op.arity.expectation count)

def validateFilter (t : Table) : List Condition → Except QueryError Unit
  | [] => .ok ()
  | condition :: conditions => do
    t.validateCondition condition
    t.validateFilter conditions

/-- Output columns exist, offer their aggregates, and none occurs twice or is among those seen
before. -/
def validateOutput (t : Table) (seen : List String) : List OutputColumn → Except QueryError Unit
  | [] => .ok ()
  | output :: outputs =>
    if seen.contains output.column then .error (.duplicateOutputColumn output.column)
    else do
      let c ← t.column output.column
      if c.supportsAggregate output.aggregate then
        t.validateOutput (output.column :: seen) outputs
      else throw (.aggregateNotSupported c.id output.aggregate)

/-- A template asks only for what its table offers, and for at least one column. -/
def validate (t : Table) (template : Template) : Except QueryError Unit := do
  t.validateFilter template.body.filter
  if template.body.output.isEmpty then throw (.emptyOutput t.id)
  t.validateOutput [] template.body.output

end Table

end TableQuery
