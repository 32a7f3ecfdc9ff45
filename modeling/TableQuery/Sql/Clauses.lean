import TableQuery.Driver.Basic
import TableQuery.Driver.Paging
import TableQuery.Operator.Period
import TableQuery.Sql.Statement

/-!
# Clauses of statements

## Main definitions

* `Sql.likePattern` — the pattern that finds a text.
* `Sql.Predicate` — what a database is asked about a value, with the clause for it.
* `Sql.predicates`, `Sql.whereClause` — conditions.
* `Sql.aggregateExpression` — aggregates.
* `Sql.orderClause`, `Sql.pageClause` — order and page.
* `Sql.selectColumns` — the columns that are read.
-/

namespace TableQuery.Sql

/-- A text in a pattern, where the characters with a meaning stand for themselves. -/
def escapeLike (s : List Char) : List Char :=
  s.flatMap fun c => if c = '%' ∨ c = '_' ∨ c = '\\' then ['\\', c] else [c]

inductive Place where
  | anywhere
  | start
  | stop
  deriving DecidableEq, Repr

def likePattern (place : Place) (s : List Char) : List Char :=
  match place with
  | .anywhere => '%' :: escapeLike s ++ ['%']
  | .start => escapeLike s ++ ['%']
  | .stop => '%' :: escapeLike s

inductive Sign where
  | eq
  | ne
  | gt
  | lt
  | ge
  | le
  deriving DecidableEq, Repr

def Sign.text : Sign → String
  | eq => "="
  | ne => "<>"
  | gt => ">"
  | lt => "<"
  | ge => ">="
  | le => "<="

/-- What a database is asked about the value of an expression. -/
inductive Predicate where
  | compare (sign : Sign) (v : Raw)
  /-- The value is null, or is not. -/
  | isNull (holds : Bool)
  | like (negated : Bool) (pattern : List Char)
  | among (negated : Bool) (values : List Raw)
  | within (p : Period)

namespace Predicate

/-- The value is equal; to be equal to null is to be null. -/
def equal (v : Raw) : Predicate :=
  if v.isNull then isNull true else compare .eq v

/-- The value is not equal; not to be equal to null is not to be null. -/
def notEqual (v : Raw) : Predicate :=
  if v.isNull then isNull false else compare .ne v

def finds (negated : Bool) (place : Place) (v : Raw) : Predicate :=
  like negated (likePattern place v.display.toList)

def clause (expression : String) : Predicate → Fragment
  | compare sign v => .text (expression ++ " " ++ sign.text ++ " ") ++ .raw v
  | isNull holds => .text (expression ++ if holds then " IS NULL" else " IS NOT NULL")
  | like negated pattern =>
    .text (expression ++ (if negated then " NOT LIKE " else " LIKE ")) ++
      .raw (.text (String.ofList pattern)) ++ .text " ESCAPE '\\'"
  | among negated values =>
    .text (expression ++ (if negated then " NOT IN (" else " IN (")) ++
      .join ", " (values.map Fragment.raw) ++ .text ")"
  | within p =>
    .text ("(" ++ expression ++ " >= ") ++ .raw (.time p.start) ++
      .text (" AND " ++ expression ++ " < ") ++ .raw (.time p.stop) ++ .text ")"

/-- The predicate of an operator that compares with the only value of a condition. -/
def comparison? (operator : String) : Option (Raw → Predicate) :=
  if operator = Builtin.eq then some equal
  else if operator = Builtin.ne then some notEqual
  else if operator = Builtin.gt then some (compare .gt)
  else if operator = Builtin.lt then some (compare .lt)
  else if operator = Builtin.ge then some (compare .ge)
  else if operator = Builtin.le then some (compare .le)
  else if operator = Builtin.contains then some (finds false .anywhere)
  else if operator = Builtin.lacks then some (finds true .anywhere)
  else if operator = Builtin.startsWith then some (finds false .start)
  else if operator = Builtin.endsWith then some (finds false .stop)
  else none

def valueless? (now : Moment) (operator : String) : Option Predicate :=
  if operator = Builtin.isNull then some (isNull true)
  else if operator = Builtin.isNotNull then some (isNull false)
  else (Period.ofOperator? operator now).map within

/-- Why a database cannot be asked with an operator: it means a period whose days are not all in the
calendar, or it is none that is known. -/
def unasked (c : Column) (operator : String) : QueryError :=
  if (Period.days? operator).isSome then .beyondCalendar c.id operator
  else .operatorNotSupported c.id operator

def ofCondition (now : Moment) (c : Column) (condition : RawCondition) :
    Except QueryError Predicate :=
  let operator := condition.operator
  let missing : Except QueryError Predicate :=
    .error (.invalidConditionValueCount c.id operator "exactly 1" 0)
  match comparison? operator, condition.values with
  | some _, [] => missing
  | some predicate, v :: _ => .ok (predicate v)
  | none, values =>
    if operator = Builtin.isIn ∨ operator = Builtin.notIn then
      if values.isEmpty then missing else .ok (among (operator == Builtin.notIn) values)
    else
      match valueless? now operator with
      | some predicate => .ok predicate
      | none => .error (unasked c operator)

end Predicate

def predicates (now : Moment) (t : Table) :
    List RawCondition → Except QueryError (List (Column × Predicate))
  | [] => .ok []
  | condition :: conditions => do
    let c ← t.column condition.column
    let predicate ← Predicate.ofCondition now c condition
    return (c, predicate) :: (← predicates now t conditions)

/-- All predicates hold; nothing if there are none. -/
def whereText (ps : List (Column × Predicate)) : Fragment :=
  if ps.isEmpty then []
  else .text " WHERE " ++ .join " AND " (ps.map fun p => p.2.clause p.1.expression)

def whereClause (now : Moment) (t : Table) (conditions : List RawCondition) :
    Except QueryError Fragment :=
  (predicates now t conditions).map whereText

/-- The expression of an aggregate, as a type that it can be read as. -/
def aggregateExpression (d : Dialect) (c : Column) (a : Aggregate) : Option String :=
  let whole := if d = .mysql then "SIGNED" else "BIGINT"
  let double := if d = .mysql then "DOUBLE" else "DOUBLE PRECISION"
  match a with
  | .none => none
  | .sum =>
    some ("CAST(SUM(" ++ c.expression ++ ") AS " ++ (if c.kind.isInteger then whole else double) ++
      ")")
  | .average => some ("CAST(AVG(" ++ c.expression ++ ") AS " ++ double ++ ")")

/-- The order; nothing if the column cannot be sorted by. -/
def orderClause (t : Table) (order : Option SortKey) : String :=
  match order.bind fun key => (t.column? key.column).map fun c => (key, c) with
  | none => ""
  | some (key, c) =>
    if c.orderable && !c.isOutbound then
      " ORDER BY " ++ c.expression ++ " " ++ key.direction.name
    else ""

/-- The page; nothing if all rows are asked for. -/
def pageClause (p : PageRequest) : Fragment :=
  if p.isPaged then
    .text " LIMIT " ++ .raw (.int p.size.toInt64) ++ .text " OFFSET " ++
      .raw (.int p.offset.toInt64)
  else []

/-- The columns that are read for an output, one for each name that values are stored under. -/
def readColumns (t : Table) (output : List String) : List Column :=
  firstByKey Column.storageName
    ((output.filterMap t.column?).filter fun c => !c.isOutbound)

/-- The columns that are read: the key if there is nothing else to read. -/
def selectColumns (t : Table) (output : List String) : List Column :=
  match readColumns t output with
  | [] => t.keyColumn?.toList
  | columns => columns

end TableQuery.Sql
