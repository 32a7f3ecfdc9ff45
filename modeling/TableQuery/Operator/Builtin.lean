import TableQuery.Operator.Basic

/-!
# The operators of the library itself

## Main definitions

* `Builtin.eq`, `Builtin.contains`, … — the ids of the operators.
* `Builtin.operators`, `Builtin.sets` — the operators, and the sets of them for types of columns.
* `Catalog.installBuiltins`, `Catalog.builtin` — a catalog with them.
-/

namespace TableQuery

namespace Builtin

def eq : String := "builtin.EQ"

def gt : String := "builtin.GT"

def lt : String := "builtin.LT"

def ge : String := "builtin.GE"

def le : String := "builtin.LE"

def ne : String := "builtin.NE"

def contains : String := "builtin.CTN"

def startsWith : String := "builtin.LCTN"

def endsWith : String := "builtin.RCTN"

def lacks : String := "builtin.NCTN"

def isIn : String := "builtin.IN"

def notIn : String := "builtin.NIN"

def isNull : String := "builtin.ISN"

def isNotNull : String := "builtin.ISNN"

def today : String := "builtin.TODAY"

def yesterday : String := "builtin.YEST"

/-- The moment is within the last seven days. -/
def lastWeek : String := "builtin.TWEEK"

/-- The moment is within the last thirty days. -/
def lastMonth : String := "builtin.L1MONTH"

/-- The moment is within the last ninety days. -/
def lastThreeMonths : String := "builtin.L3MONTH"

def operators : List Operator :=
  [⟨eq, "equal", .single⟩, ⟨gt, "greater than", .single⟩, ⟨lt, "less than", .single⟩,
    ⟨ge, "greater or equal", .single⟩, ⟨le, "less or equal", .single⟩,
    ⟨ne, "not equal", .single⟩, ⟨contains, "contains", .single⟩,
    ⟨startsWith, "starts with", .single⟩, ⟨endsWith, "ends with", .single⟩,
    ⟨lacks, "not contains", .single⟩, ⟨isIn, "in", .multiple⟩, ⟨notIn, "not in", .multiple⟩,
    ⟨isNull, "is null", .none⟩, ⟨isNotNull, "is not null", .none⟩, ⟨today, "today", .none⟩,
    ⟨yesterday, "yesterday", .none⟩, ⟨lastWeek, "last week", .none⟩,
    ⟨lastMonth, "last month", .none⟩, ⟨lastThreeMonths, "last three months", .none⟩]

/-- The sets for types of columns, with their ids, names and members. -/
def sets : List (String × String × List String) :=
  [("builtin.SINT", "integer filters", [eq, gt, lt, ge, le, ne, isIn, notIn]),
    ("builtin.SBOOL", "boolean filters", [eq]),
    ("builtin.SOPT", "option filters", [eq, ne, isIn, notIn]),
    ("builtin.SDOUBLE", "double filters", [eq, gt, lt, ge, le, ne, isIn, notIn]),
    ("builtin.SSTR", "string filters",
      [contains, eq, gt, lt, ge, le, ne, startsWith, endsWith, lacks, isIn, notIn]),
    ("builtin.SNULLABLE", "nullable filters", [isNull, isNotNull]),
    ("builtin.STIME", "time filters",
      [eq, gt, lt, ge, le, ne, today, yesterday, lastWeek, lastMonth, lastThreeMonths]),
    ("builtin.SDATE", "date filters", [eq, gt, lt, ge, le, ne, today, yesterday])]

end Builtin

namespace Catalog

/-- The catalog with a further operator of the library itself, unless it is refused. -/
def installOperator (c : Catalog) (op : Operator) : Catalog :=
  (c.insert (.operator op) true).toOption.getD c

def installSet (c : Catalog) (id name : String) (members : List String) : Catalog :=
  let inserted := do c.insert (.set (← c.buildSet id name members)) true
  inserted.toOption.getD c

/-- The catalog with the operators and sets of the library itself. What is there already stays
as it is. -/
@[irreducible] def installBuiltins (c : Catalog) : Catalog :=
  let c := Builtin.operators.foldl installOperator c
  Builtin.sets.foldl (fun c (id, name, members) => c.installSet id name members) c

def builtin : Catalog := empty.installBuiltins

end Catalog

end TableQuery
