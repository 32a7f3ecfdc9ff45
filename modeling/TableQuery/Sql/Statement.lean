import TableQuery.Value.Raw

/-!
# SQL statements

A statement is put together from pieces of text and values. Values never become text: a
placeholder stands for each of them, and they are handed over beside the text in the same order.

## Main definitions

* `Sql.Dialect` — the databases.
* `Sql.Bound` — a value that is handed over.
* `Sql.Part`, `Sql.Fragment` — texts and values of a statement.
* `Sql.Fragment.render`, `Sql.Fragment.values`, `Sql.Fragment.statement` — text and values.
* `Sql.quote` — a name between quotes.
-/

namespace TableQuery.Sql

inductive Dialect where
  | postgres
  | mysql
  | sqlite
  deriving DecidableEq, Repr, Inhabited

/-- A value that is handed over beside the text. -/
inductive Bound where
  | raw (v : Raw)
  /-- A word of 32 bits. -/
  | int32 (i : Int32)
  /-- A moment in universal time. -/
  | universal (t : Moment)
  deriving Inhabited

inductive Part where
  | text (s : String)
  | value (v : Bound)
  deriving Inhabited

abbrev Fragment := List Part

/-- A text and the values of its placeholders. -/
structure Statement where
  text : String
  values : List Bound
  deriving Inhabited

/-- The placeholder of the value with the given number, from one. -/
def Dialect.placeholder (d : Dialect) (number : Nat) : String :=
  match d with
  | .postgres => "$" ++ Text.ofInt number
  | _ => "?"

def Dialect.quoteChar : Dialect → Char
  | .mysql => '\x60'
  | _ => '"'

/-- A text between quotes, with each quote in it twice. -/
def quoteChars (quote : Char) (s : List Char) : List Char :=
  quote :: s.flatMap (fun c => if c = quote then [quote, quote] else [c]) ++ [quote]

def quote (d : Dialect) (name : String) : String :=
  String.ofList (quoteChars d.quoteChar name.toList)

namespace Fragment

def text (s : String) : Fragment := [.text s]

def value (v : Bound) : Fragment := [.value v]

def raw (v : Raw) : Fragment := value (.raw v)

def join (separator : String) : List Fragment → Fragment
  | [] => []
  | [f] => f
  | f :: fs => f ++ .text separator :: join separator fs

def values : Fragment → List Bound
  | [] => []
  | .text _ :: parts => values parts
  | .value v :: parts => v :: values parts

/-- The text behind a number of values that were handed over before. -/
def render (d : Dialect) (before : Nat) : Fragment → String
  | [] => ""
  | .text s :: parts => s ++ render d before parts
  | .value _ :: parts => d.placeholder (before + 1) ++ render d (before + 1) parts

def statement (d : Dialect) (f : Fragment) : Statement :=
  ⟨render d 0 f, values f⟩

theorem join_cons_cons (separator : String) (f f' : Fragment) (fs : List Fragment) :
    join separator (f :: f' :: fs) = f ++ .text separator :: join separator (f' :: fs) := rfl

@[simp] theorem values_append (f g : Fragment) : values (f ++ g) = values f ++ values g := by
  induction f with
  | nil => rfl
  | cons p f ih => cases p <;> simp [values, ih]

theorem render_append (d : Dialect) (before : Nat) (f g : Fragment) :
    render d before (f ++ g) = render d before f ++ render d (before + (values f).length) g := by
  induction f generalizing before with
  | nil => simp [render, values]
  | cons p f ih =>
    cases p <;> simp [render, values, ih, String.append_assoc, Nat.add_assoc, Nat.add_comm 1]

end Fragment

end TableQuery.Sql
