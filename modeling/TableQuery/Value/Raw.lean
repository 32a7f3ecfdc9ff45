import TableQuery.Calendar.Moment
import TableQuery.Decimal.Written
import TableQuery.Text.Quoted
import TableQuery.Text.Utf8

/-!
# Raw values

The values that stores hold and compare.

## Main definitions

* `Raw` — a raw value.
* `Raw.float?` — a number as a double.
* `Raw.display` — the text that searches for parts of a text look at.
* `Raw.debug` — the form in which messages show a value.
-/

namespace TableQuery

/-- A value as a store holds it. -/
inductive Raw where
  | null
  | bool (b : Bool)
  | int (i : Int64)
  | uint (u : UInt64)
  | float (x : Float)
  | text (s : String)
  | bytes (bs : List UInt8)
  | time (t : Moment)
  deriving Inhabited

namespace Raw

def isNull : Raw → Bool
  | null => true
  | _ => false

def float? : Raw → Option Float
  | int i => some (Decimal.ofInt64 i)
  | uint u => some u.toFloat
  | float x => some x
  | bool b => some (if b then 1 else 0)
  | _ => none

def text? : Raw → Option String
  | text s => some s
  | _ => none

def boolText (b : Bool) : String :=
  if b then "true" else "false"

/-- The text of a value; null has an empty one. -/
def display : Raw → String
  | null => ""
  | bool b => boolText b
  | int i => Text.ofInt i.toInt
  | uint u => Text.ofInt u.toNat
  | float x => Decimal.ofFloat x
  | text s => s
  | bytes bs => String.ofList (Text.ofBytes bs)
  | time t => String.ofList (t.written ' ')

def debug : Raw → String
  | null => "Null"
  | bool b => "Bool(" ++ boolText b ++ ")"
  | int i => "Int(" ++ Text.ofInt i.toInt ++ ")"
  | uint u => "UInt(" ++ Text.ofInt u.toNat ++ ")"
  | float x => "Float(" ++ String.ofList (Decimal.tagged x) ++ ")"
  | text s => "Str(" ++ Text.quoted s ++ ")"
  | bytes bs => "Bytes([" ++ ", ".intercalate (bs.map fun b => Text.ofInt b.toNat) ++ "])"
  | time t => "Time(" ++ String.ofList (t.written 'T') ++ ")"

end Raw

end TableQuery
