import TableQuery.ValueFormat.Basic
import TableQuery.Decimal.Written
import TableQuery.Text.Split

/-!
# Showing a value through a format

## Main definitions

* `ValueFormat.Verb.body` — the value in the notation of the verb's letter.
* `ValueFormat.Verb.fill` — the body filled up to the width.
* `ValueFormat.render` — a value shown through a whole format.
-/

namespace TableQuery.ValueFormat

open TableQuery.Text (digits signed splitFirst?)

/-- The exponent of a number with at least two digits and always a sign: `1.5e3` becomes
`1.5e+03`. A text without an exponent is left as it is. -/
def signedExponent (s : List Char) : List Char :=
  match splitFirst? (· == 'e') s with
  | none => s
  | some (mantissa, '-' :: exponent) => mantissa ++ 'e' :: '-' :: Text.padStart '0' 2 exponent
  | some (mantissa, exponent) => mantissa ++ 'e' :: '+' :: Text.padStart '0' 2 exponent

def dropTrailing (c : Char) (s : List Char) : List Char :=
  (s.reverse.dropWhile (· == c)).reverse

/-- Places that are zero at the end are dropped, and so is a point that ends the text. -/
def trimPlaces (s : List Char) : List Char :=
  if s.contains '.' then dropTrailing '.' (dropTrailing '0' s) else s

/-- The general notation with the shortest digits: positional between `1e-4` and `1e21`. -/
def generalShortest (x : Float) : List Char :=
  let exponent := x.abs.log10.floor.toInt32
  if exponent < -4 || 21 ≤ exponent then signedExponent (Decimal.exponential x)
  else Decimal.plain x

/-- The general notation with `precision` significant digits: positional where the exponent
is at least `-4` and below the precision. -/
def generalTo (precision : Nat) (m : Decimal.Magnitude) (x : Float) : List Char :=
  let count := max precision 1
  let exponent := (m.toSignificant count).exponent
  if exponent < -4 || (count : Int) ≤ exponent then
    let scientific := Decimal.exponentialTo (count - 1) x
    match splitFirst? (· == 'e') scientific with
    | some (mantissa, e) => signedExponent (trimPlaces mantissa ++ 'e' :: e)
    | none => scientific
  else trimPlaces (Decimal.fixed ((count : Int) - 1 - exponent).toNat x)

/-- The general notation of a double. Zero has no sign, infinities always have one. -/
def general (precision : Option Nat) (x : Float) : List Char :=
  match Decimal.Number.ofFloat x with
  | .nan => ['N', 'a', 'N']
  | .infinite negative => (if negative then '-' else '+') :: ['I', 'n', 'f']
  | .finite _ m =>
    if m.isZero then ['0']
    else
      match precision with
      | none => generalShortest x
      | some p => generalTo p m x

namespace Argument

def toFloat? : Argument → Option Float
  | .int i => some (Decimal.ofInt64 i)
  | .uint u => some u.toFloat
  | .float x => some x
  | .text _ => none
  | .bool _ => none

def isNumeric : Argument → Bool
  | .int _ | .uint _ | .float _ => true
  | .text _ | .bool _ => false

/-- The notation of an argument for which a letter has none of its own. -/
def display : Argument → List Char
  | .int i => signed i.toInt
  | .uint u => digits 10 u.toNat
  | .float x => general none x
  | .text s => s
  | .bool b => (if b then "true" else "false").toList

end Argument

namespace Verb

/-- The notation for the letters that show a double, or the display of what is no number. -/
def floatBody (a : Argument) (write : Float → List Char) : List Char :=
  match a.toFloat? with
  | some x => write x
  | none => a.display

/-- The value in the notation of the verb's letter. Letters without a meaning for the value
show it as `v` does. -/
def body (v : Verb) (a : Argument) : List Char :=
  match v.letter, a with
  | 'd', .float x => signed x.toInt64.toInt
  | 'x', .int i =>
    if i < 0 then '-' :: digits 16 i.toInt.natAbs else digits 16 i.toInt.natAbs
  | 'x', .uint u => digits 16 u.toNat
  | 'f', a | 'F', a => floatBody a (Decimal.fixed (v.precision.getD 6))
  | 'e', a => floatBody a fun x => signedExponent (Decimal.exponentialTo (v.precision.getD 6) x)
  | 'g', a => floatBody a (general v.precision)
  | 's', .text s | 'v', .text s =>
    match v.precision with
    | some p => s.take p
    | none => s
  | _, a => a.display

/-- The body filled up to the width: on the right, with zeros behind the sign, or with blanks
on the left. -/
def fill (v : Verb) (numeric : Bool) (body : List Char) : List Char :=
  let missing := v.width.getD 0 - body.length
  if v.minus then body ++ List.replicate missing ' '
  else if v.zero && numeric then
    match body with
    | '-' :: ds => '-' :: List.replicate missing '0' ++ ds
    | '+' :: ds => '+' :: List.replicate missing '0' ++ ds
    | ds => List.replicate missing '0' ++ ds
  else List.replicate missing ' ' ++ body

def render (v : Verb) (a : Argument) : List Char :=
  let body := v.body a
  let body :=
    match body with
    | '-' :: _ => body
    | _ => if v.plus && a.isNumeric then '+' :: body else body
  v.fill a.isNumeric body

end Verb

def Piece.render (a : Argument) : Piece → List Char
  | .literal text => text
  | .verb v => v.render a

def render (format : List Char) (a : Argument) : List Char :=
  (pieces format).flatMap (Piece.render a)

def sprintf (format : String) (a : Argument) : String :=
  String.ofList (render format.toList a)

end TableQuery.ValueFormat
