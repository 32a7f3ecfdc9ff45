import TableQuery.Json.Basic
import TableQuery.Decimal.Reader

/-!
# Numbers in JSON texts

A number without a point or an exponent that fits a word of 64 bits is an integer. All others
are doubles, computed from the digits that fit a word by one multiplication or division, which
need not give the nearest double.

## Main definitions

* `Json.Digits` — digits that fit a word, and the power of ten that the others account for.
* `Json.readNumber?` — the number at the start of a text.
-/

namespace TableQuery.Json

open TableQuery.Text (digitValue?)

/-- The value `significand · 10 ^ exponent` of digits read so far; `full` once a digit did not
fit the significand. -/
structure Digits where
  significand : Nat
  exponent : Int
  full : Bool
  deriving DecidableEq, Repr

/-- A further digit before the point. Once the significand is full, digits only raise the
exponent. -/
def Digits.pushWhole (d : Digits) (c : Char) : Digits :=
  let next := d.significand * 10 + (c.toNat - 48)
  if d.full || Nat.pow 2 64 ≤ next then { d with exponent := d.exponent + 1, full := true }
  else { d with significand := next }

/-- A further digit behind the point. From the first that does not fit, all are dropped. -/
def Digits.pushPlace (d : Digits) (c : Char) : Digits :=
  let next := d.significand * 10 + (c.toNat - 48)
  if d.full || Nat.pow 2 64 ≤ next then { d with full := true }
  else { d with significand := next, exponent := d.exponent - 1 }

def powerOfTen (n : Nat) : Float :=
  Decimal.ofScientific false 1 n

/-- `x · 10 ^ exponent`, in steps that stay within the range of doubles; none if the result is
too large. -/
def scaleFloat? (x : Float) (exponent : Int) : (steps : Nat) → Option Float
  | 0 => some x
  | steps + 1 =>
    if exponent.natAbs ≤ 308 then
      if 0 ≤ exponent then
        let y := x * powerOfTen exponent.natAbs
        if y.isInf then none else some y
      else some (x / powerOfTen exponent.natAbs)
    else if x == 0.0 then some x
    else if 0 ≤ exponent then none
    else scaleFloat? (x / powerOfTen 308) (exponent + 308) steps

def Digits.toFloat? (d : Digits) (negative : Bool) : Option Float :=
  (scaleFloat? (UInt64.ofNat d.significand).toFloat d.exponent 4).map fun x =>
    if negative then -x else x

def readExponent? (s : List Char) : Option (Int × List Char) :=
  let (negative, s) :=
    match s with
    | '-' :: s => (true, s)
    | '+' :: s => (false, s)
    | s => (false, s)
  (Text.readNat? 10 (s.takeWhile Char.isDigit)).map fun n =>
    (if negative then -(n : Int) else n, s.dropWhile Char.isDigit)

/-- A double, or a number beyond all doubles. -/
def ofFloat? : Option Float → Json
  | none => .unreadable
  | some x => .float x

/-- The double of digits with the exponent that may follow them. An exponent beyond a word of
32 bits is out of range, or makes the number zero. -/
def finishFloat? (negative : Bool) (d : Digits) (s : List Char) : Option (Json × List Char) :=
  match s with
  | 'e' :: s | 'E' :: s => do
    let (e, s) ← readExponent? s
    if Nat.pow 2 31 ≤ e.natAbs then
      if d.significand ≠ 0 && 0 < e then some (.unreadable, s)
      else some (.float (if negative then -0.0 else 0.0), s)
    else some (ofFloat? ({ d with exponent := d.exponent + e }.toFloat? negative), s)
  | s => some (ofFloat? (d.toFloat? negative), s)

/-- The number behind its sign. A negative zero is a double, for it has no integer. -/
def readUnsigned? (negative : Bool) (s : List Char) : Option (Json × List Char) :=
  let whole := s.takeWhile Char.isDigit
  let rest := s.dropWhile Char.isDigit
  match whole with
  | [] => none
  | '0' :: _ :: _ => none
  | _ :: _ =>
    let d := whole.foldl Digits.pushWhole ⟨0, 0, false⟩
    match rest with
    | '.' :: rest =>
      match rest.takeWhile Char.isDigit with
      | [] => none
      | places@(_ :: _) =>
        let d := places.foldl Digits.pushPlace { d with full := false }
        finishFloat? negative d (rest.dropWhile Char.isDigit)
    | 'e' :: _ | 'E' :: _ => finishFloat? negative d rest
    | _ =>
      if d.full then finishFloat? negative d rest
      else if negative then
        if d.significand = 0 || Nat.pow 2 63 < d.significand then finishFloat? true d rest
        else some (.int (-(d.significand : Int)), rest)
      else some (.int d.significand, rest)

def readNumber? : List Char → Option (Json × List Char)
  | '-' :: s => readUnsigned? true s
  | s => readUnsigned? false s

end TableQuery.Json
