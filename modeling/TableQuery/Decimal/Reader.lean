import TableQuery.Decimal.Binary
import TableQuery.Text.Integer
import TableQuery.Text.Split

/-!
# Doubles from text

The double nearest to a decimal text.

## Main definitions

* `Decimal.nearestBits` — the bits of the double nearest to a ratio.
* `Decimal.ofScientific` — the double nearest to digits times a power of ten.
* `Decimal.readFloat?` — a text of digits with a point and an exponent, or the name of an
  infinity or of no number.
-/

namespace TableQuery.Decimal

open TableQuery.Text (splitFirst? readNat? readInt? startsWith)

/-- The bits of the double nearest to the positive ratio `num / den`; a tie goes to the even
mantissa, and what is too large is infinite. -/
def nearestBits (num den : Nat) : Nat :=
  let guess : Int := (Nat.log2 num : Int) - Nat.log2 den - 53
  let quotient (e : Int) : Nat × Nat :=
    let n := num * Nat.pow 2 (-e).toNat
    let d := den * Nat.pow 2 e.toNat
    (n / d, d)
  let start := max guess (-1074)
  let e := if (quotient start).1 < Nat.pow 2 53 then start else start + 1
  let n := num * Nat.pow 2 (-e).toNat
  let d := den * Nat.pow 2 e.toNat
  let q := n / d
  let r := n % d
  let m := if 2 * r < d then q else if d < 2 * r then q + 1 else if q % 2 = 0 then q else q + 1
  let (m, e) := if m = Nat.pow 2 53 then (Nat.pow 2 52, e + 1) else (m, e)
  if 971 < e then 2047 * Nat.pow 2 52
  else if m < Nat.pow 2 52 then m
  else (e + 1074).toNat * Nat.pow 2 52 + m

/-- The double nearest to `digits · 10 ^ exponent`. Exponents beyond the range of doubles are
decided by the number of digits. -/
def ofScientific (negative : Bool) (digits : Nat) (exponent : Int) : Float :=
  let order := (digitCount digits : Int) + exponent
  let bits :=
    if digits = 0 || order < -330 then 0
    else if 310 < order then 2047 * Nat.pow 2 52
    else
      let (num, den) := scale digits 1 exponent
      nearestBits num den
  Float.ofBits (UInt64.ofNat (bits + if negative then Nat.pow 2 63 else 0))

def lowered (s : List Char) : List Char :=
  s.map Char.toLower

/-- Digits with at most one point among them, as an integer and the number of places; at least
one digit is needed. -/
def readMantissa? (s : List Char) : Option (Nat × Nat) :=
  let (whole, places) := (splitFirst? (· == '.') s).getD (s, [])
  (readNat? 10 (whole ++ places)).map fun n => (n, places.length)

/-- The number behind the sign: digits with a point and an exponent, or a name. -/
def readUnsigned? (negative : Bool) (s : List Char) : Option Float :=
  let name := lowered s
  if name = "inf".toList || name = "infinity".toList then
    some (Float.ofBits (UInt64.ofNat (2047 * Nat.pow 2 52 + if negative then Nat.pow 2 63 else 0)))
  else if name = "nan".toList then some (0.0 / 0.0)
  else
    let (mantissa, exponent?) :=
      match splitFirst? (fun c => c == 'e' || c == 'E') s with
      | some (m, e) => (m, readInt? 10 e)
      | none => (s, some 0)
    match readMantissa? mantissa, exponent? with
    | some (n, places), some e => some (ofScientific negative n (e - places))
    | _, _ => none

def readFloat? : List Char → Option Float
  | '-' :: s => readUnsigned? true s
  | '+' :: s => readUnsigned? false s
  | s => readUnsigned? false s

end TableQuery.Decimal
