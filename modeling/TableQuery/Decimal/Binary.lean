/-!
# Binary floating point, exactly

A double is a sign and a magnitude `mantissa · 2 ^ exponent`. Everything that writes a double
starts from these numbers, so that no digit depends on inexact arithmetic.

## Main definitions

* `Decimal.Magnitude` — a non-negative binary fraction, with its ratio of naturals.
* `Decimal.Number` — a double taken apart: no number, an infinity, or a signed magnitude.
* `Decimal.Number.ofFloat` — the parts of a double.
* `Decimal.ofInt64` — the double nearest to a signed word.
-/

namespace TableQuery.Decimal

/-- The number `mantissa · 2 ^ exponent`. -/
structure Magnitude where
  mantissa : Nat
  exponent : Int
  deriving DecidableEq, Repr

namespace Magnitude

def numerator (x : Magnitude) : Nat :=
  x.mantissa * Nat.pow 2 x.exponent.toNat

/-- The power of two that divides `numerator`. -/
def denominator (x : Magnitude) : Nat :=
  Nat.pow 2 (-x.exponent).toNat

def isZero (x : Magnitude) : Bool :=
  x.mantissa == 0

end Magnitude

inductive Number where
  | nan
  | infinite (negative : Bool)
  | finite (negative : Bool) (magnitude : Magnitude)
  deriving DecidableEq, Repr

namespace Number

/-- The parts of the double with the given bits: one for the sign, eleven for the exponent
and 52 for the fraction, whose leading one is implied unless the exponent field is zero. -/
def ofBits (bits : Nat) : Number :=
  let negative := bits / Nat.pow 2 63 % 2 == 1
  let field : Nat := bits / Nat.pow 2 52 % Nat.pow 2 11
  let fraction : Nat := bits % Nat.pow 2 52
  if field = 2047 then
    if fraction = 0 then infinite negative else nan
  else if field = 0 then finite negative ⟨fraction, -1074⟩
  else finite negative ⟨Nat.pow 2 52 + fraction, (field : Int) - 1075⟩

def ofFloat (x : Float) : Number :=
  ofBits x.toBits.toNat

end Number

/-- The double nearest to a signed word. Rounding treats both signs alike, so that the double of
the magnitude carries the sign. -/
def ofInt64 (i : Int64) : Float :=
  let magnitude := (UInt64.ofNat i.toInt.natAbs).toFloat
  if i < 0 then -magnitude else magnitude

/-- The number of decimal digits of a natural number, one for zero. -/
def digitCount (n : Nat) : Nat :=
  (Nat.toDigits 10 n).length

/-- The exponent `k` with `10 ^ k ≤ num / den < 10 ^ (k + 1)`, for positive numbers. -/
def leadingExponent (num den : Nat) : Int :=
  if den ≤ num then (digitCount (num / den) : Int) - 1
  else
    let j := digitCount (den / num)
    if den ≤ num * Nat.pow 10 (j - 1) then -((j : Int) - 1) else -(j : Int)

/-- The ratio `num / den` times `10 ^ e`, again as a ratio. -/
def scale (num den : Nat) (e : Int) : Nat × Nat :=
  (num * Nat.pow 10 e.toNat, den * Nat.pow 10 (-e).toNat)

end TableQuery.Decimal
