import TableQuery.Decimal.Rounded

/-!
# The shortest decimal that reads back

Among the decimals that round to a given double, those with the fewest digits, and among
these the nearest. The doubles next to a double are half a unit in the last place away, so
the decimals that round to it fill an interval; its ends belong to it when the mantissa is
even.

## Main definitions

* `Decimal.Interval`, `Decimal.Magnitude.interval` — the numbers that round to a magnitude.
* `Decimal.Magnitude.toShortest` — the fewest digits that read back.
-/

namespace TableQuery.Decimal

/-- The numbers from `low / den` to `high / den`, with or without the two ends. -/
structure Interval where
  low : Nat
  high : Nat
  den : Nat
  closed : Bool
  deriving DecidableEq, Repr

def Interval.holds (i : Interval) (num den : Nat) : Bool :=
  if i.closed then i.low * den ≤ num * i.den && num * i.den ≤ i.high * den
  else i.low * den < num * i.den && num * i.den < i.high * den

namespace Magnitude

/-- The numbers that round to the magnitude. The neighbour below a power of two is only half
as far away as the one above, except at the least exponent. -/
def interval (x : Magnitude) : Interval :=
  let below := if x.mantissa = Nat.pow 2 52 && x.exponent > -1074 then 1 else 2
  let unit : Magnitude := ⟨1, x.exponent - 2⟩
  ⟨(4 * x.mantissa - below) * unit.numerator, (4 * x.mantissa + 2) * unit.numerator,
    unit.denominator, x.mantissa % 2 = 0⟩

/-- The decimal with `count` digits nearest to the magnitude among those that round to it, if
there is one; a tie goes up. `k` is the exponent of the first digit. -/
def onGrid? (x : Magnitude) (k : Int) (count : Nat) : Option Scientific :=
  let e := (count : Int) - 1 - k
  let (num, den) := scale x.numerator x.denominator e
  let lower := num / den
  let i := x.interval
  let reads (n : Nat) : Bool :=
    let (a, b) := scale n 1 (-e)
    i.holds a b
  let named (n : Nat) : Scientific :=
    if n = Nat.pow 10 count then ⟨Nat.pow 10 (count - 1), k + 1⟩ else ⟨n, k⟩
  match reads lower, reads (lower + 1) with
  | true, true => if 2 * (num % den) < den then some (named lower) else some (named (lower + 1))
  | true, false => some (named lower)
  | false, true => some (named (lower + 1))
  | false, false => none

/-- The first hit on grids of `count`, `count + 1`, … digits. -/
def firstGrid (x : Magnitude) (k : Int) (count : Nat) : (fuel : Nat) → Scientific
  | 0 => x.toSignificant count
  | fuel + 1 =>
    match x.onGrid? k count with
    | some s => s
    | none => firstGrid x k (count + 1) fuel

def dropTrailingZeros (n : Nat) : Nat :=
  if h : n ≠ 0 ∧ n % 10 = 0 then dropTrailingZeros (n / 10) else n
termination_by n
decreasing_by omega

/-- The fewest digits that read back as the magnitude. Seventeen always do. -/
def toShortest (x : Magnitude) : Scientific :=
  if x.isZero then ⟨0, 0⟩
  else
    let s := x.firstGrid (leadingExponent x.numerator x.denominator) 1 17
    ⟨dropTrailingZeros s.significand, s.exponent⟩

end Magnitude

end TableQuery.Decimal
