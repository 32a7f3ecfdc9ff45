import TableQuery.Decimal.Binary

/-!
# Rounding to decimal places

A fraction rounded to a number of places or of significant digits. Ties go to the even
neighbour, and the fraction is exact, so a number such as `0.15` that lies below its decimal
name is rounded down.

## Main definitions

* `Decimal.roundDiv` — a quotient rounded to the nearest integer.
* `Decimal.Magnitude.toPlaces` — units of the last of `p` places.
* `Decimal.Scientific`, `Decimal.Magnitude.toSignificant` — leading digits and an exponent.
-/

namespace TableQuery.Decimal

/-- The integer nearest to `num / den`; a tie goes to the even neighbour. -/
def roundDiv (num den : Nat) : Nat :=
  let q := num / den
  let r := num % den
  if 2 * r < den then q
  else if den < 2 * r then q + 1
  else if q % 2 = 0 then q else q + 1

/-- Decimal digits and the power of ten of the first of them: `d.ddd · 10 ^ exponent`. -/
structure Scientific where
  significand : Nat
  exponent : Int
  deriving DecidableEq, Repr

namespace Magnitude

/-- The magnitude in units of `10 ^ (-places)`, rounded. -/
def toPlaces (x : Magnitude) (places : Nat) : Nat :=
  roundDiv (x.numerator * Nat.pow 10 places) x.denominator

def toSignificant (x : Magnitude) (count : Nat) : Scientific :=
  if x.isZero then ⟨0, 0⟩
  else
    let k := leadingExponent x.numerator x.denominator
    let (num, den) := scale x.numerator x.denominator ((count : Int) - 1 - k)
    let n := roundDiv num den
    if n = Nat.pow 10 count then ⟨Nat.pow 10 (count - 1), k + 1⟩ else ⟨n, k⟩

end Magnitude

/-- The rounded quotient is off by at most half a unit. -/
theorem roundDiv_bounds (num den : Nat) (h : 0 < den) :
    2 * num ≤ (2 * roundDiv num den + 1) * den ∧ 2 * roundDiv num den * den ≤ 2 * num + den := by
  have hd := Nat.div_add_mod num den
  have hr := Nat.mod_lt num h
  have hq : num / den * den = den * (num / den) := Nat.mul_comm _ _
  unfold roundDiv
  simp only
  split
  · constructor <;> simp only [Nat.add_mul, Nat.mul_assoc, hq] <;> omega
  · split
    · constructor <;> simp only [Nat.add_mul, Nat.mul_add, Nat.mul_assoc, hq] <;> omega
    · split <;> constructor <;> simp only [Nat.add_mul, Nat.mul_add, Nat.mul_assoc, hq] <;> omega

end TableQuery.Decimal
