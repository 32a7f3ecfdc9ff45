import TableQuery.Decimal.Shortest
import TableQuery.Text.Integer

/-!
# Doubles as text

The written forms of a double: positional without an exponent, with an exponent, with a fixed
number of places, and the form that always shows that it is no integer.

## Main definitions

* `Decimal.plain` — shortest digits, never an exponent, no trailing point.
* `Decimal.exponential`, `Decimal.exponentialTo` — one digit before the point and a power of
  ten, shortest or with a given number of places.
* `Decimal.fixed` — a given number of places.
* `Decimal.tagged` — `plain` with at least one place, and `exponential` for very large and very
  small numbers.
* `Decimal.interchange` — the form used in data exchange, which has no text for what is no
  finite number.
-/

namespace TableQuery.Decimal

open TableQuery.Text (digits signed padStart)

def withSign (negative : Bool) (s : List Char) : List Char :=
  if negative then '-' :: s else s

/-- The texts of the doubles that are no finite numbers, and `write` for the others. -/
def writeWith (write : Magnitude → List Char) (x : Float) : List Char :=
  match Number.ofFloat x with
  | .nan => ['N', 'a', 'N']
  | .infinite negative => withSign negative ['i', 'n', 'f']
  | .finite negative m => withSign negative (write m)

/-- `n` units of `10 ^ (-places)` with a point before the last `places` digits. -/
def pointed (n places : Nat) : List Char :=
  if places = 0 then digits 10 n
  else
    let ds := padStart '0' (places + 1) (digits 10 n)
    ds.take (ds.length - places) ++ '.' :: ds.drop (ds.length - places)

/-- Digits written positionally, with zeros up to the point where they end before it. -/
def Scientific.positional (s : Scientific) : List Char :=
  let ds := digits 10 s.significand
  let places : Int := (ds.length : Int) - 1 - s.exponent
  if places ≤ 0 then ds ++ List.replicate places.natAbs '0' else pointed s.significand places.toNat

def Scientific.withExponent (s : Scientific) : List Char :=
  let mantissa :=
    match digits 10 s.significand with
    | [] => []
    | [d] => [d]
    | d :: rest => d :: '.' :: rest
  mantissa ++ 'e' :: signed s.exponent

/-- Shortest digits, never an exponent, no trailing point: `1`, `0.1`, `-0`. -/
def plain (x : Float) : List Char :=
  writeWith (fun m => m.toShortest.positional) x

def ofFloat (x : Float) : String :=
  String.ofList (plain x)

/-- Shortest digits with an exponent: `1e21`, `1.5e-7`. -/
def exponential (x : Float) : List Char :=
  writeWith (fun m => m.toShortest.withExponent) x

def exponentialTo (places : Nat) (x : Float) : List Char :=
  writeWith (fun m =>
    let s := m.toSignificant (places + 1)
    pointed s.significand places ++ 'e' :: signed s.exponent) x

def fixed (places : Nat) (x : Float) : List Char :=
  writeWith (fun m => pointed (m.toPlaces places) places) x

/-- The magnitude is at least `10 ^ 16`, or positive and below `10 ^ (-4)`. -/
def Magnitude.isExtreme (m : Magnitude) : Bool :=
  !m.isZero &&
    (m.denominator * Nat.pow 10 16 ≤ m.numerator || m.numerator * Nat.pow 10 4 < m.denominator)

/-- Shortest digits with at least one place: `1.0`, `0.5`; with an exponent from `1e16` up and
below `1e-4`. -/
def tagged (x : Float) : List Char :=
  writeWith (fun m =>
    let s := m.toShortest
    if m.isExtreme then s.withExponent
    else
      let text := s.positional
      if text.contains '.' then text else text ++ ['.', '0']) x

/-- The form of data exchange: a point and a place are always shown where no exponent is, and
the point stands within the first sixteen digits or at most five zeros before them. -/
def interchange? (x : Float) : Option (List Char) :=
  match Number.ofFloat x with
  | .finite negative m =>
    let s := m.toShortest
    let text :=
      if m.isZero || (-5 ≤ s.exponent && s.exponent < 16) then
        let text := s.positional
        if text.contains '.' then text else text ++ ['.', '0']
      else s.withExponent
    some (withSign negative text)
  | _ => none

end TableQuery.Decimal
