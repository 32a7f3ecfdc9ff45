/-!
# Integers as text

Writing integers in a base and reading them back within bounds.

## Main definitions

* `Text.digits`, `Text.signed` — the digits of a number, with a minus sign where negative.
* `Text.readNat?` — the value of a non-empty text of digits.
* `Text.readInt?` — the value of digits behind an optional sign.
* `Text.readInt64?`, `Text.readInt32?`, `Text.readUInt64?` — the same, within the bounds of
  a word.
-/

namespace TableQuery.Text

/-- The value of one digit in bases up to sixteen, in either case. -/
def digitValue? (base : Nat) (c : Char) : Option Nat :=
  let n := c.toNat
  let value :=
    if 48 ≤ n && n ≤ 57 then some (n - 48)
    else if 97 ≤ n && n ≤ 102 then some (n - 87)
    else if 65 ≤ n && n ≤ 70 then some (n - 55)
    else none
  value.filter (· < base)

/-- The digits of a natural number, in lower case, without leading zeros. -/
def digits (base n : Nat) : List Char :=
  Nat.toDigits base n

def signed (i : Int) : List Char :=
  if i < 0 then '-' :: digits 10 i.natAbs else digits 10 i.natAbs

def ofInt (i : Int) : String :=
  String.ofList (signed i)

def readDigitsOnto? (base : Nat) (value : Nat) : List Char → Option Nat
  | [] => some value
  | c :: s => (digitValue? base c).bind fun d => readDigitsOnto? base (value * base + d) s

def readNat? (base : Nat) : List Char → Option Nat
  | [] => none
  | s@(_ :: _) => readDigitsOnto? base 0 s

/-- The value of digits behind at most one sign. -/
def readInt? (base : Nat) : List Char → Option Int
  | '-' :: s => (readNat? base s).map fun n => -(n : Int)
  | '+' :: s => (readNat? base s).map fun n => (n : Int)
  | s => (readNat? base s).map fun n => (n : Int)

def readBetween? (base : Nat) (lo hi : Int) (s : List Char) : Option Int :=
  (readInt? base s).filter fun i => lo ≤ i && i ≤ hi

def readInt64? (base : Nat) (s : List Char) : Option Int64 :=
  (readBetween? base (-Int.pow 2 63) (Int.pow 2 63 - 1) s).map Int64.ofInt

def readInt32? (s : List Char) : Option Int32 :=
  (readBetween? 10 (-Int.pow 2 31) (Int.pow 2 31 - 1) s).map Int32.ofInt

/-- A decimal integer that fits an unsigned word of 64 bits; a minus sign is refused. -/
def readUInt64? : List Char → Option UInt64
  | '-' :: _ => none
  | s => (readBetween? 10 0 (Int.pow 2 64 - 1) s).map fun i => UInt64.ofNat i.toNat

def padStart (fill : Char) (width : Nat) (s : List Char) : List Char :=
  List.replicate (width - s.length) fill ++ s

@[simp] theorem length_padStart (fill : Char) (width : Nat) (s : List Char) :
    (padStart fill width s).length = max width s.length := by
  simp [padStart]; omega

end TableQuery.Text
