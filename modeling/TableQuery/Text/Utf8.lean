/-!
# Texts as bytes

## Main definitions

* `Text.sequence?` — the character at the start of bytes, if they start with a well-formed one.
* `Text.ofBytes` — the text that bytes stand for, with a replacement character for what is not
  well-formed.
* `Text.toBytes` — the bytes of a text.
-/

namespace TableQuery.Text

def toBytes (s : String) : List UInt8 :=
  s.toUTF8.toList

/-- The number of continuation bytes behind a first byte of two or more, and the range of the
first of them. Overlong forms, surrogates and code points above the last are left out. -/
def continuation? (first : UInt8) : Option (Nat × UInt8 × UInt8) :=
  if 0xC2 ≤ first && first ≤ 0xDF then some (1, 0x80, 0xBF)
  else if first = 0xE0 then some (2, 0xA0, 0xBF)
  else if first = 0xED then some (2, 0x80, 0x9F)
  else if 0xE1 ≤ first && first ≤ 0xEF then some (2, 0x80, 0xBF)
  else if first = 0xF0 then some (3, 0x90, 0xBF)
  else if 0xF1 ≤ first && first ≤ 0xF3 then some (3, 0x80, 0xBF)
  else if first = 0xF4 then some (3, 0x80, 0x8F)
  else none

/-- The leading continuation bytes, at most `count`, of which the first is within a range. -/
def continuing (count : Nat) (lo hi : UInt8) : List UInt8 → List UInt8
  | [] => []
  | b :: bytes =>
    match count with
    | 0 => []
    | count + 1 => if lo ≤ b && b ≤ hi then b :: continuing count 0x80 0xBF bytes else []

def sequenceChar (first : UInt8) (rest : List UInt8) : Char :=
  let lead := first.toNat % Nat.pow 2 (6 - rest.length)
  Char.ofNat (rest.foldl (fun n b => n * 64 + b.toNat % 64) lead)

/-- The character at the start of bytes and the number of bytes it takes besides the first. What
is not well-formed stands for a replacement character, which takes the longest start of a
well-formed sequence. -/
def decodeFirst (first : UInt8) (bytes : List UInt8) : Char × Nat :=
  if first < 0x80 then (Char.ofNat first.toNat, 0)
  else
    match continuation? first with
    | none => ('\ufffd', 0)
    | some (count, lo, hi) =>
      let rest := continuing count lo hi bytes
      (if rest.length = count then sequenceChar first rest else '\ufffd', rest.length)

/-- The characters that bytes stand for, after `skip` bytes that were taken already. -/
def decodeFrom (skip : Nat) : List UInt8 → List Char
  | [] => []
  | b :: bytes =>
    match skip with
    | skip + 1 => decodeFrom skip bytes
    | 0 =>
      let (c, count) := decodeFirst b bytes
      c :: decodeFrom count bytes

def ofBytes (bytes : List UInt8) : List Char :=
  decodeFrom 0 bytes

end TableQuery.Text
