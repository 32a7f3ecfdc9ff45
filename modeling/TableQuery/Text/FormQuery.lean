import TableQuery.Text.Integer
import TableQuery.Text.Split
import TableQuery.Text.Utf8

/-!
# Queries of addresses

Pairs of names and values such as `Code=A&Note=a+b%21`, as forms send them.

## Main definitions

* `Text.formDecode` — the text behind escapes of bytes and plus signs.
* `Text.formPairs` — the pairs of a query.
-/

namespace TableQuery.Text

/-- The byte of two hexadecimal digits at the start of bytes. -/
def escapedByte? : List UInt8 → Option UInt8
  | high :: low :: _ => do
    let h ← digitValue? 16 (Char.ofNat high.toNat)
    let l ← digitValue? 16 (Char.ofNat low.toNat)
    some (UInt8.ofNat (h * 16 + l))
  | _ => none

/-- The bytes behind escapes of a percent sign and two digits, after `skip` digits that were
taken already. A plus sign is a blank, and a percent sign without digits stands for itself. -/
def unescapeFrom (skip : Nat) : List UInt8 → List UInt8
  | [] => []
  | b :: bytes =>
    match skip with
    | skip + 1 => unescapeFrom skip bytes
    | 0 =>
      if b = 0x2B then 0x20 :: unescapeFrom 0 bytes
      else if b = 0x25 then
        match escapedByte? bytes with
        | some e => e :: unescapeFrom 2 bytes
        | none => b :: unescapeFrom 0 bytes
      else b :: unescapeFrom 0 bytes

def formDecode (s : List Char) : List Char :=
  ofBytes (unescapeFrom 0 (toBytes (String.ofList s)))

/-- A name and a value on the sides of the first equals sign. -/
def formPair (s : List Char) : String × String :=
  let (name, value) := (splitFirst? (· == '=') s).getD (s, [])
  (String.ofList (formDecode name), String.ofList (formDecode value))

/-- The pairs between ampersands; empty ones are passed over. -/
def formPairs (s : List Char) : List (String × String) :=
  ((splitAtChar '&' s).filter fun part => !part.isEmpty).map formPair

end TableQuery.Text
