import TableQuery.Json.Basic
import TableQuery.Decimal.Written

/-!
# Writing JSON texts

The compact form, without gaps.

## Main definitions

* `Json.quoted` — a string between quotes, with escapes.
* `Json.write` — the text of a value.
-/

namespace TableQuery.Json

private def hexPair (n : Nat) : List Char :=
  [Nat.digitChar (n / 16), Nat.digitChar (n % 16)]

/-- A character within quotes: quotes, backslashes and control characters are escaped. -/
def escaped (c : Char) : List Char :=
  if c = '"' then ['\\', '"']
  else if c = '\\' then ['\\', '\\']
  else if c = '\x08' then ['\\', 'b']
  else if c = '\x0c' then ['\\', 'f']
  else if c = '\n' then ['\\', 'n']
  else if c = '\r' then ['\\', 'r']
  else if c = '\t' then ['\\', 't']
  else if c.toNat < 32 then '\\' :: 'u' :: '0' :: '0' :: hexPair c.toNat
  else [c]

def quoted (s : String) : List Char :=
  '"' :: s.toList.flatMap escaped ++ ['"']

mutual

/-- The text of a value. What is no finite number or unreadable is written as null. -/
def writeChars : Json → List Char
  | .null | .unreadable => ['n', 'u', 'l', 'l']
  | .bool true => ['t', 'r', 'u', 'e']
  | .bool false => ['f', 'a', 'l', 's', 'e']
  | .int n => Text.signed n
  | .float x => (Decimal.interchange? x).getD ['n', 'u', 'l', 'l']
  | .str s => quoted s
  | .arr items => '[' :: writeItems items ++ [']']
  | .obj members => '\x7b' :: writeMembers members ++ ['\x7d']

def writeItems : List Json → List Char
  | [] => []
  | [item] => writeChars item
  | item :: items => writeChars item ++ ',' :: writeItems items

def writeMembers : List (String × Json) → List Char
  | [] => []
  | [(name, value)] => quoted name ++ ':' :: writeChars value
  | (name, value) :: members =>
    quoted name ++ ':' :: writeChars value ++ ',' :: writeMembers members

end

def write (j : Json) : String :=
  String.ofList (writeChars j)

end TableQuery.Json
