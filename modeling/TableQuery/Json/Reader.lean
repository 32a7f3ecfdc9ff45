import TableQuery.Json.Number

/-!
# Reading JSON texts

## Main definitions

* `Json.readString?` — the text behind an opening quote.
* `Json.readValue?` — the value at the start of a text.
* `Json.parseLoose?`, `Json.parse?` — the value that a whole text denotes, with or without
  parts that are unreadable.
-/

namespace TableQuery.Json

def isGap (c : Char) : Bool :=
  c == ' ' || c == '\n' || c == '\t' || c == '\r'

def skipGap (s : List Char) : List Char :=
  s.dropWhile isGap

def readUnit? : List Char → Option (Nat × List Char)
  | a :: b :: c :: d :: s => do
    let n ← Text.readNat? 16 [a, b, c, d]
    some (n, s)
  | _ => none

def readLow? : List Char → Option (Nat × List Char)
  | '\\' :: 'u' :: s => (readUnit? s).filter fun (n, _) => 0xDC00 ≤ n && n < 0xE000
  | _ => none

/-- The character of an escape behind its backslash. Code units of surrogates stand for none
unless they come as a high one and a low one. -/
def readEscape? : List Char → Option (Option Char × List Char)
  | '"' :: s => some (some '"', s)
  | '\\' :: s => some (some '\\', s)
  | '/' :: s => some (some '/', s)
  | 'b' :: s => some (some '\x08', s)
  | 'f' :: s => some (some '\x0c', s)
  | 'n' :: s => some (some '\n', s)
  | 'r' :: s => some (some '\r', s)
  | 't' :: s => some (some '\t', s)
  | 'u' :: s => do
    let (unit, s) ← readUnit? s
    if 0xD800 ≤ unit && unit < 0xDC00 then
      match readLow? s with
      | some (low, s) =>
        some (some (Char.ofNat (0x10000 + (unit - 0xD800) * 0x400 + (low - 0xDC00))), s)
      | none => some (none, s)
    else if 0xDC00 ≤ unit && unit < 0xE000 then some (none, s)
    else some (some (Char.ofNat unit), s)
  | _ => none

/-- The text up to the closing quote, behind what was read of it, last character first, unless
that is unreadable. The fuel bounds the number of characters. -/
def readStringOnto? (reversed : Option (List Char)) :
    (fuel : Nat) → List Char → Option (Option String × List Char)
  | 0, _ => none
  | _, [] => none
  | fuel + 1, c :: s =>
    if c = '"' then some (reversed.map fun cs => String.ofList cs.reverse, s)
    else if c = '\\' then do
      let (c, s) ← readEscape? s
      readStringOnto? (reversed.bind fun cs => c.map fun c => c :: cs) fuel s
    else if c.toNat < 32 then none
    else readStringOnto? (reversed.map fun cs => c :: cs) fuel s

/-- The text behind an opening quote, unless it is unreadable, and what follows its closing
quote. -/
def readString? (s : List Char) : Option (Option String × List Char) :=
  readStringOnto? (some []) s.length s

def ofText? : Option String → Json
  | none => .unreadable
  | some s => .str s

/-- An object, all of whose names must be readable. -/
def ofMembers? (members : List (Option String × Json)) : Json :=
  match members.mapM fun (name, value) => name.map fun name => (name, value) with
  | none => .unreadable
  | some members => .obj members

/-- A value that stands too deep is unreadable. -/
def within (depth : Nat) (j : Json) : Json :=
  if depth = 0 then .unreadable else j

mutual

/-- The value at the start of a text without leading gaps. `depth` bounds the nesting of
readable arrays and objects, `fuel` the number of tokens. -/
def readValue? : (fuel depth : Nat) → List Char → Option (Json × List Char)
  | 0, _, _ => none
  | fuel + 1, depth, s =>
    match s with
    | 'n' :: 'u' :: 'l' :: 'l' :: s => some (.null, s)
    | 't' :: 'r' :: 'u' :: 'e' :: s => some (.bool true, s)
    | 'f' :: 'a' :: 'l' :: 's' :: 'e' :: s => some (.bool false, s)
    | '"' :: s => (readString? s).map fun (t, s) => (ofText? t, s)
    | '[' :: s =>
      match skipGap s with
      | ']' :: s => some (within depth (.arr []), s)
      | s =>
        (readItems? fuel (depth - 1) s).map fun (items, s) => (within depth (.arr items), s)
    | '\x7b' :: s =>
      match skipGap s with
      | '\x7d' :: s => some (within depth (.obj []), s)
      | s =>
        (readMembers? fuel (depth - 1) s).map fun (members, s) =>
          (within depth (ofMembers? members), s)
    | s => readNumber? s

def readItems? : (fuel depth : Nat) → List Char → Option (List Json × List Char)
  | 0, _, _ => none
  | fuel + 1, depth, s => do
    let (item, s) ← readValue? fuel depth s
    match skipGap s with
    | ',' :: s => do
      let (items, s) ← readItems? fuel depth (skipGap s)
      some (item :: items, s)
    | ']' :: s => some ([item], s)
    | _ => none

def readMembers? : (fuel depth : Nat) → List Char →
    Option (List (Option String × Json) × List Char)
  | 0, _, _ => none
  | fuel + 1, depth, s =>
    match s with
    | '"' :: s => do
      let (name, s) ← readString? s
      match skipGap s with
      | ':' :: s => do
        let (value, s) ← readValue? fuel depth (skipGap s)
        match skipGap s with
        | ',' :: s => do
          let (members, s) ← readMembers? fuel depth (skipGap s)
          some ((name, value) :: members, s)
        | '\x7d' :: s => some ([(name, value)], s)
        | _ => none
      | _ => none
    | _ => none

end

/-- The value that a text denotes, with gaps around it. Fewer than 128 arrays and objects inside
each other are readable. -/
def parseChars? (s : List Char) : Option Json := do
  let (value, rest) ← readValue? (2 * s.length + 2) 127 (skipGap s)
  if (skipGap rest).isEmpty then some value else none

/-- The value that a text denotes, of which only the parts that are asked for must be
readable. -/
def parseLoose? (s : String) : Option Json :=
  parseChars? s.toList

/-- The value that a text denotes, all of which must be readable. -/
def parse? (s : String) : Option Json :=
  (parseLoose? s).bind any?

end TableQuery.Json
