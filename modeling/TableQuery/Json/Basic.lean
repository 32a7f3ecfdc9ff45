/-!
# JSON values

The data that is exchanged and stored as JSON.

## Main definitions

* `Json` — a JSON value; members keep their order and may repeat.
* `Json.isReadable` — no part of a value is unreadable.
* `Json.Record` — the known members of an object, each at most once.
* `Json.record?` — an object, or an array in the order of the members, as a record.
-/

namespace TableQuery

/-- A JSON value. Numbers without a point or an exponent that fit a word of 64 bits are
integers. What is well formed but has no value is unreadable: numbers beyond all doubles, texts
with half a surrogate pair, and what stands too deep. It only matters if it is asked for. -/
inductive Json where
  | null
  | bool (b : Bool)
  | int (n : Int)
  | float (x : Float)
  | str (s : String)
  | arr (items : List Json)
  | obj (members : List (String × Json))
  | unreadable
  deriving Inhabited

namespace Json

mutual

def isReadable : Json → Bool
  | .unreadable => false
  | .arr items => areReadable items
  | .obj members => haveReadable members
  | _ => true

def areReadable : List Json → Bool
  | [] => true
  | item :: items => isReadable item && areReadable items

def haveReadable : List (String × Json) → Bool
  | [] => true
  | (_, value) :: members => isReadable value && haveReadable members

end

/-- Members whose names are known and differ from each other. -/
abbrev Record := List (String × Json)

def distinct : List String → Bool
  | [] => true
  | name :: names => !names.contains name && distinct names

/-- The members of the given names. An object may have others, which are passed over, but none
of these twice; an array holds them in the given order, with none to spare. -/
def record? (names : List String) : Json → Option Record
  | .obj members =>
    let known := members.filter fun m => names.contains m.1
    if distinct (known.map Prod.fst) then some known else none
  | .arr items => if items.length ≤ names.length then some (names.zip items) else none
  | _ => none

def Record.get? (r : Record) (name : String) : Option Json :=
  (r.find? fun m => m.1 == name).map Prod.snd

def Record.required? {α : Type} (r : Record) (name : String) (read : Json → Option α) :
    Option α :=
  (r.get? name).bind read

def Record.optional? {α : Type} (r : Record) (name : String) (default : α)
    (read : Json → Option α) : Option α :=
  match r.get? name with
  | none => some default
  | some j => read j

def nullable? {α : Type} (read : Json → Option α) : Json → Option (Option α)
  | .null => some none
  | j => (read j).map some

def text? : Json → Option String
  | .str s => some s
  | _ => none

def any? (j : Json) : Option Json :=
  if j.isReadable then some j else none

def bool? : Json → Option Bool
  | .bool b => some b
  | _ => none

def integer? (lo hi : Int) : Json → Option Int
  | .int n => if lo ≤ n && n ≤ hi then some n else none
  | _ => none

def int64? (j : Json) : Option Int64 :=
  (j.integer? (-Int.pow 2 63) (Int.pow 2 63 - 1)).map Int64.ofInt

def int32? (j : Json) : Option Int32 :=
  (j.integer? (-Int.pow 2 31) (Int.pow 2 31 - 1)).map Int32.ofInt

def uint64? (j : Json) : Option UInt64 :=
  (j.integer? 0 (Int.pow 2 64 - 1)).map fun n => UInt64.ofNat n.toNat

def uint32? (j : Json) : Option UInt32 :=
  (j.integer? 0 (Int.pow 2 32 - 1)).map fun n => UInt32.ofNat n.toNat

def float? : Json → Option Float
  | .int n => some (if n < 0 then (Int64.ofInt n).toFloat else (UInt64.ofNat n.toNat).toFloat)
  | .float x => some x
  | _ => none

def list? {α : Type} (read : Json → Option α) : Json → Option (List α)
  | .arr items => items.mapM read
  | _ => none

/-- One of several names, also written as an object from the name to null. -/
def named? {α : Type} (names : List (String × α)) : Json → Option α
  | .str s => names.lookup s
  | .obj [(s, .null)] => names.lookup s
  | _ => none

end Json

end TableQuery
