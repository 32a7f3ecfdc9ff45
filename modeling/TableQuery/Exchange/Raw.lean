import TableQuery.Calendar.Read
import TableQuery.Decimal.Reader
import TableQuery.Exchange.Value

/-!
# Raw values as JSON

Truth values, whole numbers, texts and null stand for themselves. The other kinds are objects
that name the kind. Doubles are texts, because JSON has no number for the infinities.

## Main definitions

* `Raw.toJson`, `Raw.ofJson?` — raw values.
-/

namespace TableQuery

namespace Raw

def momentPattern : String := "%Y-%m-%dT%H:%M:%S%.f"

def toJson : Raw → Json
  | null => .null
  | bool b => .bool b
  | int i => .int i.toInt
  | uint u => .obj [("uint", .int u.toNat)]
  | float x => .obj [("float", .str (Decimal.ofFloat x))]
  | text s => .str s
  | bytes bs => .obj [("bytes", .arr (bs.map fun b => .int b.toNat))]
  | time t => .obj [("time", .str (String.ofList (t.written 'T')))]

def byte? (j : Json) : Option UInt8 :=
  (j.integer? 0 255).map fun n => UInt8.ofNat n.toNat

def ofJson? : Json → Option Raw
  | .null => some .null
  | .bool b => some (.bool b)
  | .str s => some (.text s)
  | .obj [("uint", j)] => j.uint64?.map .uint
  | .obj [("float", .str s)] => (Decimal.readFloat? s.toList).map .float
  | .obj [("bytes", j)] => (j.list? byte?).map .bytes
  | .obj [("time", .str s)] => (Calendar.readMoment? momentPattern s.toList).map .time
  | .obj _ => none
  | j => j.int64?.map .int

end Raw

end TableQuery
