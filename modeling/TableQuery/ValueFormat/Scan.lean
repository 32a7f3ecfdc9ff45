import TableQuery.ValueFormat.Basic
import TableQuery.Decimal.Reader
import TableQuery.Text.Blank

/-!
# Reading a value back through a format

The value is what stands between the literal texts around the first verb; later verbs are
passed over.

## Main definitions

* `ValueFormat.Scanned` — a value that was read.
* `ValueFormat.scan?` — the value that a format shows as the given text.
-/

namespace TableQuery.ValueFormat

open TableQuery.Text (stripStart? stripEnd? trim)

inductive Scanned where
  | int (i : Int64)
  | float (x : Float)
  | text (s : List Char)

def literals (ps : List Piece) : List Char :=
  ps.flatMap fun
    | .literal text => text
    | .verb _ => []

def firstVerb? : List Piece → Option (List Char × Verb × List Char)
  | [] => none
  | .literal text :: ps => (firstVerb? ps).map fun (before, v, after) => (text ++ before, v, after)
  | .verb v :: ps => some ([], v, literals ps)

def Verb.read? (v : Verb) (body : List Char) : Option Scanned :=
  match v.letter with
  | 'd' => (Text.readInt64? 10 (body.dropWhile (· == '+'))).map .int
  | 'x' => (Text.readInt64? 16 body).map .int
  | 'f' | 'F' | 'e' | 'g' => (Decimal.readFloat? body).map .float
  | _ => some (.text body)

/-- The value that the format shows as the given text; a format without a verb shows any text
as itself. -/
def scan? (format input : List Char) : Option Scanned :=
  match firstVerb? (pieces format) with
  | none => some (.text input)
  | some (before, v, after) => do
    let rest ← stripStart? before input
    let body ← stripEnd? after rest
    v.read? (trim body)

end TableQuery.ValueFormat
