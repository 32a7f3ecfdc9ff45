import TableQuery.Text.Integer

/-!
# Formats of column values

A column may show its numbers through a format such as `MAT-%03d` or `%.2f kg`: literal text
around verbs. A verb is a percent sign, flags, a width, a precision and a letter; a doubled
percent sign stands for one.

## Main definitions

* `ValueFormat.Verb`, `ValueFormat.Piece` — the parts of a format.
* `ValueFormat.readVerb?` — the verb behind a percent sign.
* `ValueFormat.pieces` — the parts of a format text.
* `ValueFormat.Argument` — what a format can show.
-/

namespace TableQuery.ValueFormat

structure Verb where
  /-- Fill on the right. -/
  minus : Bool
  /-- Show a plus sign. -/
  plus : Bool
  /-- Fill numbers with zeros. -/
  zero : Bool
  width : Option Nat
  precision : Option Nat
  letter : Char
  deriving DecidableEq, Repr

inductive Piece where
  | literal (text : List Char)
  | verb (v : Verb)
  deriving DecidableEq, Repr

inductive Argument where
  | int (i : Int64)
  | uint (u : UInt64)
  | float (x : Float)
  | text (s : List Char)
  | bool (b : Bool)

/-- The flags: fill on the right, show the sign, fill with zeros. -/
def isFlag (c : Char) : Bool :=
  c == '-' || c == '+' || c == '0'

/-- A width or precision; what exceeds a word of 64 bits is none. -/
def readSize? (ds : List Char) : Option Nat :=
  (Text.readNat? 10 ds).filter (· < Nat.pow 2 64)

/-- The precision behind a point, zero where it cannot be read, and the rest of the text. -/
def readPrecision : List Char → Option Nat × List Char
  | '.' :: s => (some ((readSize? (s.takeWhile Char.isDigit)).getD 0), s.dropWhile Char.isDigit)
  | s => (none, s)

theorem length_readPrecision_le (s : List Char) : (readPrecision s).2.length ≤ s.length := by
  unfold readPrecision
  split
  · rename_i s
    have := (List.dropWhile_sublist Char.isDigit : (s.dropWhile Char.isDigit).Sublist s).length_le
    simp only [List.length_cons]
    omega
  · simp

/-- The verb behind a percent sign and the text behind the verb; none if the text ends before
the letter. -/
def readVerb? (s : List Char) : Option (Verb × List Char) :=
  let flags := s.takeWhile isFlag
  let s := s.dropWhile isFlag
  let width := readSize? (s.takeWhile Char.isDigit)
  let (precision, s) := readPrecision (s.dropWhile Char.isDigit)
  match s with
  | [] => none
  | letter :: rest =>
    some (⟨flags.contains '-', flags.contains '+', flags.contains '0', width, precision, letter⟩,
      rest)

/-- A verb takes at least its letter from the text. -/
theorem length_lt_of_readVerb? {s rest : List Char} {v : Verb}
    (h : readVerb? s = some (v, rest)) : rest.length < s.length := by
  unfold readVerb? at h
  simp only at h
  have h1 := (List.dropWhile_sublist isFlag : (s.dropWhile isFlag).Sublist s).length_le
  have h2 := (List.dropWhile_sublist Char.isDigit :
    ((s.dropWhile isFlag).dropWhile Char.isDigit).Sublist (s.dropWhile isFlag)).length_le
  have h3 := length_readPrecision_le ((s.dropWhile isFlag).dropWhile Char.isDigit)
  split at h
  · simp at h
  · rename_i letter rest' heq
    simp only [Option.some.injEq, Prod.mk.injEq] at h
    rw [heq] at h3
    simp only [List.length_cons] at h3
    rw [← h.2]
    omega

/-- A literal piece, unless it is empty; the text is given last character first. -/
def literalPiece (reversed : List Char) : List Piece :=
  match reversed with
  | [] => []
  | _ :: _ => [.literal reversed.reverse]

/-- The parts of a format behind literal text that is given last character first. A verb that
the text ends in is a literal percent sign. -/
def piecesAfter (reversed : List Char) (s : List Char) : List Piece :=
  match s with
  | [] => literalPiece reversed
  | '%' :: '%' :: s => piecesAfter ('%' :: reversed) s
  | '%' :: s =>
    match h : readVerb? s with
    | some (v, rest) =>
      have := length_lt_of_readVerb? h
      literalPiece reversed ++ .verb v :: piecesAfter [] rest
    | none => literalPiece ('%' :: reversed)
  | c :: s => piecesAfter (c :: reversed) s
termination_by s.length

def pieces (format : List Char) : List Piece :=
  piecesAfter [] format

end TableQuery.ValueFormat
