import TableQuery.Text.Split

/-!
# Places in configuration texts

Columns and lines carry the structure of a configuration text, so reading it keeps count of them.

## Main definitions

* `Yaml.Place` — what is left of a text, and where that stands.
* `Yaml.Place.advance`, `Yaml.Place.newLine` — the places behind characters and line ends.
* `Yaml.Gap`, `Yaml.Gap.read?` — blanks and line ends between the words of a scalar.
-/

namespace TableQuery.Yaml

structure Place where
  rest : List Char
  line : Nat
  column : Nat
  /-- The number of characters before it. -/
  index : Nat

/-- A blank within a line. -/
def isSpace (c : Char) : Bool := c == ' ' || c == '\t'

def isLineEnd (c : Char) : Bool :=
  c == '\n' || c == '\r' || c == '\u0085' || c == '\u2028' || c == '\u2029'

def isGapChar (c : Char) : Bool := isSpace c || isLineEnd c

def startsIn (p : Char → Bool) (s : List Char) : Bool := (s.head?.map p).getD false

/-- The text ends, or goes on with a blank or the end of a line. -/
def atGap (s : List Char) : Bool := s.isEmpty || startsIn isGapChar s

def atLineEnd (s : List Char) : Bool := s.isEmpty || startsIn isLineEnd s

def startsWithMark (c : Char) : List Char → Bool
  | a :: b :: d :: s => a == c && b == c && d == c && atGap s
  | _ => false

namespace Place

def start (s : List Char) : Place := ⟨s, 0, 0, 0⟩

/-- The place behind characters of the same line. -/
def advance (p : Place) (count : Nat) : Place :=
  ⟨p.rest.drop count, p.line, p.column + count, p.index + count⟩

/-- The end of a line as it counts in scalars, and the place behind it. All but two kinds count
as a line feed. -/
def newLine (p : Place) : Char × Place :=
  match p.rest with
  | '\r' :: '\n' :: s => ('\n', ⟨s, p.line + 1, 0, p.index + 2⟩)
  | c :: s =>
    (if c == '\u2028' || c == '\u2029' then c else '\n', ⟨s, p.line + 1, 0, p.index + 1⟩)
  | [] => ('\n', p)

def atMark (p : Place) : Bool :=
  p.column == 0 && (startsWithMark '-' p.rest || startsWithMark '.' p.rest)

def skipSpaces (p : Place) : Place :=
  p.advance (p.rest.takeWhile isSpace).length

def skipToLineEnd (p : Place) : Place :=
  p.advance (p.rest.takeWhile fun c => !isLineEnd c).length

end Place

/-- What stands between two words of a scalar: blanks, or line ends with blanks around them. -/
structure Gap where
  /-- Blanks before any line end. -/
  spaces : List Char
  crossed : Bool
  /-- The first line end. -/
  first : Option Char
  /-- Further line ends. -/
  more : List Char

namespace Gap

def none : Gap := ⟨[], false, .none, []⟩

/-- The gap behind a line end that does not count. -/
def escaped : Gap := ⟨[], true, .none, []⟩

/-- The text of a gap in a scalar: the first line feed stands for a blank if no other line end
follows, and for nothing if one does. -/
def text (g : Gap) : List Char :=
  match g.crossed, g.first with
  | false, _ => g.spaces
  | true, some '\n' => if g.more.isEmpty then [' '] else g.more
  | true, some c => c :: g.more
  | true, .none => g.more

def withSpace (g : Gap) (c : Char) : Gap :=
  if g.crossed then g else { g with spaces := g.spaces ++ [c] }

def withLineEnd (g : Gap) (c : Char) : Gap :=
  if g.crossed then { g with more := g.more ++ [c] } else ⟨[], true, some c, []⟩

/-- Read on in a gap. Tabs must not stand before the column `least` of a new line. -/
def readOnto? (least : Nat) : (fuel : Nat) → Gap → Place → Option (Gap × Place)
  | 0, g, p => some (g, p)
  | fuel + 1, g, p =>
    match p.rest with
    | [] => some (g, p)
    | c :: _ =>
      if isSpace c then
        if g.crossed && p.column < least && c == '\t' then .none
        else readOnto? least fuel (g.withSpace c) (p.advance 1)
      else if isLineEnd c then
        let (c, p) := p.newLine
        readOnto? least fuel (g.withLineEnd c) p
      else some (g, p)

def read? (least : Nat) (g : Gap) (p : Place) : Option (Gap × Place) :=
  readOnto? least p.rest.length g p

end Gap

end TableQuery.Yaml
