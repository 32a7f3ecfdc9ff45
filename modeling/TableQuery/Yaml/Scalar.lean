import TableQuery.Text.Integer
import TableQuery.Yaml.Place

/-!
# Scalars of configuration texts

Scalars stand without quotes, between quotes of either kind, or on lines of their own. Line ends
inside the first two are folded: one is a blank, and of several all but the first count.

## Main definitions

* `Yaml.ScalarStyle` — how a scalar is written.
* `Yaml.plain?`, `Yaml.quoted?`, `Yaml.lines?` — scalars of the three kinds at a place.
-/

namespace TableQuery.Yaml

/-- How a scalar is written. Folded lines count as quoted. -/
inductive ScalarStyle where
  | plain
  | quoted
  | literal
  deriving DecidableEq, Repr

/-- The characters with a meaning inside brackets and braces. -/
def isFlowMark (c : Char) : Bool :=
  c == ',' || c == '[' || c == ']' || c == '\x7b' || c == '\x7d'

/-- The word at the start of a text without quotes. A colon ends it before a gap; brackets,
braces and commas end it inside brackets and braces, where they must not follow a colon. -/
def plainWord? (flow : Bool) : List Char → Option (List Char)
  | [] => some []
  | c :: s =>
    if isGapChar c then some []
    else if flow && c == ':' && startsIn (fun d => isFlowMark d || d == '?') s then none
    else if (c == ':' && atGap s) || (flow && isFlowMark c) then some []
    else (plainWord? flow s).map (c :: ·)

/-- The words of a scalar without quotes behind a gap. Its lines stand at least `least` columns
in, unless brackets or braces surround it. The answer tells whether it ends with a line end. -/
def plainFrom? (flow : Bool) (least : Nat) :
    (fuel : Nat) → Gap → Place → Option (List Char × Bool × Place)
  | 0, g, p => some ([], g.crossed, p)
  | fuel + 1, g, p =>
    if p.atMark || startsIn (· == '#') p.rest then some ([], g.crossed, p)
    else do
      let word ← plainWord? flow p.rest
      let q := p.advance word.length
      if word.isEmpty then some ([], g.crossed, q)
      else if startsIn isGapChar q.rest then
        let (next, r) ← Gap.read? least .none q
        if !flow && r.column < least then some (g.text ++ word, next.crossed, r)
        else
          let (more, crossed, r) ← plainFrom? flow least fuel next r
          some (g.text ++ word ++ more, crossed, r)
      else some (g.text ++ word, false, q)

/-- A scalar without quotes, whether it ends with a line end, and the place behind it. -/
def plain? (flow : Bool) (least : Nat) (p : Place) : Option (List Char × Bool × Place) :=
  plainFrom? flow least p.rest.length .none p

/-- The character of a code of `count` hexadecimal digits, and the place behind them. -/
def hexEscape? (count : Nat) (p : Place) : Option (List Char × Place) := do
  let ds := p.rest.take count
  if ds.length = count then
    let n ← Text.readNat? 16 ds
    if n < 0xD800 || (0xDFFF < n && n < 0x110000) then some ([Char.ofNat n], p.advance count)
    else none
  else none

def escapes : List (Char × Char) :=
  [('0', '\x00'), ('a', '\x07'), ('b', '\x08'), ('t', '\t'), ('\t', '\t'), ('n', '\n'),
    ('v', '\x0b'), ('f', '\x0c'), ('r', '\r'), ('e', '\x1b'), (' ', ' '), ('"', '"'), ('/', '/'),
    ('\\', '\\'), ('N', '\u0085'), ('_', '\u00a0'), ('L', '\u2028'), ('P', '\u2029')]

def escape? (p : Place) : Option (List Char × Place) :=
  match p.rest with
  | [] => none
  | c :: _ =>
    match escapes.lookup c with
    | some d => some ([d], p.advance 1)
    | none =>
      if c == 'x' then hexEscape? 2 (p.advance 1)
      else if c == 'u' then hexEscape? 4 (p.advance 1)
      else if c == 'U' then hexEscape? 8 (p.advance 1)
      else none

/-- The text up to the closing single quote, and the place behind it. Two quotes stand for
one. -/
def singleQuoted? : (fuel : Nat) → Place → Option (List Char × Place)
  | 0, _ => none
  | fuel + 1, p =>
    if p.atMark then none
    else
      match p.rest with
      | [] => none
      | '\'' :: '\'' :: _ => (singleQuoted? fuel (p.advance 2)).map fun (t, p) => ('\'' :: t, p)
      | '\'' :: _ => some ([], p.advance 1)
      | c :: _ =>
        if isGapChar c then do
          let (g, p) ← Gap.read? 0 .none p
          (singleQuoted? fuel p).map fun (t, p) => (g.text ++ t, p)
        else (singleQuoted? fuel (p.advance 1)).map fun (t, p) => (c :: t, p)

/-- The text up to the closing double quote, and the place behind it. A backslash at the end of
a line joins it with the next one. -/
def doubleQuoted? : (fuel : Nat) → Place → Option (List Char × Place)
  | 0, _ => none
  | fuel + 1, p =>
    if p.atMark then none
    else
      match p.rest with
      | [] => none
      | '"' :: _ => some ([], p.advance 1)
      | '\\' :: s =>
        if startsIn isLineEnd s then do
          let (g, p) ← Gap.read? 0 .escaped (p.advance 1).newLine.2
          (doubleQuoted? fuel p).map fun (t, p) => (g.text ++ t, p)
        else do
          let (c, p) ← escape? (p.advance 1)
          (doubleQuoted? fuel p).map fun (t, p) => (c ++ t, p)
      | c :: _ =>
        if isGapChar c then do
          let (g, p) ← Gap.read? 0 .none p
          (doubleQuoted? fuel p).map fun (t, p) => (g.text ++ t, p)
        else (doubleQuoted? fuel (p.advance 1)).map fun (t, p) => (c :: t, p)

def quoted? (p : Place) : Option (List Char × Place) :=
  if startsIn (· == '\'') p.rest then singleQuoted? (p.rest.length + 1) (p.advance 1)
  else doubleQuoted? (p.rest.length + 1) (p.advance 1)

/-- What becomes of the line ends at the end of lines: none, one or all of them stay. -/
inductive Chomping where
  | strip
  | clip
  | keep
  deriving DecidableEq, Repr

def chomping? : Char → Option Chomping
  | '-' => some .strip
  | '+' => some .keep
  | _ => none

/-- A number of columns, from one to nine. -/
def indentation? (c : Char) : Option Nat :=
  (Text.digitValue? 10 c).filter (· != 0)

/-- The signs behind a bar or an angle bracket, in either order. -/
def lineSigns (s : List Char) : Chomping × Option Nat × Nat :=
  match s with
  | c :: s =>
    match chomping? c, indentation? c with
    | some k, _ =>
      match (s.head?.bind indentation?) with
      | some n => (k, some n, 2)
      | none => (k, none, 1)
    | none, some n =>
      match (s.head?.bind chomping?) with
      | some k => (k, some n, 2)
      | none => (.clip, some n, 1)
    | none, none => (.clip, none, 0)
  | [] => (.clip, none, 0)

/-- Line ends and the blanks before the text of lines `indent` columns in, if that is known. The
answer tells the largest column that blanks reach. -/
def lineGap? (indent : Option Nat) :
    (fuel : Nat) → (reached : Nat) → Place → Option (List Char × Nat × Place)
  | 0, reached, p => some ([], reached, p)
  | fuel + 1, reached, p =>
    let spaces := (p.rest.takeWhile (· == ' ')).length
    let p := p.advance ((indent.map fun n => min spaces (n - p.column)).getD spaces)
    let reached := max reached p.column
    let outside := (indent.map fun n => decide (p.column < n)).getD true
    match p.rest with
    | '\t' :: _ => if outside then none else some ([], reached, p)
    | c :: _ =>
      if isLineEnd c then do
        let (c, p) := p.newLine
        let (more, reached, p) ← lineGap? indent fuel reached p
        some (c :: more, reached, p)
      else some ([], reached, p)
    | [] => some ([], reached, p)

/-- The text of lines `indent` columns in, behind a line end and further ones. A line end
between lines that start without a blank is folded where `folds` says so. The last line ends
are told apart. -/
def linesFrom? (folds : Bool) (indent : Nat) :
    (fuel : Nat) → (last more : List Char) → (blank : Bool) → Place →
      Option (List Char × List Char × List Char × Place)
  | 0, last, more, _, p => some ([], last, more, p)
  | fuel + 1, last, more, blank, p =>
    if p.column != indent || p.rest.isEmpty then some ([], last, more, p)
    else do
      let starts := startsIn isSpace p.rest
      let lead :=
        if folds && last == ['\n'] && !blank && !starts then
          if more.isEmpty then [' '] else more
        else last ++ more
      let q := p.skipToLineEnd
      let text := p.rest.take (q.index - p.index)
      let (last, q) :=
        if q.rest.isEmpty then ([], q)
        else
          let (c, q) := q.newLine
          ([c], q)
      let (more, _, q) ← lineGap? (some indent) q.rest.length 0 q
      let (rest, last, more, q) ← linesFrom? folds indent fuel last more starts q
      some (lead ++ text ++ rest, last, more, q)

/-- A scalar on lines of its own, and the place behind it. Its lines stand `parent` columns in
and further. -/
def lines? (folds : Bool) (parent : Int) (p : Place) : Option (List Char × Place) := do
  let (chomping, given, count) := lineSigns (p.rest.drop 1)
  let p := (p.advance (1 + count)).skipSpaces
  let p := if startsIn (· == '#') p.rest then p.skipToLineEnd else p
  if atLineEnd p.rest then
    let p := p.newLine.2
    let given := given.map fun n => if parent < 0 then n else parent.toNat + n
    let (more, reached, p) ← lineGap? given p.rest.length 0 p
    let indent := given.getD (max reached (max 1 (parent + 1).toNat))
    let (text, last, more, p) ← linesFrom? folds indent p.rest.length [] more false p
    match chomping with
    | .strip => some (text, p)
    | .clip => some (text ++ last, p)
    | .keep => some (text ++ last ++ more, p)
  else none

end TableQuery.Yaml
