import TableQuery.Yaml.Scalar

/-!
# Tokens of configuration texts

Outside brackets and braces, columns open and close lists and mappings. A key is only known as
such at the colon behind it, so the tokens of a key are put in at the place where it may have
begun.

## Main definitions

* `Yaml.Token` — the tokens.
* `Yaml.Scan` — the tokens so far and what must be remembered for the next ones.
* `Yaml.Scan.step?` — the next tokens.
* `Yaml.Token.ofText?` — the tokens of a text.
-/

namespace TableQuery.Yaml

inductive Token where
  /-- The version that a text is written for. -/
  | version (major minor : Nat)
  /-- A short form of tags. -/
  | tagHandle (handle stem : String)
  | documentStart
  | documentEnd
  | listStart
  | mappingStart
  | blockEnd
  | flowListStart
  | flowListEnd
  | flowMappingStart
  | flowMappingEnd
  | item
  | comma
  | key
  | value
  | alias (name : String)
  | anchor (name : String)
  | tag (handle suffix : String)
  | scalar (text : String) (style : ScalarStyle)
  deriving DecidableEq, Repr

/-- A place where a key may have begun. -/
structure Candidate where
  /-- Nothing but a key can stand there. -/
  required : Bool
  /-- The number of tokens before it. -/
  before : Nat
  place : Place

/-- The tokens so far and what must be remembered for the next ones. -/
structure Scan where
  tokens : List Token
  place : Place
  /-- The column of the innermost list or mapping, -1 outside all of them. -/
  indent : Int
  /-- The columns of the lists and mappings around it. -/
  outer : List Int
  /-- A key may begin here. -/
  keyAllowed : Bool
  /-- The last place where a key may have begun, outside brackets and braces. -/
  candidate : Option Candidate
  /-- The same around each bracket and brace that is open, from the innermost one. -/
  around : List (Option Candidate)

namespace Scan

def start (s : List Char) : Scan := ⟨[], .start s, -1, [], true, none, []⟩

def inFlow (s : Scan) : Bool := !s.around.isEmpty

def push (s : Scan) (t : Token) : Scan := { s with tokens := s.tokens ++ [t] }

def pushAt (s : Scan) (t : Token) (count : Nat) : Scan :=
  { s.push t with place := s.place.advance count }

/-- The place behind blanks, line ends and comments. Tabs must not stand where a key may begin,
unless brackets or braces surround them. -/
def skipGap : (fuel : Nat) → Scan → Scan
  | 0, s => s
  | fuel + 1, s =>
    match s.place.rest with
    | [] => s
    | c :: _ =>
      if c == ' ' || (c == '\t' && (s.inFlow || !s.keyAllowed)) then
        skipGap fuel { s with place := s.place.advance 1 }
      else if c == '#' then skipGap fuel { s with place := s.place.skipToLineEnd }
      else if isLineEnd c then
        skipGap fuel { s with place := s.place.newLine.2, keyAllowed := s.keyAllowed || !s.inFlow }
      else s

/-- The candidate is too far away for its key: on an earlier line or more than 1024 characters
before. -/
def isStale (p : Place) (c : Candidate) : Bool :=
  c.place.line < p.line || c.place.index + 1024 < p.index

def fresh? (p : Place) : Option Candidate → Option (Option Candidate)
  | none => some none
  | some c =>
    if !isStale p c then some (some c) else if c.required then none else some none

def dropStale? (s : Scan) : Option Scan := do
  some { s with
    candidate := ← fresh? s.place s.candidate
    around := ← s.around.mapM (fresh? s.place) }

def dropCandidate? (s : Scan) : Option Scan :=
  if (s.candidate.map Candidate.required).getD false then none
  else some { s with candidate := none }

def note? (s : Scan) : Option Scan :=
  if s.keyAllowed then do
    let t ← s.dropCandidate?
    let required := !s.inFlow && s.indent == (s.place.column : Int)
    some { t with candidate := some ⟨required, s.tokens.length, s.place⟩ }
  else some s

def closeTo (column : Int) : (parents : List Int) → Scan → Scan
  | [], s => s
  | parent :: outer, s =>
    if column < s.indent then
      closeTo column outer ({ s with indent := parent, outer } |>.push .blockEnd)
    else s

/-- The end of the lists and mappings further in than a column, outside brackets and braces. -/
def unroll (s : Scan) (column : Int) : Scan :=
  if s.inFlow then s else closeTo column s.outer s

/-- A list or mapping begins in a column, unless it began before. Its token stands behind a
number of tokens. -/
def roll (s : Scan) (column before : Nat) (t : Token) : Scan :=
  if !s.inFlow && s.indent < (column : Int) then
    { s with
      tokens := s.tokens.take before ++ t :: s.tokens.drop before
      indent := column
      outer := s.indent :: s.outer }
  else s

def markDocument? (s : Scan) (t : Token) : Option Scan := do
  let s ← (s.unroll (-1)).dropCandidate?
  some ({ s with keyAllowed := false }.pushAt t 3)

def openFlow? (s : Scan) (t : Token) : Option Scan := do
  let s ← s.note?
  some ({ s with
    candidate := none
    around := s.candidate :: s.around
    keyAllowed := true }.pushAt t 1)

def closeFlow? (s : Scan) (t : Token) : Option Scan := do
  let s ← s.dropCandidate?
  let s :=
    match s.around with
    | [] => s
    | c :: around => { s with candidate := c, around }
  some ({ s with keyAllowed := false }.pushAt t 1)

def comma? (s : Scan) : Option Scan := do
  let s ← s.dropCandidate?
  some ({ s with keyAllowed := true }.pushAt .comma 1)

/-- Something stands where a key could, outside brackets and braces. -/
def begin? (s : Scan) (t : Token) : Option Scan :=
  if s.inFlow then some s
  else if s.keyAllowed then some (s.roll s.place.column s.tokens.length t)
  else none

/-- A dash. -/
def item? (s : Scan) : Option Scan := do
  let s ← (← s.begin? .listStart).dropCandidate?
  some ({ s with keyAllowed := true }.pushAt .item 1)

/-- A question mark. -/
def key? (s : Scan) : Option Scan := do
  let s ← (← s.begin? .mappingStart).dropCandidate?
  some ({ s with keyAllowed := !s.inFlow }.pushAt .key 1)

/-- A colon, which makes what began at the candidate a key. -/
def value? (s : Scan) : Option Scan := do
  match s.candidate with
  | some c =>
    let s := { s with
      tokens := s.tokens.take c.before ++ Token.key :: s.tokens.drop c.before
      candidate := none
      keyAllowed := false }
    some ((s.roll c.place.column c.before .mappingStart).pushAt .value 1)
  | none =>
    let s ← s.begin? .mappingStart
    some ({ s with keyAllowed := !s.inFlow }.pushAt .value 1)

def isNameChar (c : Char) : Bool := c.isAlphanum || c == '-' || c == '_'

def endsAnchor (s : List Char) : Bool :=
  atGap s || startsIn (fun c => ['?', ':', ',', ']', '\x7d', '%', '@', '\x60'].contains c) s

/-- A name behind a sign that stands for a node, or gives one a name. -/
def anchor? (s : Scan) (token : String → Token) : Option Scan := do
  let s ← s.note?
  let p := s.place.advance 1
  let name := p.rest.takeWhile isNameChar
  if !name.isEmpty && endsAnchor (p.rest.drop name.length) then
    some ({ s with keyAllowed := false }.pushAt (token (String.ofList name)) (1 + name.length))
  else none

def isTagChar (c : Char) : Bool :=
  isNameChar c || [';', '/', '?', ':', '@', '&', '=', '+', '$', '.', '%', '!', '~', '*', '\'',
    '(', ')'].contains c

def isLongTagChar (c : Char) : Bool :=
  isTagChar c || [',', '[', ']'].contains c

/-- The handle and the rest of a tag, and the number of its characters. -/
def tagParts? (s : List Char) : Option (String × String × Nat) :=
  match s with
  | '!' :: '<' :: s =>
    let text := s.takeWhile isLongTagChar
    if !text.isEmpty && startsIn (· == '>') (s.drop text.length) then
      some ("", String.ofList text, text.length + 3)
    else none
  | '!' :: s =>
    let name := s.takeWhile isNameChar
    match s.drop name.length with
    | '!' :: rest =>
      let text := rest.takeWhile isTagChar
      if text.isEmpty then none
      else
        some (String.ofList ('!' :: name ++ ['!']), String.ofList text,
          name.length + text.length + 2)
    | _ =>
      let text := s.takeWhile isTagChar
      if text.isEmpty then some ("", "!", 1)
      else some ("!", String.ofList text, text.length + 1)
  | _ => none

def tag? (s : Scan) : Option Scan := do
  let s ← s.note?
  let (handle, suffix, count) ← tagParts? s.place.rest
  let rest := s.place.rest.drop count
  if atGap rest || (s.inFlow && startsIn (· == ',') rest) then
    some ({ s with keyAllowed := false }.pushAt (.tag handle suffix) count)
  else none

def lines? (s : Scan) (folds : Bool) : Option Scan := do
  let s ← s.dropCandidate?
  let (text, place) ← Yaml.lines? folds s.indent s.place
  some ({ s with keyAllowed := true, place }.push
    (.scalar (String.ofList text) (if folds then .quoted else .literal)))

def quoted? (s : Scan) : Option Scan := do
  let s ← s.note?
  let (text, place) ← Yaml.quoted? s.place
  some ({ s with keyAllowed := false, place }.push (.scalar (String.ofList text) .quoted))

/-- A scalar without quotes. A key may begin behind it if it ends with a line end. -/
def plain? (s : Scan) : Option Scan := do
  let s ← s.note?
  let (text, crossed, place) ← Yaml.plain? s.inFlow (s.indent + 1).toNat s.place
  some ({ s with keyAllowed := crossed, place }.push (.scalar (String.ofList text) .plain))

/-- A decimal number of at most nine digits at the start of a text, and what follows. -/
def readNumber? (s : List Char) : Option (Nat × List Char) := do
  let ds := s.takeWhile Char.isDigit
  if ds.length ≤ 9 then some (← Text.readNat? 10 ds, s.drop ds.length) else none

def directive? (s : List Char) : Option (Token × List Char) := do
  let name := s.takeWhile isNameChar
  let rest := s.drop name.length
  let args := rest.dropWhile isSpace
  if !atGap rest then none
  else if name = ['Y', 'A', 'M', 'L'] then
    let (major, s) ← readNumber? args
    let s ← Text.stripStart? ['.'] s
    let (minor, s) ← readNumber? s
    some (.version major minor, s)
  else if name = ['T', 'A', 'G'] then
    let s ← Text.stripStart? ['!'] args
    let name := s.takeWhile isNameChar
    let s := s.drop name.length
    let (handle, s) ←
      match s with
      | '!' :: s => some ('!' :: name ++ ['!'], s)
      | s => if name.isEmpty then some (['!'], s) else none
    let stem := (s.dropWhile isSpace).takeWhile isLongTagChar
    if startsIn isSpace s && !stem.isEmpty then
      let s := (s.dropWhile isSpace).drop stem.length
      if atGap s then some (.tagHandle (String.ofList handle) (String.ofList stem), s) else none
    else none
  else none

/-- A line behind a percent sign, which may end with a comment. -/
def directiveLine? (s : Scan) : Option Scan := do
  let s ← (s.unroll (-1)).dropCandidate?
  let (t, rest) ← directive? (s.place.rest.drop 1)
  let p := (s.place.advance (s.place.rest.length - rest.length)).skipSpaces
  let p := if startsIn (· == '#') p.rest then p.skipToLineEnd else p
  if atLineEnd p.rest then some ({ s with keyAllowed := false, place := p.newLine.2 }.push t)
  else none

def fetch? (s : Scan) : Option Scan :=
  let flow := s.inFlow
  match s.place.rest with
  | [] => none
  | c :: rest =>
    let inText := flow || atGap rest
    if s.place.column == 0 && c == '%' then s.directiveLine?
    else if s.place.column == 0 && startsWithMark '-' s.place.rest then
      s.markDocument? .documentStart
    else if s.place.column == 0 && startsWithMark '.' s.place.rest then
      s.markDocument? .documentEnd
    else if c == '[' then s.openFlow? .flowListStart
    else if c == '\x7b' then s.openFlow? .flowMappingStart
    else if c == ']' then s.closeFlow? .flowListEnd
    else if c == '\x7d' then s.closeFlow? .flowMappingEnd
    else if c == ',' then s.comma?
    else if c == '-' && atGap rest then s.item?
    else if c == '?' && inText then s.key?
    else if c == ':' && inText then s.value?
    else if c == '*' then s.anchor? .alias
    else if c == '&' then s.anchor? .anchor
    else if c == '!' then s.tag?
    else if c == '|' && !flow then s.lines? false
    else if c == '>' && !flow then s.lines? true
    else if c == '\'' || c == '"' then s.quoted?
    else if ['|', '>', '#', '%', '@', '\x60', '\t'].contains c then none
    else s.plain?

/-- The end of the text closes everything. -/
def finish? (s : Scan) : Option Scan :=
  (s.unroll (-1)).dropCandidate?

def step? (s : Scan) : Option Scan := do
  let s ← (s.skipGap s.place.rest.length).dropStale?
  let s := s.unroll s.place.column
  if s.place.rest.isEmpty then some s else s.fetch?

/-- The tokens up to the end of the text. Each step passes over a character. -/
def run? : (fuel : Nat) → Scan → Option Scan
  | 0, s => s.finish?
  | fuel + 1, s => do
    let s ← s.step?
    if s.place.rest.isEmpty then s.finish? else run? fuel s

end Scan

def isAllowed (c : Char) : Bool :=
  let n := c.toNat
  n == 9 || n == 10 || n == 13 || (0x20 ≤ n && n ≤ 0x7e) || n == 0x85 ||
    (0xa0 ≤ n && n ≤ 0xfffd && n != 0xfeff) || 0x10000 ≤ n

/-- The tokens of a text, which may start with a byte order mark. -/
def Token.ofText? (s : List Char) : Option (List Token) :=
  let s := (Text.stripStart? ['\ufeff'] s).getD s
  if s.all isAllowed then ((Scan.start s).run? s.length).map Scan.tokens else none

end TableQuery.Yaml
