import TableQuery.Calendar.Known
import TableQuery.Calendar.Render
import TableQuery.Text.Split

/-!
# Reading a moment through a pattern

Reading is more lenient than showing: numbers may lack their fill, blanks may stand before a
number, and names are read in either case.

## Main definitions

* `Calendar.Item.read` — a part of a pattern at the start of a text.
* `Calendar.readDate?`, `Calendar.readMoment?` — the date or moment that a text shows through a
  pattern.
-/

namespace TableQuery.Calendar

open TableQuery.Text (trimStart stripStart?)

/-- Between `least` and `most` digits as a number that fits a signed word of 64 bits; without
`most`, as many as there are. -/
def readDigits (least : Nat) (most : Option Nat) (s : List Char) :
    Except Fault (Int × List Char) :=
  let ds := s.takeWhile Char.isDigit
  let ds := (most.map ds.take).getD ds
  if ds.length < least then .error .malformed
  else
    match Text.readNat? 10 ds with
    | none => .error .malformed
    | some n => if n < Nat.pow 2 63 then .ok (n, s.drop ds.length) else .error .outOfRange

/-- A fraction of a second in nanoseconds, behind its point. Digits after the ninth are passed
over. -/
def readFraction (s : List Char) : Except Fault (Int × List Char) := do
  let (n, rest) ← readDigits 1 (some 9) s
  return (n * Nat.pow 10 (9 - (s.length - rest.length)), rest.dropWhile Char.isDigit)

def readPlaces (places : Nat) (s : List Char) : Except Fault (Int × List Char) := do
  let (n, rest) ← readDigits places (some places) s
  return (n * Nat.pow 10 (9 - places), rest)

def sameLetters (a b : List Char) : Bool :=
  a.map Char.toLower == b.map Char.toLower

/-- The text without a leading part, in either case, if it starts with it. -/
def dropLetters? (lead s : List Char) : Option (List Char) :=
  if sameLetters lead (s.take lead.length) then some (s.drop lead.length) else none

/-- The index of the name whose first three letters start the text. The rest of a name is passed
over where `long` names are read. -/
def readName (names : List String) (long : Bool) (s : List Char) :
    Except Fault (Nat × List Char) :=
  match names.findIdx? fun name => sameLetters (name.toList.take 3) (s.take 3) with
  | none => .error .malformed
  | some i =>
    let rest := s.drop 3
    let tail := (names.getD i "").toList.drop 3
    .ok (i, if long then (dropLetters? tail rest).getD rest else rest)

/-- The sign of an offset: a plus sign, a hyphen or a minus sign. -/
def readSign : List Char → Except Fault (Int × List Char)
  | '+' :: s => .ok (1, s)
  | '-' :: s => .ok (-1, s)
  | '\u2212' :: s => .ok (-1, s)
  | _ => .error .malformed

/-- The minutes of an offset, two digits below sixty. An end of the text stands for none where
they may be missing. -/
def readOffsetMinutes (mayBeMissing : Bool) : List Char → Except Fault (Int × List Char)
  | a :: b :: s =>
    match Text.digitValue? 10 a, Text.digitValue? 10 b with
    | some tens, some ones =>
      if tens < 6 then .ok (tens * 10 + ones, s) else .error .outOfRange
    | _, _ => .error .malformed
  | [] => if mayBeMissing then .ok (0, []) else .error .malformed
  | [_] => .error .malformed

/-- An offset from coordinated universal time in seconds: a sign, two digits for hours, what
`separator` passes over, and minutes. -/
def readOffset (separator : List Char → Except Fault (List Char)) (zulu mayLackMinutes : Bool)
    (s : List Char) : Except Fault (Int × List Char) :=
  let numeric : Except Fault (Int × List Char) := do
    let (sign, s) ← readSign s
    let (hours, s) ← readDigits 2 (some 2) s
    let (minutes, s) ← readOffsetMinutes mayLackMinutes (← separator s)
    return (sign * (hours * 3600 + minutes * 60), s)
  match s with
  | 'Z' :: rest | 'z' :: rest => if zulu then .ok (0, rest) else numeric
  | _ => numeric

def skipColons (s : List Char) : Except Fault (List Char) :=
  .ok (s.dropWhile fun c => c == ':' || Text.isBlank c)

def skipColon : List Char → Except Fault (List Char)
  | ':' :: s => .ok s
  | _ => .error .malformed

/-- The number of digits of a quantity that does not show its sign. -/
def Quantity.width : Quantity → Option Nat
  | .year | .isoYear => some 4
  | .quarter | .weekdayFromSunday | .weekdayFromMonday => some 1
  | .ordinal => some 3
  | .nanosecond => some 9
  | .timestamp => none
  | _ => some 2

/-- The digits of a quantity. A year may have a sign and then as many digits as there are. -/
def Quantity.readValue (q : Quantity) (s : List Char) : Except Fault (Int × List Char) :=
  match q, s with
  | .year, '-' :: s | .isoYear, '-' :: s => (readDigits 1 none s).map fun (n, s) => (-n, s)
  | .year, '+' :: s | .isoYear, '+' :: s => readDigits 1 none s
  | q, s => readDigits 1 q.width s

def Quantity.set (q : Quantity) (k : Known) (n : Int) : Except Fault Known :=
  match q with
  | .year => k.setYear n
  | .century => k.setCentury n
  | .yearOfCentury => k.setYearOfCentury n
  | .isoYear => k.setIsoYear n
  | .isoYearOfCentury => k.setIsoYearOfCentury n
  | .quarter => k.setQuarter n
  | .month => k.setMonth n
  | .day => k.setDay n
  | .weekFromSunday => k.setWeekFromSunday n
  | .weekFromMonday => k.setWeekFromMonday n
  | .isoWeek => k.setIsoWeek n
  | .weekdayFromSunday =>
    if n < 7 then k.setWeekday ((n + 6) % 7) else .error .outOfRange
  | .weekdayFromMonday => k.setWeekday (n - 1)
  | .ordinal => k.setOrdinal n
  | .hour => k.setHour n
  | .hour12 => k.setHour12 n
  | .minute => k.setMinute n
  | .second => k.setSecond n
  | .nanosecond => k.setNanosecond n
  | .timestamp => k.setTimestamp n

def learn {α : Type} (reading : Except Fault (α × List Char)) (set : α → Except Fault Known) :
    Except Fault (Known × List Char) := do
  let (a, s) ← reading
  return (← set a, s)

def readDayHalf (s : List Char) : Except Fault (Bool × List Char) :=
  if sameLetters (s.take 2) ['a', 'm'] then .ok (false, s.drop 2)
  else if sameLetters (s.take 2) ['p', 'm'] then .ok (true, s.drop 2)
  else .error .malformed

/-- A part of a pattern other than the form used on the internet, at the start of a text. -/
def Item.readPart (k : Known) (s : List Char) : Item → Except Fault (Known × List Char)
  | .literal text => (stripStart? text s).elim (.error .malformed) fun rest => .ok (k, rest)
  | .blanks _ => .ok (k, trimStart s)
  | .number q _ => learn (q.readValue (trimStart s)) (q.set k)
  | .monthName long => learn (readName monthNames long s) fun i => k.setMonth (i + 1 : Nat)
  | .weekdayName long => learn (readName weekdayNames long s) fun i => k.setWeekday i
  | .dayHalf _ => learn (readDayHalf s) k.setAfternoon
  | .fraction places =>
    match s with
    | '.' :: s =>
      learn (match places with | none => readFraction s | some n => readPlaces n s) k.setNanosecond
    | s => .ok (k, s)
  | .bareFraction places => learn (readPlaces places s) k.setNanosecond
  | .zoneName => .ok (k, s.dropWhile fun c => !Text.isBlank c)
  | .offset lenient => learn (readOffset skipColons lenient lenient (trimStart s)) k.setOffset
  | .internet | .invalid => .error .malformed

def readParts : List Item → Known → List Char → Except Fault (Known × List Char)
  | [], k, s => .ok (k, s)
  | item :: items, k, s => do
    let (k, s) ← item.readPart k s
    readParts items k s

def internetDate : List Item :=
  [.number .year .zero, .blanks [], .literal ['-'], .number .month .zero, .blanks [],
    .literal ['-'], .number .day .zero]

def internetTime : List Item :=
  [.number .hour .zero, .blanks [], .literal [':'], .number .minute .zero, .blanks [],
    .literal [':'], .number .second .zero, .fraction none, .blanks []]

def readSeparator : List Char → Except Fault (List Char)
  | 't' :: s | 'T' :: s | ' ' :: s => .ok s
  | _ => .error .malformed

/-- A date, a time of day and an offset in the form used on the internet, with blanks between
the parts and unfilled numbers. -/
def readInternet (k : Known) (s : List Char) : Except Fault (Known × List Char) := do
  let (k, s) ← readParts internetDate k s
  let (k, s) ← readParts internetTime k (← readSeparator s)
  let s := trimStart s
  match dropLetters? ['u', 't', 'c'] s with
  | some rest => return (← k.setOffset 0, rest)
  | none => learn (readOffset skipColons true false s) k.setOffset

def Item.read (k : Known) (s : List Char) (item : Item) : Except Fault (Known × List Char) :=
  match item with
  | .internet => readInternet k s
  | item => item.readPart k s

def readItems : List Item → Known → List Char → Except Fault (Known × List Char)
  | [], k, s => .ok (k, s)
  | item :: items, k, s => do
    let (k, s) ← item.read k s
    readItems items k s

/-- What a whole text tells through a pattern. -/
def readKnown (pattern : String) (s : List Char) : Except Fault Known := do
  let (k, rest) ← readItems (Item.ofPattern pattern) .nothing s
  if rest.isEmpty then return k else .error .malformed

def readDate? (pattern : String) (s : List Char) : Option Date :=
  (readKnown pattern s >>= Known.date).toOption

/-- The moment that a text shows through a pattern; an offset in the text is passed over. -/
def readMoment? (pattern : String) (s : List Char) : Option Moment :=
  (readKnown pattern s >>= fun k => k.moment 0).toOption

end TableQuery.Calendar
