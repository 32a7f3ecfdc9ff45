import TableQuery.Text.Blank

/-!
# Patterns of dates and times

A pattern such as `%Y-%m-%d %H:%M` says how a moment is shown and read: each letter behind a
percent sign stands for a part of the date or the time, and all else for itself. `-`, `0` and
`_` before the letter of a number choose how it is filled.

## Main definitions

* `Calendar.Item` — the parts of a pattern.
* `Calendar.Item.ofPattern` — the parts of a pattern text.
-/

namespace TableQuery.Calendar

inductive Quantity where
  | year
  | century
  | yearOfCentury
  | isoYear
  | isoYearOfCentury
  | quarter
  | month
  | day
  | weekFromSunday
  | weekFromMonday
  | isoWeek
  /-- The day of the week, zero for Sunday. -/
  | weekdayFromSunday
  /-- The day of the week, one for Monday. -/
  | weekdayFromMonday
  | ordinal
  | hour
  | hour12
  | minute
  | second
  | nanosecond
  | timestamp
  deriving DecidableEq, Repr

inductive Fill where
  | nothing
  | zero
  | blank
  deriving DecidableEq, Repr

inductive Item where
  | literal (text : List Char)
  | blanks (text : List Char)
  | number (quantity : Quantity) (fill : Fill)
  | monthName (long : Bool)
  | weekdayName (long : Bool)
  /-- The half of the day. -/
  | dayHalf (upper : Bool)
  /-- A fraction of a second with its point; its places are as many as needed if not given. -/
  | fraction (places : Option Nat)
  /-- A fraction of a second without a point. -/
  | bareFraction (places : Nat)
  | zoneName
  /-- The offset from coordinated universal time; `lenient` also admits `Z` and an hour alone. -/
  | offset (lenient : Bool)
  /-- A date, a time and an offset in the form used on the internet. -/
  | internet
  /-- A letter without a meaning. -/
  | invalid
  deriving DecidableEq, Repr

namespace Item

private abbrev zeros (q : Quantity) : Item := .number q .zero

private abbrev colon : Item := .literal [':']

/-- The items of the digit and letter behind a percent sign that make a bare fraction. -/
private def barePlaces? : List Char → Option (List Item × List Char)
  | '3' :: 'f' :: s => some ([.bareFraction 3], s)
  | '6' :: 'f' :: s => some ([.bareFraction 6], s)
  | '9' :: 'f' :: s => some ([.bareFraction 9], s)
  | _ => none

/-- The items of what stands behind a percent sign and a point. -/
private def pointPlaces? : List Char → Option (List Item × List Char)
  | '3' :: 'f' :: s => some ([.fraction (some 3)], s)
  | '6' :: 'f' :: s => some ([.fraction (some 6)], s)
  | '9' :: 'f' :: s => some ([.fraction (some 9)], s)
  | 'f' :: s => some ([.fraction none], s)
  | _ => none

/-- The items of what stands behind a percent sign and a colon. -/
private def colonOffset? : List Char → Option (List Item × List Char)
  | ':' :: ':' :: 'z' :: s => some ([.offset false], s)
  | ':' :: 'z' :: s => some ([.offset false], s)
  | 'z' :: s => some ([.offset false], s)
  | _ => none

def ofLetter? : Char → Option (List Item)
  | 'A' => some [.weekdayName true]
  | 'B' => some [.monthName true]
  | 'C' => some [zeros .century]
  | 'D' | 'x' =>
    some [zeros .month, .literal ['/'], zeros .day, .literal ['/'], zeros .yearOfCentury]
  | 'F' => some [zeros .year, .literal ['-'], zeros .month, .literal ['-'], zeros .day]
  | 'G' => some [zeros .isoYear]
  | 'H' => some [zeros .hour]
  | 'I' => some [zeros .hour12]
  | 'M' => some [zeros .minute]
  | 'P' => some [.dayHalf false]
  | 'R' => some [zeros .hour, colon, zeros .minute]
  | 'S' => some [zeros .second]
  | 'T' | 'X' => some [zeros .hour, colon, zeros .minute, colon, zeros .second]
  | 'U' => some [zeros .weekFromSunday]
  | 'V' => some [zeros .isoWeek]
  | 'W' => some [zeros .weekFromMonday]
  | 'Y' => some [zeros .year]
  | 'Z' => some [.zoneName]
  | 'a' => some [.weekdayName false]
  | 'b' | 'h' => some [.monthName false]
  | 'c' =>
    some [.weekdayName false, .blanks [' '], .monthName false, .blanks [' '],
      .number .day .blank, .blanks [' '], zeros .hour, colon, zeros .minute, colon,
      zeros .second, .blanks [' '], zeros .year]
  | 'd' => some [zeros .day]
  | 'e' => some [.number .day .blank]
  | 'f' => some [zeros .nanosecond]
  | 'g' => some [zeros .isoYearOfCentury]
  | 'j' => some [zeros .ordinal]
  | 'k' => some [.number .hour .blank]
  | 'l' => some [.number .hour12 .blank]
  | 'm' => some [zeros .month]
  | 'n' => some [.blanks ['\n']]
  | 'p' => some [.dayHalf true]
  | 'q' => some [.number .quarter .nothing]
  | 'r' =>
    some [zeros .hour12, colon, zeros .minute, colon, zeros .second, .blanks [' '],
      .dayHalf true]
  | 's' => some [.number .timestamp .nothing]
  | 't' => some [.blanks ['\t']]
  | 'u' => some [.number .weekdayFromMonday .nothing]
  | 'v' =>
    some [.number .day .blank, .literal ['-'], .monthName false, .literal ['-'], zeros .year]
  | 'w' => some [.number .weekdayFromSunday .nothing]
  | 'y' => some [zeros .yearOfCentury]
  | 'z' => some [.offset false]
  | '+' => some [.internet]
  | '%' => some [.literal ['%']]
  | _ => none

/-- The items of what stands behind a percent sign, and the rest of the pattern. -/
def specifier? : List Char → Option (List Item × List Char)
  | '.' :: s => pointPlaces? s
  | ':' :: s => colonOffset? s
  | '#' :: 'z' :: s => some ([.offset true], s)
  | c :: s =>
    match barePlaces? (c :: s) with
    | some r => some r
    | none => (ofLetter? c).map fun items => (items, s)
  | [] => none

def fillOf? : Char → Option Fill
  | '-' => some .nothing
  | '0' => some .zero
  | '_' => some .blank
  | _ => none

/-- The items of a percent sign's text, where a modifier only goes with a single number. -/
def modified? : List Char → Option (List Item × List Char)
  | [] => none
  | c :: s =>
    match fillOf? c with
    | none => specifier? (c :: s)
    | some fill =>
      match specifier? s with
      | some ([.number q _], s) => some ([.number q fill], s)
      | _ => none

/-- The items of a pattern. Adjoining literal characters and adjoining blanks form one item
each, and nothing follows an invalid one. -/
def ofPatternFrom : (fuel : Nat) → List Char → List Item
  | 0, _ => []
  | _, [] => []
  | fuel + 1, '%' :: s =>
    match modified? s with
    | some (items, s) => items ++ ofPatternFrom fuel s
    | none => [.invalid]
  | fuel + 1, c :: s =>
    if Text.isBlank c then
      .blanks (c :: s.takeWhile Text.isBlank) :: ofPatternFrom fuel (s.dropWhile Text.isBlank)
    else
      let plain (c : Char) : Bool := !Text.isBlank c && c != '%'
      .literal (c :: s.takeWhile plain) :: ofPatternFrom fuel (s.dropWhile plain)

def ofPattern (pattern : String) : List Item :=
  ofPatternFrom pattern.length pattern.toList

end Item

end TableQuery.Calendar
