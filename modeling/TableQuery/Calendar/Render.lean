import TableQuery.Calendar.Moment
import TableQuery.Calendar.Pattern

/-!
# Showing a moment through a pattern

## Main definitions

* `Calendar.Item.render?` — a part of a pattern for a moment.
* `Calendar.render?` — a moment shown through a pattern, unless the pattern has a part that a
  moment without a time zone does not have.
-/

namespace TableQuery.Calendar

open TableQuery.Text (digits padStart)

def monthNames : List String :=
  ["January", "February", "March", "April", "May", "June", "July", "August", "September",
    "October", "November", "December"]

/-- The names of the days of the week, from Monday. -/
def weekdayNames : List String :=
  ["Monday", "Tuesday", "Wednesday", "Thursday", "Friday", "Saturday", "Sunday"]

/-- The name at an index, in full or its first three letters. -/
def nameAt (names : List String) (long : Bool) (i : Nat) : List Char :=
  let name := (names.getD i "").toList
  if long then name else name.take 3

/-- Two characters for a number below 256: the second is its last digit, and the first is the
character as far from `0` as there are tens, or what stands for no tens. -/
def pair (fill : Fill) (n : Nat) : List Char :=
  let ones := Char.ofNat (48 + n % 10)
  match n / 10, fill with
  | 0, .nothing => [ones]
  | 0, .blank => [' ', ones]
  | tens, _ => [Char.ofNat (48 + tens), ones]

/-- A number filled up to a width, where the fill stands before the sign if it is blank and
behind it if it is a zero. -/
def filled (fill : Fill) (width : Nat) (signed : Bool) (n : Int) : List Char :=
  let sign := if n < 0 then ['-'] else if signed then ['+'] else []
  let width := if signed then width + 1 else width
  let ds := digits 10 n.natAbs
  match fill with
  | .nothing => sign ++ ds
  | .zero => sign ++ padStart '0' (width - sign.length) ds
  | .blank => padStart ' ' width (sign ++ ds)

/-- A year of four digits, or with a sign and as many digits as it needs. -/
def filledYear (fill : Fill) (year : Int) : List Char :=
  filled fill 4 (year < 0 || 9999 < year) year

/-- A hundredth or remainder of a year as a number below 256. -/
private def byte (n : Int) : Nat := (n % 256).toNat

def Quantity.render (q : Quantity) (fill : Fill) (t : Moment) : List Char :=
  let d := t.date
  match q with
  | .year => filledYear fill d.year
  | .century => pair fill (byte (d.year.fdiv 100))
  | .yearOfCentury => pair fill (byte (d.year % 100))
  | .isoYear => filledYear fill d.isoWeek.1
  | .isoYearOfCentury => pair fill (byte (d.isoWeek.1 % 100))
  | .quarter => digits 10 d.quarter
  | .month => pair fill d.month
  | .day => pair fill d.day
  | .weekFromSunday => pair fill (d.weekFrom 6)
  | .weekFromMonday => pair fill (d.weekFrom 0)
  | .isoWeek => pair fill d.isoWeek.2
  | .weekdayFromSunday => digits 10 ((d.weekday + 1) % 7)
  | .weekdayFromMonday => digits 10 (d.weekday + 1)
  | .ordinal => filled fill 3 false d.ordinal
  | .hour => pair fill t.hour
  | .hour12 => pair fill t.hour12
  | .minute => pair fill t.minute
  | .second => pair fill t.writtenSecond
  | .nanosecond => filled fill 9 false t.fraction
  | .timestamp => filled fill 9 false t.timestamp

def leadingPlaces (places nanos : Nat) : List Char :=
  padStart '0' places (digits 10 (nanos / Nat.pow 10 (9 - places)))

/-- A part of a pattern for a moment. A moment has no time zone, so nothing can stand for one. -/
def Item.render? (t : Moment) : Item → Option (List Char)
  | .literal text | .blanks text => some text
  | .number q fill => some (q.render fill t)
  | .monthName long => some (nameAt monthNames long (t.date.month - 1))
  | .weekdayName long => some (nameAt weekdayNames long t.date.weekday)
  | .dayHalf true => some (if t.isAfternoon then ['P', 'M'] else ['A', 'M'])
  | .dayHalf false => some (if t.isAfternoon then ['p', 'm'] else ['a', 'm'])
  | .fraction none => some (Moment.writtenFraction t.fraction)
  | .fraction (some places) => some ('.' :: leadingPlaces places t.fraction)
  | .bareFraction places => some (leadingPlaces places t.fraction)
  | .zoneName | .offset _ | .internet | .invalid => none

def renderItems? (items : List Item) (t : Moment) : Option (List Char) :=
  (items.mapM (Item.render? t)).map List.flatten

def render? (pattern : String) (t : Moment) : Option String :=
  (renderItems? (Item.ofPattern pattern) t).map String.ofList

end TableQuery.Calendar
