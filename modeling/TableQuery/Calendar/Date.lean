/-!
# Calendar dates

Dates of the Gregorian calendar, extended to all years from -262143 to 262142, and the weeks
and days they are counted by.

## Main definitions

* `Date` — a year, month and day that exist.
* `Date.ofYmd?`, `Date.ofOrdinal?`, `Date.ofIsoWeek?` — dates by month, by day of the year and
  by week.
* `Date.toDays`, `Date.ofDays?` — days counted from 1970-01-01.
* `Date.weekday`, `Date.ordinal`, `Date.isoWeek` — where a date stands in its week and year.
-/

namespace TableQuery

namespace Calendar

/-- Every fourth year has a leap day, but of the full centuries only every fourth. -/
def isLeap (year : Int) : Bool :=
  year % 4 = 0 && (year % 100 ≠ 0 || year % 400 = 0)

def daysInMonth (year : Int) (month : Nat) : Nat :=
  match month with
  | 2 => if isLeap year then 29 else 28
  | 4 | 6 | 9 | 11 => 30
  | _ => 31

def firstYear : Int := -262143

def lastYear : Int := 262142

def isDate (year : Int) (month day : Nat) : Bool :=
  firstYear ≤ year && year ≤ lastYear && 1 ≤ month && month ≤ 12 && 1 ≤ day &&
    day ≤ daysInMonth year month

/-- The days of a year before a month. -/
def daysBefore (year : Int) (month : Nat) : Nat :=
  (List.range (month - 1)).foldl (fun days i => days + daysInMonth year (i + 1)) 0

/-- The days from 1970-01-01 to the first of January of a year. -/
def yearStart (year : Int) : Int :=
  let y := year - 1
  y * 365 + y.fdiv 4 - y.fdiv 100 + y.fdiv 400 - 719162

/-- The day of the week of a day number, zero for Monday. -/
def weekdayOf (days : Int) : Nat :=
  ((days + 3) % 7).toNat

/-- The number of weeks of a year of weeks: 53 if it starts or ends on a Thursday. -/
def weeksInYear (year : Int) : Nat :=
  let first := weekdayOf (yearStart year)
  if first = 3 || (first = 2 && isLeap year) then 53 else 52

end Calendar

open Calendar

structure Date where
  year : Int
  month : Nat
  day : Nat
  exists_in_calendar : isDate year month day = true
  deriving DecidableEq

namespace Date

def ofYmd? (year : Int) (month day : Nat) : Option Date :=
  if h : isDate year month day = true then some ⟨year, month, day, h⟩ else none

/-- The day of the year, one for the first of January. -/
def ordinal (d : Date) : Nat :=
  daysBefore d.year d.month + d.day

/-- The month and day of a day of the year, searched from the given month on. -/
private def monthOfOrdinal (year : Int) (ordinal : Nat) (month : Nat) :
    (fuel : Nat) → Nat × Nat
  | 0 => (month, ordinal)
  | fuel + 1 =>
    if ordinal ≤ daysInMonth year month then (month, ordinal)
    else monthOfOrdinal year (ordinal - daysInMonth year month) (month + 1) fuel

def ofOrdinal? (year : Int) (ordinal : Nat) : Option Date :=
  let (month, day) := monthOfOrdinal year ordinal 1 12
  ofYmd? year month day

/-- Days from 1970-01-01. -/
def toDays (d : Date) : Int :=
  yearStart d.year + d.ordinal - 1

/-- The date of a day number, if it is within the calendar. Days are divided into spans of 400,
100, 4 and 1 years, of which the last of 100 and of 1 may be one day longer. -/
def ofDays? (days : Int) : Option Date :=
  let n := days + 719162
  let inEra := (n % 146097).toNat
  let century := min (inEra / 36524) 3
  let inCentury := inEra - century * 36524
  let inFour := inCentury % 1461
  let year := min (inFour / 365) 3
  ofOrdinal? (400 * n.fdiv 146097 + (100 * century + 4 * (inCentury / 1461) + year + 1 : Nat))
    (inFour - 365 * year + 1)

def addDays? (d : Date) (n : Int) : Option Date :=
  ofDays? (d.toDays + n)

def weekday (d : Date) : Nat :=
  weekdayOf d.toDays

/-- The days since the last day of the week `start`, zero for Monday. -/
def daysSince (d : Date) (start : Nat) : Nat :=
  (d.weekday + 7 - start) % 7

/-- The week of the year where weeks begin on the day `start`; days before the first such day
are in week zero. -/
def weekFrom (d : Date) (start : Nat) : Nat :=
  (d.ordinal + 6 - d.daysSince start) / 7

/-- The year and week of the date where a week belongs to the year of its Thursday. -/
def isoWeek (d : Date) : Int × Nat :=
  let week := (d.ordinal + 9 - d.weekday) / 7
  if week = 0 then (d.year - 1, weeksInYear (d.year - 1))
  else if weeksInYear d.year < week then (d.year + 1, 1)
  else (d.year, week)

def quarter (d : Date) : Nat :=
  (d.month - 1) / 3 + 1

def ofIsoWeek? (year : Int) (week weekday : Nat) : Option Date :=
  if 1 ≤ week && week ≤ weeksInYear year then
    let fourth := yearStart year + 3
    ofDays? (fourth - weekdayOf fourth + 7 * ((week : Int) - 1) + weekday)
  else none

instance : Ord Date where
  compare a b := (compare a.year b.year).then ((compare a.month b.month).then (compare a.day b.day))

@[simp] theorem ofYmd?_self (d : Date) : ofYmd? d.year d.month d.day = some d := by
  simp [ofYmd?, d.exists_in_calendar]

end Date

end TableQuery
