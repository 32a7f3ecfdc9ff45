import TableQuery.Calendar.Date
import TableQuery.Text.Integer

/-!
# Moments

A date with a time of day, to the nanosecond. A leap second is written as second 60 and held as
a 59th second with more than a thousand million nanoseconds.

## Main definitions

* `Moment` — a date and a time of day.
* `Moment.midnight`, `Moment.addDays?`, `Moment.shift?` — moments from others.
* `Moment.timestamp`, `Moment.ofTimestamp?` — seconds from 1970-01-01.
* `Moment.written` — the written form, with three, six or nine places where needed.
-/

namespace TableQuery

open TableQuery.Text (digits padStart)

structure Moment where
  date : Date
  /-- Seconds since midnight. -/
  seconds : Nat
  /-- Nanoseconds since the second began. -/
  nanos : Nat
  seconds_lt : seconds < 86400
  nanos_lt : nanos < 2000000000
  deriving DecidableEq

/-- The written form of a date: four digits for the year, and a sign where it needs others. -/
def Date.written (d : Date) : List Char :=
  let year :=
    if 0 ≤ d.year && d.year ≤ 9999 then padStart '0' 4 (digits 10 d.year.toNat)
    else (if d.year < 0 then '-' else '+') :: padStart '0' 4 (digits 10 d.year.natAbs)
  year ++ '-' :: padStart '0' 2 (digits 10 d.month) ++ '-' :: padStart '0' 2 (digits 10 d.day)

namespace Moment

def midnight (d : Date) : Moment :=
  ⟨d, 0, 0, by decide, by decide⟩

/-- The moment at an hour, minute, second and nanosecond, if there is one. A second may only be
longer than a thousand million nanoseconds at the end of a minute. -/
def ofHms? (d : Date) (hour minute second nanos : Nat) : Option Moment :=
  if h : hour < 24 ∧ minute < 60 ∧ second < 60 ∧ nanos < 2000000000 ∧
      (nanos < 1000000000 ∨ second = 59) then
    some ⟨d, hour * 3600 + minute * 60 + second, nanos, by omega, h.2.2.2.1⟩
  else none

def hour (t : Moment) : Nat := t.seconds / 3600

def minute (t : Moment) : Nat := t.seconds / 60 % 60

/-- The second of the minute; a leap second is a 59th. -/
def second (t : Moment) : Nat := t.seconds % 60

/-- The second as it is written, 60 for a leap second. -/
def writtenSecond (t : Moment) : Nat := t.second + t.nanos / 1000000000

def fraction (t : Moment) : Nat := t.nanos % 1000000000

def hour12 (t : Moment) : Nat :=
  if t.hour % 12 = 0 then 12 else t.hour % 12

def isAfternoon (t : Moment) : Bool := 12 ≤ t.hour

def addDays? (t : Moment) (n : Int) : Option Moment :=
  (t.date.addDays? n).map fun d => { t with date := d }

/-- Seconds from 1970-01-01 00:00:00. -/
def timestamp (t : Moment) : Int :=
  t.date.toDays * 86400 + t.seconds

def ofTimestamp? (seconds : Int) : Option Moment :=
  (Date.ofDays? (seconds.fdiv 86400)).map fun d =>
    ⟨d, (seconds % 86400).toNat, 0, by omega, by decide⟩

/-- The moment a number of seconds later; a leap second stays one. -/
def shift? (t : Moment) (seconds : Int) : Option Moment :=
  (ofTimestamp? (t.timestamp + seconds)).map fun u =>
    { u with nanos := t.nanos, nanos_lt := t.nanos_lt }

/-- A point and three, six or nine places, or nothing for a whole second. -/
def writtenFraction (nanos : Nat) : List Char :=
  if nanos = 0 then []
  else if nanos % 1000000 = 0 then '.' :: padStart '0' 3 (digits 10 (nanos / 1000000))
  else if nanos % 1000 = 0 then '.' :: padStart '0' 6 (digits 10 (nanos / 1000))
  else '.' :: padStart '0' 9 (digits 10 nanos)

def written (separator : Char) (t : Moment) : List Char :=
  t.date.written ++ separator :: padStart '0' 2 (digits 10 t.hour) ++ ':' ::
    padStart '0' 2 (digits 10 t.minute) ++ ':' :: padStart '0' 2 (digits 10 t.writtenSecond) ++
    writtenFraction t.fraction

def writtenUtc (t : Moment) : String :=
  String.ofList (t.written 'T' ++ ['Z'])

instance : Ord Moment where
  compare a b :=
    (compare a.date b.date).then ((compare a.seconds b.seconds).then (compare a.nanos b.nanos))

end Moment

end TableQuery
