import TableQuery.Calendar.Moment

/-!
# What is known of a moment

Reading a pattern yields parts of a date and a time, possibly more than are needed. They must
agree with each other, and they must be enough.

## Main definitions

* `Calendar.Fault` — why parts make no moment.
* `Calendar.Known` — the parts known so far.
* `Calendar.Known.date`, `Calendar.Known.moment` — the date or moment that the parts determine.
-/

namespace TableQuery.Calendar

inductive Fault where
  | malformed
  | outOfRange
  | impossible
  | notEnough
  deriving DecidableEq, Repr

/-- The parts of a moment that are known. Days of the week count from Monday. -/
structure Known where
  year : Option Int
  century : Option Int
  yearOfCentury : Option Int
  isoYear : Option Int
  isoYearOfCentury : Option Int
  quarter : Option Nat
  month : Option Nat
  day : Option Nat
  weekFromSunday : Option Nat
  weekFromMonday : Option Nat
  isoWeek : Option Nat
  weekday : Option Nat
  ordinal : Option Nat
  afternoon : Option Bool
  /-- The hour of the half of the day, from zero. -/
  hourOfHalf : Option Nat
  minute : Option Nat
  second : Option Nat
  nanosecond : Option Nat
  timestamp : Option Int
  offset : Option Int
  deriving DecidableEq

namespace Known

def nothing : Known :=
  ⟨none, none, none, none, none, none, none, none, none, none, none, none, none, none, none,
    none, none, none, none, none⟩

/-- A part becomes known; what was known of it must be the same. -/
def agree {α : Type} [DecidableEq α] (known : Option α) (new : α) : Except Fault (Option α) :=
  match known with
  | none => .ok (some new)
  | some old => if old = new then .ok (some new) else .error .impossible

def bounded (lo hi : Nat) (n : Int) : Except Fault Nat :=
  if (lo : Int) ≤ n ∧ n ≤ hi then .ok n.toNat else .error .outOfRange

/-- A year fits a signed word of 32 bits. -/
def boundedYear (n : Int) : Except Fault Int :=
  if -Int.pow 2 31 ≤ n ∧ n < Int.pow 2 31 then .ok n else .error .outOfRange

def setYear (k : Known) (n : Int) : Except Fault Known := do
  return { k with year := ← agree k.year (← boundedYear n) }

def setCentury (k : Known) (n : Int) : Except Fault Known := do
  return { k with century := ← agree k.century (← boundedYear n) }

def setYearOfCentury (k : Known) (n : Int) : Except Fault Known := do
  return { k with yearOfCentury := ← agree k.yearOfCentury (← bounded 0 99 n : Nat) }

def setIsoYear (k : Known) (n : Int) : Except Fault Known := do
  return { k with isoYear := ← agree k.isoYear (← boundedYear n) }

def setIsoYearOfCentury (k : Known) (n : Int) : Except Fault Known := do
  return { k with isoYearOfCentury := ← agree k.isoYearOfCentury (← bounded 0 99 n : Nat) }

def setQuarter (k : Known) (n : Int) : Except Fault Known := do
  return { k with quarter := ← agree k.quarter (← bounded 1 4 n) }

def setMonth (k : Known) (n : Int) : Except Fault Known := do
  return { k with month := ← agree k.month (← bounded 1 12 n) }

def setDay (k : Known) (n : Int) : Except Fault Known := do
  return { k with day := ← agree k.day (← bounded 1 31 n) }

def setWeekFromSunday (k : Known) (n : Int) : Except Fault Known := do
  return { k with weekFromSunday := ← agree k.weekFromSunday (← bounded 0 53 n) }

def setWeekFromMonday (k : Known) (n : Int) : Except Fault Known := do
  return { k with weekFromMonday := ← agree k.weekFromMonday (← bounded 0 53 n) }

def setIsoWeek (k : Known) (n : Int) : Except Fault Known := do
  return { k with isoWeek := ← agree k.isoWeek (← bounded 1 53 n) }

def setWeekday (k : Known) (n : Int) : Except Fault Known := do
  return { k with weekday := ← agree k.weekday (← bounded 0 6 n) }

def setOrdinal (k : Known) (n : Int) : Except Fault Known := do
  return { k with ordinal := ← agree k.ordinal (← bounded 1 366 n) }

def setAfternoon (k : Known) (b : Bool) : Except Fault Known := do
  return { k with afternoon := ← agree k.afternoon b }

def setHour (k : Known) (n : Int) : Except Fault Known := do
  let h ← bounded 0 23 n
  let afternoon ← agree k.afternoon (decide (12 ≤ h))
  let hourOfHalf ← agree k.hourOfHalf (h % 12)
  return { k with afternoon, hourOfHalf }

def setHour12 (k : Known) (n : Int) : Except Fault Known := do
  return { k with hourOfHalf := ← agree k.hourOfHalf ((← bounded 1 12 n) % 12) }

def setMinute (k : Known) (n : Int) : Except Fault Known := do
  return { k with minute := ← agree k.minute (← bounded 0 59 n) }

/-- The second becomes known, 60 for a leap second. -/
def setSecond (k : Known) (n : Int) : Except Fault Known := do
  return { k with second := ← agree k.second (← bounded 0 60 n) }

def setNanosecond (k : Known) (n : Int) : Except Fault Known := do
  return { k with nanosecond := ← agree k.nanosecond (← bounded 0 999999999 n) }

def setTimestamp (k : Known) (n : Int) : Except Fault Known := do
  return { k with timestamp := ← agree k.timestamp n }

def setOffset (k : Known) (n : Int) : Except Fault Known := do
  return { k with offset := ← agree k.offset n }

/-- The year that a year, a century and a year of the century determine together. A year of
the century alone means the years from 1970 to 2069. -/
def resolveYear : (year century yearOfCentury : Option Int) → Except Fault (Option Int)
  | y, none, none => .ok y
  | some y, q, r =>
    if 0 ≤ y ∧ q.getD (y / 100) = y / 100 ∧ r.getD (y % 100) = y % 100 then .ok (some y)
    else .error .impossible
  | none, some q, some r =>
    if q < 0 then .error .impossible
    else if Int.pow 2 31 ≤ q * 100 + r then .error .outOfRange
    else .ok (some (q * 100 + r))
  | none, none, some r => .ok (some (r + if r < 70 then 2000 else 1900))
  | none, some _, none => .error .notEnough

/-- What is known of a part is its actual value. -/
def consistent {α : Type} [DecidableEq α] (known : Option α) (actual : α) : Bool :=
  known.getD actual = actual

def consistentWith {α : Type} [DecidableEq α] (known actual : Option α) : Bool :=
  (known.or actual) = actual

/-- The century and the year of the century of a year, which only years from zero on have. -/
def centuryOf (year : Int) : Option Int × Option Int :=
  if 0 ≤ year then (some (year / 100), some (year % 100)) else (none, none)

def agreesOnDay (k : Known) (d : Date) : Bool :=
  consistent k.year d.year && consistentWith k.century (centuryOf d.year).1 &&
    consistentWith k.yearOfCentury (centuryOf d.year).2 && consistent k.month d.month &&
    consistent k.day d.day

def agreesOnIsoWeek (k : Known) (d : Date) : Bool :=
  consistent k.isoYear d.isoWeek.1 &&
    consistentWith k.isoYearOfCentury (centuryOf d.isoWeek.1).2 &&
    consistent k.isoWeek d.isoWeek.2 && consistent k.weekday d.weekday

def agreesOnOrdinal (k : Known) (d : Date) : Bool :=
  consistent k.ordinal d.ordinal && consistent k.weekFromSunday (d.weekFrom 6) &&
    consistent k.weekFromMonday (d.weekFrom 0)

/-- The day of a week counted from the weekday `start`, zero for Monday. -/
def dateOfWeek (year : Int) (week weekday start : Nat) : Except Fault Date := do
  let first ← (Date.ofOrdinal? year 1).elim (.error .outOfRange) .ok
  let weekStart : Int := 1 + ((start + 7 - first.weekday) % 7 : Nat)
  let ordinal : Int := weekStart + ((week : Int) - 1) * 7 + ((weekday + 7 - start) % 7 : Nat)
  if ordinal ≤ 0 then .error .impossible
  else (Date.ofOrdinal? year ordinal.toNat).elim (.error .impossible) .ok

/-- The date that the known parts determine, and whether the parts that were not needed agree
with it. Month and day come before the day of the year, and these before weeks. -/
def candidate (k : Known) (year isoYear : Option Int) : Except Fault (Bool × Date) :=
  let found (d? : Option Date) (agrees : Date → Bool) : Except Fault (Bool × Date) :=
    d?.elim (.error .outOfRange) fun d => .ok (agrees d, d)
  match year, k.month, k.day, k.ordinal, k.weekFromSunday, k.weekFromMonday, k.weekday with
  | some y, some m, some d, _, _, _, _ =>
    found (Date.ofYmd? y m d) fun d => k.agreesOnIsoWeek d && k.agreesOnOrdinal d
  | some y, _, _, some o, _, _, _ =>
    found (Date.ofOrdinal? y o) fun d =>
      k.agreesOnDay d && k.agreesOnIsoWeek d && k.agreesOnOrdinal d
  | some y, _, _, _, some w, _, some wd =>
    (dateOfWeek y w wd 6).map fun d =>
      (k.agreesOnDay d && k.agreesOnIsoWeek d && k.agreesOnOrdinal d, d)
  | some y, _, _, _, _, some w, some wd =>
    (dateOfWeek y w wd 0).map fun d =>
      (k.agreesOnDay d && k.agreesOnIsoWeek d && k.agreesOnOrdinal d, d)
  | _, _, _, _, _, _, _ =>
    match isoYear, k.isoWeek, k.weekday with
    | some y, some w, some wd =>
      found (Date.ofIsoWeek? y w wd) fun d => k.agreesOnDay d && k.agreesOnOrdinal d
    | _, _, _ => .error .notEnough

def date (k : Known) : Except Fault Date := do
  let year ← resolveYear k.year k.century k.yearOfCentury
  let isoYear ← resolveYear k.isoYear none k.isoYearOfCentury
  let (agrees, d) ← k.candidate year isoYear
  if agrees && consistent k.quarter d.quarter then .ok d else .error .impossible

/-- The seconds since midnight and the nanoseconds of the time of day that the known parts
determine. Seconds may be left out, but not before a fraction. -/
def timeOfDay (k : Known) (d : Date) : Except Fault Moment :=
  match k.afternoon, k.hourOfHalf, k.minute with
  | some afternoon, some hour, some minute =>
    let leap := k.second = some 60
    let second := if leap then 59 else k.second.getD 0
    if k.second.isNone && k.nanosecond.isSome then .error .notEnough
    else
      let nanos := k.nanosecond.getD 0 + if leap then 1000000000 else 0
      (Moment.ofHms? d (hour + if afternoon then 12 else 0) minute second nanos).elim
        (.error .outOfRange) .ok
  | _, _, _ => .error .notEnough

/-- The parts of a date and a time filled in from a timestamp. A leap second keeps its second. -/
def fillFrom (k : Known) (t : Moment) : Except Fault Known := do
  let k ← if k.second = some 60 then .ok k else k.setSecond t.second
  let k ← k.setYear t.date.year
  let k ← k.setOrdinal t.date.ordinal
  let k ← k.setHour t.hour
  k.setMinute t.minute

/-- The moment that a timestamp and an offset determine together with the other known parts. A
timestamp at the first second of a minute may stand for the leap second before it. -/
def fromTimestamp (k : Known) (timestamp offset : Int) : Except Fault Moment := do
  let t ← (Moment.ofTimestamp? (timestamp + offset)).elim (.error .outOfRange) .ok
  let t ←
    if k.second = some 60 then
      if t.second = 59 then .ok t
      else if t.second = 0 then
        (Moment.ofTimestamp? (timestamp + offset - 1)).elim (.error .outOfRange) .ok
      else .error .impossible
    else .ok t
  let k ← k.fillFrom t
  let d ← k.date
  k.timeOfDay d

/-- The date is known, or not enough of it is. -/
private def insufficient {α : Type} : Except Fault α → Option Fault
  | .error .outOfRange => some .outOfRange
  | .error .impossible => some .impossible
  | _ => none

/-- The moment that the known parts determine, at an offset from coordinated universal time.
A timestamp must agree with the other parts, and makes up for them where they are not enough. -/
def moment (k : Known) (offset : Int) : Except Fault Moment :=
  let date := k.date
  let moment := date.bind k.timeOfDay
  let time := (Date.ofYmd? 1970 1 1).elim (.error .outOfRange) k.timeOfDay
  match moment, k.timestamp with
  | .ok t, none => .ok t
  | .ok t, some given =>
    let actual := t.timestamp - offset
    if given = actual || (1000000000 ≤ t.nanos && given = actual + 1) then .ok t
    else .error .impossible
  | .error f, none => .error f
  | .error _, some given =>
    match insufficient date, insufficient time with
    | some .outOfRange, _ | _, some .outOfRange => .error .outOfRange
    | some .impossible, _ | _, some .impossible => .error .impossible
    | _, _ => k.fromTimestamp given offset

end Known

end TableQuery.Calendar
