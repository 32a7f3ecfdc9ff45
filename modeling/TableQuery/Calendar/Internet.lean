import TableQuery.Calendar.Read

/-!
# Moments as they are written on the internet

A date, a time of day and an offset, such as `2024-05-06T07:08:09.5+02:00`.

## Main definitions

* `Calendar.readStrict?` — the moment in universal time of a text in the strict form.
* `Calendar.readRelaxed?` — the same with unfilled numbers and blanks between the parts.
-/

namespace TableQuery.Calendar

def skipChar (c : Char) : List Char → Except Fault (List Char)
  | d :: s => if c = d then .ok s else .error .malformed
  | [] => .error .malformed

def learnDigits (count : Nat) (set : Int → Except Fault Known) (s : List Char) :
    Except Fault (Known × List Char) :=
  learn (readDigits count (some count) s) set

/-- A date, a time of day and an offset in the strict form. -/
def readStrictParts (s : List Char) : Except Fault (Known × List Char) := do
  let (k, s) ← learnDigits 4 (Known.setYear .nothing) s
  let (k, s) ← learnDigits 2 k.setMonth (← skipChar '-' s)
  let (k, s) ← learnDigits 2 k.setDay (← skipChar '-' s)
  let (k, s) ← learnDigits 2 k.setHour (← readSeparator s)
  let (k, s) ← learnDigits 2 k.setMinute (← skipChar ':' s)
  let (k, s) ← learnDigits 2 k.setSecond (← skipChar ':' s)
  let (k, s) ←
    match s with
    | '.' :: s => learn (readFraction s) k.setNanosecond
    | s => .ok (k, s)
  learn (readOffset skipColon true false s) k.setOffset

/-- The moment in universal time of what is known, which must have an offset of less than a
day. -/
def Known.universal? (k : Known) : Option Moment := do
  let offset ← k.offset
  let t ← (k.moment offset).toOption
  if offset.natAbs < 86400 then t.shift? (-offset) else none

def readStrict? (s : List Char) : Option Moment :=
  match readStrictParts s with
  | .ok (k, []) => k.universal?
  | _ => none

/-- The moment in universal time of a text in the relaxed form, with blanks behind it. -/
def readRelaxed? (s : List Char) : Option Moment :=
  match readInternet .nothing s with
  | .ok (k, rest) => if (Text.trimStart rest).isEmpty then k.universal? else none
  | .error _ => none

end TableQuery.Calendar
