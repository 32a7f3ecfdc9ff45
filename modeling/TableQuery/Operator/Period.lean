import TableQuery.Calendar.Moment
import TableQuery.Operator.Builtin

/-!
# Periods that move with the clock

## Main definitions

* `Period` — the moments from a start to before an end.
* `Period.ofOperator?` — the period that an operator such as "yesterday" means.
-/

namespace TableQuery

/-- The moments from a start to before an end. -/
structure Period where
  start : Moment
  stop : Moment

namespace Period

def holds (p : Period) (t : Moment) : Bool :=
  compare p.start t != .gt && compare t p.stop == .lt

/-- The days from the first of a period to tomorrow, or the day before today alone. -/
def days? (operator : String) : Option (Int × Int) :=
  if operator = Builtin.today then some (0, 1)
  else if operator = Builtin.yesterday then some (-1, 0)
  else if operator = Builtin.lastWeek then some (-7, 1)
  else if operator = Builtin.lastMonth then some (-30, 1)
  else if operator = Builtin.lastThreeMonths then some (-90, 1)
  else none

def ofOperator? (operator : String) (now : Moment) : Option Period := do
  let (first, last) ← days? operator
  let midnight := Moment.midnight now.date
  some ⟨← midnight.addDays? first, ← midnight.addDays? last⟩

end Period

end TableQuery
