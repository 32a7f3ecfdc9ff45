import TableQuery.Calendar.Moment
import TableQuery.Operator.Period

/-!
# The order of moments

## Main results

* `Moment.instTransOrd` — the order reads the same from both sides and is transitive.
* `Period.holds_iff` — the moments of a period, seen from the moment.
-/

namespace TableQuery

instance Date.instTransOrd : Std.TransOrd Date :=
  inferInstanceAs <| Std.TransCmp <| compareLex (compareOn Date.year)
    (compareLex (compareOn Date.month) (compareOn Date.day))

instance Moment.instTransOrd : Std.TransOrd Moment :=
  inferInstanceAs <| Std.TransCmp <| compareLex (compareOn Moment.date)
    (compareLex (compareOn Moment.seconds) (compareOn Moment.nanos))

/-- A moment is in a period if it is not before the start and before the end. -/
theorem Period.holds_iff {p : Period} {t : Moment} :
    p.holds t = true ↔ compare t p.start ≠ .lt ∧ compare t p.stop = .lt := by
  rw [Period.holds, Std.OrientedOrd.eq_swap (a := p.start)]
  cases compare t p.start <;> simp

end TableQuery
