import TableQuery.Proofs.Run
import TableQuery.Cell.Typed

/-!
# Types of shown values

## Main results

* `Column.type?_of_typed` — what a column shows has the type of the column.
* `Column.typed_eq_string` — what a column of texts shows is its text.
-/

namespace TableQuery

theorem Column.type?_of_typed {c : Column} {options : OptionLists} {raw : Raw} {v : Value}
    (h : c.typed options raw = .ok v) : v.type? = some c.type := by
  unfold typed at h
  split at h
  · cases h
    exact c.type?_emptyValue
  · split at h
    case h_3 htype =>
      rw [htype]
      split at h
      · cases h
        rfl
      · cases h
    all_goals
      next htype =>
        rw [htype]
        obtain ⟨a, -, rfl⟩ := Except.map_eq_ok_iff.mp h
        rfl

/-- What a column of texts shows is its text. -/
theorem Column.typed_eq_string {c : Column} (htype : c.type = .string) {options : OptionLists}
    {raw : Raw} {value : Value} (h : c.typed options raw = .ok value) :
    c.typed options raw = .ok (.string value.display) := by
  have hvalue := type?_of_typed h
  rw [htype] at hvalue
  cases value <;> cases hvalue
  exact h

end TableQuery
