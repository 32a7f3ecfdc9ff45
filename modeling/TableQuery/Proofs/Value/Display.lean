import TableQuery.Proofs.Decimal.Written
import TableQuery.Proofs.Run
import TableQuery.Query.Inbound

/-!
# Texts of values

Tables are joined by the texts of values. Values of one type are told apart by their texts, but
for the names of entries of option lists, and names do not count where values become raw values.

## Main definitions

* `Column.rawOf` — the raw value in a column that a value of another column stands for.

## Main results

* `Value.eq_of_display`, `Column.rawOf_eq_of_display` — what texts determine.
-/

namespace TableQuery

namespace Value

/-- Values of one type with the same text are the same, or entries with the same number. -/
theorem eq_of_display {v w : Value} (ht : v.type? = w.type?) (hd : v.display = w.display) :
    v = w ∨ ∃ c d : Choice, v = .choice c ∧ w = .choice d ∧ c.id = d.id := by
  cases v <;> cases w <;> simp only [type?, Option.some.injEq, reduceCtorEq] at ht <;>
    simp only [display] at hd
  case null.null => exact .inl rfl
  case string.string | date.date | time.time => exact .inl (hd ▸ rfl)
  case int.int i j => exact .inl (congrArg int (Int64.toInt_inj.mp (Text.ofInt_injective hd)))
  case double.double x y => exact .inl (congrArg double (Decimal.ofFloat_injective hd))
  case bool.bool b c =>
    left
    cases b <;> cases c <;> simp at hd ⊢
  case choice.choice c d =>
    exact .inr ⟨c, d, rfl, rfl, Int32.toInt_inj.mp (Text.ofInt_injective hd)⟩

end Value

/-- The raw value in a column that a value of another column stands for. -/
def Column.rawOf (c : Column) (v : Value) : Except QueryError Raw := do
  c.native (← c.retyped v)

/-- Values of one type with the same text stand for the same raw value everywhere. -/
theorem Column.rawOf_eq_of_display (c : Column) {v w : Value} (ht : v.type? = w.type?)
    (hd : v.display = w.display) : c.rawOf v = c.rawOf w := by
  rcases Value.eq_of_display ht hd with rfl | ⟨a, b, rfl, rfl, hid⟩
  · rfl
  · unfold rawOf retyped
    rw [← ht, hd]
    split
    · next htype =>
      have hc : c.type = .choice := (Option.some.inj htype).symm
      rw [Except.ok_bind, Except.ok_bind]
      simp [native, hc, hid]
    · rfl

end TableQuery
