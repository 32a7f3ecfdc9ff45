import Mathlib.Tactic.SplitIfs
import TableQuery.Driver.Memory
import TableQuery.Proofs.Decimal.Packed

/-!
# Raw values that are equal

Raw values of one kind are equal as they are, but a signed and an unsigned word meet as doubles,
where words next to each other may be the same.

## Main results

* `compareFloats?_eq_iff` — doubles are equal in their order if they are equal.
* `Raw.compare?_int_of_uint` — a word and the signed word that it was read as.
-/

namespace TableQuery

open Float.Model (UnpackedFloat)

/-! ## Doubles -/

theorem not_lt_self (x : Float) : ¬ x < x := by
  have h (a : UnpackedFloat) : a.compare a ≠ some .lt := by
    cases a with
    | notANumber => simp [UnpackedFloat.compare]
    | infinity s => cases s <;> simp [UnpackedFloat.compare]
    | zero s => simp [UnpackedFloat.compare]
    | finite s m e hm => cases s <;> simp [UnpackedFloat.compare]
  intro hlt
  have hlt : x.toModel.unpack.lt x.toModel.unpack = true := by
    simpa [LT.lt, Float.lt, Float.Model.lt] using of_decide_eq_true hlt
  exact h _ (beq_iff_eq.mp hlt)

/-- Doubles are equal in their order if they are equal. -/
theorem compareFloats?_eq_iff {x y : Float} :
    compareFloats? x y = some .eq ↔ (x == y) = true := by
  have hirrefl : (x == y) = true → ¬ x < y := by
    intro h
    obtain ⟨-, -, rfl | ⟨rfl, rfl⟩ | ⟨rfl, rfl⟩⟩ := Float.beq_iff_ne_nan_and_eq.mp h
    · exact not_lt_self x
    · decide
    · decide
  unfold compareFloats?
  split_ifs with hlt heq hgt
  · simpa using fun heq => hirrefl heq hlt
  · simpa using heq
  · simpa using heq
  · simpa using heq

namespace Decimal

/-- A signed word that is not negative has the double of the word. -/
theorem ofInt64_ofInt {u : UInt64} (hu : u.toNat < 2 ^ 63) :
    ofInt64 (Int64.ofInt u.toNat) = u.toFloat := by
  have hint : (Int64.ofInt u.toNat).toInt = u.toNat := Int64.toInt_ofInt_of_le (by omega) (by omega)
  have hneg : ¬ Int64.ofInt u.toNat < 0 := by
    rw [Int64.lt_iff_toInt_lt, hint]
    simp
  rw [ofInt64, hint]
  simp [hneg]

end Decimal

namespace Raw

/-- A word is equal to the signed word that another one was read as if they have the same
double. -/
theorem compare?_int_of_uint {u : UInt64} (hu : u.toNat < 2 ^ 63) (w : UInt64) :
    (uint w).compare? (int (Int64.ofInt u.toNat)) = some .eq ↔
      (w.toFloat == u.toFloat) = true := by
  rw [← Decimal.ofInt64_ofInt hu]
  exact compareFloats?_eq_iff

end Raw

end TableQuery
