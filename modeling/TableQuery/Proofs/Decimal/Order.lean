import Mathlib.Data.Prod.Lex
import TableQuery.Proofs.Value.Compare

/-!
# The order of doubles

Doubles that are numbers are in order by their places: by sign, then by exponent and then by
mantissa. What is no number has no place, and both zeros have the same.

## Main definitions

* `Decimal.Place`, `Decimal.place?` — where a double stands among all others.

## Main results

* `compareFloats?_eq` — doubles are in the order of their places.
-/

namespace TableQuery

open Float.Model (UnpackedFloat)

namespace Decimal

/-- A sign, an exponent and a mantissa, the exponent and the mantissa of what is negative turned
round. -/
abbrev Place := ℤ ×ₗ ℤ ×ₗ ℤ

def unpackedPlace? : UnpackedFloat → Option Place
  | .notANumber => none
  | .infinity .negative => some (toLex (-2, toLex (0, 0)))
  | .finite .negative m e _ => some (toLex (-1, toLex (-e, -m)))
  | .zero _ => some (toLex (0, toLex (0, 0)))
  | .finite .positive m e _ => some (toLex (1, toLex (e, m)))
  | .infinity .positive => some (toLex (2, toLex (0, 0)))

/-- Where a double stands among all others, unless it is no number. -/
def place? (x : Float) : Option Place :=
  unpackedPlace? x.toModel.unpack

theorem compare_natCast (m m' : ℕ) : compare (m : ℤ) (m' : ℤ) = compare m m' := by
  simpa only [cmp_eq_compare] using Nat.strictMono_cast.cmp_map_eq m m'

theorem compare_neg (i j : ℤ) : compare (-i) (-j) = (compare i j).swap := by
  have hneg : StrictAnti fun i : ℤ => -i := fun i j h => neg_lt_neg h
  rw [← Std.OrientedOrd.eq_swap]
  simpa only [cmp_eq_compare] using hneg.cmp_map_eq i j

theorem compare_unpacked (a b : UnpackedFloat) :
    a.compare b =
      (unpackedPlace? a).bind fun p => (unpackedPlace? b).map fun q => compare p q := by
  have hsame (s i i' j j' : ℤ) :
      compare (toLex (s, toLex (i, j))) (toLex (s, toLex (i', j'))) =
        (compare i i').then (compare j j') := by
    show (compare s s).then ((compare i i').then (compare j j')) = _
    rw [compare_eq_iff_eq.mpr rfl]
    rfl
  -- Signs that differ decide alone.
  rcases a with (_ | _) | _ | _ | ⟨_ | _, m, e, h⟩ <;>
  rcases b with (_ | _) | _ | _ | ⟨_ | _, m', e', h'⟩ <;>
  try rfl
  · simp only [unpackedPlace?, Option.bind_some, Option.map_some, hsame, compare_neg,
      compare_natCast, UnpackedFloat.compare, Ordering.swap_then]
  · simp only [unpackedPlace?, Option.bind_some, Option.map_some, hsame, compare_natCast,
      UnpackedFloat.compare]

end Decimal

open Decimal (place?)

theorem lt_iff_compare {x y : Float} :
    x < y ↔ x.toModel.unpack.compare y.toModel.unpack = some .lt := by
  have hlt : x < y ↔ Float.lt x y = true := Iff.rfl
  rw [hlt, Float.lt, decide_eq_true_iff]
  exact beq_iff_eq

theorem beq_iff_compare {x y : Float} :
    (x == y) = true ↔ x.toModel.unpack.compare y.toModel.unpack = some .eq := by
  have heq : (x == y) = x.toModel.unpack.beq y.toModel.unpack := rfl
  rw [heq, UnpackedFloat.beq, beq_iff_eq]

/-- Doubles are in the order of their places. -/
theorem compareFloats?_eq (x y : Float) :
    compareFloats? x y = (place? x).bind fun p => (place? y).map fun q => compare p q := by
  simp only [compareFloats?, lt_iff_compare, beq_iff_compare, Decimal.compare_unpacked]
  rw [← place?, ← place?]
  cases place? x with
  | none => cases place? y <;> simp
  | some p =>
    cases place? y with
    | none => simp
    | some q =>
      simp only [Option.bind_some, Option.map_some, Option.some.injEq]
      rw [Std.OrientedOrd.eq_swap (a := q)]
      cases compare p q <;> rfl

end TableQuery
