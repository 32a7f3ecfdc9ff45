import Mathlib.Order.Monotone.Basic
import Mathlib.Tactic.LinearCombination
import TableQuery.Proofs.Decimal.Shortest

/-!
# Neighbouring doubles

The doubles without a sign stand in the order of their bits, and the intervals of the numbers
that round to them meet only at their ends, of which at most one double keeps each.

## Main definitions

* `Decimal.Magnitude.ofPosition` — the magnitude at a position in the order of the doubles.

## Main results

* `Decimal.Magnitude.eq_of_contains` — no number rounds to two magnitudes.
* `Decimal.Number.ofFloat_injective` — the parts of a double determine it.
-/

namespace TableQuery.Decimal

namespace Magnitude

/-- The magnitude whose field and fraction are those of a word without a sign. -/
def ofPosition (b : Nat) : Magnitude :=
  if b / 2 ^ 52 = 0 then ⟨b % 2 ^ 52, -1074⟩ else ⟨2 ^ 52 + b % 2 ^ 52, (b / 2 ^ 52 : ℕ) - 1075⟩

theorem mantissa_ofPosition_lt (b : Nat) : (ofPosition b).mantissa < 2 ^ 53 := by
  have := Nat.mod_lt b (Nat.two_pow_pos 52)
  unfold ofPosition
  split <;> simp only <;> omega

theorem mantissa_ofPosition_mod_two (b : Nat) : (ofPosition b).mantissa % 2 = b % 2 := by
  unfold ofPosition
  split <;> simp only <;> omega

theorem isZero_ofPosition {b : Nat} : (ofPosition b).isZero = true ↔ b = 0 := by
  unfold ofPosition isZero
  split <;> simp only [beq_iff_eq] <;> omega

theorem isZero_ofPosition_of_pos {b : Nat} (hb : 0 < b) : (ofPosition b).isZero = false := by
  rw [Bool.eq_false_iff, ne_eq, isZero_ofPosition]
  omega

/-- The next position has the next mantissa, or begins a new exponent. -/
theorem ofPosition_succ (b : Nat) :
    (ofPosition (b + 1) = ⟨(ofPosition b).mantissa + 1, (ofPosition b).exponent⟩ ∧
      ¬ ((ofPosition b).mantissa + 1 = 2 ^ 52 ∧ (ofPosition b).exponent > -1074)) ∨
    (ofPosition (b + 1) = ⟨2 ^ 52, (ofPosition b).exponent + 1⟩ ∧
      (ofPosition b).mantissa + 1 = 2 ^ 53 ∧ (ofPosition b).exponent + 1 > -1074) := by
  by_cases hr : b % 2 ^ 52 + 1 < 2 ^ 52
  · have hdiv : (b + 1) / 2 ^ 52 = b / 2 ^ 52 := by omega
    have hmod : (b + 1) % 2 ^ 52 = b % 2 ^ 52 + 1 := by omega
    left
    simp only [ofPosition, hdiv, hmod]
    split <;> simp only [Nat.add_assoc, true_and, not_and] <;> omega
  · have hdiv : (b + 1) / 2 ^ 52 = b / 2 ^ 52 + 1 := by omega
    have hmod : (b + 1) % 2 ^ 52 = 0 := by omega
    by_cases hf : b / 2 ^ 52 = 0
    · left
      simp only [ofPosition, hdiv, hmod, hf, if_true, zero_add, one_ne_zero, if_false,
        Magnitude.mk.injEq]
      omega
    · right
      simp only [ofPosition, hdiv, hmod, hf, if_false, Magnitude.mk.injEq, Nat.add_eq_zero_iff,
        one_ne_zero, and_false]
      omega

/-- The next position is one unit further, also where the unit grows. -/
theorem value_ofPosition_succ (b : Nat) :
    (ofPosition (b + 1)).value = (ofPosition b).value + (ofPosition b).unit := by
  rcases ofPosition_succ b with ⟨h, -⟩ | ⟨h, hm, -⟩
  · rw [h]
    simp only [value, unit]
    push_cast
    ring
  · have hm' : ((ofPosition b).mantissa : ℚ) + 1 = 2 ^ 53 := by exact_mod_cast hm
    rw [h]
    simp only [value, unit, zpow_add_one₀ (two_ne_zero : (2 : ℚ) ≠ 0)]
    push_cast
    linear_combination (-(2 : ℚ) ^ (ofPosition b).exponent) * hm'

theorem value_ofPosition_strictMono : StrictMono fun b => (ofPosition b).value := by
  refine strictMono_nat_of_lt_succ fun b => ?_
  have hu := (ofPosition b).unit_pos
  rw [value_ofPosition_succ]
  linarith

theorem ofPosition_injective : Function.Injective ofPosition := fun _ _ h =>
  value_ofPosition_strictMono.injective (congrArg value h)

/-- The point half way to the next position. -/
def midpoint (b : Nat) : ℚ :=
  (ofPosition b).value + (ofPosition b).unit / 2

theorem midpoint_lt_succ (b : Nat) : midpoint b < midpoint (b + 1) := by
  have hu := (ofPosition b).unit_pos
  have hu' := (ofPosition (b + 1)).unit_pos
  unfold midpoint
  rw [value_ofPosition_succ]
  linarith

theorem midpoint_strictMono : StrictMono midpoint :=
  strictMono_nat_of_lt_succ midpoint_lt_succ

/-- An interval begins where the one of the position before it ends. -/
theorem interval_low_succ (b : Nat) :
    ((ofPosition (b + 1)).interval.low / (ofPosition (b + 1)).interval.den : ℚ) = midpoint b := by
  have hz : (ofPosition (b + 1)).isZero = false := isZero_ofPosition_of_pos b.succ_pos
  rw [interval_low hz, value_ofPosition_succ, midpoint]
  rcases ofPosition_succ b with ⟨h, hcarry⟩ | ⟨h, -, he⟩
  · rw [h, if_neg hcarry]
    simp only [unit]
    ring
  · rw [h, if_pos ⟨rfl, he⟩]
    simp only [unit, zpow_add_one₀ (two_ne_zero : (2 : ℚ) ≠ 0)]
    ring

theorem closed_ofPosition {b : Nat} : (ofPosition b).interval.closed = true ↔ b % 2 = 0 := by
  simp only [interval, decide_eq_true_eq, mantissa_ofPosition_mod_two]

theorem le_midpoint_of_contains {b : Nat} {v : ℚ} (h : (ofPosition b).interval.Contains v) :
    v ≤ midpoint b ∧ (v = midpoint b → b % 2 = 0) := by
  rw [midpoint, ← interval_high]
  unfold Interval.Contains at h
  split at h
  · next hc => exact ⟨h.2, fun _ => closed_ofPosition.mp hc⟩
  · exact ⟨h.2.le, fun heq => absurd heq h.2.ne⟩

theorem midpoint_le_of_contains {b : Nat} {v : ℚ} (h : (ofPosition (b + 1)).interval.Contains v) :
    midpoint b ≤ v ∧ (v = midpoint b → (b + 1) % 2 = 0) := by
  rw [← interval_low_succ]
  unfold Interval.Contains at h
  split at h
  · next hc => exact ⟨h.1, fun _ => closed_ofPosition.mp hc⟩
  · exact ⟨h.1.le, fun heq => absurd heq.symm h.1.ne⟩

/-- What rounds to a position does not round to a later one. -/
theorem not_contains_of_lt {b c : Nat} {v : ℚ} (hlt : b < c)
    (hb : (ofPosition b).interval.Contains v) : ¬ (ofPosition c).interval.Contains v := by
  intro hc
  obtain ⟨c, rfl⟩ : ∃ d, c = d + 1 := ⟨c - 1, by omega⟩
  obtain ⟨hle, heven⟩ := le_midpoint_of_contains hb
  obtain ⟨hge, heven'⟩ := midpoint_le_of_contains hc
  have hmono : midpoint b ≤ midpoint c := midpoint_strictMono.monotone (by omega)
  -- Only the common end of two neighbours is left, and just one of them is even.
  have hbc : b = c := midpoint_strictMono.injective (by linarith)
  have h1 := heven (by linarith)
  have h2 := heven' (by linarith)
  omega

/-- No number rounds to two magnitudes. -/
theorem eq_of_contains {b c : Nat} {v : ℚ} (hb : (ofPosition b).interval.Contains v)
    (hc : (ofPosition c).interval.Contains v) : b = c := by
  rcases lt_trichotomy b c with h | h | h
  · exact absurd hc (not_contains_of_lt h hb)
  · exact h
  · exact absurd hb (not_contains_of_lt h hc)

/-- The shortest digits mean one magnitude only. -/
theorem eq_of_value_toShortest {b c : Nat}
    (h : (ofPosition b).toShortest.value = (ofPosition c).toShortest.value) : b = c := by
  cases hb : (ofPosition b).isZero with
  | true =>
    rw [value_toShortest_of_isZero hb] at h
    cases hc : (ofPosition c).isZero with
    | true => rw [isZero_ofPosition.mp hb, isZero_ofPosition.mp hc]
    | false =>
      have hpos := pos_of_contains hc (contains_toShortest hc (mantissa_ofPosition_lt c))
      linarith
  | false =>
    have hcb := contains_toShortest hb (mantissa_ofPosition_lt b)
    cases hc : (ofPosition c).isZero with
    | true =>
      rw [value_toShortest_of_isZero hc] at h
      have hpos := pos_of_contains hb hcb
      linarith
    | false =>
      have hcc := contains_toShortest hc (mantissa_ofPosition_lt c)
      exact eq_of_contains hcb (h ▸ hcc)

end Magnitude

namespace Number

variable {bits : Nat}

theorem beq_sign_of_lt (hbits : bits < 2 ^ 64) :
    (bits / 2 ^ 63 % 2 == 1) = decide (2 ^ 63 ≤ bits) := by
  rw [Bool.eq_iff_iff]
  simp only [beq_iff_eq, decide_eq_true_eq]
  omega

/-- The field and the fraction of a word are those of the word without its sign. -/
theorem ofBits_eq_finite {negative : Bool} {m : Magnitude}
    (h : ofBits bits = .finite negative m) (hbits : bits < 2 ^ 64) :
    negative = decide (2 ^ 63 ≤ bits) ∧ m = Magnitude.ofPosition (bits % 2 ^ 63) := by
  have hfield : bits / 2 ^ 52 % 2 ^ 11 = bits % 2 ^ 63 / 2 ^ 52 := by omega
  have hfraction : bits % 2 ^ 52 = bits % 2 ^ 63 % 2 ^ 52 := by omega
  simp only [ofBits, Nat.pow_eq, beq_sign_of_lt hbits, hfield, hfraction] at h
  unfold Magnitude.ofPosition
  split at h
  · split at h <;> cases h
  · split at h <;> cases h
    · next hz => exact ⟨rfl, (if_pos hz).symm⟩
    · next hz => exact ⟨rfl, (if_neg hz).symm⟩

theorem ofBits_eq_infinite {negative : Bool} (h : ofBits bits = .infinite negative)
    (hbits : bits < 2 ^ 64) :
    negative = decide (2 ^ 63 ≤ bits) ∧ bits % 2 ^ 63 = 2047 * 2 ^ 52 := by
  simp only [ofBits, Nat.pow_eq, beq_sign_of_lt hbits] at h
  split at h
  · next hfield =>
    split at h <;> cases h
    exact ⟨rfl, by omega⟩
  · split at h <;> cases h

theorem ofBits_eq_nan (h : ofBits bits = .nan) :
    bits / 2 ^ 52 % 2 ^ 11 = 2047 ∧ bits % 2 ^ 52 ≠ 0 := by
  simp only [ofBits, Nat.pow_eq] at h
  split at h
  · next hfield =>
    split at h
    · cases h
    · next hfraction => exact ⟨hfield, hfraction⟩
  · split at h <;> cases h

end Number

section Bits

open Float.Model.UnpackedFloat (packedNaN unpackExponent unpackMantissa)

theorem toBits_lt (x : Float) : x.toBits.toNat < 2 ^ 64 :=
  x.toBits.toNat_lt

theorem eq_of_toBits {x y : Float} (h : x.toBits = y.toBits) : x = y := by
  obtain ⟨⟨a, ha⟩⟩ := x
  obtain ⟨⟨b, hb⟩⟩ := y
  have hab : a = b := h
  subst hab
  rfl

/-- What is no number has one form only. -/
theorem toBitVec_of_nan {x : Float} (h : Number.ofFloat x = .nan) :
    x.toBits.toBitVec = packedNaN .binary64 := by
  obtain ⟨hfield, hfraction⟩ := Number.ofBits_eq_nan h
  have hvalid : Float.Model.Format.binary64.Valid x.toBits.toBitVec := x.toModel.valid
  refine hvalid.eq_packedNaN ?_ ?_
  · apply BitVec.eq_of_toNat_eq
    simpa [unpackExponent, BitVec.extractLsb, Nat.shiftRight_eq_div_pow] using hfield
  · intro hzero
    have hnat := congrArg BitVec.toNat hzero
    simp [unpackMantissa, BitVec.extractLsb] at hnat
    exact hfraction hnat

theorem Number.ofFloat_injective : Function.Injective Number.ofFloat := by
  intro x y h
  apply eq_of_toBits
  have hx := toBits_lt x
  have hy := toBits_lt y
  cases hn : Number.ofFloat x with
  | nan =>
    exact UInt64.toBitVec_inj.mp ((toBitVec_of_nan hn).trans (toBitVec_of_nan (h ▸ hn)).symm)
  | infinite negative =>
    obtain ⟨hsx, hbx⟩ := Number.ofBits_eq_infinite hn hx
    obtain ⟨hsy, hby⟩ := Number.ofBits_eq_infinite (h ▸ hn) hy
    apply UInt64.toNat_inj.mp
    simp only [hsx, decide_eq_decide] at hsy
    omega
  | finite negative m =>
    obtain ⟨hsx, hbx⟩ := Number.ofBits_eq_finite hn hx
    obtain ⟨hsy, hby⟩ := Number.ofBits_eq_finite (h ▸ hn) hy
    have hb := Magnitude.ofPosition_injective (hbx.symm.trans hby)
    apply UInt64.toNat_inj.mp
    simp only [hsx, decide_eq_decide] at hsy
    omega

end Bits

end TableQuery.Decimal
