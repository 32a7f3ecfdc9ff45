import Mathlib.Algebra.Order.Field.Basic
import Mathlib.Algebra.Order.Field.Power
import Mathlib.Data.Rat.Cast.Order
import Mathlib.Tactic.FieldSimp
import Mathlib.Tactic.Linarith
import Mathlib.Tactic.Positivity
import Mathlib.Tactic.Ring
import TableQuery.Decimal.Rounded

/-!
# The rational numbers behind decimals

Writers of doubles work on numerators and denominators. Here these are read as rational numbers,
so that what the writers compute can be compared.

## Main definitions

* `Decimal.Magnitude.value`, `Decimal.Scientific.value` — the number that is meant.

## Main results

* `Decimal.leadingExponent_le`, `Decimal.lt_leadingExponent` — the exponent of the first digit.
* `Decimal.roundDiv_le`, `Decimal.le_roundDiv` — a rounded quotient stays between whole bounds.
-/

namespace TableQuery.Decimal

def Magnitude.value (x : Magnitude) : ℚ :=
  x.mantissa * 2 ^ x.exponent

def Scientific.value (s : Scientific) : ℚ :=
  s.significand * 10 ^ (s.exponent + 1 - digitCount s.significand)

/-- A power is the quotient of two powers with natural exponents, one of which is one. -/
theorem zpow_eq_div (b : ℚ) (e : ℤ) : b ^ e = b ^ e.toNat / b ^ (-e).toNat := by
  rcases le_total 0 e with he | he
  · have hz : (-e).toNat = 0 := by omega
    rw [hz, pow_zero, div_one, ← zpow_natCast, Int.toNat_of_nonneg he]
  · have hz : e.toNat = 0 := by omega
    rw [hz, pow_zero, ← zpow_natCast, Int.toNat_of_nonneg (by omega), zpow_neg, one_div, inv_inv]

namespace Magnitude

theorem denominator_pos (x : Magnitude) : 0 < x.denominator :=
  Nat.two_pow_pos _

theorem numerator_div_denominator (x : Magnitude) :
    (x.numerator : ℚ) / x.denominator = x.value := by
  simp only [numerator, denominator, value, Nat.pow_eq]
  rw [zpow_eq_div 2]
  push_cast
  ring

theorem numerator_pos {x : Magnitude} (h : x.isZero = false) : 0 < x.numerator := by
  have hm : x.mantissa ≠ 0 := by simpa [isZero] using h
  exact Nat.mul_pos (Nat.pos_of_ne_zero hm) (Nat.two_pow_pos _)

end Magnitude

theorem scale_div (num den : Nat) (e : ℤ) :
    ((scale num den e).1 : ℚ) / (scale num den e).2 = num / den * 10 ^ e := by
  simp only [scale, Nat.pow_eq]
  rw [zpow_eq_div 10]
  push_cast
  ring

theorem scale_snd_pos {den : Nat} (num : Nat) (e : ℤ) (hd : 0 < den) : 0 < (scale num den e).2 :=
  Nat.mul_pos hd (Nat.pow_pos (by norm_num))

/-! ## The number of digits -/

theorem digitCount_pos (n : Nat) : 0 < digitCount n :=
  Nat.length_toDigits_pos

theorem lt_pow_digitCount (n : Nat) : n < 10 ^ digitCount n := by
  have h := (Nat.length_toDigits_le_iff (b := 10) (n := n) (k := digitCount n) (by norm_num)
    (digitCount_pos n)).mp le_rfl
  exact h

theorem digitCount_le_iff {n k : Nat} (hk : 0 < k) : digitCount n ≤ k ↔ n < 10 ^ k :=
  Nat.length_toDigits_le_iff (by norm_num) hk

theorem pow_digitCount_le {n : Nat} (hn : 0 < n) : 10 ^ (digitCount n - 1) ≤ n := by
  by_contra! h
  rcases Nat.eq_zero_or_pos (digitCount n - 1) with h0 | hpos
  · rw [h0, pow_zero] at h
    omega
  · have hle := (digitCount_le_iff hpos).mpr h
    have := digitCount_pos n
    omega

theorem digitCount_eq_of_bounds {n k : Nat} (hk : 0 < k) (hlo : 10 ^ (k - 1) ≤ n)
    (hhi : n < 10 ^ k) : digitCount n = k := by
  have hle := (digitCount_le_iff hk).mpr hhi
  by_contra hne
  have hlt : digitCount n ≤ k - 1 := by omega
  have hpos : 0 < k - 1 := lt_of_lt_of_le (digitCount_pos n) hlt
  have := (digitCount_le_iff hpos).mp hlt
  omega

/-! ## The exponent of the first digit -/

section Leading

variable {num den : Nat}

theorem div_bounds (hd : 0 < den) (hle : den ≤ num) :
    (10 : ℚ) ^ (digitCount (num / den) - 1) ≤ num / den ∧
      (num / den : ℚ) < 10 ^ digitCount (num / den) := by
  have hd' : (0 : ℚ) < den := by exact_mod_cast hd
  have hq : 0 < num / den := Nat.div_pos hle hd
  constructor
  · rw [le_div_iff₀ hd']
    have h := (Nat.le_div_iff_mul_le hd).mp (pow_digitCount_le hq)
    exact_mod_cast h
  · rw [div_lt_iff₀ hd']
    have h := (Nat.div_lt_iff_lt_mul hd).mp (lt_pow_digitCount (num / den))
    exact_mod_cast h

/-- The first digit of a positive ratio has the exponent that was computed. -/
theorem leadingExponent_bounds (hn : 0 < num) (hd : 0 < den) :
    (10 : ℚ) ^ leadingExponent num den ≤ num / den ∧
      (num / den : ℚ) < 10 ^ (leadingExponent num den + 1) := by
  have hn' : (0 : ℚ) < num := by exact_mod_cast hn
  have hd' : (0 : ℚ) < den := by exact_mod_cast hd
  unfold leadingExponent
  split
  · next hle =>
    have h := div_bounds hd hle
    have hpos := digitCount_pos (num / den)
    rw [sub_add_cancel, zpow_natCast]
    refine ⟨?_, h.2⟩
    rw [show ((digitCount (num / den) : ℤ) - 1) = ((digitCount (num / den) - 1 : ℕ) : ℤ) by omega,
      zpow_natCast]
    exact h.1
  · next hlt =>
    -- The inverse ratio is at least one, and its bounds turn around.
    have h := div_bounds hn (le_of_not_ge hlt)
    have hpos := digitCount_pos (den / num)
    obtain ⟨j, hj⟩ : ∃ j, digitCount (den / num) = j + 1 := ⟨_, (Nat.succ_pred_eq_of_pos hpos).symm⟩
    simp only [hj, Nat.add_sub_cancel] at h ⊢
    rw [le_div_iff₀ hn', div_lt_iff₀ hn'] at h
    split
    · next hbound =>
      have hbound' : (den : ℚ) ≤ num * 10 ^ j := by exact_mod_cast hbound
      have heq : (-(((j + 1 : ℕ) : ℤ) - 1)) = -(j : ℤ) := by omega
      rw [heq, zpow_neg, zpow_natCast, zpow_add₀ (by norm_num), zpow_neg, zpow_natCast, zpow_one]
      refine ⟨?_, ?_⟩
      · rw [le_div_iff₀ hd', inv_mul_le_iff₀ (by positivity)]
        linarith
      · rw [div_lt_iff₀ hd', mul_assoc, lt_inv_mul_iff₀ (by positivity)]
        linarith [h.1]
    · next hbound =>
      have hbound' : (num : ℚ) * 10 ^ j < den := by exact_mod_cast not_le.mp hbound
      have heq : (-((j + 1 : ℕ) : ℤ) + 1) = -(j : ℤ) := by omega
      rw [heq, zpow_neg, zpow_natCast, zpow_neg, zpow_natCast]
      refine ⟨?_, ?_⟩
      · rw [le_div_iff₀ hd', inv_mul_le_iff₀ (by positivity)]
        linarith [h.2]
      · rw [div_lt_iff₀ hd', lt_inv_mul_iff₀ (by positivity)]
        linarith

end Leading

/-! ## Rounded quotients -/

theorem le_roundDiv {num den b : Nat} (hd : 0 < den) (h : (b : ℚ) ≤ num / den) :
    b ≤ roundDiv num den := by
  have hd' : (0 : ℚ) < den := by exact_mod_cast hd
  have hb : b ≤ num / den := by
    rw [Nat.le_div_iff_mul_le hd]
    rw [le_div_iff₀ hd'] at h
    exact_mod_cast h
  unfold roundDiv
  grind

theorem roundDiv_le {num den b : Nat} (hd : 0 < den) (h : (num / den : ℚ) ≤ b) :
    roundDiv num den ≤ b := by
  have hd' : (0 : ℚ) < den := by exact_mod_cast hd
  have hb : num ≤ b * den := by
    rw [div_le_iff₀ hd'] at h
    exact_mod_cast h
  have hbounds := (roundDiv_bounds num den hd).2
  by_contra! hlt
  have hmul : (b + 1) * den ≤ roundDiv num den * den := Nat.mul_le_mul_right _ hlt
  rw [Nat.add_mul, Nat.one_mul] at hmul
  rw [Nat.mul_assoc] at hbounds
  omega

/-- A rounded quotient is off by at most a half. -/
theorem abs_roundDiv_sub_le (num : Nat) {den : Nat} (hd : 0 < den) :
    |(roundDiv num den : ℚ) - num / den| ≤ 1 / 2 := by
  have hd' : (0 : ℚ) < den := by exact_mod_cast hd
  obtain ⟨hlo, hhi⟩ := roundDiv_bounds num den hd
  have hlo' : (2 * num : ℚ) ≤ (2 * roundDiv num den + 1) * den := by exact_mod_cast hlo
  have hhi' : (2 * roundDiv num den * den : ℚ) ≤ 2 * num + den := by exact_mod_cast hhi
  rw [abs_le]
  constructor
  · rw [neg_le_sub_iff_le_add, div_le_iff₀ hd']
    linarith
  · rw [sub_le_iff_le_add, ← sub_le_iff_le_add', le_div_iff₀ hd']
    linarith

end TableQuery.Decimal
