import TableQuery.Decimal.Shortest
import TableQuery.Proofs.Decimal.Ratio

/-!
# The shortest decimal reads back

The digits that are written for a magnitude stay within the interval of the numbers that round
to it, whether a grid was hit or the last resort of eighteen digits was taken.

## Main definitions

* `Decimal.Interval.Contains` — a rational number lies in an interval.

## Main results

* `Decimal.Magnitude.contains_toShortest` — the shortest digits lie in the interval.
* `Decimal.Magnitude.significand_toShortest_lt` — they are at most eighteen.
-/

namespace TableQuery.Decimal

def Interval.Contains (i : Interval) (v : ℚ) : Prop :=
  if i.closed then (i.low / i.den : ℚ) ≤ v ∧ v ≤ i.high / i.den
  else (i.low / i.den : ℚ) < v ∧ v < i.high / i.den

theorem Interval.holds_iff {i : Interval} {num den : Nat} (hi : 0 < i.den) (hd : 0 < den) :
    i.holds num den = true ↔ i.Contains (num / den) := by
  have hi' : (0 : ℚ) < i.den := by exact_mod_cast hi
  have hd' : (0 : ℚ) < den := by exact_mod_cast hd
  unfold holds Contains
  split <;>
    simp only [div_le_div_iff₀ hi' hd', div_le_div_iff₀ hd' hi', div_lt_div_iff₀ hi' hd',
      div_lt_div_iff₀ hd' hi', Bool.and_eq_true, decide_eq_true_eq] <;>
    norm_cast

/-- The number that digits mean does not depend on how a carry into a further digit is
written. -/
theorem Scientific.value_of_digits {n count : Nat} (k : ℤ) (hc : 1 ≤ count)
    (hlo : 10 ^ (count - 1) ≤ n) (hhi : n ≤ 10 ^ count) :
    (if n = 10 ^ count then Scientific.mk (10 ^ (count - 1)) (k + 1)
      else Scientific.mk n k).value = n * 10 ^ (k + 1 - count) := by
  have h10 : (10 : ℚ) ≠ 0 := by norm_num
  split
  · next hn =>
    have hlt : 10 ^ (count - 1) < 10 ^ count := Nat.pow_lt_pow_right (by norm_num) (by omega)
    have hdigits : digitCount (10 ^ (count - 1)) = count :=
      digitCount_eq_of_bounds (by omega) le_rfl hlt
    unfold value
    rw [hdigits, hn]
    push_cast
    rw [← zpow_natCast, ← zpow_natCast, ← zpow_add₀ h10, ← zpow_add₀ h10]
    congr 1
    omega
  · next hn =>
    have hdigits : digitCount n = count := digitCount_eq_of_bounds (by omega) hlo (by omega)
    unfold value
    rw [hdigits]

namespace Magnitude

variable {x : Magnitude}

theorem interval_den_pos (x : Magnitude) : 0 < x.interval.den :=
  Nat.two_pow_pos _

/-- The unit of the last place. -/
def unit (x : Magnitude) : ℚ := 2 ^ x.exponent

theorem unit_pos (x : Magnitude) : 0 < x.unit := by
  unfold unit
  positivity

theorem interval_high (x : Magnitude) :
    (x.interval.high / x.interval.den : ℚ) = x.value + x.unit / 2 := by
  have h := numerator_div_denominator ⟨1, x.exponent - 2⟩
  simp only [value, Nat.cast_one, one_mul, zpow_sub₀ (two_ne_zero : (2 : ℚ) ≠ 0)] at h
  simp only [interval, Nat.cast_mul, mul_div_assoc, h, value, unit]
  push_cast
  ring

theorem interval_low (hx : x.isZero = false) :
    (x.interval.low / x.interval.den : ℚ) = x.value -
      (if x.mantissa = 2 ^ 52 ∧ x.exponent > -1074 then x.unit / 4 else x.unit / 2) := by
  have hm : 1 ≤ x.mantissa := Nat.pos_of_ne_zero (by simpa [isZero] using hx)
  have h := numerator_div_denominator ⟨1, x.exponent - 2⟩
  simp only [value, Nat.cast_one, one_mul, zpow_sub₀ (two_ne_zero : (2 : ℚ) ≠ 0)] at h
  simp only [interval, Nat.cast_mul, mul_div_assoc, h, value, unit, Bool.and_eq_true,
    decide_eq_true_eq, Nat.pow_eq]
  split
  · rw [Nat.cast_sub (by omega)]
    push_cast
    ring
  · rw [Nat.cast_sub (by omega)]
    push_cast
    ring

/-- What is nearer than a quarter of a unit rounds to the magnitude. -/
theorem contains_of_abs_lt (hx : x.isZero = false) {v : ℚ} (h : |v - x.value| < x.unit / 4) :
    x.interval.Contains v := by
  have hu := x.unit_pos
  obtain ⟨hlo, hhi⟩ := abs_lt.mp h
  have hlow : (x.interval.low / x.interval.den : ℚ) < v := by
    rw [interval_low hx]
    split <;> linarith
  have hhigh : v < (x.interval.high / x.interval.den : ℚ) := by
    rw [interval_high]
    linarith
  unfold Interval.Contains
  split
  · exact ⟨hlow.le, hhigh.le⟩
  · exact ⟨hlow, hhigh⟩

section Grid

variable {k : ℤ} {count : Nat}

/-- The scaled magnitude of which a grid takes the whole part has `count` digits before the
point. -/
theorem scaled_bounds (hlo : (10 : ℚ) ^ k ≤ x.value) (hhi : x.value < 10 ^ (k + 1))
    (hc : 1 ≤ count) :
    (10 : ℚ) ^ (count - 1) ≤ x.value * 10 ^ ((count : ℤ) - 1 - k) ∧
      x.value * 10 ^ ((count : ℤ) - 1 - k) < (10 : ℚ) ^ count := by
  have hp : (0 : ℚ) < 10 ^ ((count : ℤ) - 1 - k) := by positivity
  have hl := mul_le_mul_of_nonneg_right hlo hp.le
  have hh := mul_lt_mul_of_pos_right hhi hp
  rw [← zpow_add₀ (by norm_num)] at hl hh
  rw [show k + ((count : ℤ) - 1 - k) = ((count - 1 : ℕ) : ℤ) by omega, zpow_natCast] at hl
  rw [show k + 1 + ((count : ℤ) - 1 - k) = (count : ℤ) by omega, zpow_natCast] at hh
  exact ⟨hl, hh⟩

/-- A magnitude with a leading exponent, scaled so that `count` digits stand before the point. -/
theorem scale_bounds (hlo : (10 : ℚ) ^ k ≤ x.value) (hhi : x.value < 10 ^ (k + 1))
    (hc : 1 ≤ count) {p : Nat × Nat}
    (hp : scale x.numerator x.denominator ((count : ℤ) - 1 - k) = p) :
    0 < p.2 ∧ (p.1 : ℚ) / p.2 = x.value * 10 ^ ((count : ℤ) - 1 - k) ∧
      (10 : ℚ) ^ (count - 1) ≤ p.1 / p.2 ∧ (p.1 : ℚ) / p.2 < 10 ^ count := by
  have hd := scale_snd_pos x.numerator ((count : ℤ) - 1 - k) x.denominator_pos
  have hratio := scale_div x.numerator x.denominator ((count : ℤ) - 1 - k)
  rw [numerator_div_denominator, hp] at hratio
  rw [hp] at hd
  obtain ⟨hl, hh⟩ := scaled_bounds hlo hhi hc
  rw [← hratio] at hl hh
  exact ⟨hd, hratio, hl, hh⟩

/-- Digits that a grid offers round to the magnitude. -/
theorem contains_onGrid? {s : Scientific} (hlo : (10 : ℚ) ^ k ≤ x.value)
    (hhi : x.value < 10 ^ (k + 1)) (hc : 1 ≤ count) (h : x.onGrid? k count = some s) :
    x.interval.Contains s.value := by
  simp only [onGrid?] at h
  generalize hp : scale x.numerator x.denominator ((count : ℤ) - 1 - k) = p at h
  obtain ⟨hd, -, hl, hh⟩ := scale_bounds hlo hhi hc hp
  have hd' : (0 : ℚ) < p.2 := by exact_mod_cast hd
  rw [le_div_iff₀ hd'] at hl
  rw [div_lt_iff₀ hd'] at hh
  -- Both candidates have `count` digits, or are the least number with one more.
  have hlower := (Nat.le_div_iff_mul_le hd).mpr (by exact_mod_cast hl)
  have hupper := (Nat.div_lt_iff_lt_mul hd).mpr (by exact_mod_cast hh)
  have hcontains : ∀ n : Nat, 10 ^ (count - 1) ≤ n → n ≤ 10 ^ count →
      x.interval.holds (scale n 1 (-((count : ℤ) - 1 - k))).1
        (scale n 1 (-((count : ℤ) - 1 - k))).2 = true →
      x.interval.Contains (if n = 10 ^ count then Scientific.mk (10 ^ (count - 1)) (k + 1)
        else Scientific.mk n k).value := by
    intro n hn hn' hreads
    rw [Interval.holds_iff x.interval_den_pos (scale_snd_pos _ _ Nat.one_pos), scale_div] at hreads
    rw [Nat.cast_one, div_one, show -((count : ℤ) - 1 - k) = k + 1 - count by ring] at hreads
    rw [Scientific.value_of_digits k hc hn hn']
    exact hreads
  split at h
  · next hreads _ =>
    split at h <;> cases h
    · exact hcontains _ hlower hupper.le hreads
    · exact hcontains _ (by omega) hupper (by assumption)
  · next hreads _ =>
    cases h
    exact hcontains _ hlower hupper.le hreads
  · next hreads =>
    cases h
    exact hcontains _ (by omega) hupper hreads
  · cases h

/-- A number of digits so large that half a unit of the last of them is less than a quarter of
the unit of a double reads back. -/
theorem contains_toSignificant (hx : x.isZero = false) (hm : x.mantissa < 2 ^ 53)
    (hc : 18 ≤ count) : x.interval.Contains (x.toSignificant count).value := by
  have hn := numerator_pos hx
  obtain ⟨hlo, hhi⟩ := leadingExponent_bounds hn x.denominator_pos
  simp only [toSignificant, hx, Bool.false_eq_true, if_false, Nat.pow_eq]
  generalize leadingExponent x.numerator x.denominator = k at hlo hhi ⊢
  rw [numerator_div_denominator] at hlo hhi
  generalize hscale : scale x.numerator x.denominator ((count : ℤ) - 1 - k) = p
  obtain ⟨hd, hratio, hl, hh⟩ := scale_bounds hlo hhi (by omega : 1 ≤ count) hscale
  have hclose := abs_roundDiv_sub_le p.1 hd
  rw [hratio] at hclose
  have hge := le_roundDiv (b := 10 ^ (count - 1)) hd (by exact_mod_cast hl)
  have hle := roundDiv_le (b := 10 ^ count) hd (by exact_mod_cast hh.le)
  rw [Scientific.value_of_digits k (by omega) hge hle]
  apply contains_of_abs_lt hx
  generalize roundDiv p.1 p.2 = n at hclose
  have hunscale : (10 : ℚ) ^ ((count : ℤ) - 1 - k) * 10 ^ (k + 1 - (count : ℤ)) = 1 := by
    rw [← zpow_add₀ (by norm_num), show (count : ℤ) - 1 - k + (k + 1 - count) = 0 by ring,
      zpow_zero]
  have hp : (0 : ℚ) < 10 ^ (k + 1 - (count : ℤ)) := by positivity
  have herror : (n : ℚ) * 10 ^ (k + 1 - (count : ℤ)) - x.value =
      (n - x.value * 10 ^ ((count : ℤ) - 1 - k)) * 10 ^ (k + 1 - (count : ℤ)) := by
    rw [sub_mul, mul_assoc x.value, hunscale, mul_one]
  -- The leading power of ten is below `2 ^ 53` units.
  have hunit : (10 : ℚ) ^ k < 2 ^ 53 * x.unit := by
    refine lt_of_le_of_lt hlo ?_
    exact mul_lt_mul_of_pos_right (by exact_mod_cast hm) x.unit_pos
  have hplaces : (10 : ℚ) ^ (k + 1 - (count : ℤ)) ≤ 10 ^ k / 10 ^ 17 := by
    rw [← zpow_natCast, ← zpow_sub₀ (by norm_num)]
    apply zpow_le_zpow_right₀ (by norm_num)
    push_cast
    omega
  calc |(n : ℚ) * 10 ^ (k + 1 - (count : ℤ)) - x.value|
      = |(n : ℚ) - x.value * 10 ^ ((count : ℤ) - 1 - k)| * 10 ^ (k + 1 - (count : ℤ)) := by
        rw [herror, abs_mul, abs_of_pos hp]
    _ ≤ 1 / 2 * (10 ^ k / 10 ^ 17) := mul_le_mul hclose hplaces hp.le (by norm_num)
    _ < x.unit / 4 := by
        have hu := x.unit_pos
        norm_num at hunit ⊢
        linarith

/-- Whatever grid is hit first, its digits round to the magnitude. -/
theorem contains_firstGrid (hx : x.isZero = false) (hm : x.mantissa < 2 ^ 53) (fuel : Nat)
    (hc : 1 ≤ count) (hend : 18 ≤ count + fuel) :
    x.interval.Contains (x.firstGrid (leadingExponent x.numerator x.denominator) count
      fuel).value := by
  have hbounds := leadingExponent_bounds (numerator_pos hx) x.denominator_pos
  rw [numerator_div_denominator] at hbounds
  induction fuel generalizing count with
  | zero => exact contains_toSignificant hx hm (by omega)
  | succ fuel ih =>
    unfold firstGrid
    split
    · next s hs => exact contains_onGrid? hbounds.1 hbounds.2 hc hs
    · exact ih (by omega) (by omega)

end Grid

/-- A zero at the end is one digit that does not count. -/
theorem value_dropTrailingZeros {n : Nat} (hn : 0 < n) (k : ℤ) :
    (Scientific.mk (dropTrailingZeros n) k).value = (Scientific.mk n k).value := by
  fun_induction dropTrailingZeros n with
  | case2 => rfl
  | case1 n h ih =>
    obtain ⟨m, rfl⟩ : ∃ m, n = 10 * m := ⟨n / 10, by omega⟩
    have hm : 0 < m := by omega
    rw [show 10 * m / 10 = m by omega] at ih ⊢
    have hpos := digitCount_pos m
    have hlo := pow_digitCount_le hm
    have hhi := lt_pow_digitCount m
    have hdigits : digitCount (10 * m) = digitCount m + 1 := by
      apply digitCount_eq_of_bounds (by omega)
      · rw [show digitCount m + 1 - 1 = digitCount m - 1 + 1 by omega, pow_succ]
        omega
      · rw [pow_succ]
        omega
    rw [ih hm]
    unfold Scientific.value
    simp only [hdigits]
    rw [show k + 1 - (digitCount m : ℤ) = k + 1 - ((digitCount m + 1 : ℕ) : ℤ) + 1 by
      push_cast; ring, zpow_add₀ (by norm_num), zpow_one]
    push_cast
    ring

/-- Nothing but zero rounds to zero. -/
theorem pos_of_contains (hx : x.isZero = false) {v : ℚ} (h : x.interval.Contains v) : 0 < v := by
  have hm : 1 ≤ x.mantissa := Nat.pos_of_ne_zero (by simpa [isZero] using hx)
  have hu := x.unit_pos
  have hle : x.unit ≤ x.value := le_mul_of_one_le_left hu.le (by exact_mod_cast hm)
  have hlow : 0 < (x.interval.low / x.interval.den : ℚ) := by
    rw [interval_low hx]
    split <;> linarith
  unfold Interval.Contains at h
  split at h
  · exact hlow.trans_le h.1
  · exact hlow.trans h.1

theorem contains_toShortest (hx : x.isZero = false) (hm : x.mantissa < 2 ^ 53) :
    x.interval.Contains x.toShortest.value := by
  have h := contains_firstGrid hx hm 17 (le_refl 1) le_rfl
  simp only [toShortest, hx, Bool.false_eq_true, if_false]
  generalize x.firstGrid _ 1 17 = s at h
  have hs : 0 < s.significand := by
    refine Nat.pos_of_ne_zero fun h0 => ?_
    have hv := pos_of_contains hx h
    simp [Scientific.value, h0] at hv
  rw [value_dropTrailingZeros hs]
  exact h

theorem value_toShortest_of_isZero (hx : x.isZero = true) : x.toShortest.value = 0 := by
  simp [toShortest, hx, Scientific.value]

theorem significand_toShortest_pos (hx : x.isZero = false) (hm : x.mantissa < 2 ^ 53) :
    0 < x.toShortest.significand := by
  refine Nat.pos_of_ne_zero fun h0 => ?_
  have hv := pos_of_contains hx (contains_toShortest hx hm)
  simp [Scientific.value, h0] at hv

/-! ## The number of digits -/

theorem dropTrailingZeros_le (n : Nat) : dropTrailingZeros n ≤ n := by
  fun_induction dropTrailingZeros n with
  | case1 n h ih => omega
  | case2 => rfl

/-- A carry into a further digit leaves no more digits than there were to be. -/
theorem significand_carry_lt {n count : Nat} (k : ℤ) (hn : n ≤ 10 ^ count) (hc : 1 ≤ count) :
    (if n = 10 ^ count then Scientific.mk (10 ^ (count - 1)) (k + 1)
      else Scientific.mk n k).significand < 10 ^ count := by
  split
  · exact Nat.pow_lt_pow_right (by norm_num) (by omega)
  · dsimp only
    omega

section Grid

variable {k : ℤ} {count : Nat}

/-- A grid of `count` digits offers no more of them. -/
theorem significand_onGrid?_lt {s : Scientific} (hlo : (10 : ℚ) ^ k ≤ x.value)
    (hhi : x.value < 10 ^ (k + 1)) (hc : 1 ≤ count) (h : x.onGrid? k count = some s) :
    s.significand < 10 ^ count := by
  simp only [onGrid?, Nat.pow_eq] at h
  generalize hp : scale x.numerator x.denominator ((count : ℤ) - 1 - k) = p at h
  obtain ⟨hd, -, -, hh⟩ := scale_bounds hlo hhi hc hp
  rw [div_lt_iff₀ (by exact_mod_cast hd)] at hh
  have hupper : p.1 / p.2 < 10 ^ count :=
    (Nat.div_lt_iff_lt_mul hd).mpr (by exact_mod_cast hh)
  have hcarry := fun n hn => @significand_carry_lt n count k hn hc
  split at h
  · split at h <;> cases h
    · exact hcarry _ hupper.le
    · exact hcarry _ hupper
  · cases h
    exact hcarry _ hupper.le
  · cases h
    exact hcarry _ hupper
  · cases h

theorem significand_toSignificant_lt (hx : x.isZero = false) (hc : 1 ≤ count) :
    (x.toSignificant count).significand < 10 ^ count := by
  obtain ⟨hlo, hhi⟩ := leadingExponent_bounds (numerator_pos hx) x.denominator_pos
  simp only [toSignificant, hx, Bool.false_eq_true, if_false, Nat.pow_eq]
  generalize leadingExponent x.numerator x.denominator = k at hlo hhi ⊢
  rw [numerator_div_denominator] at hlo hhi
  obtain ⟨hd, -, -, hh⟩ := scale_bounds hlo hhi hc rfl
  exact significand_carry_lt k (roundDiv_le (b := 10 ^ count) hd (by exact_mod_cast hh.le)) hc

theorem significand_firstGrid_lt (hx : x.isZero = false) (fuel : Nat) (hc : 1 ≤ count)
    (hend : count + fuel ≤ 18) :
    (x.firstGrid (leadingExponent x.numerator x.denominator) count fuel).significand <
      10 ^ 18 := by
  have hbounds := leadingExponent_bounds (numerator_pos hx) x.denominator_pos
  rw [numerator_div_denominator] at hbounds
  have hmono {c : Nat} (h : c ≤ 18) : 10 ^ c ≤ 10 ^ 18 := Nat.pow_le_pow_right (by norm_num) h
  induction fuel generalizing count with
  | zero => exact (significand_toSignificant_lt hx hc).trans_le (hmono (by omega))
  | succ fuel ih =>
    unfold firstGrid
    split
    · next s hs =>
      exact (significand_onGrid?_lt hbounds.1 hbounds.2 hc hs).trans_le (hmono (by omega))
    · exact ih (by omega) (by omega)

end Grid

/-- The shortest digits are at most eighteen. -/
theorem significand_toShortest_lt (x : Magnitude) : x.toShortest.significand < 10 ^ 18 := by
  unfold toShortest
  split
  · norm_num
  · next hx =>
    refine (dropTrailingZeros_le _).trans_lt (significand_firstGrid_lt ?_ 17 (le_refl 1) le_rfl)
    simpa using hx

end Magnitude

/-- The exponent of the first digit bounds the number. -/
theorem Scientific.value_bounds {s : Scientific} (hs : 0 < s.significand) :
    (10 : ℚ) ^ s.exponent ≤ s.value ∧ s.value < 10 ^ (s.exponent + 1) := by
  have hpos := digitCount_pos s.significand
  have hlo : (10 : ℚ) ^ (digitCount s.significand - 1) ≤ s.significand := by
    exact_mod_cast pow_digitCount_le hs
  have hhi : (s.significand : ℚ) < 10 ^ digitCount s.significand := by
    exact_mod_cast lt_pow_digitCount s.significand
  have hp : (0 : ℚ) < 10 ^ (s.exponent + 1 - (digitCount s.significand : ℤ)) := by positivity
  constructor
  · calc (10 : ℚ) ^ s.exponent
        = 10 ^ (digitCount s.significand - 1) *
            10 ^ (s.exponent + 1 - (digitCount s.significand : ℤ)) := by
          rw [← zpow_natCast, ← zpow_add₀ (by norm_num)]
          congr 1
          omega
      _ ≤ s.value := mul_le_mul_of_nonneg_right hlo hp.le
  · calc s.value < 10 ^ digitCount s.significand *
            10 ^ (s.exponent + 1 - (digitCount s.significand : ℤ)) :=
          mul_lt_mul_of_pos_right hhi hp
      _ = 10 ^ (s.exponent + 1) := by
          rw [← zpow_natCast, ← zpow_add₀ (by norm_num)]
          congr 1
          omega

end TableQuery.Decimal
