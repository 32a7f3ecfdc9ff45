import Mathlib.Tactic.SplitIfs
import TableQuery.Decimal.Reader
import TableQuery.Proofs.Decimal.Neighbours

/-!
# The nearest double

A number is read as the double whose interval it lies in: the unit of the last place is chosen so
that the mantissa has 53 bits, as far as there are such units, and the multiple of the unit that is
nearest to the number is taken.

## Main definitions

* `Decimal.nearestEven` — the nearest whole number of a ratio, which is even where two are.
* `Decimal.Rounds` — a multiple of a unit is nearest to a number.
* `Decimal.unitExponent` — the exponent of the unit of the last place.

## Main results

* `Decimal.contains_position` — a rounded mantissa is that of the double nearest to the number.
* `Decimal.nearestBits_of_contains` — a number is rounded to the double whose interval it lies in.
* `Decimal.ofScientific_of_contains` — so are digits with an exponent.
-/

namespace TableQuery.Decimal

/-! ## The nearest whole number -/

/-- The nearest whole number of a ratio, the even one where two are nearest. -/
def nearestEven (num den : Nat) : Nat :=
  let q := num / den
  let r := num % den
  if 2 * r < den then q else if den < 2 * r then q + 1 else if q % 2 = 0 then q else q + 1

theorem nearestEven_bounds {num den : Nat} (hd : 0 < den) :
    2 * num ≤ (2 * nearestEven num den + 1) * den ∧
      2 * nearestEven num den * den ≤ 2 * num + den ∧
      (nearestEven num den % 2 ≠ 0 → 2 * num < (2 * nearestEven num den + 1) * den ∧
        2 * nearestEven num den * den < 2 * num + den) := by
  have hmod := Nat.mod_lt num hd
  have hdiv := Nat.div_add_mod num den
  unfold nearestEven
  generalize num % den = r at hmod hdiv ⊢
  generalize num / den = q at hdiv ⊢
  subst hdiv
  have hcomm : q * den = den * q := Nat.mul_comm q den
  dsimp only
  split_ifs <;> refine ⟨?_, ?_, fun hodd => ⟨?_, ?_⟩⟩ <;>
    first
    | (exfalso; omega)
    | (simp only [Nat.add_mul, Nat.mul_add, Nat.mul_assoc, Nat.one_mul, hcomm]; omega)

theorem le_nearestEven {num den b : Nat} (hd : 0 < den) (h : b * den ≤ num) :
    b ≤ nearestEven num den := by
  have hq := (Nat.le_div_iff_mul_le hd).mpr h
  unfold nearestEven
  dsimp only
  split_ifs <;> omega

theorem nearestEven_le {num den b : Nat} (hd : 0 < den) (h : num < b * den) :
    nearestEven num den ≤ b := by
  have hq := (Nat.div_lt_iff_lt_mul hd).mpr h
  unfold nearestEven
  dsimp only
  split_ifs <;> omega

namespace Magnitude

/-! ## The interval of a rounded number -/

variable {x : Magnitude} {m : Nat} {e : ℤ} {v : ℚ}

theorem ofPosition_of_lt (hm : m < 2 ^ 52) : ofPosition m = ⟨m, -1074⟩ := by
  have hdiv : m / 2 ^ 52 = 0 := by omega
  have hmod : m % 2 ^ 52 = m := by omega
  rw [ofPosition, if_pos hdiv, hmod]

theorem ofPosition_of_le (hm : 2 ^ 52 ≤ m) (hm' : m < 2 ^ 53) (he : -1074 ≤ e) :
    ofPosition ((e + 1074).toNat * 2 ^ 52 + m) = ⟨m, e⟩ := by
  have hdiv : ((e + 1074).toNat * 2 ^ 52 + m) / 2 ^ 52 = (e + 1074).toNat + 1 := by omega
  have hmod : ((e + 1074).toNat * 2 ^ 52 + m) % 2 ^ 52 = m - 2 ^ 52 := by omega
  rw [ofPosition, if_neg (by omega), hdiv, hmod, Magnitude.mk.injEq]
  omega

/-- How far the interval reaches below the magnitude. -/
def below (x : Magnitude) : ℚ :=
  if x.mantissa = 2 ^ 52 ∧ x.exponent > -1074 then x.unit / 4 else x.unit / 2

/-- A number lies in the interval if it is between the two ends, which count for an even
mantissa. -/
theorem contains_of_bounds (hx : x.isZero = false) (hlow : x.value - x.below ≤ v)
    (hhigh : v ≤ x.value + x.unit / 2)
    (hodd : x.mantissa % 2 ≠ 0 → x.value - x.below < v ∧ v < x.value + x.unit / 2) :
    x.interval.Contains v := by
  unfold Interval.Contains
  rw [interval_low hx, interval_high]
  split
  · exact ⟨hlow, hhigh⟩
  · next hclosed => exact hodd (by simpa [interval] using hclosed)

end Magnitude

/-- A multiple of a unit is nearest to a number, and even where another one is as near. -/
structure Rounds (v : ℚ) (e : ℤ) (m : Nat) : Prop where
  le_value : (m - 1 / 2) * 2 ^ e ≤ v
  value_le : v ≤ (m + 1 / 2) * 2 ^ e
  strict : m % 2 ≠ 0 → (m - 1 / 2) * 2 ^ e < v ∧ v < (m + 1 / 2) * 2 ^ e

theorem rounds_nearestEven {num den : Nat} (hd : 0 < den) (e : ℤ) :
    Rounds (num / den * 2 ^ e) e (nearestEven num den) := by
  have hu : (0 : ℚ) < 2 ^ e := by positivity
  have hd' : (0 : ℚ) < den := by exact_mod_cast hd
  obtain ⟨hup, hdown, hodd⟩ := @nearestEven_bounds num den hd
  generalize nearestEven num den = m at hup hdown hodd ⊢
  refine ⟨?_, ?_, fun hm => ?_⟩
  · have hdown' : (2 * m * den : ℚ) ≤ 2 * num + den := by exact_mod_cast hdown
    refine mul_le_mul_of_nonneg_right ?_ hu.le
    rw [le_div_iff₀ hd']
    linarith
  · have hup' : (2 * num : ℚ) ≤ (2 * m + 1) * den := by exact_mod_cast hup
    refine mul_le_mul_of_nonneg_right ?_ hu.le
    rw [div_le_iff₀ hd']
    linarith
  · obtain ⟨hup, hdown⟩ := hodd hm
    have hup' : (2 * num : ℚ) < (2 * m + 1) * den := by exact_mod_cast hup
    have hdown' : (2 * m * den : ℚ) < 2 * num + den := by exact_mod_cast hdown
    constructor <;> refine mul_lt_mul_of_pos_right ?_ hu
    · rw [lt_div_iff₀ hd']
      linarith
    · rw [div_lt_iff₀ hd']
      linarith

namespace Rounds

open Magnitude (below contains_of_bounds interval_high unit value)

variable {v : ℚ} {e : ℤ} {m : Nat}

theorem contains_zero (h : Rounds v e 0) (hv : 0 ≤ v) :
    (⟨0, e⟩ : Magnitude).interval.Contains v := by
  have hbegin : (⟨0, e⟩ : Magnitude).interval.low = 0 := by simp [Magnitude.interval]
  have hclosed : (⟨0, e⟩ : Magnitude).interval.closed = true := rfl
  have hhigh := h.value_le
  rw [Interval.Contains, if_pos hclosed, interval_high, hbegin, Nat.cast_zero, zero_div]
  simp only [value, unit]
  exact ⟨hv, by linarith⟩

theorem contains (h : Rounds v e m) (hm : m ≠ 0) (hleast : ¬ (m = 2 ^ 52 ∧ e > -1074)) :
    (⟨m, e⟩ : Magnitude).interval.Contains v := by
  have hlow := h.le_value
  have hhigh := h.value_le
  refine contains_of_bounds (by simpa [Magnitude.isZero] using hm) ?_ ?_ ?_ <;>
    simp only [below, value, unit, if_neg hleast]
  · linarith
  · linarith
  · intro hodd
    obtain ⟨hlow, hhigh⟩ := h.strict hodd
    exact ⟨by linarith, by linarith⟩

/-- The interval of the least mantissa reaches only half as far below, which does not matter if the
number is not below it. -/
theorem contains_least (h : Rounds v e (2 ^ 52)) (he : e > -1074) (hv : 2 ^ 52 * 2 ^ e ≤ v) :
    (⟨2 ^ 52, e⟩ : Magnitude).interval.Contains v := by
  have hhigh := h.value_le
  have hunit : (0 : ℚ) < 2 ^ e := by positivity
  push_cast at hhigh
  refine contains_of_bounds rfl ?_ ?_ (fun hodd => absurd (by norm_num) hodd) <;>
    simp only [below, value, unit, if_pos (⟨trivial, he⟩ : True ∧ e > -1074)] <;>
    push_cast <;> linarith

/-- The carry leads to the least mantissa of the next unit. -/
theorem contains_carry (h : Rounds v e (2 ^ 53)) (he : -1074 ≤ e) (hv : v < 2 ^ 53 * 2 ^ e) :
    (⟨2 ^ 52, e + 1⟩ : Magnitude).interval.Contains v := by
  have hlow := h.le_value
  have hunit : (2 : ℚ) ^ (e + 1) = 2 * 2 ^ e := by
    rw [zpow_add_one₀ (by norm_num)]
    ring
  have hpos : (0 : ℚ) < 2 ^ e := by positivity
  push_cast at hlow
  refine contains_of_bounds rfl ?_ ?_ (fun hodd => absurd (by norm_num) hodd) <;>
    simp only [below, value, unit, hunit, if_pos (⟨trivial, by omega⟩ : True ∧ e + 1 > -1074)] <;>
    push_cast <;> linarith

end Rounds

open Magnitude (ofPosition)

/-- The bits of a mantissa and the exponent of its unit. A mantissa of 54 bits, which rounding leads
to, is the least of the next unit. -/
def position (m : Nat) (e : ℤ) : Nat :=
  if m < 2 ^ 52 then m else (e + 1074).toNat * 2 ^ 52 + m

/-- A mantissa that is nearest to a number in its unit is that of the double nearest to the
number. -/
theorem contains_position {num den : Nat} {e : ℤ} {v : ℚ} (hd : 0 < den) (he : -1074 ≤ e)
    (hv : v = num / den * 2 ^ e) (hhi : num < 2 ^ 53 * den)
    (hlo : 2 ^ 52 * den ≤ num ∨ e = -1074) :
    (ofPosition (position (nearestEven num den) e)).interval.Contains v := by
  have hu : (0 : ℚ) < 2 ^ e := by positivity
  have hd' : (0 : ℚ) < den := by exact_mod_cast hd
  have hrounds : Rounds v e (nearestEven num den) := hv ▸ rounds_nearestEven hd e
  have hle := nearestEven_le hd hhi
  have hge : ∀ b : Nat, b * den ≤ num → b ≤ nearestEven num den := fun b => le_nearestEven hd
  generalize nearestEven num den = m at hrounds hle hge ⊢
  by_cases hsmall : m < 2 ^ 52
  · obtain rfl : e = -1074 := hlo.resolve_left fun h => absurd (hge _ h) (by omega)
    rw [position, if_pos hsmall, Magnitude.ofPosition_of_lt hsmall]
    by_cases hm : m = 0
    · subst hm
      exact hrounds.contains_zero (hv ▸ by positivity)
    · exact hrounds.contains hm (by omega)
  · rw [position, if_neg hsmall]
    rcases Nat.lt_or_eq_of_le hle with hlt | rfl
    · rw [Magnitude.ofPosition_of_le (by omega) hlt he]
      by_cases hleast : m = 2 ^ 52 ∧ e > -1074
      · obtain ⟨rfl, he'⟩ := hleast
        have hnum : (2 : ℚ) ^ 52 * den ≤ num := by exact_mod_cast hlo.resolve_right he'.ne'
        refine hrounds.contains_least he' ?_
        rw [hv]
        exact mul_le_mul_of_nonneg_right ((le_div_iff₀ hd').mpr hnum) hu.le
      · exact hrounds.contains (by omega) hleast
    · have hcarry : (e + 1074).toNat * 2 ^ 52 + 2 ^ 53 =
          (e + 1 + 1074).toNat * 2 ^ 52 + 2 ^ 52 := by
        omega
      rw [hcarry, Magnitude.ofPosition_of_le le_rfl (by norm_num) (by omega)]
      have hnum : (num : ℚ) < 2 ^ 53 * den := by exact_mod_cast hhi
      refine hrounds.contains_carry he ?_
      rw [hv]
      exact mul_lt_mul_of_pos_right ((div_lt_iff₀ hd').mpr hnum) hu

/-! ## The unit of the last place -/

/-- The exponent of the unit in which a number has a mantissa of 53 bits, or the least one. -/
def unitExponent (num den : Nat) : ℤ :=
  let guess : ℤ := (Nat.log2 num : ℤ) - Nat.log2 den - 53
  let start := max guess (-1074)
  if num * 2 ^ (-start).toNat / (den * 2 ^ start.toNat) < 2 ^ 53 then start else start + 1

/-- A number in units, as a ratio. -/
theorem unscaled_div (num den : Nat) (e : ℤ) :
    ((num * 2 ^ (-e).toNat : ℕ) : ℚ) / (den * 2 ^ e.toNat : ℕ) * 2 ^ e = num / den := by
  rw [zpow_eq_div 2 e]
  push_cast
  have hp : (2 : ℚ) ^ (-e).toNat ≠ 0 := by positivity
  have hq : (2 : ℚ) ^ e.toNat ≠ 0 := by positivity
  field_simp

theorem unscaled_lt_iff {num den : Nat} (hd : 0 < den) (e : ℤ) (b : Nat) :
    num * 2 ^ (-e).toNat < b * (den * 2 ^ e.toNat) ↔ (num / den : ℚ) < b * 2 ^ e := by
  have hu : (0 : ℚ) < 2 ^ e := by positivity
  have hpos : (0 : ℚ) < (den * 2 ^ e.toNat : ℕ) := by positivity
  rw [← unscaled_div num den e, mul_lt_mul_iff_left₀ hu, div_lt_iff₀ hpos]
  norm_cast

/-- The logarithms of the two numbers bound their ratio. -/
theorem ratio_bounds {num den : Nat} (hn : 0 < num) (hd : 0 < den) :
    (2 : ℚ) ^ ((Nat.log2 num : ℤ) - Nat.log2 den - 1) ≤ num / den ∧
      (num / den : ℚ) < 2 ^ ((Nat.log2 num : ℤ) - Nat.log2 den + 1) := by
  have hd' : (0 : ℚ) < den := by exact_mod_cast hd
  have hnum : (2 : ℚ) ^ (Nat.log2 num : ℤ) ≤ num := by
    exact_mod_cast Nat.log2_self_le hn.ne'
  have hnum' : (num : ℚ) < 2 ^ ((Nat.log2 num : ℤ) + 1) := by
    exact_mod_cast Nat.lt_log2_self
  have hden : (2 : ℚ) ^ (Nat.log2 den : ℤ) ≤ den := by
    exact_mod_cast Nat.log2_self_le hd.ne'
  have hden' : (den : ℚ) < 2 ^ ((Nat.log2 den : ℤ) + 1) := by
    exact_mod_cast Nat.lt_log2_self
  constructor
  · rw [le_div_iff₀ hd']
    calc (2 : ℚ) ^ ((Nat.log2 num : ℤ) - Nat.log2 den - 1) * den
        ≤ 2 ^ ((Nat.log2 num : ℤ) - Nat.log2 den - 1) * 2 ^ ((Nat.log2 den : ℤ) + 1) := by gcongr
      _ = 2 ^ (Nat.log2 num : ℤ) := by
        rw [← zpow_add₀ (by norm_num)]
        congr 1
        omega
      _ ≤ num := hnum
  · rw [div_lt_iff₀ hd']
    calc (num : ℚ) < 2 ^ ((Nat.log2 num : ℤ) + 1) := hnum'
      _ = 2 ^ ((Nat.log2 num : ℤ) - Nat.log2 den + 1) * 2 ^ (Nat.log2 den : ℤ) := by
        rw [← zpow_add₀ (by norm_num)]
        congr 1
        omega
      _ ≤ 2 ^ ((Nat.log2 num : ℤ) - Nat.log2 den + 1) * den := by gcongr

/-- In the unit, a number has a mantissa of at most 53 bits, and of no fewer if there is a smaller
unit. -/
theorem unitExponent_bounds {num den : Nat} (hn : 0 < num) (hd : 0 < den) :
    -1074 ≤ unitExponent num den ∧
      (num / den : ℚ) < (2 ^ 53 : ℕ) * 2 ^ unitExponent num den ∧
      (¬ (num / den : ℚ) < (2 ^ 52 : ℕ) * 2 ^ unitExponent num den ∨
        unitExponent num den = -1074) := by
  obtain ⟨hlo, hhi⟩ := ratio_bounds hn hd
  have hpow (bits : Nat) (e : ℤ) : ((2 ^ bits : ℕ) : ℚ) * 2 ^ e = 2 ^ (e + bits) := by
    rw [zpow_add₀ (by norm_num), zpow_natCast]
    push_cast
    ring
  have hmono {a b : ℤ} (h : a ≤ b) : (2 : ℚ) ^ a ≤ 2 ^ b := zpow_le_zpow_right₀ (by norm_num) h
  have hfloor (e : ℤ) : num * 2 ^ (-e).toNat / (den * 2 ^ e.toNat) < 2 ^ 53 ↔
      (num / den : ℚ) < 2 ^ (e + (53 : ℕ)) := by
    rw [Nat.div_lt_iff_lt_mul (by positivity), unscaled_lt_iff hd, hpow]
  unfold unitExponent
  simp only [hpow, not_lt, hfloor]
  split_ifs with hstart
  · refine ⟨le_max_right _ _, hstart, ?_⟩
    rcases max_choice ((Nat.log2 num : ℤ) - Nat.log2 den - 53) (-1074) with h | h
    · left
      rw [h]
      exact (hmono (by push_cast; omega)).trans hlo
    · exact .inr h
  · refine ⟨by omega, hhi.trans_le (hmono ?_), .inl ((hmono ?_).trans (not_lt.mp hstart))⟩ <;>
      push_cast <;> omega

/-! ## Reading -/

theorem nearestBits_eq {num den : Nat} (hn : 0 < num) (hd : 0 < den) :
    nearestBits num den =
      let e := unitExponent num den
      let m := nearestEven (num * 2 ^ (-e).toNat) (den * 2 ^ e.toNat)
      if 971 < (if m = 2 ^ 53 then e + 1 else e) then 2047 * 2 ^ 52 else position m e := by
  unfold nearestBits
  extract_lets guess quotient start e n d q r m e' m'
  have he : e' = e := rfl
  have hm : m' = m := rfl
  have hleast : -1074 ≤ e := (unitExponent_bounds hn hd).1
  rw [he, hm]
  clear_value m e
  unfold position
  simp only [Nat.pow_eq]
  by_cases hcarry : m = 2 ^ 53
  · subst hcarry
    simp only [if_true]
    split_ifs <;> omega
  · simp only [if_neg hcarry]

/-- A number is rounded to the double whose interval it lies in. -/
theorem nearestBits_of_contains {num den b : Nat} (hn : 0 < num) (hd : 0 < den)
    (hb : b < 2047 * 2 ^ 52) (h : (ofPosition b).interval.Contains (num / den)) :
    nearestBits num den = b := by
  obtain ⟨he, hhi, hlo⟩ := unitExponent_bounds hn hd
  rw [nearestBits_eq hn hd]
  dsimp only
  generalize unitExponent num den = e at he hhi hlo ⊢
  have hd' : 0 < den * 2 ^ e.toNat := by positivity
  rw [← unscaled_lt_iff hd] at hhi hlo
  rw [not_lt] at hlo
  have hcontains := contains_position hd' he (unscaled_div num den e).symm hhi hlo
  have hle := nearestEven_le hd' hhi
  have hge : ∀ b : Nat, b * (den * 2 ^ e.toNat) ≤ num * 2 ^ (-e).toNat →
      b ≤ nearestEven (num * 2 ^ (-e).toNat) (den * 2 ^ e.toNat) := fun b => le_nearestEven hd'
  generalize nearestEven (num * 2 ^ (-e).toNat) (den * 2 ^ e.toNat) = m at hcontains hle hge ⊢
  have hposition : position m e = b := Magnitude.eq_of_contains hcontains h
  rw [if_neg, hposition]
  -- The bits of what is too large are no less than those of infinity.
  intro hlarge
  have hm : 2 ^ 52 ≤ m := by
    rcases hlo with hlo | rfl
    · exact hge _ hlo
    · split_ifs at hlarge <;> omega
  rw [position, if_neg (by omega)] at hposition
  split_ifs at hlarge <;> omega

/-- What rounds to a positive finite double is not outside of the range of doubles. -/
theorem range_of_contains {b : Nat} {v : ℚ} (hb : 0 < b) (hb' : b < 2047 * 2 ^ 52)
    (h : (ofPosition b).interval.Contains v) : 2 ^ (-1075 : ℤ) ≤ v ∧ v < 2 ^ (1024 : ℤ) := by
  constructor
  · obtain ⟨c, rfl⟩ : ∃ c, b = c + 1 := ⟨b - 1, by omega⟩
    have hleast : Magnitude.midpoint 0 = 2 ^ (-1075 : ℤ) := by
      rw [Magnitude.midpoint, Magnitude.ofPosition_of_lt (by norm_num)]
      simp only [Magnitude.value, Magnitude.unit, Nat.cast_zero, zero_mul, zero_add]
      rw [show (-1074 : ℤ) = -1075 + 1 by norm_num, zpow_add_one₀ (by norm_num)]
      ring
    rw [← hleast]
    exact (Magnitude.midpoint_strictMono.monotone (Nat.zero_le c)).trans
      (Magnitude.midpoint_le_of_contains h).1
  · have hgreatest : (ofPosition (2047 * 2 ^ 52)).value = 2 ^ (1024 : ℤ) := by
      have hposition : ofPosition (2047 * 2 ^ 52) = ⟨2 ^ 52, 972⟩ :=
        Magnitude.ofPosition_of_le (e := 972) le_rfl (by norm_num) (by norm_num)
      rw [hposition, Magnitude.value, Nat.cast_pow, Nat.cast_ofNat, ← zpow_natCast,
        ← zpow_add₀ (by norm_num)]
      rfl
    have hunit := (ofPosition b).unit_pos
    have hnext : (ofPosition (b + 1)).value ≤ (ofPosition (2047 * 2 ^ 52)).value :=
      Magnitude.value_ofPosition_strictMono.monotone (by omega)
    have hle := (Magnitude.le_midpoint_of_contains h).1
    rw [Magnitude.midpoint] at hle
    rw [Magnitude.value_ofPosition_succ, hgreatest] at hnext
    linarith

/-- Digits with an exponent are read as the double whose interval their number lies in. -/
theorem ofScientific_of_contains {negative : Bool} {n b : Nat} {k : ℤ} (hb : 0 < b)
    (hb' : b < 2047 * 2 ^ 52) (h : (ofPosition b).interval.Contains (n * 10 ^ k)) :
    ofScientific negative n k =
      Float.ofBits (UInt64.ofNat (b + if negative then 2 ^ 63 else 0)) := by
  obtain ⟨hleast, hgreatest⟩ := range_of_contains hb hb' h
  have hten : (0 : ℚ) < 10 ^ k := by positivity
  have hn : 0 < n := by
    have hpos : (0 : ℚ) < 2 ^ (-1075 : ℤ) := by positivity
    exact_mod_cast (pos_iff_pos_of_mul_pos (hpos.trans_le hleast)).mpr hten
  have hmono {a b : ℤ} (h : a ≤ b) : (10 : ℚ) ^ a ≤ 10 ^ b := zpow_le_zpow_right₀ (by norm_num) h
  -- The number of digits and the exponent bound the number.
  have hlo : (10 : ℚ) ^ ((digitCount n : ℤ) + k - 1) ≤ n * 10 ^ k := by
    have hdigits : (10 : ℚ) ^ (digitCount n - 1) ≤ n := by exact_mod_cast pow_digitCount_le hn
    have hsplit : (digitCount n : ℤ) + k - 1 = ((digitCount n - 1 : ℕ) : ℤ) + k := by
      have := digitCount_pos n
      omega
    rw [hsplit, zpow_add₀ (by norm_num), zpow_natCast]
    gcongr
  have hhi : (n * 10 ^ k : ℚ) < 10 ^ ((digitCount n : ℤ) + k) := by
    have hdigits : (n : ℚ) < 10 ^ digitCount n := by exact_mod_cast lt_pow_digitCount n
    rw [zpow_add₀ (by norm_num), zpow_natCast]
    gcongr
  have hsmall : ¬ (digitCount n : ℤ) + k < -330 := by
    intro horder
    have hbound := hhi.trans_le (hmono (show (digitCount n : ℤ) + k ≤ -330 by omega))
    have hpow : (10 : ℚ) ^ (-330 : ℤ) < 2 ^ (-1075 : ℤ) := by
      have hnat : 2 ^ 1075 < 10 ^ 330 := by decide +kernel
      rw [zpow_neg, zpow_neg]
      exact inv_strictAnti₀ (by positivity) (by exact_mod_cast hnat)
    exact (hpow.trans_le (hleast.trans hbound.le)).false
  have hlarge : ¬ 310 < (digitCount n : ℤ) + k := by
    intro horder
    have hbound := (hmono (show (310 : ℤ) ≤ (digitCount n : ℤ) + k - 1 by omega)).trans hlo
    have hpow : (2 : ℚ) ^ (1024 : ℤ) < 10 ^ (310 : ℤ) := by
      have hnat : 2 ^ 1024 < 10 ^ 310 := by decide +kernel
      exact_mod_cast hnat
    exact (hpow.trans_le (hbound.trans hgreatest.le)).false
  have hcontains : (ofPosition b).interval.Contains ((scale n 1 k).1 / (scale n 1 k).2) := by
    rwa [scale_div, Nat.cast_one, div_one]
  have hscaled : 0 < (scale n 1 k).1 := Nat.mul_pos hn (Nat.pow_pos (by norm_num))
  have hbits := nearestBits_of_contains hscaled (scale_snd_pos n k Nat.one_pos) hb' hcontains
  unfold ofScientific
  simp only [hn.ne', decide_false, hsmall, hlarge, Bool.or_false, Bool.false_eq_true, if_false,
    hbits, Nat.pow_eq]

end TableQuery.Decimal
