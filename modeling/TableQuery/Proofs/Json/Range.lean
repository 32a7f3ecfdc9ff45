import TableQuery.Proofs.Decimal.Rounding
import TableQuery.Proofs.Json.Number

/-!
# Finite doubles are read as doubles

A double is computed from its digits by one product or by quotients. Only a product could leave the
range of doubles, and it does not: the digits of all doubles but the greatest stay far enough below
the first number without a double, and for the greatest they are multiplied.

## Main definitions

* `Json.Fits` — the digits before a power of ten that no product makes too large.

## Main results

* `Decimal.isFinite_iff` — finite doubles have a magnitude.
* `Json.isInf_scaled` — digits times a power of ten stay finite.
* `Json.exists_readsNumber_of_isFinite` — a finite double is written as a number, and read as one.
-/

namespace TableQuery

namespace Decimal

open Float.Model (UnpackedFloat)
open Float.Model.UnpackedFloat (unpackExponent)

/-- Finite doubles have a magnitude. -/
theorem isFinite_iff {x : Float} :
    x.isFinite = true ↔ ∃ negative m, Number.ofFloat x = .finite negative m := by
  have hfield : @unpackExponent .binary64 x.toBits.toBitVec = -1#11 ↔
      x.toBits.toNat / 2 ^ 52 % 2 ^ 11 = 2047 := by
    rw [← BitVec.toNat_inj]
    simp [unpackExponent, BitVec.extractLsb, Nat.shiftRight_eq_div_pow]
  have hunpack : x.isFinite = (UnpackedFloat.unpack .binary64 x.toBits.toBitVec).isFinite := rfl
  rw [hunpack]
  unfold UnpackedFloat.unpack Number.ofFloat Number.ofBits
  simp only [Nat.pow_eq, hfield]
  split
  · split <;> split <;> simp [UnpackedFloat.isFinite]
  · split
    · split <;> split <;> simp_all [UnpackedFloat.isFinite]
    · split <;> simp [UnpackedFloat.isFinite]

end Decimal

namespace Json

open Decimal (Magnitude Number Scientific digitCount interchange? withSign)

/-! ## Products -/

/-- Half a unit below the greatest double. -/
def belowGreatest : Nat :=
  (2 ^ 54 - 3) * 2 ^ 970

/-- The digits before the `n`-th power of ten that a double below the greatest one can have, and
at most eighteen. -/
def greatestDigits (n : Nat) : Nat :=
  min (belowGreatest / 10 ^ n) (10 ^ 18)

/-- With the error of its own double, no such number of digits times the double of the power leaves
the range of doubles. -/
def Fits (n : Nat) : Bool :=
  match (powerOfTen n).toModel.unpack with
  | .finite _ m e _ =>
    let digits := greatestDigits n
    2 ^ (-e).toNat ≤ m * 2 ^ e.toNat &&
      (digits * 2 ^ 53 + 2 ^ digits.log2) * (m * 2 ^ e.toNat) <
        (2 ^ 1024 - 2 ^ 970) * 2 ^ 53 * 2 ^ (-e).toNat
  | _ => false

theorem fits_of_le : ∀ n < 309, Fits n = true := by
  decide +kernel

theorem cast_two_pow_sub {a b : Nat} (h : b ≤ a) :
    ((2 ^ a - 2 ^ b : ℕ) : ℚ) = 2 ^ (a : ℤ) - 2 ^ (b : ℤ) := by
  rw [Nat.cast_sub (Nat.pow_le_pow_right (by norm_num) h)]
  norm_cast

/-- More digits have a greater unit of the last place. -/
theorem halfUnit_le {n m : Nat} (hn : n ≠ 0) (hle : n ≤ m) :
    (2 : ℚ) ^ ((n.log2 : ℤ) - 53) * 2 ^ 53 ≤ 2 ^ m.log2 := by
  have hmono : n.log2 ≤ m.log2 :=
    (Nat.le_log2 (by omega)).mpr ((Nat.log2_self_le hn).trans hle)
  rw [← zpow_natCast, ← zpow_natCast, ← zpow_add₀ (by norm_num)]
  exact zpow_le_zpow_right₀ (by norm_num) (by push_cast; omega)

/-- Digits times a power of ten stay finite if they are those of a double below the greatest one. -/
theorem isInf_scaled {n k : Nat} (hn : 0 < n) (hdigits : n < 10 ^ 18) (hk : k ≤ 308)
    (hle : n * 10 ^ k ≤ belowGreatest) :
    ((UInt64.ofNat n).toFloat * powerOfTen k).isInf = false := by
  have hword : (UInt64.ofNat n).toNat = n := UInt64.toNat_ofNat_of_lt' (by
    have : UInt64.size = 2 ^ 64 := rfl
    omega)
  obtain ⟨m, e, h, hx, hm, -, -, -, -, hone, herror⟩ :=
    @Decimal.exists_unpack_toFloat (UInt64.ofNat n) (by omega)
  rw [hword] at herror
  have hfits := fits_of_le k (by omega)
  unfold Fits at hfits
  split at hfits
  · next s' m' e' h' hy =>
    simp only [Bool.and_eq_true, decide_eq_true_eq] at hfits
    obtain ⟨hone', hproduct⟩ := hfits
    have hgreatest : n ≤ greatestDigits k :=
      le_min ((Nat.le_div_iff_mul_le (by positivity)).mpr hle) hdigits.le
    generalize greatestDigits k = g at hgreatest hproduct
    have hd : (0 : ℚ) < 2 ^ (-e').toNat := by positivity
    have hpower : (m' * 2 ^ e' : ℚ) * 2 ^ (-e').toNat = m' * 2 ^ e'.toNat := by
      rw [Decimal.zpow_eq_div 2 e']
      field_simp
    have hpower' : (1 : ℚ) ≤ m' * 2 ^ e' := by
      refine le_of_mul_le_mul_right ?_ hd
      rw [hpower, one_mul]
      exact_mod_cast hone'
    have hword' : (m * 2 ^ e : ℚ) * 2 ^ 53 ≤ g * 2 ^ 53 + 2 ^ g.log2 := by
      have hlog := halfUnit_le hn.ne' hgreatest
      have hn' : (n : ℚ) ≤ g := by exact_mod_cast hgreatest
      linarith
    have hrange := cast_two_pow_sub (show 970 ≤ 1024 by norm_num)
    refine Decimal.isInf_mul hx hy hm (one_le_mul_of_one_le_of_one_le hone hpower') ?_
    rw [Nat.cast_ofNat, Nat.cast_ofNat] at hrange
    rw [← hrange]
    generalize 2 ^ 1024 - 2 ^ 970 = range at hproduct ⊢
    have hproduct' : (g * 2 ^ 53 + 2 ^ g.log2 : ℚ) * (m' * 2 ^ e') < range * 2 ^ 53 := by
      refine lt_of_mul_lt_mul_right ?_ hd.le
      rw [mul_assoc, hpower]
      exact_mod_cast hproduct
    refine lt_of_mul_lt_mul_right ?_ (by norm_num : (0 : ℚ) ≤ 2 ^ 53)
    calc (m * 2 ^ e * (m' * 2 ^ e') : ℚ) * 2 ^ 53
        = (m * 2 ^ e * 2 ^ 53 : ℚ) * (m' * 2 ^ e') := by ring
      _ ≤ (g * 2 ^ 53 + 2 ^ g.log2 : ℚ) * (m' * 2 ^ e') :=
        mul_le_mul_of_nonneg_right hword' (zero_le_one.trans hpower')
      _ < range * 2 ^ 53 := hproduct'
  · cases hfits

/-! ## Digits of doubles -/

theorem exists_scaleFloat?_of_neg {k : ℤ} (hk : k < 0) (x : Float) (steps : Nat) :
    ∃ y, scaleFloat? x k steps = some y := by
  induction steps generalizing x k with
  | zero => exact ⟨x, rfl⟩
  | succ steps ih =>
    have hneg : ¬ 0 ≤ k := by omega
    unfold scaleFloat?
    rw [if_neg hneg, if_neg hneg]
    split
    · exact ⟨_, rfl⟩
    · split
      · exact ⟨_, rfl⟩
      · exact ih (by omega) _

theorem exists_scaleFloat?_of_isInf {x : Float} {k : ℤ} (hk : 0 ≤ k) (hk' : k ≤ 308)
    (hfinite : (x * powerOfTen k.natAbs).isInf = false) {steps : Nat} (hsteps : 0 < steps) :
    ∃ y, scaleFloat? x k steps = some y := by
  obtain ⟨steps, rfl⟩ := Nat.exists_eq_succ_of_ne_zero hsteps.ne'
  refine ⟨x * powerOfTen k.natAbs, ?_⟩
  have hsmall : k.natAbs ≤ 308 := by omega
  simp only [scaleFloat?, hsmall, hk, if_true, hfinite, Bool.false_eq_true, if_false]

theorem toShortest_greatest :
    (Magnitude.ofPosition (2047 * 2 ^ 52 - 1)).toShortest = ⟨17976931348623157, 308⟩ := by
  decide +kernel

theorem isInf_greatest :
    ((UInt64.ofNat 17976931348623157).toFloat * powerOfTen 292).isInf = false := by
  decide +kernel

theorem le_of_mul_pow_le {n k : Nat} (hn : 0 < n) (h : n * 10 ^ k ≤ belowGreatest) : k ≤ 308 := by
  have hlt : belowGreatest < 10 ^ 309 := by decide +kernel
  have hpow : 10 ^ k < 10 ^ 309 := (Nat.le_mul_of_pos_left _ hn).trans_lt (h.trans_lt hlt)
  have := (Nat.pow_lt_pow_iff_right (by norm_num : 1 < 10)).mp hpow
  omega

/-- What rounds to a double below the greatest one is at most half a unit below that. -/
theorem midpoint_below_greatest : Magnitude.midpoint (2047 * 2 ^ 52 - 2) =
    belowGreatest := by
  have hposition : Magnitude.ofPosition (2047 * 2 ^ 52 - 2) = ⟨2 ^ 53 - 2, 971⟩ :=
    @Magnitude.ofPosition_of_le (2 ^ 53 - 2) 971 (by norm_num) (by norm_num) (by norm_num)
  have hunit : (2 : ℚ) ^ (971 : ℤ) = 2 * 2 ^ 970 := by
    rw [zpow_ofNat]
    exact pow_succ' 2 970
  rw [Magnitude.midpoint, hposition, Magnitude.value, Magnitude.unit, belowGreatest, Nat.cast_mul,
    Nat.cast_pow]
  simp only [hunit]
  generalize (2 : ℚ) ^ 970 = u
  norm_num
  ring

/-- The shortest digits of a finite double are read as a double. -/
theorem exists_scaleFloat?_toShortest {b : Nat} (hb : 0 < b) (hb' : b < 2047 * 2 ^ 52)
    {s : Scientific} (hs : (Magnitude.ofPosition b).toShortest = s) :
    ∃ y, scaleFloat? (UInt64.ofNat s.significand).toFloat
      (s.exponent + 1 - digitCount s.significand) 4 = some y := by
  have hzero := Magnitude.isZero_ofPosition_of_pos hb
  have hm := Magnitude.mantissa_ofPosition_lt b
  have hpos := Magnitude.significand_toShortest_pos hzero hm
  have hlt := (Magnitude.ofPosition b).significand_toShortest_lt
  have hcontains := Magnitude.contains_toShortest hzero hm
  rw [hs] at hpos hlt hcontains
  rcases lt_or_ge (s.exponent + 1 - (digitCount s.significand : ℤ)) 0 with hneg | hnonneg
  · exact exists_scaleFloat?_of_neg hneg _ _
  · by_cases hgreatest : b = 2047 * 2 ^ 52 - 1
    · subst hgreatest
      rw [toShortest_greatest] at hs
      subst hs
      exact exists_scaleFloat?_of_isInf hnonneg (by decide) isInf_greatest (by norm_num)
    · obtain ⟨k, hk⟩ := Int.eq_ofNat_of_zero_le hnonneg
      have hbound : s.significand * 10 ^ k ≤ belowGreatest := by
        have hhigh := (Magnitude.le_midpoint_of_contains hcontains).1.trans
          (Magnitude.midpoint_strictMono.monotone (by omega : b ≤ 2047 * 2 ^ 52 - 2))
        rw [midpoint_below_greatest, Scientific.value, hk, zpow_natCast] at hhigh
        exact_mod_cast hhigh
      have hsmall := le_of_mul_pow_le hpos hbound
      rw [hk]
      refine exists_scaleFloat?_of_isInf (by omega) (by omega) ?_ (by norm_num)
      rw [Int.natAbs_natCast]
      exact isInf_scaled hpos hlt hsmall hbound

/-! ## Texts of doubles -/

theorem exists_toFloat?_of_scaleFloat? {d : Digits} {negative : Bool}
    (h : ∃ y, scaleFloat? (UInt64.ofNat d.significand).toFloat d.exponent 4 = some y) :
    ∃ y, d.toFloat? negative = some y := by
  obtain ⟨y, hy⟩ := h
  exact ⟨_, by rw [Digits.toFloat?, hy, Option.map_some]⟩

/-- The exponent of a finite double fits a word. -/
theorem natAbs_exponent_lt {b : Nat} (hb : 0 < b) (hb' : b < 2047 * 2 ^ 52) :
    (Magnitude.ofPosition b).toShortest.exponent.natAbs < 2 ^ 31 := by
  have hzero := Magnitude.isZero_ofPosition_of_pos hb
  have hm := Magnitude.mantissa_ofPosition_lt b
  have hcontains := Magnitude.contains_toShortest hzero hm
  obtain ⟨hlo, hhi⟩ := Decimal.range_of_contains hb hb' hcontains
  obtain ⟨hlo', hhi'⟩ := Scientific.value_bounds (Magnitude.significand_toShortest_pos hzero hm)
  generalize (Magnitude.ofPosition b).toShortest = s at hlo hhi hlo' hhi'
  have hpow (n : Nat) : (2 : ℚ) ^ n ≤ 10 ^ n := pow_le_pow_left₀ (by norm_num) (by norm_num) n
  have hten {a b : ℤ} (h : (10 : ℚ) ^ a < 10 ^ b) : a < b :=
    (zpow_lt_zpow_iff_right₀ (by norm_num)).mp h
  have hupper : s.exponent < 1024 := hten (hlo'.trans_lt (hhi.trans_le (hpow 1024)))
  have hlower : -1075 < s.exponent + 1 := by
    refine hten (lt_of_le_of_lt ?_ (hlo.trans_lt hhi'))
    rw [zpow_neg, zpow_neg, zpow_ofNat, zpow_ofNat]
    exact inv_anti₀ (by positivity) (hpow 1075)
  omega

/-- Positional digits are shown with a point, behind which there is a place. -/
theorem exists_readsDigits_positional {s : Scientific} (hs : s.significand < 10 ^ 18)
    (hzero : s.significand = 0 → s.exponent = 0) (he : s.exponent < 16) : ∃ d,
      ReadsDigits (if s.positional.contains '.' then s.positional else s.positional ++ ['.', '0'])
        d ∧ d.exponent < 0 := by
  obtain ⟨places, hplaces⟩ : ∃ places, (digitCount s.significand : ℤ) - 1 - s.exponent = places :=
    ⟨_, rfl⟩
  rcases le_or_gt places 0 with hle | hgt
  · have htext : s.positional =
        Text.digits 10 s.significand ++ List.replicate places.natAbs '0' := by
      unfold Scientific.positional
      dsimp only
      rw [Decimal.length_digits, hplaces, if_pos hle]
    have hpoint : '.' ∉ Text.digits 10 s.significand ++ List.replicate places.natAbs '0' := by
      simp [Decimal.point_notMem_digits]
    have hcount : s.significand = 0 → digitCount s.significand = 1 := fun h => by rw [h]; rfl
    have hfits : s.significand * 10 ^ places.natAbs < 10 ^ 16 :=
      calc s.significand * 10 ^ places.natAbs
          < 10 ^ digitCount s.significand * 10 ^ places.natAbs :=
            Nat.mul_lt_mul_of_pos_right (Decimal.lt_pow_digitCount _) (by positivity)
        _ = 10 ^ (digitCount s.significand + places.natAbs) := (Nat.pow_add ..).symm
        _ ≤ 10 ^ 16 := Nat.pow_le_pow_right (by norm_num) (by omega)
    rw [htext, if_neg (by simpa using hpoint)]
    exact ⟨_, readsDigits_filled (by omega) (by omega), by norm_num⟩
  · have htext : s.positional = Decimal.pointed s.significand places.toNat := by
      unfold Scientific.positional
      dsimp only
      rw [Decimal.length_digits, hplaces, if_neg (by omega)]
    have hpoint : '.' ∈ Decimal.pointed s.significand places.toNat := by
      simp [Decimal.pointed, show places.toNat ≠ 0 by omega]
    rw [htext, if_pos (by simpa using hpoint)]
    exact ⟨_, readsDigits_pointed_digits (by omega) (by omega), by simp; omega⟩

theorem exists_readsDigits {b : Nat} (hb : b < 2047 * 2 ^ 52) {x : Float} {negative : Bool}
    (hx : Number.ofFloat x = .finite negative (Magnitude.ofPosition b)) : ∃ text d,
      interchange? x = some (withSign negative text) ∧ ReadsDigits text d ∧
        ∃ y, d.toFloat? negative = some y := by
  have hlt := (Magnitude.ofPosition b).significand_toShortest_lt
  unfold interchange?
  rw [hx]
  dsimp only
  split
  · next hform =>
    have hpositional : ((Magnitude.ofPosition b).toShortest.significand = 0 →
        (Magnitude.ofPosition b).toShortest.exponent = 0) ∧
        (Magnitude.ofPosition b).toShortest.exponent < 16 := by
      cases hzero : (Magnitude.ofPosition b).isZero with
      | true =>
        rw [Magnitude.toShortest, if_pos hzero]
        norm_num
      | false =>
        have hpos := Magnitude.significand_toShortest_pos hzero (Magnitude.mantissa_ofPosition_lt b)
        simp only [hzero, Bool.false_or, Bool.and_eq_true, decide_eq_true_eq] at hform
        exact ⟨fun h => absurd h hpos.ne', hform.2⟩
    obtain ⟨d, hread, hneg⟩ := exists_readsDigits_positional hlt hpositional.1 hpositional.2
    exact ⟨_, d, rfl, hread, exists_toFloat?_of_scaleFloat? (exists_scaleFloat?_of_neg hneg _ _)⟩
  · next hform =>
    simp only [Bool.or_eq_true, not_or] at hform
    have hpos : 0 < b := Nat.pos_of_ne_zero fun h => hform.1 (Magnitude.isZero_ofPosition.mpr h)
    exact ⟨_, _, rfl, readsDigits_withExponent (by omega) (natAbs_exponent_lt hpos hb),
      exists_toFloat?_of_scaleFloat? (exists_scaleFloat?_toShortest hpos hb rfl)⟩

/-- A finite double is written as a number and read as one. -/
theorem exists_readsNumber_of_isFinite {x : Float} (hx : x.isFinite = true) :
    ∃ text y, interchange? x = some text ∧ ReadsNumber text (.float y) := by
  obtain ⟨negative, m, hn⟩ := Decimal.isFinite_iff.mp hx
  obtain ⟨-, rfl⟩ := Number.ofBits_eq_finite hn (Decimal.toBits_lt x)
  obtain ⟨text, d, htext, hread, y, hy⟩ := exists_readsDigits (Decimal.bits_lt_of_finite hn) hn
  refine ⟨_, y, htext, .of_readUnsigned? hread.head fun rest hrest => ?_⟩
  rw [hread.read negative rest hrest, hy]
  rfl

/-- What is no finite double is not written as a number. -/
theorem interchange?_of_not_isFinite {x : Float} (hx : ¬ x.isFinite = true) :
    interchange? x = none := by
  rw [Decimal.isFinite_iff, not_exists] at hx
  unfold interchange?
  split
  · next negative m hn => exact absurd ⟨m, hn⟩ (hx negative)
  · rfl

end Json

end TableQuery
