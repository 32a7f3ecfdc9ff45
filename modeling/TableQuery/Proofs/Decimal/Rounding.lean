import TableQuery.Proofs.Decimal.Nearest
import TableQuery.Proofs.Decimal.Packed

/-!
# Rounded words and products

The double of a word and the product of two doubles are the exact numbers with a mantissa cut down
to 53 bits, which is off by at most half a unit of the last place. So what stays half a unit below
the first number without a double is not rounded to infinity.

## Main definitions

* `Decimal.nearest` — the whole number of 53 bits that is nearest to a whole number.

## Main results

* `Decimal.exists_roundWithAccuracy` — the result of rounding, with its error.
* `Decimal.exists_unpack_toFloat` — the double of a word.
* `Decimal.isInf_mul` — products that stay finite.
-/

namespace TableQuery.Decimal

open Float.Model (Format UnpackedFloat totalExponent)
open Float.Model.UnpackedFloat

section Shift

variable {m k : Nat}

theorem shift_succ (em : ExtendedMantissa) (k : Nat) :
    em >>> (k + 1) = (em >>> k).shiftRightOne := rfl

theorem mantissa_shift (em : ExtendedMantissa) (k : Nat) :
    (em >>> k).mantissa = em.mantissa / 2 ^ k := by
  induction k with
  | zero => exact (Nat.div_one _).symm
  | succ k ih =>
    rw [shift_succ, ExtendedMantissa.shiftRightOne, ih, Nat.div_div_eq_div_mul, Nat.pow_succ]

theorem roundedMantissa_bounds (em : ExtendedMantissa) :
    em.mantissa ≤ em.roundedMantissa ∧ em.roundedMantissa ≤ em.mantissa + 1 ∧
      (em.roundBit = false → em.roundedMantissa = em.mantissa) := by
  obtain ⟨m, round, sticky⟩ := em
  cases round <;> cases sticky <;>
    simp [ExtendedMantissa.roundedMantissa, ExtendedMantissa.accuracy,
      Accuracy.roundToNearestEven]
  omega

/-- The first bit that is cut off. -/
theorem roundBit_shift (m k : Nat) :
    (ExtendedMantissa.mk m false false >>> (k + 1)).roundBit = (m / 2 ^ k % 2 != 0) := by
  rw [shift_succ, ExtendedMantissa.shiftRightOne, mantissa_shift]

/-- Whether a further bit that is cut off is set. -/
theorem stickyBit_shift (m k : Nat) :
    (ExtendedMantissa.mk m false false >>> (k + 1)).stickyBit = (m % 2 ^ k != 0) := by
  induction k with
  | zero =>
    rw [Nat.pow_zero, Nat.mod_one]
    rfl
  | succ k ih =>
    have hpow := Nat.two_pow_pos k
    rw [shift_succ, ExtendedMantissa.shiftRightOne, roundBit_shift, ih, Nat.mod_pow_succ,
      Bool.eq_iff_iff]
    simp only [Bool.or_eq_true, bne_iff_ne, ne_eq, Nat.add_eq_zero_iff, Nat.mul_eq_zero]
    omega

theorem nearestEven_one (n : Nat) : nearestEven n 1 = n := by
  simp [nearestEven, Nat.mod_one]

/-- A mantissa that is cut is rounded to the nearest one. -/
theorem roundedMantissa_shift (m k : Nat) :
    (ExtendedMantissa.mk m false false >>> k).roundedMantissa = nearestEven m (2 ^ k) := by
  cases k with
  | zero =>
    rw [Nat.pow_zero, nearestEven_one]
    rfl
  | succ k =>
    have hmantissa := mantissa_shift (ExtendedMantissa.mk m false false) (k + 1)
    have hround := roundBit_shift m k
    have hsticky := stickyBit_shift m k
    generalize ExtendedMantissa.mk m false false >>> (k + 1) = em at hmantissa hround hsticky
    obtain ⟨q, round, sticky⟩ := em
    dsimp only at hmantissa hround hsticky
    have hrounded : (ExtendedMantissa.mk q round sticky).roundedMantissa =
        if round then if sticky then q + 1 else q + q % 2 else q := by
      cases round <;> cases sticky <;> rfl
    have hless := Nat.mod_lt m (Nat.two_pow_pos k)
    rw [hrounded, hround, hsticky, nearestEven, ← hmantissa, Nat.mod_pow_succ, Nat.pow_succ]
    simp only [bne_iff_ne]
    rcases Nat.mod_two_eq_zero_or_one (m / 2 ^ k) with hbit | hbit <;> rw [hbit] <;>
      split_ifs <;> omega

/-- A mantissa that is cut is rounded up by at most half a unit. -/
theorem roundedMantissa_shift_le (m k : Nat) :
    2 * (ExtendedMantissa.mk m false false >>> k).roundedMantissa * 2 ^ k ≤ 2 * m + 2 ^ k := by
  rw [roundedMantissa_shift]
  exact (nearestEven_bounds (Nat.two_pow_pos k)).2.1

end Shift

section Round

variable {s : Sign} {m : Nat} {e : ℤ}

/-- A mantissa of 53 bits is kept, and a carry into a further bit is one unit of the next size. -/
theorem shiftToTargetExponent_carry (hlo : 2 ^ 52 ≤ m) (hhi : m ≤ 2 ^ 53) (he : -1074 ≤ e) :
    ∃ m' e' : _, (shiftToTargetExponent .binary64 m e .exact).1.mantissa = m' ∧
      (shiftToTargetExponent .binary64 m e .exact).2 = e' ∧ 2 ^ 52 ≤ m' ∧ m' < 2 ^ 53 ∧ e ≤ e' ∧
        (m' : ℚ) * 2 ^ e' = m * 2 ^ e := by
  refine ⟨_, _, rfl, rfl, ?_⟩
  unfold shiftToTargetExponent shiftToExponent
  simp only [mantissa_shift, ExtendedMantissa.ofMantissaAndAccuracy]
  rcases Nat.lt_or_eq_of_le hhi with hlt | rfl
  · have hlog : m.log2 = 52 := (Nat.log2_eq_iff (by omega)).mpr ⟨hlo, hlt⟩
    have htarget : (Format.binary64.targetExponent (totalExponent m e) - e).toNat = 0 := by
      simp only [Format.targetExponent, totalExponent, hlog, Format.mantissaBits,
        Format.minExponent]
      omega
    simp only [htarget, Nat.pow_zero, Nat.div_one, Nat.cast_zero, add_zero, le_refl,
      and_true]
    exact ⟨hlo, hlt⟩
  · have htarget : (Format.binary64.targetExponent (totalExponent (2 ^ 53) e) - e).toNat = 1 := by
      simp only [Format.targetExponent, totalExponent, Nat.log2_two_pow, Format.mantissaBits,
        Format.minExponent]
      omega
    simp only [htarget, Nat.cast_one, zpow_add_one₀ (two_ne_zero : (2 : ℚ) ≠ 0)]
    norm_num
    ring

/-- A number with enough bits is rounded to the nearest mantissa of 53 bits, which is off by at most
half a unit. -/
theorem exists_roundWithAccuracy (hm : 2 ^ 52 ≤ m) (he : -1022 ≤ (m.log2 : ℤ) + e) :
    ∃ (m' : Nat) (e' : ℤ) (h : 0 < m'),
      roundWithAccuracy .binary64 s m e .exact = .finite s m' e' h ∧ 2 ^ 52 ≤ m' ∧ m' < 2 ^ 53 ∧
        (m.log2 : ℤ) - 52 + e ≤ e' ∧
        (m' : ℚ) * 2 ^ e' = nearestEven m (2 ^ (m.log2 - 52)) * 2 ^ (e + (m.log2 - 52 : ℕ)) ∧
        (m' : ℚ) * 2 ^ e' ≤ m * 2 ^ e + 2 ^ ((m.log2 : ℤ) - 53 + e) := by
  have hm0 : m ≠ 0 := by omega
  have hlog : 52 ≤ m.log2 := (Nat.le_log2 hm0).mpr hm
  obtain ⟨k, hk⟩ : ∃ k, m.log2 = 52 + k := ⟨m.log2 - 52, by omega⟩
  have hfirst : shiftToTargetExponent .binary64 m e .exact =
      (ExtendedMantissa.mk m false false >>> k, e + k) := by
    have htarget : (Format.binary64.targetExponent (totalExponent m e) - e).toNat = k := by
      simp only [Format.targetExponent, totalExponent, hk, Format.mantissaBits,
        Format.minExponent]
      omega
    simp only [shiftToTargetExponent, shiftToExponent, htarget,
      ExtendedMantissa.ofMantissaAndAccuracy]
  obtain ⟨r, hr⟩ : ∃ r, (ExtendedMantissa.mk m false false >>> k).roundedMantissa = r := ⟨_, rfl⟩
  obtain ⟨hge, hle, -⟩ := roundedMantissa_bounds (ExtendedMantissa.mk m false false >>> k)
  have herror := roundedMantissa_shift_le m k
  have hnearest := roundedMantissa_shift m k
  rw [mantissa_shift, hr] at hge hle
  rw [hr] at herror hnearest
  dsimp only at hge hle
  have hbits : 2 ^ 52 ≤ m / 2 ^ k ∧ m / 2 ^ k < 2 ^ 53 := by
    obtain ⟨hlo, hhi⟩ := (Nat.log2_eq_iff hm0).mp hk
    rw [Nat.le_div_iff_mul_le (by positivity), Nat.div_lt_iff_lt_mul (by positivity),
      ← Nat.pow_add, ← Nat.pow_add]
    exact ⟨hlo, by rwa [show 53 + k = 52 + k + 1 by omega]⟩
  obtain ⟨m', e', hm', he', hlo, hhi, hexponent, hvalue⟩ :=
    shiftToTargetExponent_carry (m := r) (e := e + k) (by omega) (by omega) (by omega)
  have hcut : m.log2 - 52 = k := by omega
  refine ⟨m', e', by omega, ?_, hlo, hhi, by omega, ?_, ?_⟩
  · simp only [roundWithAccuracy, hfirst, hr, hm', he']
    rw [dif_neg (by omega)]
  · rw [hvalue, hcut, hnearest]
  have herror' : (2 * r * 2 ^ k : ℚ) ≤ 2 * m + 2 ^ k := by exact_mod_cast herror
  have hexp : (m.log2 : ℤ) - 53 + e = e + k - 1 := by omega
  have hu : (0 : ℚ) < 2 ^ e := by positivity
  rw [hvalue, hexp, zpow_sub_one₀ (by norm_num), zpow_add₀ (by norm_num), zpow_natCast]
  have hmul := mul_le_mul_of_nonneg_right herror' hu.le
  linarith

end Round

/-! ## Words and products -/

/-- With the exponent behind the greatest one, a mantissa of 53 bits is beyond all doubles. -/
theorem le_value_of_exponent {m : Nat} {e : ℤ} (hm : 2 ^ 52 ≤ m) (he : 972 ≤ e) :
    (2 : ℚ) ^ (1024 : ℤ) ≤ m * 2 ^ e := by
  have hm' : (2 : ℚ) ^ (52 : ℤ) ≤ m := by exact_mod_cast hm
  rw [show (1024 : ℤ) = 52 + 972 by norm_num, zpow_add₀ (by norm_num)]
  exact mul_le_mul hm' (zpow_le_zpow_right₀ (by norm_num) he) (by positivity) (by positivity)

theorem log2_shiftLeft {n : Nat} (hn : n ≠ 0) (k : Nat) : (n <<< k).log2 = n.log2 + k := by
  rw [Nat.log2_eq_iff (by simp [Nat.shiftLeft_eq, hn]), Nat.shiftLeft_eq, Nat.pow_add,
    show n.log2 + k + 1 = n.log2 + 1 + k by omega, Nat.pow_add]
  exact ⟨Nat.mul_le_mul_right _ (Nat.log2_self_le hn),
    Nat.mul_lt_mul_of_pos_right Nat.lt_log2_self (by positivity)⟩

/-- Fewer bits than a mantissa has are filled up with zeros. -/
theorem ofUInt64_eq {u : UInt64} (hu : 0 < u.toNat) {k : Nat} (hk : k = 52 - u.toNat.log2) :
    ofUInt64 .binary64 u =
      roundWithAccuracy .binary64 .positive (u.toNat <<< k) (-k) .exact := by
  have htarget : (-Format.binary64.targetExponent (totalExponent u.toNat 0)).toNat = k := by
    simp only [Format.targetExponent, totalExponent, Format.mantissaBits, Format.minExponent]
    omega
  have hcompare : compare (u.toNat : ℤ) 0 = .gt := by
    rw [Int.compare_eq_gt]
    omega
  simp only [ofUInt64, ofNat, ofInt, UnpackedFloat.normalize, hcompare, UnpackedFloat.round,
    decreaseExponent, Int.toNat_natCast, htarget, zero_sub]

/-- The whole number of 53 bits that is nearest to a whole number. -/
def nearest (n : Nat) : Nat :=
  nearestEven n (2 ^ (n.log2 - 52)) * 2 ^ (n.log2 - 52)

/-- A number that is filled up with zeros is rounded as it is. -/
theorem nearestEven_filled {n k : Nat} (hn : n ≠ 0) (hk : k = 52 - n.log2) :
    (nearestEven (n <<< k) (2 ^ ((n <<< k).log2 - 52)) : ℚ) *
      2 ^ (-(k : ℤ) + ((n <<< k).log2 - 52 : ℕ)) = nearest n := by
  rw [nearest, log2_shiftLeft hn]
  rcases Nat.eq_zero_or_pos k with rfl | hpos
  · simp
  · have hfilled : n.log2 + k - 52 = 0 := by omega
    have hfits : n.log2 - 52 = 0 := by omega
    rw [hfilled, hfits, pow_zero, nearestEven_one, nearestEven_one, Nat.shiftLeft_eq,
      Nat.cast_zero, add_zero, zpow_neg, zpow_natCast]
    push_cast
    field_simp

/-- The double of a word that is not zero is the nearest number of 53 bits, which is off by at most
half a unit. -/
theorem exists_unpack_toFloat {u : UInt64} (hu : 0 < u.toNat) :
    ∃ (m : Nat) (e : ℤ) (h : 0 < m), u.toFloat.toModel.unpack = .finite .positive m e h ∧
      2 ^ 52 ≤ m ∧ m < 2 ^ 53 ∧ -1074 ≤ e ∧ e ≤ 971 ∧ (m : ℚ) * 2 ^ e = nearest u.toNat ∧
      1 ≤ (m : ℚ) * 2 ^ e ∧ (m : ℚ) * 2 ^ e ≤ u.toNat + 2 ^ ((u.toNat.log2 : ℤ) - 53) := by
  have hbound := u.toNat_lt
  obtain ⟨k, hk⟩ : ∃ k, k = 52 - u.toNat.log2 := ⟨_, rfl⟩
  have hround := ofUInt64_eq hu hk
  generalize u.toNat = n at hu hbound hk hround ⊢
  have hlog : n.log2 < 64 := (Nat.log2_lt hu.ne').mpr hbound
  have hlog2 := log2_shiftLeft hu.ne' k
  have hmantissa : 2 ^ 52 ≤ n <<< k := by
    rw [← Nat.le_log2 (by simp [Nat.shiftLeft_eq, hu.ne']), hlog2]
    omega
  obtain ⟨m, e, h, heq, hlo, hhi, hexponent, hnearest, herror⟩ :=
    @exists_roundWithAccuracy .positive (n <<< k) (-k) hmantissa (by omega)
  rw [nearestEven_filled hu.ne' hk] at hnearest
  have hexp : ((n <<< k).log2 : ℤ) - 53 + -k = n.log2 - 53 := by omega
  have hvalue : ((n <<< k : ℕ) : ℚ) * 2 ^ (-k : ℤ) = n := by
    rw [Nat.shiftLeft_eq, zpow_neg, zpow_natCast]
    push_cast
    field_simp
  rw [hvalue, hexp] at herror
  have hone : (1 : ℚ) ≤ m * 2 ^ e := by
    have hm : (2 : ℚ) ^ (52 : ℤ) ≤ m := by exact_mod_cast hlo
    calc (1 : ℚ) ≤ 2 ^ (52 + e) := one_le_zpow₀ (by norm_num) (by omega)
      _ = 2 ^ (52 : ℤ) * 2 ^ e := zpow_add₀ (by norm_num) _ _
      _ ≤ m * 2 ^ e := mul_le_mul_of_nonneg_right hm (by positivity)
  have hfinite : e ≤ 971 := by
    by_contra! hcon
    have hlarge := le_value_of_exponent hlo (by omega : 972 ≤ e)
    have hn' : (n : ℚ) < 2 ^ (64 : ℤ) := by exact_mod_cast hbound
    have hhalf : (2 : ℚ) ^ ((n.log2 : ℤ) - 53) ≤ 2 ^ (64 : ℤ) :=
      zpow_le_zpow_right₀ (by norm_num) (by omega)
    have hless : (2 : ℚ) ^ (1024 : ℤ) < 2 ^ (65 : ℤ) :=
      calc (2 : ℚ) ^ (1024 : ℤ) ≤ m * 2 ^ e := hlarge
        _ ≤ n + 2 ^ ((n.log2 : ℤ) - 53) := herror
        _ < 2 ^ (64 : ℤ) + 2 ^ (64 : ℤ) := add_lt_add_of_lt_of_le hn' hhalf
        _ = 2 ^ (65 : ℤ) := by norm_num
    exact absurd ((zpow_lt_zpow_iff_right₀ (by norm_num)).mp hless) (by norm_num)
  have hleast : -1074 ≤ e := by omega
  refine ⟨m, e, h, ?_, hlo, hhi, hleast, hfinite, hnearest, hone, herror⟩
  show (Float.Model.pack (ofUInt64 .binary64 u)).unpack = _
  rw [hround, heq, unpack_pack h hlo hhi hleast hfinite]

/-- The leading bit of a number between two powers. -/
theorem log2_add_bounds {m : Nat} {e a b : ℤ} (hm : m ≠ 0) (hle : (2 : ℚ) ^ a ≤ m * 2 ^ e)
    (hlt : (m : ℚ) * 2 ^ e < 2 ^ b) : a ≤ m.log2 + e ∧ m.log2 + e < b := by
  have hpow {a b : ℤ} (h : (2 : ℚ) ^ a < 2 ^ b) : a < b :=
    (zpow_lt_zpow_iff_right₀ (by norm_num)).mp h
  have hu : (0 : ℚ) < 2 ^ e := by positivity
  have hlog : (2 : ℚ) ^ (m.log2 : ℤ) ≤ m := by exact_mod_cast Nat.log2_self_le hm
  have hlog' : (m : ℚ) < 2 ^ ((m.log2 : ℤ) + 1) := by exact_mod_cast Nat.lt_log2_self
  constructor
  · have hless : (2 : ℚ) ^ a < 2 ^ ((m.log2 : ℤ) + 1 + e) := by
      rw [zpow_add₀ (by norm_num)]
      exact hle.trans_lt (mul_lt_mul_of_pos_right hlog' hu)
    have := hpow hless
    omega
  · refine hpow (lt_of_le_of_lt ?_ hlt)
    rw [zpow_add₀ (by norm_num)]
    exact mul_le_mul_of_nonneg_right hlog hu.le

/-- A product that stays half a unit below the first number without a double is finite. -/
theorem isInf_mul {x y : Float} {s s' : Sign} {m m' : Nat} {e e' : ℤ} {h : 0 < m} {h' : 0 < m'}
    (hx : x.toModel.unpack = .finite s m e h) (hy : y.toModel.unpack = .finite s' m' e' h')
    (hm : 2 ^ 52 ≤ m) (hle : 1 ≤ (m * 2 ^ e * (m' * 2 ^ e') : ℚ))
    (hlt : (m * 2 ^ e * (m' * 2 ^ e') : ℚ) < 2 ^ (1024 : ℤ) - 2 ^ (970 : ℤ)) :
    (x * y).isInf = false := by
  have hvalue : ((m * m' : ℕ) : ℚ) * 2 ^ (e + e') = m * 2 ^ e * (m' * 2 ^ e') := by
    rw [zpow_add₀ (by norm_num)]
    push_cast
    ring
  rw [← hvalue] at hle hlt
  have hprod : 2 ^ 52 ≤ m * m' := hm.trans (Nat.le_mul_of_pos_right m h')
  generalize hM : m * m' = M at hvalue hle hlt hprod
  generalize hE : e + e' = E at hvalue hle hlt
  obtain ⟨hge, hless⟩ : (0 : ℤ) ≤ M.log2 + E ∧ M.log2 + E < 1024 :=
    log2_add_bounds (by omega) (by simpa using hle) (hlt.trans (sub_lt_self _ (by positivity)))
  obtain ⟨m'', e'', h'', hround, hlo, hhi, hexp, -, herror⟩ :=
    @exists_roundWithAccuracy (s * s') M E hprod (by omega)
  have hfinite : e'' ≤ 971 := by
    by_contra! hcon
    have hlarge := le_value_of_exponent hlo (by omega : 972 ≤ e'')
    have hsmall : (2 : ℚ) ^ ((M.log2 : ℤ) - 53 + E) ≤ 2 ^ (970 : ℤ) :=
      zpow_le_zpow_right₀ (by norm_num) (by omega)
    linarith
  show (Float.Model.pack (mul .binary64 x.toModel.unpack y.toModel.unpack)).unpack.isInf = false
  rw [hx, hy, mul, hM, hE, hround, unpack_pack h'' hlo hhi (by omega) hfinite]
  rfl

end TableQuery.Decimal
