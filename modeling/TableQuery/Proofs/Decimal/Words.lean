import TableQuery.Proofs.Decimal.Order
import TableQuery.Proofs.Decimal.Rounding

/-!
# The order of the doubles of words

A word as a double is the nearest whole number of 53 bits. So the doubles of two words are in the
order of these numbers, which is the order of the words where the numbers differ.

## Main definitions

* `Decimal.nearestInt` — the whole number of 53 bits, with a sign, that is nearest to a whole
  number.
* `Decimal.IsWhole` — a double that was taken apart is a whole number.

## Main results

* `Decimal.nearestInt_mono` — rounding keeps the order of whole numbers, if not strictly.
* `Decimal.compare_nearestInt_eq_iff` — it keeps that of two numbers as long as they stay apart.
* `Decimal.compareFloats?_of_isWhole` — doubles that are whole numbers have their order.
* `Decimal.isWhole_toFloat`, `Decimal.isWhole_ofInt64` — words as doubles.
-/

namespace TableQuery.Decimal

open Float.Model (UnpackedFloat)
open Float.Model.UnpackedFloat (Sign)

/-! ## The nearest numbers -/

section Nearest

variable {m n : Nat}

theorem nearestEven_mono {den : Nat} (hd : 0 < den) (h : m ≤ n) :
    nearestEven m den ≤ nearestEven n den := by
  rcases (Nat.div_le_div_right h : m / den ≤ n / den).lt_or_eq with hlt | heq
  · have hm : m < (m / den + 1) * den := (Nat.div_lt_iff_lt_mul hd).mp (Nat.lt_succ_self _)
    calc nearestEven m den ≤ m / den + 1 := nearestEven_le hd hm
      _ ≤ n / den := hlt
      _ ≤ nearestEven n den := le_nearestEven hd (Nat.div_mul_le_self n den)
  · have hrest : m % den ≤ n % den := by
      have hm := Nat.div_add_mod m den
      have hn := Nat.div_add_mod n den
      rw [heq] at hm
      omega
    unfold nearestEven
    rw [heq]
    dsimp only
    split_ifs <;> omega

/-- Numbers of 53 bits are kept. -/
theorem nearest_of_lt (h : n < 2 ^ 53) : nearest n = n := by
  have hlog : n.log2 - 52 = 0 := by
    rcases Nat.eq_zero_or_pos n with rfl | hn
    · rfl
    · have := (Nat.log2_lt hn.ne').mpr h
      omega
  rw [nearest, hlog, pow_zero, nearestEven_one, mul_one]

/-- Rounding stays between two powers. -/
theorem nearest_bounds (hn : n ≠ 0) : 2 ^ n.log2 ≤ nearest n ∧ nearest n ≤ 2 ^ (n.log2 + 1) := by
  have hlo := Nat.log2_self_le hn
  have hhi : n < 2 ^ (n.log2 + 1) := Nat.lt_log2_self
  rcases Nat.lt_or_ge n.log2 53 with hsmall | hlarge
  · have hfits : n < 2 ^ 53 := hhi.trans_le (Nat.pow_le_pow_right (by norm_num) hsmall)
    rw [nearest_of_lt hfits]
    exact ⟨hlo, hhi.le⟩
  · have hd : 0 < 2 ^ (n.log2 - 52) := by positivity
    have hlo' : 2 ^ 52 * 2 ^ (n.log2 - 52) = 2 ^ n.log2 := by
      rw [← Nat.pow_add]
      congr 1
      omega
    have hhi' : 2 ^ 53 * 2 ^ (n.log2 - 52) = 2 ^ (n.log2 + 1) := by
      rw [← Nat.pow_add]
      congr 1
      omega
    rw [← hlo'] at hlo ⊢
    rw [← hhi'] at hhi ⊢
    exact ⟨Nat.mul_le_mul_right _ (le_nearestEven hd hlo),
      Nat.mul_le_mul_right _ (nearestEven_le hd hhi)⟩

theorem nearest_mono (h : m ≤ n) : nearest m ≤ nearest n := by
  rcases Nat.eq_zero_or_pos m with rfl | hm
  · rw [nearest_of_lt (by norm_num)]
    exact Nat.zero_le _
  · have hn : n ≠ 0 := by omega
    have hlog : m.log2 ≤ n.log2 := (Nat.le_log2 hn).mpr ((Nat.log2_self_le hm.ne').trans h)
    rcases hlog.lt_or_eq with hlt | heq
    · calc nearest m ≤ 2 ^ (m.log2 + 1) := (nearest_bounds hm.ne').2
        _ ≤ 2 ^ n.log2 := Nat.pow_le_pow_right (by norm_num) hlt
        _ ≤ nearest n := (nearest_bounds hn).1
    · unfold nearest
      rw [heq]
      exact Nat.mul_le_mul_right _ (nearestEven_mono (by positivity) h)

end Nearest

/-- The whole number of 53 bits, with a sign, that is nearest to a whole number. -/
def nearestInt (i : ℤ) : ℤ :=
  i.sign * nearest i.natAbs

section NearestInt

variable {i j : ℤ}

theorem nearestInt_natCast (n : Nat) : nearestInt n = nearest n := by
  rcases Nat.eq_zero_or_pos n with rfl | hn
  · rfl
  · rw [nearestInt, Int.sign_eq_one_of_pos (by omega), one_mul, Int.natAbs_natCast]

theorem nearestInt_neg (i : ℤ) : nearestInt (-i) = -nearestInt i := by
  rw [nearestInt, nearestInt, Int.sign_neg, Int.natAbs_neg, neg_mul]

theorem nearestInt_mono : Monotone nearestInt := by
  have hnonneg {i j : ℤ} (hi : 0 ≤ i) (h : i ≤ j) : nearestInt i ≤ nearestInt j := by
    obtain ⟨m, rfl⟩ := Int.eq_ofNat_of_zero_le hi
    obtain ⟨n, rfl⟩ := Int.eq_ofNat_of_zero_le (hi.trans h)
    rw [nearestInt_natCast, nearestInt_natCast]
    exact_mod_cast nearest_mono (by exact_mod_cast h)
  have hzero : nearestInt 0 = 0 := rfl
  intro i j h
  rcases Int.le_total 0 i with hi | hi
  · exact hnonneg hi h
  · rcases Int.le_total 0 j with hj | hj
    · have hj' := hnonneg le_rfl hj
      have hi' := hnonneg le_rfl (Int.neg_nonneg.mpr hi)
      rw [nearestInt_neg] at hi'
      omega
    · have h' := hnonneg (Int.neg_nonneg.mpr hj) (neg_le_neg h)
      rw [nearestInt_neg, nearestInt_neg] at h'
      omega

theorem nearestInt_of_lt (h : i.natAbs < 2 ^ 53) : nearestInt i = i := by
  rw [nearestInt, nearest_of_lt h, Int.sign_mul_natAbs]

/-- A number of 53 bits stays apart from all others. -/
theorem eq_of_nearestInt_eq (hi : i.natAbs < 2 ^ 53) (h : nearestInt i = nearestInt j) :
    i = j := by
  rw [nearestInt_of_lt hi] at h
  rcases Nat.lt_or_ge j.natAbs (2 ^ 53) with hj | hj
  · rw [h, nearestInt_of_lt hj]
  · have hlarge : 2 ^ 53 ≤ nearest j.natAbs :=
      (nearest_bounds (n := 2 ^ 53) (by norm_num)).1.trans (nearest_mono hj)
    have hsign : j.sign.natAbs = 1 := Int.natAbs_sign_of_ne_zero (by omega)
    have habs := congrArg Int.natAbs h
    rw [nearestInt, Int.natAbs_mul, hsign, one_mul, Int.natAbs_natCast] at habs
    omega

/-- Rounding keeps the order of two numbers as long as they stay apart. -/
theorem compare_nearestInt_eq_iff :
    compare (nearestInt i) (nearestInt j) = compare i j ↔
      (nearestInt i = nearestInt j → i = j) := by
  rcases lt_trichotomy i j with hlt | rfl | hgt
  · have hle := nearestInt_mono hlt.le
    rw [compare_lt_iff_lt.mpr hlt, compare_lt_iff_lt]
    omega
  · simp
  · have hle := nearestInt_mono hgt.le
    rw [compare_gt_iff_gt.mpr hgt, compare_gt_iff_gt]
    omega

end NearestInt

/-! ## Doubles that are whole numbers -/

/-- A double that was taken apart is a whole number, with a mantissa of 53 bits unless it is
zero. -/
inductive IsWhole : UnpackedFloat → ℤ → Prop
  | zero (s : Sign) : IsWhole (.zero s) 0
  | positive {m n : Nat} {e : ℤ} (h : 0 < m) (hlo : 2 ^ 52 ≤ m) (hhi : m < 2 ^ 53)
      (hvalue : (m : ℚ) * 2 ^ e = n) : IsWhole (.finite .positive m e h) n
  | negative {m n : Nat} {e : ℤ} (h : 0 < m) (hlo : 2 ^ 52 ≤ m) (hhi : m < 2 ^ 53)
      (hvalue : (m : ℚ) * 2 ^ e = n) : IsWhole (.finite .negative m e h) (-n)

section Compare

variable {m m' n n' : Nat} {e e' : ℤ}

theorem lt_of_exponent_lt (hhi : m < 2 ^ 53) (hlo' : 2 ^ 52 ≤ m') (h : e < e') :
    (m : ℚ) * 2 ^ e < m' * 2 ^ e' := by
  have hm : (m : ℚ) < 2 ^ 53 := by exact_mod_cast hhi
  have hm' : (2 : ℚ) ^ 52 ≤ m' := by exact_mod_cast hlo'
  calc (m : ℚ) * 2 ^ e < 2 ^ 53 * 2 ^ e := mul_lt_mul_of_pos_right hm (by positivity)
    _ = 2 ^ 52 * 2 ^ (e + 1) := by
      rw [zpow_add_one₀ (by norm_num)]
      ring
    _ ≤ m' * 2 ^ e' :=
      mul_le_mul hm' (zpow_le_zpow_right₀ (by norm_num) h) (by positivity) (by positivity)

/-- Numbers with mantissas of 53 bits are in order by the exponent first. -/
theorem compare_exponent_then (hlo : 2 ^ 52 ≤ m) (hhi : m < 2 ^ 53)
    (hvalue : (m : ℚ) * 2 ^ e = n) (hlo' : 2 ^ 52 ≤ m') (hhi' : m' < 2 ^ 53)
    (hvalue' : (m' : ℚ) * 2 ^ e' = n') :
    (compare e e').then (compare m m') = compare n n' := by
  rcases lt_trichotomy e e' with hlt | rfl | hgt
  · have hless := lt_of_exponent_lt hhi hlo' hlt
    rw [hvalue, hvalue', Nat.cast_lt] at hless
    rw [compare_lt_iff_lt.mpr hlt, compare_lt_iff_lt.mpr hless]
    rfl
  · have hu : StrictMono fun x : ℚ => x * 2 ^ e :=
      fun a b h => mul_lt_mul_of_pos_right h (by positivity)
    have hm := hu.cmp_map_eq m m'
    rw [hvalue, hvalue', Nat.strictMono_cast.cmp_map_eq, Nat.strictMono_cast.cmp_map_eq] at hm
    rw [compare_eq_iff_eq.mpr rfl, Ordering.eq_then, ← cmp_eq_compare, ← cmp_eq_compare, hm]
  · have hless := lt_of_exponent_lt hhi' hlo hgt
    rw [hvalue, hvalue', Nat.cast_lt] at hless
    rw [compare_gt_iff_gt.mpr hgt, compare_gt_iff_gt.mpr hless]
    rfl

theorem pos_of_value (h : 0 < m) (hvalue : (m : ℚ) * 2 ^ e = n) : 0 < n := by
  have hpos : (0 : ℚ) < m * 2 ^ e := by positivity
  rw [hvalue] at hpos
  exact_mod_cast hpos

theorem IsWhole.compare {a b : UnpackedFloat} {i j : ℤ} (ha : IsWhole a i) (hb : IsWhole b j) :
    a.compare b = some (compare i j) := by
  cases ha with
  | zero s =>
    cases hb with
    | zero s' => rfl
    | positive h' hlo' hhi' hvalue' =>
      have hn' := pos_of_value h' hvalue'
      rw [compare_lt_iff_lt.mpr (by omega)]
      rfl
    | negative h' hlo' hhi' hvalue' =>
      have hn' := pos_of_value h' hvalue'
      rw [compare_gt_iff_gt.mpr (by omega)]
      rfl
  | positive h hlo hhi hvalue =>
    have hn := pos_of_value h hvalue
    cases hb with
    | zero s' =>
      rw [compare_gt_iff_gt.mpr (by omega)]
      rfl
    | positive h' hlo' hhi' hvalue' =>
      rw [compare_natCast, ← compare_exponent_then hlo hhi hvalue hlo' hhi' hvalue']
      rfl
    | negative h' hlo' hhi' hvalue' =>
      rw [compare_gt_iff_gt.mpr (by omega)]
      rfl
  | negative h hlo hhi hvalue =>
    have hn := pos_of_value h hvalue
    cases hb with
    | zero s' =>
      rw [compare_lt_iff_lt.mpr (by omega)]
      rfl
    | positive h' hlo' hhi' hvalue' =>
      rw [compare_lt_iff_lt.mpr (by omega)]
      rfl
    | negative h' hlo' hhi' hvalue' =>
      rw [compare_neg, compare_natCast, ← compare_exponent_then hlo hhi hvalue hlo' hhi' hvalue']
      rfl

end Compare

/-- Doubles that are whole numbers have their order. -/
theorem compareFloats?_of_isWhole {x y : Float} {i j : ℤ} (hx : IsWhole x.toModel.unpack i)
    (hy : IsWhole y.toModel.unpack j) : compareFloats? x y = some (compare i j) := by
  rw [compareFloats?_eq, ← hx.compare hy, compare_unpacked]
  rfl

/-! ## Words -/

/-- A word as a double is the nearest number. -/
theorem isWhole_toFloat (u : UInt64) :
    IsWhole u.toFloat.toModel.unpack (nearestInt u.toNat) := by
  rw [nearestInt_natCast]
  rcases Nat.eq_zero_or_pos u.toNat with hu | hu
  · obtain rfl : u = 0 := UInt64.toNat_inj.mp hu
    exact .zero .positive
  · obtain ⟨m, e, h, hunpack, hlo, hhi, -, -, hvalue, -⟩ := exists_unpack_toFloat hu
    rw [hunpack]
    exact .positive h hlo hhi hvalue

/-- A word with the sign turned round is the nearest number with the sign turned round. -/
theorem isWhole_neg_toFloat (u : UInt64) :
    IsWhole (-u.toFloat).toModel.unpack (-nearestInt u.toNat) := by
  rw [nearestInt_natCast]
  rcases Nat.eq_zero_or_pos u.toNat with hu | hu
  · obtain rfl : u = 0 := UInt64.toNat_inj.mp hu
    exact .zero .negative
  · obtain ⟨m, e, h, hunpack, hlo, hhi, he, he', hvalue, -⟩ := exists_unpack_toFloat hu
    have hneg : (-u.toFloat).toModel.unpack = .finite .negative m e h := by
      show (Float.Model.pack u.toFloat.toModel.unpack.neg).unpack = _
      rw [hunpack]
      exact unpack_pack h hlo hhi he he'
    rw [hneg]
    exact .negative h hlo hhi hvalue

theorem isWhole_ofInt64 (x : Int64) :
    IsWhole (ofInt64 x).toModel.unpack (nearestInt x.toInt) := by
  have hlo := x.le_toInt
  have hhi := x.toInt_lt
  have hword : (UInt64.ofNat x.toInt.natAbs).toNat = x.toInt.natAbs :=
    UInt64.toNat_ofNat_of_lt' (by
      have : UInt64.size = 2 ^ 64 := rfl
      omega)
  unfold ofInt64
  by_cases hneg : x < 0
  · have hint : x.toInt < 0 := by simpa [Int64.lt_iff_toInt_lt] using hneg
    have habs : x.toInt = -(x.toInt.natAbs : ℤ) := by omega
    rw [habs, nearestInt_neg, ← habs, if_pos hneg]
    simpa only [hword] using isWhole_neg_toFloat (UInt64.ofNat x.toInt.natAbs)
  · have hint : 0 ≤ x.toInt := by simpa [Int64.lt_iff_toInt_lt] using hneg
    have habs : x.toInt = (x.toInt.natAbs : ℤ) := by omega
    rw [if_neg hneg, habs, Int.natAbs_natCast]
    simpa only [hword] using isWhole_toFloat (UInt64.ofNat x.toInt.natAbs)

end TableQuery.Decimal
