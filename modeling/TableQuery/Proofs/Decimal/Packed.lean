import Mathlib

/-!
# Doubles in bits

A double is packed into 64 bits. The laws of packing are in no module of Mathlib alone, but come
with the library as a whole, which only this module imports.

## Main results

* `Decimal.unpack_pack` — a mantissa of 53 bits is unpacked as it was packed.
* `Decimal.eq_notANumber_of_pack`, `Decimal.toFloat_ne_nan` — the double of a word is a number.
-/

namespace TableQuery.Decimal

open Float.Model (Format UnpackedFloat)
open Float.Model.UnpackedFloat

/-- A mantissa of 53 bits is packed and unpacked again if its exponent is within the range of
doubles. -/
theorem unpack_pack {s : Sign} {m : Nat} {e : Int} (h : 0 < m) (hlo : 2 ^ 52 ≤ m)
    (hhi : m < 2 ^ 53) (he : -1074 ≤ e) (he' : e ≤ 971) :
    (Float.Model.pack (.finite s m e h)).unpack = .finite s m e h := by
  have hlog : m.log2 + 1 = Format.binary64.mantissaBits := by
    rw [(Nat.log2_eq_iff (by omega)).mpr ⟨hlo, hhi⟩]
    rfl
  have hpack : UnpackedFloat.pack .binary64 (.finite s m e h) =
      packComponents .binary64 s (BitVec.ofNat 11 (e + 1075).toNat) (BitVec.ofNat 52 m) := by
    have hfield : (e + Format.binary64.exponentBias + Format.binary64.mantissaBitsWithoutImplicit) =
        e + 1075 := by
      simp only [Format.exponentBias]
      omega
    unfold UnpackedFloat.pack
    simp only [hfield]
    rw [if_neg (by norm_num; omega), if_pos hlog]
  have hexponent : (BitVec.ofNat 11 (e + 1075).toNat).toNat = (e + 1075).toNat := by
    rw [BitVec.toNat_ofNat, Nat.mod_eq_of_lt (by omega)]
  have hmantissa : (1#1 ++ BitVec.ofNat 52 m).toNat = m := by
    rw [BitVec.toNat_append, ← Nat.shiftLeft_add_eq_or_of_lt (BitVec.isLt _), BitVec.toNat_ofNat,
      Nat.shiftLeft_eq]
    simp
    omega
  have hne {v : BitVec 11} (hv : v.toNat ≠ (e + 1075).toNat) :
      BitVec.ofNat 11 (e + 1075).toNat ≠ v := by
    rintro rfl
    exact hv hexponent
  have hones := @hne (-1#11) (by simp; omega)
  have hzero := @hne 0#11 (by simp; omega)
  unfold Float.Model.unpack Float.Model.pack
  simp only [hpack]
  unfold UnpackedFloat.unpack
  simp only [unpackMantissa_packComponents, unpackExponent_packComponents,
    unpackSign_packComponents, Sign.ofBitVec_toBitVec, hones, hzero, if_false, hexponent,
    hmantissa, Format.exponentBias]
  congr 1
  omega

/-- Nothing but what is no number is packed as no number. -/
theorem eq_notANumber_of_pack {a : UnpackedFloat}
    (h : (Float.Model.pack a).isNaN = true) : a = .notANumber := by
  have hbits := (UnpackedFloat.isNaN_unpack_iff_of_valid UnpackedFloat.valid_pack).mp h
  have hexponent := congrArg UnpackedFloat.unpackExponent hbits
  have hmantissa := congrArg UnpackedFloat.unpackMantissa hbits
  rw [UnpackedFloat.packedNaN, UnpackedFloat.unpackExponent_packComponents] at hexponent
  rw [UnpackedFloat.packedNaN, UnpackedFloat.unpackMantissa_packComponents] at hmantissa
  have hquiet : (0 : BitVec 52) ≠ 1#52 <<< (52 - 1) := by decide
  cases a with
  | notANumber => rfl
  | infinity s =>
    rw [UnpackedFloat.pack, UnpackedFloat.packedInfinity,
      UnpackedFloat.unpackMantissa_packComponents] at hmantissa
    exact absurd hmantissa hquiet
  | zero s =>
    rw [UnpackedFloat.pack, UnpackedFloat.packedZero,
      UnpackedFloat.unpackMantissa_packComponents] at hmantissa
    exact absurd hmantissa hquiet
  | finite s m e hm =>
    simp only [UnpackedFloat.pack] at hexponent hmantissa
    split at hexponent
    · next hinfinite =>
      rw [if_pos hinfinite, UnpackedFloat.packedInfinity,
        UnpackedFloat.unpackMantissa_packComponents] at hmantissa
      exact absurd hmantissa hquiet
    · next hfinite =>
      split at hexponent
      · rw [UnpackedFloat.unpackExponent_packComponents] at hexponent
        have hfield := congrArg BitVec.toNat hexponent
        simp only [BitVec.toNat_ofNat, BitVec.toNat_neg] at hfield
        rw [Nat.mod_eq_of_lt (by simp at hfinite; omega)] at hfield
        simp at hfield hfinite
        omega
      · rw [UnpackedFloat.unpackExponent_packComponents] at hexponent
        exact absurd hexponent (by decide)

/-- The double of a word is a number. -/
theorem toFloat_ne_nan (u : UInt64) : u.toFloat ≠ Float.nan := by
  intro h
  have hnan : u.toFloat.isNaN = true := by
    rw [Float.isNaN_eq_decide_eq_nan, h, decide_eq_true rfl]
  have hunpacked := eq_notANumber_of_pack hnan
  unfold UnpackedFloat.ofUInt64 UnpackedFloat.ofNat UnpackedFloat.ofInt UnpackedFloat.normalize
    at hunpacked
  have hround (s : UnpackedFloat.Sign) (m : Nat) (e : Int) :
      UnpackedFloat.round .binary64 s m e ≠ .notANumber := by
    unfold UnpackedFloat.round UnpackedFloat.roundWithAccuracy
    dsimp only
    split <;> simp
  split at hunpacked
  · exact hround _ _ _ hunpacked
  · cases hunpacked
  · exact hround _ _ _ hunpacked

end TableQuery.Decimal
