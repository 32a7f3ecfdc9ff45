import Mathlib.Tactic.Tauto
import TableQuery.Proofs.Decimal.Nearest
import TableQuery.Proofs.Decimal.Packed
import TableQuery.Proofs.Decimal.Written
import TableQuery.Proofs.Text.Numeral
import TableQuery.Proofs.Text.Split
import TableQuery.ValueFormat.Render

/-!
# Written doubles are read back

The general notation of a double has the fewest digits that round to it, positionally or with an
exponent. Reading these digits leads back to the double; only the sign of zero is lost.

## Main definitions

* `Decimal.Positional` — digits with at most one point among them.
* `Decimal.Denotes` — a text that is read as the double nearest to a number.

## Main results

* `Decimal.Positional.denotes`, `Decimal.Positional.denotes_exponent` — digits denote the number
  that they mean, also with an exponent.
* `Decimal.readFloat?_of_denotes` — what denotes the shortest digits of a double is read as it.
* `Decimal.readFloat?_general` — so a double in general notation is read back.
-/

namespace TableQuery.Decimal

open TableQuery.Text (digits isBlank padStart readDigitsOnto? readInt? readNat? signed splitFirst?
  splitFirst?_append splitFirst?_of_notMem Written)

/-! ## Digits -/

theorem readNat?_of_isDigit {s : List Char} (hs : s ≠ []) (h : ∀ c ∈ s, c.isDigit = true) :
    readNat? 10 s = some (Nat.ofDigitChars 10 s 0) := by
  have honto (value : Nat) (s : List Char) (h : ∀ c ∈ s, c.isDigit = true) :
      readDigitsOnto? 10 value s = some (Nat.ofDigitChars 10 s value) := by
    induction s generalizing value with
    | nil => rfl
    | cons c s ih =>
      rw [List.forall_mem_cons] at h
      have hc : 48 ≤ c.toNat ∧ c.toNat ≤ 57 := by
        have := h.1
        simp only [Char.isDigit, Bool.and_eq_true, decide_eq_true_eq] at this
        exact this
      have hvalue : Text.digitValue? 10 c = some (c.toNat - 48) := by
        simp [Text.digitValue?, hc]
        omega
      rw [readDigitsOnto?, hvalue, Option.bind_some, ih _ h.2, Nat.ofDigitChars_cons]
      simp [Nat.mul_comm]
  cases s with
  | nil => exact absurd rfl hs
  | cons c s => exact honto 0 (c :: s) h

/-- Digits with at most one point among them, which is not in front. -/
inductive Positional : List Char → Prop where
  | whole {a : List Char} (hne : a ≠ []) (ha : ∀ c ∈ a, c.isDigit = true) : Positional a
  | pointed {a b : List Char} (hne : a ≠ []) (ha : ∀ c ∈ a, c.isDigit = true)
      (hb : ∀ c ∈ b, c.isDigit = true) : Positional (a ++ '.' :: b)

namespace Positional

variable {s : List Char}

theorem isDigit_or_eq (h : Positional s) {c : Char} (hc : c ∈ s) : c.isDigit = true ∨ c = '.' := by
  cases h with
  | whole _ ha => exact .inl (ha c hc)
  | pointed _ ha hb =>
    rcases List.mem_append.mp hc with hc | hc
    · exact .inl (ha c hc)
    · rcases List.mem_cons.mp hc with rfl | hc
      · exact .inr rfl
      · exact .inl (hb c hc)

theorem not_isBlank (h : Positional s) {c : Char} (hc : c ∈ s) : isBlank c = false := by
  rcases h.isDigit_or_eq hc with hdigit | rfl
  · exact Text.not_isBlank_of_isDigit hdigit
  · rfl

theorem exists_cons (h : Positional s) : ∃ c t, s = c :: t ∧ c.isDigit = true := by
  cases h with
  | whole hne ha =>
    obtain ⟨c, t, rfl⟩ := List.exists_cons_of_ne_nil hne
    exact ⟨c, t, rfl, ha c List.mem_cons_self⟩
  | pointed hne ha hb =>
    obtain ⟨c, t, rfl⟩ := List.exists_cons_of_ne_nil hne
    exact ⟨c, _, rfl, ha c List.mem_cons_self⟩

theorem point_notMem {a : List Char} (ha : ∀ c ∈ a, c.isDigit = true) : '.' ∉ a := fun h =>
  absurd (ha '.' h) (by decide)

/-- The digits are read as the number that the text means. -/
theorem exists_readMantissa? (h : Positional s) : ∃ n places, readMantissa? s = some (n, places) ∧
    textValue s = n * 10 ^ (-(places : ℤ)) := by
  cases h with
  | whole hne ha =>
    have hpoint := point_notMem ha
    refine ⟨Nat.ofDigitChars 10 s 0, 0, ?_, ?_⟩
    · simp [readMantissa?, splitFirst?_of_notMem hpoint, readNat?_of_isDigit hne ha]
    · rw [textValue_of_point_notMem hpoint]
      simp
  | @pointed a b hne ha hb =>
    have hsplit : splitFirst? (· == '.') (a ++ '.' :: b) = some (a, b) :=
      splitFirst?_append (fun c hc => by
        simpa using fun heq : c = '.' => point_notMem ha (heq ▸ hc)) rfl
    have hread : readNat? 10 (a ++ b) = some (Nat.ofDigitChars 10 (a ++ b) 0) :=
      readNat?_of_isDigit (by simp [hne]) fun c hc => (List.mem_append.mp hc).elim (ha c) (hb c)
    refine ⟨Nat.ofDigitChars 10 (a ++ b) 0, b.length, ?_, ?_⟩
    · simp [readMantissa?, hsplit, hread]
    · rw [textValue_append_point (point_notMem ha) (point_notMem hb), zpow_neg, zpow_natCast]
      rfl

end Positional

theorem positional_pointed (n places : Nat) : Positional (pointed n places) := by
  have hdigits : ∀ c ∈ digits 10 n, c.isDigit = true := fun c => Text.isDigit_of_mem_digits
  unfold pointed
  split
  · exact .whole Nat.toDigits_ne_nil hdigits
  · have hpad : ∀ c ∈ padStart '0' (places + 1) (digits 10 n), c.isDigit = true := by
      intro c hc
      rcases List.mem_append.mp hc with hc | hc
      · rw [List.eq_of_mem_replicate hc]
        rfl
      · exact hdigits c hc
    have hlength : places < (padStart '0' (places + 1) (digits 10 n)).length := by
      rw [Text.length_padStart]
      omega
    refine .pointed ?_ (fun c hc => hpad c (List.mem_of_mem_take hc))
      fun c hc => hpad c (List.mem_of_mem_drop hc)
    intro hnil
    have := congrArg List.length hnil
    rw [List.length_take, List.length_nil] at this
    omega

theorem Scientific.positional_positional (s : Scientific) : Positional s.positional := by
  unfold positional
  dsimp only
  split
  · refine .whole (by simp [digits]) fun c hc => ?_
    rcases List.mem_append.mp hc with hc | hc
    · exact Text.isDigit_of_mem_digits hc
    · rw [List.eq_of_mem_replicate hc]
      rfl
  · exact positional_pointed _ _

/-- The digits before the exponent have a point behind the first of them. -/
theorem Scientific.exists_withExponent (s : Scientific) : ∃ a,
    s.withExponent = a ++ 'e' :: signed s.exponent ∧ Positional a ∧
      textValue a * 10 ^ s.exponent = s.value := by
  have hvalue : Nat.ofDigitChars 10 (digits 10 s.significand) 0 = s.significand :=
    Nat.ofDigitChars_ten_toDigits
  have hdigits : ∀ c ∈ digits 10 s.significand, c.isDigit = true := fun c =>
    Text.isDigit_of_mem_digits
  have hcount := length_digits s.significand
  have hne : digits 10 s.significand ≠ [] := Nat.toDigits_ne_nil
  unfold withExponent value
  rw [← hcount]
  generalize digits 10 s.significand = ds at hvalue hdigits hne ⊢
  match ds, hne with
  | [d], _ =>
    refine ⟨[d], rfl, .whole (by simp) hdigits, ?_⟩
    rw [textValue_of_point_notMem (Positional.point_notMem hdigits), hvalue]
    simp
  | d :: r :: rest, _ =>
    rw [List.forall_mem_cons] at hdigits
    have hfirst : ∀ c ∈ [d], c.isDigit = true := by simpa using hdigits.1
    refine ⟨[d] ++ '.' :: (r :: rest), rfl, .pointed (by simp) hfirst hdigits.2, ?_⟩
    rw [textValue_append_point (Positional.point_notMem hfirst)
      (Positional.point_notMem hdigits.2), List.singleton_append, hvalue, List.length_cons (a := d)]
    push_cast
    rw [show s.exponent + 1 - (((r :: rest).length : ℤ) + 1) =
      s.exponent - ((r :: rest).length : ℕ) by ring, zpow_sub₀ (by norm_num), zpow_natCast]
    ring

/-! ## Reading without a sign -/

theorem toLower_of_isDigit {c : Char} (hc : c.isDigit = true) : c.toLower = c := by
  simp only [Char.isDigit, Bool.and_eq_true, decide_eq_true_eq] at hc
  have hcapital : ¬ (65 ≤ c.val ∧ c.val ≤ 90) := by
    rintro ⟨h, -⟩
    exact absurd (UInt32.le_trans h hc.2) (by decide)
  simp only [Char.toLower]
  split
  · next h => exact absurd h hcapital
  · rfl

/-- The text begins with a digit and is read as the double nearest to the number. -/
def Denotes (s : List Char) (v : ℚ) : Prop :=
  (∃ c t, s = c :: t ∧ c.isDigit = true) ∧ ∃ (n : Nat) (k : ℤ), v = n * 10 ^ k ∧
    ∀ negative, readUnsigned? negative s = some (ofScientific negative n k)

section Denotes

variable {s t : List Char} {k : ℤ} {v : ℚ}

/-- A text that begins with a digit is no name of a double, but a mantissa, which an exponent may
follow. -/
theorem readUnsigned?_of_isDigit {c : Char} (hc : c.isDigit = true) {mantissa : List Char}
    {n places : Nat} {e : ℤ} (hread : readMantissa? mantissa = some (n, places))
    (hsplit : splitFirst? (fun c => c == 'e' || c == 'E') (c :: s) = none ∧
        mantissa = c :: s ∧ e = 0 ∨
      ∃ t, splitFirst? (fun c => c == 'e' || c == 'E') (c :: s) = some (mantissa, t) ∧
        readInt? 10 t = some e) (negative : Bool) :
    readUnsigned? negative (c :: s) = some (ofScientific negative n (e - places)) := by
  have hname {d : Char} {name : List Char} (hd : d.isDigit = false) :
      lowered (c :: s) ≠ d :: name := by
    intro h
    have hhead : c.toLower = d := (List.cons.inj h).1
    rw [toLower_of_isDigit hc] at hhead
    rw [← hhead, hc] at hd
    cases hd
  have hinf : lowered (c :: s) ≠ "inf".toList := hname rfl
  have hinfinity : lowered (c :: s) ≠ "infinity".toList := hname rfl
  have hnan : lowered (c :: s) ≠ "nan".toList := hname rfl
  unfold readUnsigned?
  simp only [hinf, hinfinity, hnan, decide_false, Bool.or_false, Bool.false_eq_true, if_false]
  obtain ⟨hnone, rfl, rfl⟩ | ⟨t, hsome, he⟩ := hsplit
  · simp only [hnone, hread]
  · simp only [hsome, he, hread]

theorem Positional.exponent_notMem (h : Positional s) {d : Char} (hd : d ∈ s) :
    (d == 'e' || d == 'E') = false := by
  rcases h.isDigit_or_eq hd with hdigit | rfl
  · have he : d ≠ 'e' := fun heq => absurd (heq ▸ hdigit) (by decide)
    have hE : d ≠ 'E' := fun heq => absurd (heq ▸ hdigit) (by decide)
    simp [he, hE]
  · rfl

theorem Positional.denotes (h : Positional s) : Denotes s (textValue s) := by
  obtain ⟨n, places, hread, hvalue⟩ := h.exists_readMantissa?
  obtain ⟨c, t, hs, hc⟩ := h.exists_cons
  refine ⟨⟨c, t, hs, hc⟩, n, 0 - places, by rw [hvalue, zero_sub], ?_⟩
  have hsplit : splitFirst? (fun c => c == 'e' || c == 'E') s = none := by
    rw [splitFirst?, List.span_eq_takeWhile_dropWhile, List.dropWhile_eq_nil_iff.mpr]
    intro d hd
    simpa using h.exponent_notMem hd
  rw [hs] at hsplit hread ⊢
  exact readUnsigned?_of_isDigit hc hread (.inl ⟨hsplit, rfl, rfl⟩)

theorem Positional.denotes_exponent (h : Positional s) (ht : Written 10 k t) :
    Denotes (s ++ 'e' :: t) (textValue s * 10 ^ k) := by
  obtain ⟨n, places, hread, hvalue⟩ := h.exists_readMantissa?
  obtain ⟨c, u, hs, hc⟩ := h.exists_cons
  refine ⟨⟨c, u ++ 'e' :: t, by rw [hs]; rfl, hc⟩, n, k - places, ?_, ?_⟩
  · rw [hvalue, sub_eq_add_neg, zpow_add₀ (by norm_num)]
    ring
  · have hsplit : splitFirst? (fun c => c == 'e' || c == 'E') (s ++ 'e' :: t) = some (s, t) :=
      splitFirst?_append (fun d hd => h.exponent_notMem hd) rfl
    have hexponent : readInt? 10 t = some k := Text.readInt?_written (by norm_num) (by norm_num) ht
    rw [hs, List.cons_append] at hsplit ⊢
    exact readUnsigned?_of_isDigit hc (hs ▸ hread) (.inr ⟨t, hsplit, hexponent⟩)

end Denotes

/-- The exponent keeps its value when it is filled up to two digits. -/
theorem exists_signedExponent {s : List Char} (hs : 'e' ∉ s) (k : ℤ) :
    ∃ t, ValueFormat.signedExponent (s ++ 'e' :: signed k) = s ++ 'e' :: t ∧ Written 10 k t := by
  have hsplit : splitFirst? (· == 'e') (s ++ 'e' :: signed k) = some (s, signed k) :=
    splitFirst?_append (fun d hd => by simpa using fun heq : d = 'e' => hs (heq ▸ hd)) rfl
  unfold ValueFormat.signedExponent
  rw [hsplit]
  by_cases hk : k < 0
  · simp only [signed, if_pos hk]
    exact ⟨_, rfl, .minus _ hk⟩
  · have hdigits : ∀ c ∈ signed k, c ≠ '-' := by
      rw [signed, if_neg hk]
      exact fun c hc => Text.ne_of_mem_digits hc rfl
    have hplus : Written 10 k ('+' :: padStart '0' 2 (signed k)) := by
      rw [signed, if_neg hk]
      exact .plus _ (by omega)
    generalize signed k = u at hdigits hplus
    split
    · next heq => simp at heq
    · next heq =>
      obtain ⟨rfl, rfl⟩ := Prod.mk.inj (Option.some.inj heq)
      exact absurd rfl (hdigits _ List.mem_cons_self)
    · next heq =>
      obtain ⟨rfl, rfl⟩ := Prod.mk.inj (Option.some.inj heq)
      exact ⟨_, rfl, hplus⟩

/-! ## Reading a double -/

theorem readFloat?_withSign {negative : Bool} {s : List Char} {v : ℚ} (h : Denotes s v) :
    readFloat? (withSign negative s) = readUnsigned? negative s := by
  obtain ⟨⟨c, t, rfl, hc⟩, -⟩ := h
  cases negative with
  | true => rfl
  | false =>
    unfold readFloat? withSign
    split
    · next heq =>
      rw [(List.cons.inj heq).1] at hc
      exact absurd hc (by decide)
    · next heq =>
      rw [(List.cons.inj heq).1] at hc
      exact absurd hc (by decide)
    · rfl

/-- The bits of a double are those without the sign and the sign. -/
theorem ofBits_of_sign {x : Float} {b : Nat} {negative : Bool} (hb : x.toBits.toNat % 2 ^ 63 = b)
    (hs : negative = decide (2 ^ 63 ≤ x.toBits.toNat)) :
    Float.ofBits (UInt64.ofNat (b + if negative then 2 ^ 63 else 0)) = x := by
  have hlt := toBits_lt x
  have hbits : b + (if negative then 2 ^ 63 else 0) = x.toBits.toNat := by
    subst hb hs
    simp only [decide_eq_true_eq]
    split <;> omega
  rw [hbits, UInt64.ofNat_toNat, Float.ofBits_toBits]

theorem bits_lt_of_finite {x : Float} {negative : Bool} {m : Magnitude}
    (h : Number.ofFloat x = .finite negative m) : x.toBits.toNat % 2 ^ 63 < 2047 * 2 ^ 52 := by
  simp only [Number.ofFloat, Number.ofBits, Nat.pow_eq] at h
  split at h
  · split at h <;> cases h
  · omega

/-- What denotes the shortest digits of a double is read as the double. -/
theorem readFloat?_of_denotes {x : Float} {negative : Bool} {m : Magnitude} {s : List Char}
    (hx : Number.ofFloat x = .finite negative m) (hm : m.isZero = false)
    (h : Denotes s m.toShortest.value) : readFloat? (withSign negative s) = some x := by
  obtain ⟨hsign, hb⟩ := Number.ofBits_eq_finite hx (toBits_lt x)
  have hfinite := bits_lt_of_finite hx
  rw [readFloat?_withSign h]
  obtain ⟨-, n, k, hvalue, hread⟩ := h
  subst hb
  have hpos : 0 < x.toBits.toNat % 2 ^ 63 := by
    refine Nat.pos_of_ne_zero fun hzero => ?_
    rw [Magnitude.isZero_ofPosition.mpr hzero] at hm
    cases hm
  have hcontains := Magnitude.contains_toShortest hm (Magnitude.mantissa_ofPosition_lt _)
  rw [hvalue] at hcontains
  rw [hread, ofScientific_of_contains hpos hfinite hcontains, ofBits_of_sign rfl hsign]

/-- Both zeros are equal, and to the same doubles. -/
theorem beq_of_isZero {x : Float} {negative : Bool} {m : Magnitude}
    (hx : Number.ofFloat x = .finite negative m) (hm : m.isZero = true) (z : Float) :
    (z == 0) = (z == x) := by
  obtain ⟨-, rfl⟩ := Number.ofBits_eq_finite hx (toBits_lt x)
  have hb := Magnitude.isZero_ofPosition.mp hm
  have hlt := toBits_lt x
  have hplus : (0 : Float).toBits.toNat = 0 := by decide
  have hminus : (-0 : Float).toBits.toNat = 2 ^ 63 := by decide
  have hzero : x = 0 ∨ x = -0 := by
    rcases Nat.lt_or_ge x.toBits.toNat (2 ^ 63) with h | h
    · exact .inl (eq_of_toBits (UInt64.toNat_inj.mp (by omega)))
    · exact .inr (eq_of_toBits (UInt64.toNat_inj.mp (by omega)))
  have hplus' : (0 : Float) ≠ Float.nan := by decide
  have hminus' : (-0 : Float) ≠ Float.nan := by decide
  rcases hzero with rfl | rfl
  · rfl
  · rw [Bool.eq_iff_iff, Float.beq_iff_ne_nan_and_eq, Float.beq_iff_ne_nan_and_eq]
    simp only [hplus', hminus', ne_eq, not_false_eq_true, true_and, and_true]
    refine and_congr_right fun _ => ?_
    tauto

/-- The general notation of a double that is not zero denotes its shortest digits. -/
theorem general_finite {x : Float} {negative : Bool} {m : Magnitude}
    (hx : Number.ofFloat x = .finite negative m) (hm : m.isZero = false) :
    ∃ s, ValueFormat.general none x = withSign negative s ∧ Denotes s m.toShortest.value ∧
      ∀ c ∈ s, isBlank c = false := by
  have hgeneral : ValueFormat.general none x = ValueFormat.generalShortest x := by
    simp [ValueFormat.general, hx, hm]
  rw [hgeneral]
  unfold ValueFormat.generalShortest
  dsimp only
  split
  · obtain ⟨a, ha, hpositional, hvalue⟩ := m.toShortest.exists_withExponent
    have hwith : exponential x = withSign negative (a ++ 'e' :: signed m.toShortest.exponent) := by
      rw [exponential, writeWith, hx, ← ha]
    have hnot : 'e' ∉ withSign negative a := by
      rw [mem_withSign (by decide)]
      exact fun h => absurd (hpositional.exponent_notMem h) (by decide)
    have hsplit (t : List Char) : withSign negative (a ++ t) = withSign negative a ++ t := by
      cases negative <;> rfl
    obtain ⟨t, ht, hwritten⟩ := exists_signedExponent hnot m.toShortest.exponent
    refine ⟨a ++ 'e' :: t, ?_, hvalue ▸ hpositional.denotes_exponent hwritten, ?_⟩
    · rw [hwith, hsplit, ht, hsplit]
    · intro c hc
      rcases List.mem_append.mp hc with hc | hc
      · exact hpositional.not_isBlank hc
      rcases List.mem_cons.mp hc with rfl | hc
      · rfl
      · exact hwritten.not_isBlank (by norm_num) (by norm_num) c hc
  · refine ⟨m.toShortest.positional, ?_, ?_, ?_⟩
    · rw [plain_eq, hx]
    · rw [← textValue_positional]
      exact m.toShortest.positional_positional.denotes
    · exact fun c hc => m.toShortest.positional_positional.not_isBlank hc

/-- No notation of a double has blanks. -/
theorem not_isBlank_general (x : Float) : ∀ c ∈ ValueFormat.general none x, isBlank c = false := by
  cases hn : Number.ofFloat x with
  | nan =>
    simp [ValueFormat.general, hn, isBlank]
  | infinite negative =>
    cases negative <;> simp [ValueFormat.general, hn, isBlank]
  | finite negative m =>
    cases hm : m.isZero with
    | true =>
      simp [ValueFormat.general, hn, hm, isBlank]
    | false =>
      obtain ⟨s, hs, -, hblank⟩ := general_finite hn hm
      rw [hs]
      cases negative with
      | true => exact List.forall_mem_cons.mpr ⟨rfl, hblank⟩
      | false => exact hblank

/-- A double in general notation is read back, up to the sign of zero. -/
theorem readFloat?_general {x : Float} (hx : x ≠ Float.nan) :
    ∃ y, readFloat? (ValueFormat.general none x) = some y ∧ ∀ z, (z == y) = (z == x) := by
  cases hn : Number.ofFloat x with
  | nan =>
    have hnan : Number.ofFloat Float.nan = .nan := by decide
    exact absurd (Number.ofFloat_injective (hn.trans hnan.symm)) hx
  | infinite negative =>
    obtain ⟨hsign, hb⟩ := Number.ofBits_eq_infinite hn (toBits_lt x)
    refine ⟨x, ?_, fun _ => rfl⟩
    simp only [ValueFormat.general, hn]
    rw [← ofBits_of_sign hb hsign]
    cases negative <;> rfl
  | finite negative m =>
    cases hm : m.isZero with
    | true =>
      refine ⟨0, ?_, beq_of_isZero hn hm⟩
      simp only [ValueFormat.general, hn, hm, if_true]
      decide
    | false =>
      obtain ⟨s, hs, hdenotes, -⟩ := general_finite hn hm
      exact ⟨x, hs ▸ readFloat?_of_denotes hn hm hdenotes, fun _ => rfl⟩

end TableQuery.Decimal
