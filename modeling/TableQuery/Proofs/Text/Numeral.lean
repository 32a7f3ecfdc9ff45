import Mathlib.Algebra.Group.Int.Defs
import Mathlib.Data.List.TakeWhile
import TableQuery.Proofs.Text.Blank
import TableQuery.Text.Integer

/-!
# Written integers are read back

## Main definitions

* `Text.Written` — the digits of an integer behind a sign, filled with zeros.

## Main results

* `Text.readNat?_digits` — digits are read back, also behind zeros.
* `Text.readInt?_written`, `Text.readInt64?_written` — so are integers.
-/

namespace TableQuery.Text

variable {base n : Nat} {c : Char}

/-! ## Digits -/

theorem exists_of_mem_digits (hbase : 1 < base) (h : c ∈ digits base n) :
    ∃ d < base, c = d.digitChar := by
  induction n using Nat.strong_induction_on with
  | _ n ih =>
    rw [digits, Nat.toDigits_eq_if hbase] at h
    split at h
    · next hlt => exact ⟨n, hlt, List.mem_singleton.mp h⟩
    · next hle =>
      rcases List.mem_append.mp h with h | h
      · exact ih (n / base) (Nat.div_lt_self (by omega) hbase) h
      · exact ⟨n % base, Nat.mod_lt _ (by omega), List.mem_singleton.mp h⟩

theorem not_isBlank_of_isDigit (h : c.isDigit = true) : isBlank c = false := by
  have hbounds : 48 ≤ c.toNat ∧ c.toNat ≤ 57 := by
    simp only [Char.isDigit, Bool.and_eq_true, decide_eq_true_eq] at h
    exact h
  simp only [isBlank, Bool.or_eq_false_iff, Bool.and_eq_false_iff, decide_eq_false_iff_not]
  omega

/-- A digit is no blank and no sign. -/
theorem plain_of_mem_digits (hbase : 1 < base) (hle : base ≤ 16) (h : c ∈ digits base n) :
    isBlank c = false ∧ c ≠ '-' ∧ c ≠ '+' := by
  obtain ⟨d, hd, rfl⟩ := exists_of_mem_digits hbase h
  have hall : ∀ d < 16, isBlank (Nat.digitChar d) = false ∧ Nat.digitChar d ≠ '-' ∧
      Nat.digitChar d ≠ '+' := by
    decide
  exact hall d (by omega)

theorem digitValue?_digitChar (hle : base ≤ 16) {d : Nat} (hd : d < base) :
    digitValue? base d.digitChar = some d := by
  have hall : ∀ base < 17, ∀ d < base, digitValue? base (Nat.digitChar d) = some d := by
    decide
  exact hall base (by omega) d hd

theorem readDigitsOnto?_append (value : Nat) (s s' : List Char) :
    readDigitsOnto? base value (s ++ s') =
      (readDigitsOnto? base value s).bind fun v => readDigitsOnto? base v s' := by
  induction s generalizing value with
  | nil => rfl
  | cons c s ih =>
    rw [List.cons_append, readDigitsOnto?, readDigitsOnto?, Option.bind_assoc]
    exact Option.bind_congr fun d _ => ih _

theorem readDigitsOnto?_digits (hbase : 1 < base) (hle : base ≤ 16) (n : Nat) :
    readDigitsOnto? base 0 (digits base n) = some n := by
  induction n using Nat.strong_induction_on with
  | _ n ih =>
    rw [digits, Nat.toDigits_eq_if hbase]
    split
    · next hlt => simp [readDigitsOnto?, digitValue?_digitChar hle hlt]
    · next hge =>
      rw [← digits, readDigitsOnto?_append, ih (n / base) (Nat.div_lt_self (by omega) hbase)]
      have hdigit := digitValue?_digitChar hle (Nat.mod_lt n (by omega : 0 < base))
      simp [readDigitsOnto?, hdigit, Nat.div_add_mod']

theorem readDigitsOnto?_zeros (hbase : 1 < base) (hle : base ≤ 16) (count : Nat) :
    readDigitsOnto? base 0 (List.replicate count '0') = some 0 := by
  have hzero : digitValue? base '0' = some 0 := digitValue?_digitChar hle (by omega : 0 < base)
  induction count with
  | zero => rfl
  | succ count ih => simp [List.replicate_succ, readDigitsOnto?, hzero, ih]

/-- Digits are read back, also behind zeros. -/
theorem readNat?_digits (hbase : 1 < base) (hle : base ≤ 16) (zeros n : Nat) :
    readNat? base (List.replicate zeros '0' ++ digits base n) = some n := by
  have hread : readDigitsOnto? base 0 (List.replicate zeros '0' ++ digits base n) = some n := by
    rw [readDigitsOnto?_append, readDigitsOnto?_zeros hbase hle, Option.bind_some,
      readDigitsOnto?_digits hbase hle]
  cases hs : List.replicate zeros '0' ++ digits base n with
  | nil => exact absurd (List.append_eq_nil_iff.mp hs).2 Nat.toDigits_ne_nil
  | cons c s => rwa [hs] at hread

/-! ## Signs -/

/-- An integer with a sign, which may be left out where it is not negative, and zeros before its
digits. -/
inductive Written (base : Nat) (i : Int) : List Char → Prop where
  | minus (zeros : Nat) (hi : i < 0) :
      Written base i ('-' :: (List.replicate zeros '0' ++ digits base i.natAbs))
  | plus (zeros : Nat) (hi : 0 ≤ i) :
      Written base i ('+' :: (List.replicate zeros '0' ++ digits base i.natAbs))
  | plain (zeros : Nat) (hi : 0 ≤ i) :
      Written base i (List.replicate zeros '0' ++ digits base i.natAbs)

variable {i : Int} {s : List Char}

theorem plain_of_mem_filled (hbase : 1 < base) (hle : base ≤ 16) {zeros : Nat}
    (h : c ∈ List.replicate zeros '0' ++ digits base n) :
    isBlank c = false ∧ c ≠ '-' ∧ c ≠ '+' := by
  rcases List.mem_append.mp h with h | h
  · obtain rfl := List.eq_of_mem_replicate h
    decide
  · exact plain_of_mem_digits hbase hle h

theorem Written.not_isBlank (hbase : 1 < base) (hle : base ≤ 16) (h : Written base i s) :
    ∀ c ∈ s, isBlank c = false := by
  have hminus : isBlank '-' = false := by decide
  have hplus : isBlank '+' = false := by decide
  cases h with
  | minus zeros _ =>
    exact List.forall_mem_cons.mpr ⟨hminus, fun c hc => (plain_of_mem_filled hbase hle hc).1⟩
  | plus zeros _ =>
    exact List.forall_mem_cons.mpr ⟨hplus, fun c hc => (plain_of_mem_filled hbase hle hc).1⟩
  | plain zeros _ => exact fun c hc => (plain_of_mem_filled hbase hle hc).1

theorem Written.ne_nil (h : Written base i s) : s ≠ [] := by
  cases h with
  | minus | plus => exact List.cons_ne_nil _ _
  | plain => simp [digits]

theorem readInt?_written (hbase : 1 < base) (hle : base ≤ 16) (h : Written base i s) :
    readInt? base s = some i := by
  cases h with
  | minus zeros hi =>
    have hvalue : -(i.natAbs : Int) = i := by omega
    simpa [readInt?, readNat?_digits hbase hle] using hvalue
  | plus zeros hi =>
    simpa [readInt?, readNat?_digits hbase hle] using Int.natAbs_of_nonneg hi
  | plain zeros hi =>
    have hread := readNat?_digits hbase hle zeros i.natAbs
    have hplain (c : Char) (hc : c ∈ List.replicate zeros '0' ++ digits base i.natAbs) :=
      plain_of_mem_filled hbase hle hc
    generalize List.replicate zeros '0' ++ digits base i.natAbs = s at hread hplain
    unfold readInt?
    split
    · exact absurd rfl (hplain _ List.mem_cons_self).2.1
    · exact absurd rfl (hplain _ List.mem_cons_self).2.2
    · simpa [hread] using Int.natAbs_of_nonneg hi

/-- An integer is read back as a signed word of 64 bits exactly if it is one. -/
theorem readInt64?_written (hbase : 1 < base) (hle : base ≤ 16) (h : Written base i s) :
    readInt64? base s =
      if -2 ^ 63 ≤ i ∧ i < 2 ^ 63 then some (Int64.ofInt i) else none := by
  have hpow : Int.pow 2 63 = 2 ^ 63 := rfl
  have hbounds : (decide (-2 ^ 63 ≤ i) && decide (i ≤ 2 ^ 63 - 1)) = true ↔
      -2 ^ 63 ≤ i ∧ i < 2 ^ 63 := by
    rw [Bool.and_eq_true, decide_eq_true_iff, decide_eq_true_iff]
    omega
  rw [readInt64?, readBetween?, readInt?_written hbase hle h, hpow, Option.filter_some]
  by_cases hi : -2 ^ 63 ≤ i ∧ i < 2 ^ 63
  · rw [if_pos hi, if_pos (hbounds.mpr hi)]
    rfl
  · rw [if_neg hi, if_neg (mt hbounds.mp hi)]
    rfl

/-- A sign in front that is dropped does no harm. -/
theorem Written.dropWhile_plus (hbase : 1 < base) (hle : base ≤ 16) (h : Written base i s) :
    Written base i (s.dropWhile (· == '+')) := by
  have hplain (zeros : Nat) :
      (List.replicate zeros '0' ++ digits base i.natAbs).dropWhile (· == '+') =
        List.replicate zeros '0' ++ digits base i.natAbs := by
    rw [List.dropWhile_eq_self_iff]
    intro hpos
    simpa using (plain_of_mem_filled hbase hle (List.getElem_mem hpos)).2.2
  cases h with
  | minus zeros hi => exact .minus zeros hi
  | plus zeros hi =>
    rw [List.dropWhile_cons_of_pos (by simp), hplain]
    exact .plain zeros hi
  | plain zeros hi =>
    rw [hplain]
    exact .plain zeros hi

end TableQuery.Text
