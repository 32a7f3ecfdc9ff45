import Mathlib.Tactic.IntervalCases
import TableQuery.Json.Number
import TableQuery.Json.Writer
import TableQuery.Proofs.Decimal.Reader
import TableQuery.Proofs.Lists

/-!
# Written numbers are read as numbers

An integer that fits a word is read back. A double is written with a point or an exponent, and so
it is read as a double, computed from the digits that were written.

## Main definitions

* `Json.EndsNumber` — no text of a number goes on here.
* `Json.ReadsNumber` — what a text is read as, whatever follows it.
* `Json.ReadsDigits` — the digits that a text is read as.

## Main results

* `Json.readsNumber_signed` — an integer is read back.
* `Json.readsDigits_pointed_digits`, `Json.readsDigits_filled`, `Json.readsDigits_withExponent` —
  the digits that the notations of a double are read as.
-/

namespace TableQuery.Json

open Decimal (Positional Scientific digitCount pointed withSign)
open Text (digits padStart signed Written)

/-! ## Runs of digits -/

/-- No text of a number goes on here. -/
def EndsNumber : List Char → Prop
  | [] => True
  | c :: _ => c.isDigit = false ∧ c ≠ '.' ∧ c ≠ 'e' ∧ c ≠ 'E'

def EndsDigits : List Char → Prop
  | [] => True
  | c :: _ => c.isDigit = false

variable {s whole places rest : List Char} {negative : Bool} {n : Nat} {k : ℤ}

theorem EndsNumber.endsDigits (h : EndsNumber rest) : EndsDigits rest := by
  cases rest with
  | nil => trivial
  | cons c rest => exact h.1

theorem EndsDigits.head (h : EndsDigits rest) : ∀ c ∈ rest.head?, c.isDigit = false := by
  cases rest with
  | nil => simp
  | cons c rest =>
    rintro _ ⟨⟩
    exact h

theorem takeWhile_digits (hs : ∀ c ∈ s, c.isDigit = true) (hrest : EndsDigits rest) :
    (s ++ rest).takeWhile Char.isDigit = s :=
  takeWhile_append_of_head hs hrest.head

theorem dropWhile_digits (hs : ∀ c ∈ s, c.isDigit = true) (hrest : EndsDigits rest) :
    (s ++ rest).dropWhile Char.isDigit = rest :=
  dropWhile_append_of_head hs hrest.head

theorem le_ofDigitChars (s : List Char) (n : Nat) : n ≤ Nat.ofDigitChars 10 s n := by
  induction s generalizing n with
  | nil => simp
  | cons c s ih =>
    rw [Nat.ofDigitChars_cons]
    exact le_trans (by omega) (ih _)

/-- Where all digits together fit a word, the first of them does. -/
theorem not_le_push {c : Char} (h : Nat.ofDigitChars 10 (c :: s) n < 2 ^ 64) :
    ¬ 2 ^ 64 ≤ n * 10 + (c.toNat - 48) := by
  rw [Nat.ofDigitChars_cons] at h
  have hle := le_ofDigitChars s (10 * n + (c.toNat - '0'.toNat))
  have hzero : '0'.toNat = 48 := rfl
  omega

/-- Digits before the point that fit a word are all kept. -/
theorem foldl_pushWhole (h : Nat.ofDigitChars 10 s n < 2 ^ 64) :
    s.foldl Digits.pushWhole ⟨n, k, false⟩ = ⟨Nat.ofDigitChars 10 s n, k, false⟩ := by
  induction s generalizing n with
  | nil => simp
  | cons c s ih =>
    have hnext := not_le_push h
    rw [Nat.ofDigitChars_cons] at h ⊢
    rw [List.foldl_cons, Digits.pushWhole]
    simp only [Nat.pow_eq, hnext, decide_false, Bool.or_false, Bool.false_eq_true, if_false]
    rw [Nat.mul_comm n 10]
    exact ih h

theorem foldl_pushPlace (h : Nat.ofDigitChars 10 s n < 2 ^ 64) :
    s.foldl Digits.pushPlace ⟨n, k, false⟩ =
      ⟨Nat.ofDigitChars 10 s n, k - s.length, false⟩ := by
  induction s generalizing n k with
  | nil => simp
  | cons c s ih =>
    have hnext := not_le_push h
    rw [Nat.ofDigitChars_cons] at h ⊢
    rw [List.foldl_cons, Digits.pushPlace]
    simp only [Nat.pow_eq, hnext, decide_false, Bool.or_false, Bool.false_eq_true, if_false]
    rw [Nat.mul_comm n 10, List.length_cons, Nat.cast_add_one, add_comm (s.length : ℤ),
      ← sub_sub]
    exact ih h

/-! ## The parts of a number -/

/-- Digits that do not begin with a zero that more digits follow. -/
structure Whole (s : List Char) : Prop where
  ne_nil : s ≠ []
  isDigit : ∀ c ∈ s, c.isDigit = true
  head : ∀ c t, s ≠ '0' :: c :: t

theorem finishFloat?_of_endsNumber (d : Digits) (hrest : EndsNumber rest) :
    finishFloat? negative d rest = some (ofFloat? (d.toFloat? negative), rest) := by
  unfold finishFloat?
  split
  · exact absurd rfl hrest.2.2.1
  · exact absurd rfl hrest.2.2.2
  · rfl

theorem readExponent?_signed (k : ℤ) (hrest : EndsDigits rest) :
    readExponent? (signed k ++ rest) = some (k, rest) := by
  have hdigits : ∀ c ∈ digits 10 k.natAbs, c.isDigit = true := fun c => Text.isDigit_of_mem_digits
  have hread : Text.readNat? 10 (digits 10 k.natAbs) = some k.natAbs :=
    Text.readNat?_digits (by norm_num) (by norm_num) 0 k.natAbs
  have htake := takeWhile_digits hdigits hrest
  have hdrop := dropWhile_digits hdigits hrest
  unfold signed
  split
  · next hk => simp [readExponent?, htake, hdrop, hread, abs_of_neg hk]
  · next hk =>
    have hhead : ∀ c t, digits 10 k.natAbs ++ rest = c :: t → c ≠ '-' ∧ c ≠ '+' := by
      intro c t heq
      obtain ⟨d, ds, hds⟩ := List.exists_cons_of_ne_nil (Nat.toDigits_ne_nil (b := 10)
        (n := k.natAbs))
      rw [digits, hds, List.cons_append, List.cons.injEq] at heq
      have hc : c ∈ digits 10 k.natAbs := by
        rw [digits, hds, heq.1]
        exact List.mem_cons_self
      exact ⟨Text.ne_of_mem_digits hc rfl, Text.ne_of_mem_digits hc rfl⟩
    unfold readExponent?
    split
    next heq =>
      split at heq
      · exact absurd rfl (hhead _ _ ‹_›).1
      · exact absurd rfl (hhead _ _ ‹_›).2
      · cases heq
        simp [htake, hdrop, hread, abs_of_nonneg (not_lt.mp hk)]

/-- A number without a point or an exponent is an integer if it fits a word. -/
theorem readUnsigned?_whole (h : Whole whole) (hrest : EndsNumber rest) {d : Digits}
    (hd : whole.foldl Digits.pushWhole ⟨0, 0, false⟩ = d) :
    readUnsigned? negative (whole ++ rest) = some
      (if d.full = true ∨ negative = true ∧ (d.significand = 0 ∨ 2 ^ 63 < d.significand) then
        ofFloat? (d.toFloat? negative)
      else .int (if negative then -(d.significand : ℤ) else d.significand), rest) := by
  unfold readUnsigned?
  rw [takeWhile_digits h.isDigit hrest.endsDigits, dropWhile_digits h.isDigit hrest.endsDigits]
  dsimp only
  split
  · exact absurd rfl h.ne_nil
  · exact absurd rfl (h.head _ _)
  · split
    · exact absurd rfl hrest.2.1
    · exact absurd rfl hrest.2.2.1
    · exact absurd rfl hrest.2.2.2
    · rw [hd, finishFloat?_of_endsNumber d hrest, finishFloat?_of_endsNumber d hrest]
      cases negative <;> cases d.full <;> simp
      split <;> rfl

theorem readUnsigned?_pointed (h : Whole whole) (hne : places ≠ [])
    (hplaces : ∀ c ∈ places, c.isDigit = true) (hrest : EndsDigits rest) :
    readUnsigned? negative (whole ++ '.' :: (places ++ rest)) =
      finishFloat? negative (places.foldl Digits.pushPlace
        { whole.foldl Digits.pushWhole ⟨0, 0, false⟩ with full := false }) rest := by
  have hpoint : EndsDigits ('.' :: (places ++ rest)) := rfl
  obtain ⟨c, t, rfl⟩ := List.exists_cons_of_ne_nil hne
  unfold readUnsigned?
  rw [takeWhile_digits h.isDigit hpoint, dropWhile_digits h.isDigit hpoint]
  dsimp only
  split
  · exact absurd rfl h.ne_nil
  · exact absurd rfl (h.head _ _)
  · simp only [takeWhile_digits hplaces hrest, dropWhile_digits hplaces hrest]

theorem readUnsigned?_exponent (h : Whole whole) :
    readUnsigned? negative (whole ++ 'e' :: rest) =
      finishFloat? negative (whole.foldl Digits.pushWhole ⟨0, 0, false⟩) ('e' :: rest) := by
  have hletter : EndsDigits ('e' :: rest) := rfl
  unfold readUnsigned?
  rw [takeWhile_digits h.isDigit hletter, dropWhile_digits h.isDigit hletter]
  dsimp only
  split
  · exact absurd rfl h.ne_nil
  · exact absurd rfl (h.head _ _)
  · rfl

/-! ## Written integers -/

theorem digits_ne_zero_cons (hn : 0 < n) (t : List Char) : digits 10 n ≠ '0' :: t := by
  induction n using Nat.strong_induction_on generalizing t with
  | _ n ih =>
    rw [digits, Nat.toDigits_eq_if (by norm_num)]
    split
    · next hlt =>
      intro h
      interval_cases n <;> simp [Nat.digitChar] at h
    · next hge =>
      intro h
      obtain ⟨c, s, hs⟩ := List.exists_cons_of_ne_nil (Nat.toDigits_ne_nil (b := 10) (n := n / 10))
      rw [hs, List.cons_append, List.cons.injEq] at h
      exact ih (n / 10) (by omega) (by omega) s (by rw [digits, hs, h.1])

theorem whole_digits (n : Nat) : Whole (digits 10 n) where
  ne_nil := Nat.toDigits_ne_nil
  isDigit _ := Text.isDigit_of_mem_digits
  head c t h := by
    rcases Nat.eq_zero_or_pos n with rfl | hn
    · simp [digits] at h
    · exact digits_ne_zero_cons hn _ h

/-- What a text is read as, whatever follows it that no number goes on with. -/
structure ReadsNumber (text : List Char) (j : Json) : Prop where
  head : ∃ c s, text = c :: s ∧ (c.isDigit = true ∨ c = '-')
  read : ∀ rest, EndsNumber rest → readNumber? (text ++ rest) = some (j, rest)

theorem ReadsNumber.of_readUnsigned? {j : Json} (h : ∃ c t, s = c :: t ∧ c.isDigit = true)
    (hread : ∀ rest, EndsNumber rest → readUnsigned? negative (s ++ rest) = some (j, rest)) :
    ReadsNumber (withSign negative s) j := by
  obtain ⟨c, t, rfl, hc⟩ := h
  cases negative with
  | true => exact ⟨⟨_, _, rfl, .inr rfl⟩, fun rest hrest => hread rest hrest⟩
  | false =>
    refine ⟨⟨c, t, rfl, .inl hc⟩, fun rest hrest => ?_⟩
    rw [← hread rest hrest]
    unfold readNumber? withSign
    split
    · next heq =>
      rw [(List.cons.inj heq).1] at hc
      exact absurd hc (by decide)
    · rfl

theorem signed_eq (i : ℤ) : signed i = withSign (decide (i < 0)) (digits 10 i.natAbs) := by
  unfold signed withSign
  simp only [decide_eq_true_eq]

theorem Whole.exists_cons (h : Whole s) : ∃ c t, s = c :: t ∧ c.isDigit = true := by
  obtain ⟨c, t, rfl⟩ := List.exists_cons_of_ne_nil h.ne_nil
  exact ⟨c, t, rfl, h.isDigit c List.mem_cons_self⟩

/-- Every integer is read as some number. -/
theorem exists_readsNumber_signed (i : ℤ) : ∃ j, ReadsNumber (signed i) j := by
  have hwhole := whole_digits i.natAbs
  rw [signed_eq]
  exact ⟨_, .of_readUnsigned? hwhole.exists_cons fun rest hrest =>
    readUnsigned?_whole hwhole hrest rfl⟩

/-- An integer that fits a word is read back. -/
theorem readsNumber_signed {i : ℤ} (hlo : -2 ^ 63 ≤ i) (hhi : i < 2 ^ 64) :
    ReadsNumber (signed i) (.int i) := by
  rw [signed_eq]
  refine .of_readUnsigned? (whole_digits _).exists_cons fun rest hrest => ?_
  have hvalue : Nat.ofDigitChars 10 (digits 10 i.natAbs) 0 = i.natAbs :=
    Nat.ofDigitChars_ten_toDigits
  have hfold := @foldl_pushWhole (digits 10 i.natAbs) 0 0 (by omega)
  rw [hvalue] at hfold
  rw [readUnsigned?_whole (whole_digits _) hrest hfold, if_neg]
  · simp only [decide_eq_true_eq]
    congr 3
    omega
  · simp only [decide_eq_true_eq, Bool.false_eq_true, false_or, not_and]
    omega

/-! ## Written doubles -/

/-- What may follow the digits of a double: nothing, or the exponent `k`. -/
structure Tail (tail : List Char) (k : ℤ) : Prop where
  endsDigits : ∀ rest, EndsNumber rest → EndsDigits (tail ++ rest)
  finish : ∀ negative d rest, EndsNumber rest → finishFloat? negative d (tail ++ rest) =
    some (ofFloat? ({ d with exponent := d.exponent + k }.toFloat? negative), rest)

theorem tail_nil : Tail [] 0 where
  endsDigits _ hrest := hrest.endsDigits
  finish negative d rest hrest := by
    rw [List.nil_append, finishFloat?_of_endsNumber d hrest, add_zero]

theorem tail_exponent (hk : k.natAbs < 2 ^ 31) : Tail ('e' :: signed k) k where
  endsDigits _ _ := rfl
  finish negative d rest hrest := by
    have hfits : ¬ Nat.pow 2 31 ≤ k.natAbs := not_le.mpr hk
    simp only [finishFloat?, List.cons_append, readExponent?_signed k hrest.endsDigits, hfits,
      Option.bind_eq_bind, Option.bind_some, if_false]

/-- A text without a sign is read as the double of digits. -/
structure ReadsDigits (text : List Char) (d : Digits) : Prop where
  head : ∃ c t, text = c :: t ∧ c.isDigit = true
  read : ∀ negative rest, EndsNumber rest →
    readUnsigned? negative (text ++ rest) = some (ofFloat? (d.toFloat? negative), rest)

theorem readsDigits_pointed {tail : List Char} (h : Whole whole) (hne : places ≠ [])
    (hplaces : ∀ c ∈ places, c.isDigit = true) (htail : Tail tail k)
    (hfits : Nat.ofDigitChars 10 (whole ++ places) 0 < 2 ^ 64) :
    ReadsDigits (whole ++ '.' :: places ++ tail)
      ⟨Nat.ofDigitChars 10 (whole ++ places) 0, k - places.length, false⟩ where
  head := by
    obtain ⟨c, t, rfl, hc⟩ := h.exists_cons
    exact ⟨c, _, rfl, hc⟩
  read negative rest hrest := by
    rw [Nat.ofDigitChars_append] at hfits ⊢
    have hwhole := @foldl_pushWhole whole 0 0 ((le_ofDigitChars places _).trans_lt hfits)
    have hfold := @foldl_pushPlace places _ 0 hfits
    have hends : EndsDigits (tail ++ rest) := htail.endsDigits rest hrest
    rw [List.append_assoc, List.append_assoc, List.cons_append,
      readUnsigned?_pointed h hne hplaces hends, hwhole, hfold,
      htail.finish negative _ rest hrest]
    simp only [zero_sub, neg_add_eq_sub]

theorem readsDigits_exponent (h : Whole whole) (hk : k.natAbs < 2 ^ 31)
    (hfits : Nat.ofDigitChars 10 whole 0 < 2 ^ 64) :
    ReadsDigits (whole ++ 'e' :: signed k) ⟨Nat.ofDigitChars 10 whole 0, k, false⟩ where
  head := by
    obtain ⟨c, t, rfl, hc⟩ := h.exists_cons
    exact ⟨c, _, rfl, hc⟩
  read negative rest hrest := by
    have hfinish := (tail_exponent hk).finish negative ⟨Nat.ofDigitChars 10 whole 0, 0, false⟩ rest
      hrest
    rw [List.append_assoc, List.cons_append, readUnsigned?_exponent h, foldl_pushWhole hfits,
      ← List.cons_append, hfinish]
    simp

theorem isDigit_of_mem_padded {c : Char} {width : Nat}
    (h : c ∈ padStart '0' width (digits 10 n)) : c.isDigit = true := by
  rcases List.mem_append.mp h with h | h
  · rw [List.eq_of_mem_replicate h]
    rfl
  · exact Text.isDigit_of_mem_digits h

theorem ofDigitChars_padded (width n : Nat) :
    Nat.ofDigitChars 10 (padStart '0' width (digits 10 n)) 0 = n := by
  rw [padStart, Nat.ofDigitChars_append, Nat.ofDigitChars_replicate_zero, Nat.mul_zero]
  exact Nat.ofDigitChars_ten_toDigits

/-- Zeros are filled in for no more than one digit before the point. -/
theorem whole_take_padded (count n : Nat) :
    Whole ((padStart '0' (count + 1) (digits 10 n)).take
      ((padStart '0' (count + 1) (digits 10 n)).length - count)) where
  ne_nil h := by
    have := congrArg List.length h
    rw [List.length_take, Text.length_padStart, List.length_nil] at this
    omega
  isDigit _ hc := isDigit_of_mem_padded (List.mem_of_mem_take hc)
  head c t h := by
    have hlength := congrArg List.length h
    rw [List.length_take, Text.length_padStart, List.length_cons, List.length_cons] at hlength
    have hnone : padStart '0' (count + 1) (digits 10 n) = digits 10 n := by
      rw [padStart, Nat.sub_eq_zero_of_le (by omega), List.replicate_zero, List.nil_append]
    rw [hnone] at h
    have hsplit := List.take_append_drop ((digits 10 n).length - count) (digits 10 n)
    rw [h] at hsplit
    exact (whole_digits n).head _ _ hsplit.symm

theorem readsDigits_pointed_digits {count : Nat} (hcount : 0 < count) (hn : n < 2 ^ 64) :
    ReadsDigits (pointed n count) ⟨n, -count, false⟩ := by
  have hwhole := whole_take_padded count n
  have hvalue := ofDigitChars_padded (count + 1) n
  have hlength := Text.length_padStart '0' (count + 1) (digits 10 n)
  have hdigits : ∀ c ∈ padStart '0' (count + 1) (digits 10 n), c.isDigit = true := fun c =>
    isDigit_of_mem_padded
  simp only [pointed, hcount.ne', if_false]
  generalize padStart '0' (count + 1) (digits 10 n) = ds at hwhole hvalue hlength hdigits ⊢
  have hdrop : (ds.drop (ds.length - count)).length = count := by
    rw [List.length_drop]
    omega
  have happend := List.take_append_drop (ds.length - count) ds
  have hread := readsDigits_pointed hwhole
    (List.length_pos_iff.mp (hcount.trans_eq hdrop.symm))
    (fun c hc => hdigits c (List.mem_of_mem_drop hc)) tail_nil (by rw [happend, hvalue]; exact hn)
  rwa [happend, hvalue, hdrop, List.append_nil, zero_sub] at hread

/-- A number that ends before the point is shown with a zero behind it. -/
theorem readsDigits_filled {zeros : Nat} (hzeros : n = 0 → zeros = 0)
    (hfits : n * 10 ^ zeros * 10 < 2 ^ 64) :
    ReadsDigits (digits 10 n ++ List.replicate zeros '0' ++ ['.', '0'])
      ⟨n * 10 ^ zeros * 10, -1, false⟩ := by
  have hwhole : Whole (digits 10 n ++ List.replicate zeros '0') :=
    { ne_nil := by simp [digits]
      isDigit := fun c hc => by
        rcases List.mem_append.mp hc with hc | hc
        · exact Text.isDigit_of_mem_digits hc
        · rw [List.eq_of_mem_replicate hc]
          rfl
      head := fun c t h => by
        rcases Nat.eq_zero_or_pos n with rfl | hn
        · rw [hzeros rfl] at h
          simp [digits] at h
        · obtain ⟨d, s, hs⟩ := List.exists_cons_of_ne_nil (whole_digits n).ne_nil
          rw [hs, List.cons_append, List.cons.injEq] at h
          exact digits_ne_zero_cons hn s (hs.trans (by rw [h.1])) }
  have hvalue : Nat.ofDigitChars 10 (digits 10 n ++ List.replicate zeros '0' ++ ['0']) 0 =
      n * 10 ^ zeros * 10 := by
    rw [Nat.ofDigitChars_append, Nat.ofDigitChars_append, Nat.ofDigitChars_replicate_zero, digits,
      Nat.ofDigitChars_ten_toDigits]
    simp [Nat.ofDigitChars_cons, Nat.mul_comm]
  have hread := readsDigits_pointed hwhole (List.cons_ne_nil '0' []) (by simp) tail_nil
    (by rw [hvalue]; exact hfits)
  rwa [hvalue, List.append_nil, List.length_singleton, Nat.cast_one, zero_sub] at hread

/-- The exponent counts from behind the first digit. -/
theorem readsDigits_withExponent {s : Scientific} (hs : s.significand < 2 ^ 64)
    (he : s.exponent.natAbs < 2 ^ 31) : ReadsDigits s.withExponent
      ⟨s.significand, s.exponent + 1 - digitCount s.significand, false⟩ := by
  have hvalue : Nat.ofDigitChars 10 (digits 10 s.significand) 0 = s.significand :=
    Nat.ofDigitChars_ten_toDigits
  have hdigits : ∀ c ∈ digits 10 s.significand, c.isDigit = true := fun c =>
    Text.isDigit_of_mem_digits
  have hcount := Decimal.length_digits s.significand
  have hne := (whole_digits s.significand).ne_nil
  rw [← hcount]
  unfold Scientific.withExponent
  generalize digits 10 s.significand = ds at hvalue hdigits hcount hne ⊢
  have hwhole {d : Char} (hd : d.isDigit = true) : Whole [d] :=
    { ne_nil := by simp, isDigit := by simpa using hd, head := by simp }
  rw [← hvalue] at hs ⊢
  match ds, hne with
  | [d], _ =>
    have hread := readsDigits_exponent (hwhole (hdigits d List.mem_cons_self)) he hs
    simpa using hread
  | d :: r :: rest, _ =>
    rw [List.forall_mem_cons] at hdigits
    have hread := readsDigits_pointed (hwhole hdigits.1) (List.cons_ne_nil r rest) hdigits.2
      (tail_exponent he) hs
    simp only [List.length_cons, Nat.cast_add, Nat.cast_one, add_sub_add_right_eq_sub] at hread ⊢
    exact hread

end TableQuery.Json
