import TableQuery.Text.Integer

/-!
# Written integers are told apart

## Main results

* `Text.digits_injective`, `Text.ofInt_injective` — different numbers have different texts.
-/

namespace TableQuery.Text

theorem isDigit_of_mem_digits {c : Char} {n : Nat} (h : c ∈ digits 10 n) : c.isDigit = true :=
  Nat.isDigit_of_mem_toDigits (by decide) (by decide) h

theorem ne_of_mem_digits {c d : Char} {n : Nat} (h : c ∈ digits 10 n) (hd : d.isDigit = false) :
    c ≠ d := by
  rintro rfl
  rw [isDigit_of_mem_digits h] at hd
  cases hd

theorem digits_injective {m n : Nat} (h : digits 10 m = digits 10 n) : m = n := by
  have hval := congrArg (fun ds => Nat.ofDigitChars 10 ds 0) h
  simpa [digits, Nat.ofDigitChars_ten_toDigits] using hval

theorem minus_cons_ne_digits (s : List Char) (n : Nat) : '-' :: s ≠ digits 10 n := by
  intro h
  have hmem : '-' ∈ digits 10 n := h ▸ List.mem_cons_self
  exact ne_of_mem_digits hmem (by decide) rfl

theorem signed_injective {i j : Int} (h : signed i = signed j) : i = j := by
  unfold signed at h
  split at h <;> split at h
  · have hd := digits_injective (List.cons.inj h).2
    omega
  · exact absurd h (minus_cons_ne_digits _ _)
  · exact absurd h.symm (minus_cons_ne_digits _ _)
  · have hd := digits_injective h
    omega

theorem ofInt_injective {i j : Int} (h : ofInt i = ofInt j) : i = j :=
  signed_injective (String.ofList_injective h)

end TableQuery.Text
