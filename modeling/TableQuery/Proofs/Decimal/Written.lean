import TableQuery.Decimal.Written
import TableQuery.Proofs.Decimal.Neighbours
import TableQuery.Proofs.Text.Integer

/-!
# Written doubles are told apart

A positional text means the number that its digits mean, and no two doubles are written by
digits of the same meaning.

## Main definitions

* `Decimal.textValue` — the number that a positional text means.

## Main results

* `Decimal.textValue_positional` — positional digits keep their meaning.
* `Decimal.ofFloat_injective` — the text of a double determines it.
-/

namespace TableQuery.Decimal

open TableQuery.Text (digits padStart ne_of_mem_digits)

def textValue (s : List Char) : ℚ :=
  Nat.ofDigitChars 10 (s.filter (· != '.')) 0 / 10 ^ ((s.dropWhile (· != '.')).length - 1)

section TextValue

variable {a b : List Char}

theorem filter_eq_self_of_point_notMem (h : '.' ∉ a) : a.filter (· != '.') = a := by
  rw [List.filter_eq_self]
  intro c hc
  simpa using fun he : c = '.' => h (he ▸ hc)

theorem textValue_of_point_notMem (h : '.' ∉ a) : textValue a = Nat.ofDigitChars 10 a 0 := by
  have hall : ∀ c ∈ a, (c != '.') = true := by
    intro c hc
    simpa using fun he : c = '.' => h (he ▸ hc)
  have hdrop : (a ++ []).dropWhile (· != '.') = [] := List.dropWhile_append_of_pos hall
  rw [List.append_nil] at hdrop
  rw [textValue, filter_eq_self_of_point_notMem h, hdrop]
  simp

theorem textValue_append_point (ha : '.' ∉ a) (hb : '.' ∉ b) :
    textValue (a ++ '.' :: b) = Nat.ofDigitChars 10 (a ++ b) 0 / 10 ^ b.length := by
  have hdrop : (a ++ '.' :: b).dropWhile (· != '.') = '.' :: b := by
    rw [List.dropWhile_append_of_pos]
    · simp
    · intro c hc
      simpa using fun he : c = '.' => ha (he ▸ hc)
  rw [textValue, hdrop, List.filter_append, List.filter_cons_of_neg (by simp),
    filter_eq_self_of_point_notMem ha, filter_eq_self_of_point_notMem hb]
  simp

end TextValue

theorem point_notMem_digits (n : Nat) : '.' ∉ digits 10 n :=
  fun h => ne_of_mem_digits h (by decide) rfl

theorem length_digits (n : Nat) : (digits 10 n).length = digitCount n := rfl

theorem textValue_pointed (n places : Nat) (h : 0 < places) :
    textValue (pointed n places) = n / 10 ^ places := by
  have hpoint : '.' ∉ padStart '0' (places + 1) (digits 10 n) := by
    simp [padStart, point_notMem_digits]
  have hlength : places ≤ (padStart '0' (places + 1) (digits 10 n)).length := by
    rw [Text.length_padStart]
    omega
  have hvalue : Nat.ofDigitChars 10 (padStart '0' (places + 1) (digits 10 n)) 0 = n := by
    rw [padStart, Nat.ofDigitChars_append, Nat.ofDigitChars_replicate_zero, Nat.mul_zero]
    exact Nat.ofDigitChars_ten_toDigits
  simp only [pointed, h.ne', if_false]
  generalize padStart '0' (places + 1) (digits 10 n) = ds at hpoint hlength hvalue ⊢
  rw [textValue_append_point (fun hm => hpoint (List.mem_of_mem_take hm))
    (fun hm => hpoint (List.mem_of_mem_drop hm)), List.take_append_drop, hvalue, List.length_drop,
    Nat.sub_sub_self hlength]

/-- A positional text means what its digits mean. -/
theorem textValue_positional (s : Scientific) : textValue s.positional = s.value := by
  unfold Scientific.positional Scientific.value
  dsimp only
  rw [length_digits]
  generalize hp : (digitCount s.significand : ℤ) - 1 - s.exponent = places
  have he : s.exponent + 1 - digitCount s.significand = -places := by omega
  simp only [he]
  split
  · next hle =>
    rw [textValue_of_point_notMem (by simp [point_notMem_digits]), Nat.ofDigitChars_append,
      Nat.ofDigitChars_replicate_zero, digits, Nat.ofDigitChars_ten_toDigits]
    obtain ⟨k, rfl⟩ : ∃ k : ℕ, places = -k := ⟨places.natAbs, by omega⟩
    rw [neg_neg, zpow_natCast, Int.natAbs_neg, Int.natAbs_natCast]
    push_cast
    ring
  · next hlt =>
    obtain ⟨k, rfl⟩ : ∃ k : ℕ, places = k := ⟨places.toNat, by omega⟩
    rw [Int.toNat_natCast, textValue_pointed _ _ (by omega), zpow_neg, zpow_natCast]
    rfl

/-- Positional digits are digits and a point. -/
theorem mem_positional {c : Char} {s : Scientific} (h : c ∈ s.positional) :
    c.isDigit = true ∨ c = '.' := by
  have hdigit {d : Char} (hd : d ∈ digits 10 s.significand) : d.isDigit = true :=
    Text.isDigit_of_mem_digits hd
  have hpad {width : Nat} {d : Char} (hd : d ∈ padStart '0' width (digits 10 s.significand)) :
      d.isDigit = true := by
    rcases List.mem_append.mp hd with hz | hd
    · rw [List.eq_of_mem_replicate hz]
      rfl
    · exact hdigit hd
  unfold Scientific.positional at h
  dsimp only at h
  split at h
  · rcases List.mem_append.mp h with hd | hz
    · exact .inl (hdigit hd)
    · rw [List.eq_of_mem_replicate hz]
      exact .inl rfl
  · unfold pointed at h
    split at h
    · exact .inl (hdigit h)
    · rcases List.mem_append.mp h with hd | hd
      · exact .inl (hpad (List.mem_of_mem_take hd))
      · rcases List.mem_cons.mp hd with rfl | hd
        · exact .inr rfl
        · exact .inl (hpad (List.mem_of_mem_drop hd))

theorem notMem_positional {c : Char} (s : Scientific) (hc : c.isDigit = false) (hp : c ≠ '.') :
    c ∉ s.positional := by
  intro h
  rcases mem_positional h with hd | hd
  · rw [hc] at hd
    cases hd
  · exact hp hd

theorem positional_injective_value {s t : Scientific} (h : s.positional = t.positional) :
    s.value = t.value := by
  rw [← textValue_positional, ← textValue_positional, h]

theorem withSign_injective {negative negative' : Bool} {a b : List Char} (ha : '-' ∉ a)
    (hb : '-' ∉ b) (h : withSign negative a = withSign negative' b) :
    negative = negative' ∧ a = b := by
  cases negative <;> cases negative' <;>
    simp only [withSign, Bool.false_eq_true, if_true, if_false] at h
  · exact ⟨rfl, h⟩
  · rw [h] at ha
    exact absurd List.mem_cons_self ha
  · rw [← h] at hb
    exact absurd List.mem_cons_self hb
  · exact ⟨rfl, (List.cons.inj h).2⟩

theorem mem_withSign {c : Char} {negative : Bool} {a : List Char} (hc : c ≠ '-') :
    c ∈ withSign negative a ↔ c ∈ a := by
  cases negative <;> simp [withSign, hc]

/-- The text of a double without its sign, for what is a finite number. -/
theorem plain_eq (x : Float) :
    plain x = match Number.ofFloat x with
      | .nan => ['N', 'a', 'N']
      | .infinite negative => withSign negative ['i', 'n', 'f']
      | .finite negative m => withSign negative m.toShortest.positional := rfl

theorem position_of_finite {x : Float} {negative : Bool} {m : Magnitude}
    (h : Number.ofFloat x = .finite negative m) : ∃ b, m = Magnitude.ofPosition b :=
  ⟨_, (Number.ofBits_eq_finite h (toBits_lt x)).2⟩

/-- The shortest text of a double determines its parts. -/
theorem parts_eq_of_plain_eq {x y : Float} (h : plain x = plain y) :
    Number.ofFloat x = Number.ofFloat y := by
  have hN (s : Scientific) : 'N' ∉ s.positional := notMem_positional s (by decide) (by decide)
  have hi (s : Scientific) : 'i' ∉ s.positional := notMem_positional s (by decide) (by decide)
  have hminus (s : Scientific) : '-' ∉ s.positional := notMem_positional s (by decide) (by decide)
  rw [plain_eq, plain_eq] at h
  cases hx : Number.ofFloat x <;> cases hy : Number.ofFloat y <;> simp only [hx, hy] at h ⊢
  case nan.infinite n =>
    have := (mem_withSign (by decide)).mp (h ▸ List.mem_cons_self)
    simp at this
  case nan.finite n m =>
    exact absurd ((mem_withSign (by decide)).mp (h ▸ List.mem_cons_self)) (hN _)
  case infinite.nan n =>
    have := (mem_withSign (by decide)).mp (h ▸ List.mem_cons_self)
    simp at this
  case infinite.infinite n n' => exact congrArg _ (withSign_injective (by decide) (by decide) h).1
  case infinite.finite n n' m =>
    have hs := (withSign_injective (by decide) (hminus _) h).2
    exact absurd (hs ▸ List.mem_cons_self) (hi m.toShortest)
  case finite.nan n m =>
    exact absurd ((mem_withSign (by decide)).mp (h ▸ List.mem_cons_self)) (hN _)
  case finite.infinite n m n' =>
    have hs := (withSign_injective (hminus _) (by decide) h).2
    exact absurd (hs ▸ List.mem_cons_self) (hi m.toShortest)
  case finite.finite n m n' m' =>
    obtain ⟨hn, hs⟩ := withSign_injective (hminus _) (hminus _) h
    obtain ⟨b, rfl⟩ := position_of_finite hx
    obtain ⟨c, rfl⟩ := position_of_finite hy
    rw [hn, Magnitude.eq_of_value_toShortest (positional_injective_value hs)]

/-- The shortest text of a double determines it. -/
theorem ofFloat_injective {x y : Float} (h : ofFloat x = ofFloat y) : x = y :=
  Number.ofFloat_injective (parts_eq_of_plain_eq (String.ofList_injective h))

end TableQuery.Decimal
