import Mathlib.Data.List.TakeWhile
import TableQuery.Proofs.Text.Affix
import TableQuery.Text.Blank
import TableQuery.Text.WordChar

/-!
# Pieces of texts

Where a text is cut, and where it is not.

## Main definitions

* `Text.IsPiece` — what stands between separators or the ends of a text.

## Main results

* `Text.splitFirst?_eq_some_iff` — a text is cut at the first character that satisfies a test.
* `Text.splitWhere_cases` — a text is one piece, or it is cut behind its first piece.
* `Text.splitWhere_append_cons`, `Text.splitWhere_of_forall` — the pieces of a text that is put
  together of them.
* `Text.splitAtChar_eq_iff` — the pieces of a text are those that it is joined of.
* `Text.mem_splitAtChar_iff` — where a piece stands.
* `Text.notMem_of_isWord`, `Text.not_isBlank_of_isWord` — what words do not hold.
-/

namespace TableQuery.Text

variable {p : Char → Bool} {c d : Char} {s t rest : List Char} {pieces : List (List Char)}

/-! ## The first cut -/

theorem splitFirst?_of_notMem (h : c ∉ s) : splitFirst? (· == c) s = none := by
  have hall : ∀ d ∈ s, (!(d == c)) = true := by
    intro d hd
    simpa using fun heq : d = c => h (heq ▸ hd)
  rw [splitFirst?, List.span_eq_takeWhile_dropWhile, List.dropWhile_eq_nil_iff.mpr hall]

theorem splitFirst?_append (h : ∀ d ∈ s, p d = false) (hc : p c = true) :
    splitFirst? p (s ++ c :: t) = some (s, t) := by
  have hall : ∀ d ∈ s, (!p d) = true := by
    intro d hd
    simp [h d hd]
  rw [splitFirst?, List.span_eq_takeWhile_dropWhile, List.takeWhile_append_of_pos hall,
    List.dropWhile_append_of_pos hall]
  simp [hc]

theorem splitFirst?_eq_some_iff : splitFirst? p s = some (t, rest) ↔
    ∃ c, s = t ++ c :: rest ∧ p c = true ∧ ∀ d ∈ t, p d = false := by
  constructor
  · intro h
    rw [splitFirst?, List.span_eq_takeWhile_dropWhile] at h
    split at h
    · next before c after hspan =>
      obtain ⟨rfl, rfl⟩ := Prod.mk.inj (Option.some.inj h)
      obtain ⟨hbefore, hafter⟩ := Prod.mk.inj hspan
      have hne : s.dropWhile (fun c => !p c) ≠ [] := by simp [hafter]
      have hc := List.head_dropWhile_not (fun c => !p c) hne
      refine ⟨c, ?_, by simpa [hafter] using hc, fun d hd => ?_⟩
      · rw [← hbefore, ← hafter, List.takeWhile_append_dropWhile]
      · rw [← hbefore] at hd
        simpa using List.mem_takeWhile_imp hd
    · cases h
  · rintro ⟨c, rfl, hc, h⟩
    exact splitFirst?_append h hc

/-! ## All cuts -/

theorem splitWhere_eq_splitOnP (p : Char → Bool) (s : List Char) :
    splitWhere p s = s.splitOnP p := by
  induction s with
  | nil => rfl
  | cons c s ih =>
    rw [splitWhere, List.splitOnP_cons_eq_if_modifyHead, ih]
    cases hs : s.splitOnP p with
    | nil => exact absurd hs (List.splitOnP_ne_nil p s)
    | cons piece rest => rfl

theorem splitWhere_of_forall (h : ∀ c ∈ s, p c = false) : splitWhere p s = [s] := by
  rw [splitWhere_eq_splitOnP, List.splitOnP_eq_singleton h]

theorem splitWhere_append_sep (p : Char → Bool) (s : List Char) (hc : p c = true) :
    splitWhere p (s ++ c :: rest) = splitWhere p s ++ splitWhere p rest := by
  rw [splitWhere_eq_splitOnP, List.splitOnP_append_cons s rest hc, ← splitWhere_eq_splitOnP,
    ← splitWhere_eq_splitOnP]

theorem splitWhere_append_cons {c : Char} (h : ∀ c ∈ s, p c = false) (hc : p c = true) :
    splitWhere p (s ++ c :: rest) = s :: splitWhere p rest := by
  rw [splitWhere_append_sep p s hc, splitWhere_of_forall h, List.singleton_append]

/-- A text is one piece, or it is cut behind its first piece. -/
theorem splitWhere_cases (p : Char → Bool) (s : List Char) :
    splitWhere p s = [s] ∨ ∃ piece c rest, s = piece ++ c :: rest ∧ p c = true ∧
      splitWhere p s = piece :: splitWhere p rest := by
  induction s with
  | nil => exact .inl rfl
  | cons c s ih =>
    cases hc : p c with
    | true => exact .inr ⟨[], c, s, rfl, hc, by simp [splitWhere, hc]⟩
    | false =>
      rcases ih with ih | ⟨piece, d, rest, rfl, hd, ih⟩
      · exact .inl (by simp [splitWhere, hc, ih])
      · exact .inr ⟨c :: piece, d, rest, rfl, hd, by simp [splitWhere, hc, ih]⟩

theorem splitWhere_ne_nil (p : Char → Bool) (s : List Char) : splitWhere p s ≠ [] := by
  rcases splitWhere_cases p s with h | ⟨_, _, _, _, _, h⟩ <;> simp [h]

/-- No piece has a character at which the text is cut. -/
theorem forall_of_mem_splitWhere {piece : List Char} (h : piece ∈ splitWhere p s) :
    ∀ d ∈ piece, p d = false := by
  induction s generalizing piece with
  | nil => simp_all [splitWhere]
  | cons c s ih =>
    rw [splitWhere] at h
    cases hc : p c with
    | true =>
      rw [if_pos hc, List.mem_cons] at h
      rcases h with rfl | h
      · simp
      · exact ih h
    | false =>
      rw [if_neg (by simp [hc])] at h
      split at h
      · simp_all
      · next first rest hs =>
        rw [hs] at ih
        rcases List.mem_cons.mp h with rfl | h
        · exact List.forall_mem_cons.mpr ⟨hc, ih List.mem_cons_self⟩
        · exact ih (List.mem_cons_of_mem _ h)

/-- The pieces of a text are those that it is joined of. -/
theorem splitAtChar_eq_iff : splitAtChar c s = pieces ↔
    s = [c].intercalate pieces ∧ pieces ≠ [] ∧ ∀ piece ∈ pieces, c ∉ piece := by
  constructor
  · rintro rfl
    refine ⟨?_, splitWhere_ne_nil _ _, fun piece hpiece hmem => ?_⟩
    · rw [splitAtChar, splitWhere_eq_splitOnP]
      exact (List.intercalate_splitOn c).symm
    · simpa using forall_of_mem_splitWhere hpiece c hmem
  · rintro ⟨rfl, hne, h⟩
    rw [splitAtChar, splitWhere_eq_splitOnP]
    exact List.splitOn_intercalate c h hne

/-- A piece of a text has no separator, and it stands between separators or the ends. -/
structure IsPiece (c : Char) (s piece : List Char) : Prop where
  notMem : c ∉ piece
  stands : ∃ before behind, s = before ++ piece ++ behind ∧
    (before = [] ∨ ∃ b, before = b ++ [c]) ∧ (behind = [] ∨ ∃ b, behind = c :: b)

theorem isPiece_of_mem {piece : List Char} (h : piece ∈ splitAtChar c s) : IsPiece c s piece := by
  have hnot : c ∉ piece := by
    intro hmem
    simpa using forall_of_mem_splitWhere h c hmem
  refine ⟨hnot, ?_⟩
  unfold splitAtChar at h
  induction hlength : s.length using Nat.strong_induction_on generalizing s with
  | _ n ih =>
    rcases splitWhere_cases (· == c) s with hone | ⟨first, d, rest, rfl, hd, hcut⟩
    · rw [hone, List.mem_singleton] at h
      exact ⟨[], [], by simp [h], .inl rfl, .inl rfl⟩
    · obtain rfl : d = c := by simpa using hd
      rw [hcut, List.mem_cons] at h
      rcases h with rfl | h
      · exact ⟨[], d :: rest, rfl, .inl rfl, .inr ⟨rest, rfl⟩⟩
      · have hshort : rest.length < n := by
          rw [← hlength, List.length_append, List.length_cons]
          omega
        obtain ⟨before, behind, rfl, hbefore, hbehind⟩ := ih _ hshort h rfl
        refine ⟨first ++ d :: before, behind, by simp, .inr ?_, hbehind⟩
        rcases hbefore with rfl | ⟨b, rfl⟩
        · exact ⟨first, rfl⟩
        · exact ⟨first ++ d :: b, by simp⟩

theorem mem_splitAtChar_iff {piece : List Char} : piece ∈ splitAtChar c s ↔ IsPiece c s piece := by
  refine ⟨isPiece_of_mem, ?_⟩
  rintro ⟨hnot, before, behind, rfl, hbefore, hbehind⟩
  have hpiece : ∀ d ∈ piece, (d == c) = false := by
    intro d hd
    rw [beq_eq_false_iff_ne]
    rintro rfl
    exact hnot hd
  have hlast : piece ∈ splitAtChar c (piece ++ behind) := by
    unfold splitAtChar
    rcases hbehind with rfl | ⟨b, rfl⟩
    · rw [List.append_nil, splitWhere_of_forall hpiece]
      exact List.mem_singleton_self piece
    · rw [splitWhere_append_cons hpiece (beq_self_eq_true c)]
      exact List.mem_cons_self
  rcases hbefore with rfl | ⟨b, rfl⟩
  · exact hlast
  · unfold splitAtChar at hlast ⊢
    rw [List.append_assoc, List.append_assoc, List.singleton_append,
      splitWhere_append_sep (· == c) b (beq_self_eq_true c)]
    exact List.mem_append_right _ hlast

/-! ## Words -/

theorem notMem_of_isWord (h : isWord s = true) (hd : isWordChar d = false) : d ∉ s := by
  intro hmem
  rw [isWord, Bool.and_eq_true, List.all_eq_true] at h
  simpa [hd] using h.2 d hmem

theorem ne_point_of_isWord (h : isWord s = true) : ∀ c ∈ s, (c == '.') = false := by
  have hpoint : isWordChar '.' = false := by decide +kernel
  intro c hc
  rw [beq_eq_false_iff_ne]
  rintro rfl
  exact notMem_of_isWord h hpoint hc

theorem isWordChar_of_isBlank (h : isBlank c = true) : isWordChar c = false := by
  have hlow : ∀ n < 14, holdsAt wordChanges n = false := by decide +kernel
  have hspaces : ∀ k < 11, holdsAt wordChanges (0x2000 + k) = false := by decide +kernel
  have hothers : ∀ n ∈ [32, 0x85, 0xA0, 0x1680, 0x2028, 0x2029, 0x202F, 0x205F, 0x3000],
      holdsAt wordChanges n = false := by
    decide +kernel
  unfold isWordChar
  generalize hn : c.toNat = n
  rw [isBlank, hn] at h
  simp only [Bool.or_eq_true, Bool.and_eq_true, decide_eq_true_eq] at h
  by_cases hcontrol : n < 14
  · exact hlow n hcontrol
  · by_cases hspace : 0x2000 ≤ n ∧ n ≤ 0x200A
    · obtain ⟨k, rfl⟩ := Nat.exists_eq_add_of_le hspace.1
      exact hspaces k (by omega)
    · apply hothers
      simp only [List.mem_cons, List.not_mem_nil, or_false]
      omega

theorem not_isBlank_of_isWord (h : isWord s = true) : ∀ c ∈ s, isBlank c = false := by
  intro c hc
  rw [← Bool.not_eq_true]
  exact fun hblank => notMem_of_isWord h (isWordChar_of_isBlank hblank) hc

end TableQuery.Text
