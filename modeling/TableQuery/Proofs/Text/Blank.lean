import Mathlib.Data.List.DropRight
import Mathlib.Data.List.TakeWhile
import TableQuery.Text.Blank

/-!
# Texts without blanks around them

## Main definitions

* `Text.IsTrimmed` — neither end of a text is a blank.

## Main results

* `Text.trim_eq` — trimming in the words of lists.
* `Text.trim_append_append` — blanks on either side are dropped.
* `Text.trim_eq_iff` — what remains when a text is trimmed.
* `Text.trim_padded` — what was filled up with blanks on either side is found again.
-/

namespace TableQuery.Text

variable {s lead trail : List Char}

theorem trimEnd_eq (s : List Char) : trimEnd s = s.rdropWhile isBlank := by
  induction s with
  | nil => rfl
  | cons c s ih =>
    unfold trimEnd
    rw [ih, List.rdropWhile, List.rdropWhile, List.reverse_cons, List.dropWhile_append]
    cases hrest : s.reverse.dropWhile isBlank with
    | nil => cases hc : isBlank c <;> simp [hc]
    | cons d rest =>
      have hne : (d :: rest).reverse ≠ [] := by simp
      split
      · next hnil => exact absurd hnil hne
      · simp

theorem trim_eq (s : List Char) : trim s = (s.dropWhile isBlank).rdropWhile isBlank := by
  rw [trim, trimEnd_eq, trimStart]

/-- Blanks at the ends make no difference. -/
theorem trim_append_append (s : List Char) (hlead : ∀ c ∈ lead, isBlank c = true)
    (htrail : ∀ c ∈ trail, isBlank c = true) : trim (lead ++ s ++ trail) = trim s := by
  have hstop (t : List Char) : (t ++ trail).rdropWhile isBlank = t.rdropWhile isBlank := by
    rw [List.rdropWhile, List.reverse_append, List.dropWhile_append_of_pos (by simpa using htrail),
      List.rdropWhile]
  rw [trim_eq, trim_eq, List.append_assoc, List.dropWhile_append_of_pos hlead,
    List.dropWhile_append]
  split
  · next hnone =>
    rw [List.isEmpty_iff] at hnone
    rw [hnone, List.dropWhile_eq_nil_iff.mpr htrail]
  · exact hstop _

/-- Neither end of a text is a blank. -/
def IsTrimmed (s : List Char) : Prop :=
  ∀ h : s ≠ [], isBlank (s.head h) = false ∧ isBlank (s.getLast h) = false

theorem IsTrimmed.trim_eq (h : IsTrimmed s) : trim s = s := by
  have hstart : s.dropWhile isBlank = s := by
    cases s with
    | nil => rfl
    | cons c s => exact trimStart_of_head (h (List.cons_ne_nil c s)).1
  rw [Text.trim_eq, hstart, List.rdropWhile_eq_self_iff]
  intro hne
  simp [(h hne).2]

theorem isTrimmed_trim (s : List Char) : IsTrimmed (trim s) := by
  rw [trim_eq]
  intro hne
  have hpre := List.rdropWhile_prefix isBlank (s.dropWhile isBlank)
  refine ⟨?_, ?_⟩
  · rw [hpre.head hne]
    exact List.head_dropWhile_not isBlank _
  · simpa using List.rdropWhile_last_not isBlank _ hne

/-- What is trimmed of a text is blank. -/
theorem exists_eq_append_trim (s : List Char) : ∃ lead trail, s = lead ++ trim s ++ trail ∧
    (∀ c ∈ lead, isBlank c = true) ∧ ∀ c ∈ trail, isBlank c = true := by
  refine ⟨s.takeWhile isBlank, (s.dropWhile isBlank).rtakeWhile isBlank, ?_,
    fun c => List.mem_takeWhile_imp, fun c => List.mem_rtakeWhile_imp⟩
  rw [trim_eq, List.append_assoc, List.rdropWhile_append_rtakeWhile,
    List.takeWhile_append_dropWhile]

theorem trim_eq_iff {t : List Char} : trim s = t ↔ IsTrimmed t ∧ ∃ lead trail,
    s = lead ++ t ++ trail ∧ (∀ c ∈ lead, isBlank c = true) ∧ ∀ c ∈ trail, isBlank c = true := by
  constructor
  · rintro rfl
    exact ⟨isTrimmed_trim s, exists_eq_append_trim s⟩
  · rintro ⟨h, lead, trail, rfl, hlead, htrail⟩
    rw [trim_append_append t hlead htrail, h.trim_eq]

theorem forall_replicate_blank (count : Nat) :
    ∀ c ∈ List.replicate count ' ', isBlank c = true := by
  intro c hc
  obtain rfl := List.eq_of_mem_replicate hc
  decide

theorem trim_replicate_append (count : Nat) (s : List Char) :
    trim (List.replicate count ' ' ++ s) = trim s := by
  simpa using trim_append_append s (forall_replicate_blank count) (List.forall_mem_nil _)

theorem trim_append_replicate (s : List Char) (count : Nat) :
    trim (s ++ List.replicate count ' ') = trim s :=
  trim_append_append s (List.forall_mem_nil _) (forall_replicate_blank count)

theorem isTrimmed_of_forall (h : ∀ c ∈ s, isBlank c = false) : IsTrimmed s :=
  fun hne => ⟨h _ (List.head_mem hne), h _ (List.getLast_mem hne)⟩

/-- What has no blanks is found again between blanks. -/
theorem trim_padded (hs : ∀ c ∈ s, isBlank c = false) (before behind : Nat) :
    trim (List.replicate before ' ' ++ s ++ List.replicate behind ' ') = s := by
  rw [trim_append_append s (forall_replicate_blank before) (forall_replicate_blank behind),
    (isTrimmed_of_forall hs).trim_eq]

end TableQuery.Text
