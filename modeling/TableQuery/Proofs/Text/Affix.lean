import Mathlib.Data.List.Infix
import TableQuery.Text.Split

/-!
# Affixes and parts of texts

The searches in texts in the words of lists.

## Main results

* `Text.startsWith_iff`, `Text.endsWith_iff`, `Text.occurs_iff` — what a text starts with, ends
  with and contains.
* `Text.stripStart?_eq_some_iff`, `Text.stripEnd?_eq_some_iff` — what is stripped is a start or an
  end.
-/

namespace TableQuery.Text

theorem stripStart?_eq_some_iff {lead s rest : List Char} :
    stripStart? lead s = some rest ↔ s = lead ++ rest :=
  ⟨eq_append_of_stripStart?, fun h => h ▸ stripStart?_append lead rest⟩

theorem isSome_stripStart?_iff {lead s : List Char} :
    (stripStart? lead s).isSome = true ↔ lead <+: s := by
  rw [Option.isSome_iff_exists]
  exact exists_congr fun _ => stripStart?_eq_some_iff.trans eq_comm

theorem stripEnd?_eq_some_iff {tail s rest : List Char} :
    stripEnd? tail s = some rest ↔ s = rest ++ tail := by
  constructor
  · intro h
    obtain ⟨rest, hrest, rfl⟩ := Option.map_eq_some_iff.mp h
    rw [← List.reverse_reverse s, stripStart?_eq_some_iff.mp hrest, List.reverse_append,
      List.reverse_reverse]
  · rintro rfl
    exact stripEnd?_append tail rest

theorem startsWith_iff {lead s : List Char} : startsWith lead s = true ↔ lead <+: s :=
  isSome_stripStart?_iff

theorem endsWith_iff {tail s : List Char} : endsWith tail s = true ↔ tail <:+ s := by
  simp [endsWith, stripEnd?, isSome_stripStart?_iff, List.reverse_prefix]

theorem occurs_iff {part s : List Char} : occurs part s = true ↔ part <:+: s := by
  induction s with
  | nil => simp [occurs, startsWith_iff]
  | cons c s ih => simp [occurs, startsWith_iff, ih, List.infix_cons_iff]

end TableQuery.Text
