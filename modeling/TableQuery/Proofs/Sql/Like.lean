import TableQuery.Proofs.Text.Affix
import TableQuery.Sql.Clauses

/-!
# Patterns

What a pattern means to a database, and that the patterns made of texts mean their search.

## Main definitions

* `Sql.Wild`, `Sql.Wild.ofPattern` — a pattern read character by character.
* `Sql.likes` — a text fits a pattern.
* `Sql.Place.finds`, `Sql.Place.Holds` — a search finds a text where it stands.

## Main results

* `Sql.likes_likePattern` — the texts that fit the pattern of a search are those in which the
  search finds its text.
-/

namespace TableQuery.Sql

inductive Wild where
  /-- Any characters, or none. -/
  | run
  /-- Any one character. -/
  | one
  | char (c : Char)

namespace Wild

/-- A pattern, in which the character behind a backslash stands for itself. -/
def ofPattern : List Char → List Wild
  | [] => []
  | '\\' :: c :: p => char c :: ofPattern p
  | c :: p => (if c = '%' then run else if c = '_' then one else char c) :: ofPattern p

def fits : List Wild → List Char → Bool
  | [], s => s.isEmpty
  | char c :: ws, d :: s => c == d && fits ws s
  | one :: ws, _ :: s => fits ws s
  | char _ :: _, [] | one :: _, [] => false
  | run :: ws, s => s.tails.any fun rest => fits ws rest

end Wild

def likes (pattern s : List Char) : Bool :=
  Wild.fits (Wild.ofPattern pattern) s

open Wild

/-- A text in a pattern asks for its characters. -/
theorem ofPattern_escapeLike_append (s p : List Char) :
    ofPattern (escapeLike s ++ p) = s.map char ++ ofPattern p := by
  induction s with
  | nil => rfl
  | cons c s ih =>
    have hcons : escapeLike (c :: s) =
        (if c = '%' ∨ c = '_' ∨ c = '\\' then ['\\', c] else [c]) ++ escapeLike s := by
      simp [escapeLike]
    rw [hcons]
    split
    · simp [ofPattern, ih]
    · next h =>
      have hc : c ≠ '%' ∧ c ≠ '_' ∧ c ≠ '\\' := by simpa using h
      rw [List.append_assoc, List.singleton_append, ofPattern.eq_3]
      · simp [hc, ih]
      · intro d rest hd
        exact absurd hd hc.2.2

/-- Characters asked for are those that the text starts with. -/
theorem fits_chars_append {s : List Char} {ws : List Wild} {t : List Char} :
    fits (s.map char ++ ws) t = true ↔ ∃ rest, t = s ++ rest ∧ fits ws rest = true := by
  induction s generalizing t with
  | nil => simp
  | cons c s ih =>
    cases t with
    | nil => simp [fits]
    | cons d t =>
      simp only [List.map_cons, List.cons_append, fits, Bool.and_eq_true, beq_iff_eq, ih,
        List.cons.injEq]
      constructor
      · rintro ⟨rfl, rest, rfl, h⟩
        exact ⟨rest, ⟨rfl, rfl⟩, h⟩
      · rintro ⟨rest, ⟨rfl, rfl⟩, h⟩
        exact ⟨rfl, rest, rfl, h⟩

theorem fits_run {ws : List Wild} {t : List Char} :
    fits (run :: ws) t = true ↔ ∃ lead rest, t = lead ++ rest ∧ fits ws rest = true := by
  simp only [fits, List.any_eq_true, List.mem_tails]
  constructor
  · rintro ⟨rest, ⟨lead, rfl⟩, h⟩
    exact ⟨lead, rest, rfl, h⟩
  · rintro ⟨lead, rest, rfl, h⟩
    exact ⟨rest, List.suffix_append lead rest, h⟩

theorem fits_nil {t : List Char} : fits [] t = true ↔ t = [] := by
  simp [fits]

/-- A search finds a text in another one. -/
def Place.finds (place : Place) (part s : List Char) : Bool :=
  match place with
  | .anywhere => Text.occurs part s
  | .start => Text.startsWith part s
  | .stop => Text.endsWith part s

/-- A text stands in another one where a search looks for it. -/
def Place.Holds (place : Place) (part s : List Char) : Prop :=
  match place with
  | .anywhere => part <:+: s
  | .start => part <+: s
  | .stop => part <:+ s

theorem Place.finds_iff {place : Place} {part s : List Char} :
    place.finds part s = true ↔ place.Holds part s := by
  cases place with
  | anywhere => exact Text.occurs_iff
  | start => exact Text.startsWith_iff
  | stop => exact Text.endsWith_iff

/-- What the pattern of a search asks for: the characters of the text with any others where the
search allows them. -/
theorem ofPattern_likePattern (place : Place) (s : List Char) :
    ofPattern (likePattern place s) =
      match place with
      | .anywhere => run :: (s.map char ++ [run])
      | .start => s.map char ++ [run]
      | .stop => run :: (s.map char ++ []) := by
  have htext : ofPattern (escapeLike s) = s.map char ++ [] := by
    simpa [ofPattern] using ofPattern_escapeLike_append s []
  cases place <;> simp [likePattern, ofPattern, ofPattern_escapeLike_append, htext]

/-- The texts that fit the pattern of a search are those in which the search finds its text. -/
theorem likes_likePattern (place : Place) (part s : List Char) :
    likes (likePattern place part) s = place.finds part s := by
  rw [Bool.eq_iff_iff, likes, ofPattern_likePattern]
  cases place with
  | anywhere =>
    simp only [Place.finds, Text.occurs_iff, fits_run, fits_chars_append, fits_nil]
    constructor
    · rintro ⟨lead, _, rfl, rest, rfl, -⟩
      exact ⟨lead, rest, by simp⟩
    · rintro ⟨lead, rest, rfl⟩
      exact ⟨lead, part ++ rest, by simp, rest, rfl, rest, [], by simp, rfl⟩
  | start =>
    simp only [Place.finds, Text.startsWith_iff, fits_run, fits_chars_append, fits_nil]
    constructor
    · rintro ⟨rest, rfl, -⟩
      exact ⟨rest, rfl⟩
    · rintro ⟨rest, rfl⟩
      exact ⟨rest, rfl, rest, [], by simp, rfl⟩
  | stop =>
    simp only [Place.finds, Text.endsWith_iff, fits_run, fits_chars_append, fits_nil]
    constructor
    · rintro ⟨lead, _, rfl, rest, rfl, rfl⟩
      exact ⟨lead, by simp⟩
    · rintro ⟨lead, rfl⟩
      exact ⟨lead, part, rfl, [], by simp, rfl⟩

-- A percent sign that is searched for is found as itself only.
example : likes (likePattern .anywhere ['%']) ['5', '0'] = false := by decide

end TableQuery.Sql
