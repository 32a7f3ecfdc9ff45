/-!
# Cutting texts apart

Affixes, occurrences of one text in another, and cutting a text at every occurrence of a
separator.

## Main definitions

* `Text.stripStart?`, `Text.stripEnd?` — what remains of a text after or before an affix.
* `Text.occurs` — whether one text stands somewhere in another.
* `Text.splitAtChar` — the pieces between occurrences of a character.
* `Text.splitAtText` — the pieces between occurrences of a separator text.
-/

namespace TableQuery.Text

/-- What follows `lead` in the text, if the text starts with it. -/
def stripStart? : (lead s : List Char) → Option (List Char)
  | [], s => some s
  | _ :: _, [] => none
  | a :: lead, c :: s => if a = c then stripStart? lead s else none

def stripEnd? (tail s : List Char) : Option (List Char) :=
  (stripStart? tail.reverse s.reverse).map List.reverse

def startsWith (lead s : List Char) : Bool :=
  (stripStart? lead s).isSome

def endsWith (tail s : List Char) : Bool :=
  (stripEnd? tail s).isSome

def occurs (part : List Char) : List Char → Bool
  | [] => startsWith part []
  | c :: s => startsWith part (c :: s) || occurs part s

/-- Split at the first character that satisfies `p`, which belongs to neither side. -/
def splitFirst? (p : Char → Bool) (s : List Char) : Option (List Char × List Char) :=
  match s.span (fun c => !p c) with
  | (before, _ :: after) => some (before, after)
  | (_, []) => none

/-- The pieces between the characters that satisfy `p`; always at least one. -/
def splitWhere (p : Char → Bool) : List Char → List (List Char)
  | [] => [[]]
  | c :: s =>
    if p c then [] :: splitWhere p s
    else
      match splitWhere p s with
      | [] => [[c]]
      | piece :: rest => (c :: piece) :: rest

def splitAtChar (sep : Char) (s : List Char) : List (List Char) :=
  splitWhere (· == sep) s

/-- Cut at the occurrences of `sep`, found from the left without overlap. `skip` counts the
characters of the last occurrence that are still to pass, and `piece` holds what was read
since the last cut, last character first. -/
private def cutAt (sep : List Char) (skip : Nat) (piece : List Char) :
    List Char → List (List Char)
  | [] => [piece.reverse]
  | c :: s =>
    match skip with
    | skip + 1 => cutAt sep skip piece s
    | 0 =>
      if startsWith sep (c :: s) then piece.reverse :: cutAt sep (sep.length - 1) [] s
      else cutAt sep 0 (c :: piece) s

/-- The pieces between the occurrences of a separator, found from the left. An empty
separator stands before, between and after all characters. -/
def splitAtText (sep s : List Char) : List (List Char) :=
  match sep with
  | [] => [] :: s.map (fun c => [c]) ++ [[]]
  | _ :: _ => cutAt sep 0 [] s

theorem stripStart?_append (lead s : List Char) : stripStart? lead (lead ++ s) = some s := by
  induction lead with
  | nil => rfl
  | cons a lead ih => simp [stripStart?, ih]

theorem stripEnd?_append (tail s : List Char) : stripEnd? tail (s ++ tail) = some s := by
  simp [stripEnd?, stripStart?_append]

/-- An affix that was stripped is an affix: nothing else is lost. -/
theorem eq_append_of_stripStart? {lead s rest : List Char} (h : stripStart? lead s = some rest) :
    s = lead ++ rest := by
  induction lead generalizing s with
  | nil => simpa [stripStart?] using h
  | cons a lead ih =>
    cases s with
    | nil => simp [stripStart?] at h
    | cons c s =>
      by_cases hac : a = c
      · subst hac
        simp [stripStart?] at h
        simp [ih h]
      · simp [stripStart?, hac] at h

end TableQuery.Text
