/-!
# Blank characters

The characters that count as white space, and the trimming of texts by them.

## Main definitions

* `Text.isBlank` — the characters with the property `White_Space`.
* `Text.trimStart`, `Text.trimEnd`, `Text.trim` — a text without the blanks at its ends.
-/

namespace TableQuery.Text

/-- The characters with the property `White_Space`: the ASCII blanks, next line, the
no-break and general spaces, and the line and paragraph separators. -/
def isBlank (c : Char) : Bool :=
  let n := c.toNat
  (9 ≤ n && n ≤ 13) || n = 32 || n = 0x85 || n = 0xA0 || n = 0x1680 ||
    (0x2000 ≤ n && n ≤ 0x200A) || n = 0x2028 || n = 0x2029 || n = 0x202F || n = 0x205F ||
    n = 0x3000

def trimStart (s : List Char) : List Char :=
  s.dropWhile isBlank

def trimEnd : List Char → List Char
  | [] => []
  | c :: cs =>
    match trimEnd cs with
    | [] => if isBlank c then [] else [c]
    | rest => c :: rest

def trim (s : List Char) : List Char :=
  trimEnd (trimStart s)

def trimmed (s : String) : String :=
  String.ofList (trim s.toList)

@[simp] theorem trim_nil : trim [] = [] := rfl

/-- A text that starts with no blank is its own `trimStart`. -/
theorem trimStart_of_head {c : Char} {s : List Char} (h : isBlank c = false) :
    trimStart (c :: s) = c :: s := by
  simp [trimStart, h]

end TableQuery.Text
