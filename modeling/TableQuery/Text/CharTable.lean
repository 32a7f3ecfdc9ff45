/-!
# Tables of characters

A property of characters is kept as the increasing list of the code points at which it changes,
starting with the first one that has it.

## Main definitions

* `Text.holdsAt` — the property of a table for a code point.
-/

namespace TableQuery.Text

/-- The number of changes up to a code point is odd. -/
def holdsAt : List Nat → Nat → Bool
  | [], _ => false
  | change :: changes, n => if n < change then false else !holdsAt changes n

end TableQuery.Text
