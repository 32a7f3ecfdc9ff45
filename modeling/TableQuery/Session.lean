/-!
# Sessions

## Main definitions

* `Session` — who asks, and whether the asker waits without end.
-/

namespace TableQuery

/-- The request that a query belongs to. -/
structure Session where
  /-- The id of the user. -/
  user : Option String
  /-- There is a time after which nobody waits for an answer any more. -/
  hasDeadline : Bool
  deriving DecidableEq, Inhabited

end TableQuery
