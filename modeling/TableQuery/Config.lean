import TableQuery.Json.Basic
import TableQuery.Text.Blank
import TableQuery.Text.Integer

/-!
# Configuration

## Main definitions

* `Config` — the settings.
* `Config.ofEnvironment` — the settings with a limit from the environment.
* `Config.toJson`, `Config.ofJson?` — the settings as JSON.
-/

namespace TableQuery

structure Config where
  /-- All rows of a table may only be asked for if they are at most so many. -/
  queryLimit : UInt64
  /-- Values that are not found in the table a link leads to are noted. -/
  logMissing : Bool
  deriving DecidableEq, Inhabited

namespace Config

def default : Config := ⟨100000, true⟩

/-- The settings with the limit that a variable of the environment gives, if it is a positive
number. -/
def ofEnvironment (setting : Option String) : Config :=
  match setting.bind fun text => Text.readUInt64? (Text.trim text.toList) with
  | none => default
  | some limit => if limit = 0 then default else { default with queryLimit := limit }

def toJson (c : Config) : Json :=
  .obj [("query_limit", .int c.queryLimit.toNat), ("link_lookup_log_missing", .bool c.logMissing)]

def ofJson? (j : Json) : Option Config := do
  let r ← j.record? ["query_limit", "link_lookup_log_missing"]
  some ⟨← r.optional? "query_limit" default.queryLimit Json.uint64?,
    ← r.optional? "link_lookup_log_missing" default.logMissing Json.bool?⟩

end Config

end TableQuery
