import TableQuery.Calendar.Moment
import TableQuery.Error
import TableQuery.Session
import TableQuery.Template.Basic

/-!
# Saved templates

## Main definitions

* `UserInfo`, `UserDirectory` — users.
* `SavedTemplate` — a saved template as users see it.
* `TemplateRecord`, `TemplateUpdate` — a saved template as it is stored, and changes to it.
-/

namespace TableQuery

structure UserInfo where
  id : String
  userName : String
  displayName : String
  deriving DecidableEq, Inhabited

namespace UserInfo

/-- A user of whom only the id is known. -/
def unnamed (id : String) : UserInfo := ⟨id, "", ""⟩

def shownName (u : UserInfo) : String :=
  if u.displayName = "" then u.id else u.displayName

end UserInfo

structure UserDirectory where
  /-- The user that a session belongs to. -/
  current : Session → Except QueryError UserInfo
  /-- The user of an id. -/
  byId : String → Except QueryError UserInfo

/-- Whom a saved template belongs to and who else sees it. -/
structure FileInfo where
  access : Access
  createUser : UserInfo
  createTime : Moment
  modifyTime : Moment
  shareList : List String

/-- A saved template as users see it. -/
structure SavedTemplate where
  template : Template
  /-- The templates that every table has belong to nobody. -/
  fileInfo : Option FileInfo

/-- A saved template as it is stored. -/
structure TemplateRecord where
  id : String
  name : String
  table : String
  access : Access
  /-- The id of the user who created it. -/
  createUser : String
  createTime : Moment
  modifyTime : Moment
  /-- Its filter and output as a text. -/
  body : String
  shareList : List String
  deriving DecidableEq

structure TemplateUpdate where
  name : String
  access : Access
  body : String
  shareList : List String
  modifyTime : Moment
  deriving DecidableEq

def TemplateUpdate.apply (u : TemplateUpdate) (r : TemplateRecord) : TemplateRecord :=
  { r with
    name := u.name
    access := u.access
    body := u.body
    shareList := u.shareList
    modifyTime := u.modifyTime }

end TableQuery
