import TableQuery.Calendar.Internet
import TableQuery.Exchange.Template
import TableQuery.Saved.Basic

/-!
# Saved templates as JSON

## Main definitions

* `UserInfo.toJson`, `FileInfo.toJson`, `SavedTemplate.toJson` — users and saved templates.
* `UserInfo.ofJson?`, `FileInfo.ofJson?`, `SavedTemplate.ofJson?` — what JSON values denote.
-/

namespace TableQuery

namespace UserInfo

def toJson (u : UserInfo) : Json :=
  .obj [("id", .str u.id), ("user_name", .str u.userName), ("display_name", .str u.displayName)]

def ofJson? (j : Json) : Option UserInfo := do
  let r ← j.record? ["id", "user_name", "display_name"]
  some ⟨← r.required? "id" Json.text?, ← r.optional? "user_name" "" Json.text?,
    ← r.optional? "display_name" "" Json.text?⟩

end UserInfo

namespace FileInfo

def time? (j : Json) : Option Moment :=
  j.text?.bind fun s => Calendar.readRelaxed? s.toList

def toJson (f : FileInfo) : Json :=
  .obj [("access", .str f.access.name), ("create_user", f.createUser.toJson),
    ("create_time", .str f.createTime.writtenUtc), ("modify_time", .str f.modifyTime.writtenUtc),
    ("share_list", textList f.shareList)]

def ofJson? (j : Json) : Option FileInfo := do
  let r ← j.record? ["access", "create_user", "create_time", "modify_time", "share_list"]
  some {
    access := ← r.required? "access" (ofName? Access.name Access.all)
    createUser := ← r.required? "create_user" UserInfo.ofJson?
    createTime := ← r.required? "create_time" time?
    modifyTime := ← r.required? "modify_time" time?
    shareList := ← r.optional? "share_list" [] (Json.list? Json.text?) }

end FileInfo

namespace SavedTemplate

def toJson (s : SavedTemplate) : Json :=
  .obj [("template", s.template.toJson),
    ("file_info", (s.fileInfo.map FileInfo.toJson).getD .null)]

def ofJson? (j : Json) : Option SavedTemplate := do
  let r ← j.record? ["template", "file_info"]
  some ⟨← r.required? "template" Template.ofJson?,
    ← r.optional? "file_info" none (Json.nullable? FileInfo.ofJson?)⟩

end SavedTemplate

end TableQuery
