import TableQuery.Saved.Dialogue
import TableQuery.Sql.Database
import TableQuery.Sql.Relation

/-!
# Templates held in a database

Saved templates are rows of one relation, and the users they are shared with rows of another
one. What changes more than one row is a transaction.

## Main definitions

* `Sql.Archive.templates`, `Sql.Archive.shares` — the relations.
* `Sql.Archive.withShares` — records with the users they are shared with.
* `Sql.Archive.work`, `Sql.Archive.answerUnder`, `Sql.Archive.answer` — requests answered from a
  database.
-/

namespace TableQuery.Sql.Archive

def templates : Relation where
  name := "table_templates"
  columns :=
    ["id", "name", "table_id", "access", "create_user", "create_time", "modify_time", "body"]

def shares : Relation where
  name := "table_template_shares"
  columns := ["id", "template_id", "user_id"]

/-- A saved template as a row, where a number stands for its access. -/
structure TemplateRow where
  id : String
  name : String
  table : String
  access : Int32
  createUser : String
  createTime : Moment
  modifyTime : Moment
  body : String
  deriving DecidableEq

def readTemplate (row : DbRow) : Except QueryError TemplateRow := do
  let id ← DbRow.get row .text "id"
  let name ← DbRow.get row .text "name"
  let table ← DbRow.get row .text "table_id"
  let access ← DbRow.get row .int32 "access"
  let createUser ← DbRow.get row .text "create_user"
  let createTime ← DbRow.get row .universal "create_time"
  let modifyTime ← DbRow.get row .universal "modify_time"
  let body ← DbRow.get row .text "body"
  return { id, name, table, access, createUser, createTime, modifyTime, body }

structure ShareRow where
  template : String
  user : String
  deriving DecidableEq

def readShare (row : DbRow) : Except QueryError ShareRow := do
  let _ ← DbRow.get row .int32 "id"
  let template ← DbRow.get row .text "template_id"
  let user ← DbRow.get row .text "user_id"
  return { template, user }

def TemplateRow.record (r : TemplateRow) (shareList : List String) :
    Except QueryError TemplateRecord :=
  match Access.ofCode? r.access with
  | some access => .ok { r with access, shareList }
  | none =>
    .error (.backend ("template " ++ r.id ++ " has unknown access code " ++
      Text.ofInt r.access.toInt))

/-- The users that a template is shared with, in the order of the rows. -/
def usersOf (found : List ShareRow) (template : String) : List String :=
  (found.filter fun s => s.template == template).map ShareRow.user

/-- The records of rows. The first row of an id takes the users; a further one of that id has
none. -/
def recordsOf (found : List ShareRow) : List TemplateRow → Except QueryError (List TemplateRecord)
  | [] => .ok []
  | r :: rs => do
    let record ← r.record (usersOf found r.id)
    return record :: (← recordsOf (found.filter fun s => s.template != r.id) rs)

def selectTemplates (conditions : Dialect → List Fragment) (order : List String) :
    Work (List TemplateRow) := do
  let d ← Work.dialect
  let rows ← Work.query (templates.select d (conditions d) order)
  Work.ofExcept (rows.mapM readTemplate)

def selectShares (conditions : Dialect → List Fragment) (order : List String) :
    Work (List ShareRow) := do
  let d ← Work.dialect
  let rows ← Work.query (shares.select d (conditions d) order)
  Work.ofExcept (rows.mapM readShare)

/-- The order of lists: the oldest template first, and by id among those of the same age. -/
def oldestFirst : List String := ["create_time", "id"]

def withShares (rows : List TemplateRow) : Work (List TemplateRecord) := do
  if rows.isEmpty then return []
  let ids := rows.map TemplateRow.id
  let found ← selectShares (fun d => [shares.oneOf d "template_id" ids]) ["id"]
  Work.ofExcept (recordsOf found rows)

def insertShares (id : String) (users : List String) : Work Unit := do
  if users.isEmpty then return
  let d ← Work.dialect
  let rows := users.map fun user => [.text id, .text user]
  let _ ← Work.execute (shares.insert d ["template_id", "user_id"] rows)

def deleteShares (id : String) : Work Unit := do
  let d ← Work.dialect
  let _ ← Work.execute (shares.delete d [shares.equals d "template_id" (.text id)])

def create (consent : Consent) (r : TemplateRecord) : Work Unit :=
  Work.transaction consent do
    let d ← Work.dialect
    let row : List Bound :=
      [.text r.id, .text r.name, .text r.table, .int32 r.access.code, .text r.createUser,
        .universal r.createTime, .universal r.modifyTime, .text r.body]
    let _ ← Work.execute (templates.insert d templates.columns [row])
    insertShares r.id r.shareList
    return (true, ())

def find (id : String) : Work TemplateRecord := do
  let d ← Work.dialect
  let rows ← Work.query
    (templates.select d [templates.equals d "id" (.text id)] [] ++
      .text " LIMIT " ++ .raw (.uint 1))
  let row ← Work.ofExcept
    (match rows with
      | [] => .error (.templateNotFound id)
      | row :: _ => readTemplate row)
  let records ← withShares [row]
  Work.ofExcept
    (match records.getLast? with
      | some record => .ok record
      | none => .error (.templateNotFound id))

def update (consent : Consent) (id : String) (u : TemplateUpdate) : Work Unit :=
  Work.transaction consent do
    let d ← Work.dialect
    let values : List (String × Bound) :=
      [("name", .text u.name), ("access", .int32 u.access.code),
        ("modify_time", .universal u.modifyTime), ("body", .text u.body)]
    let count ← Work.execute (templates.update d values [templates.equals d "id" (.text id)])
    if count = 0 then Work.ofExcept (.error (.templateNotFound id))
    deleteShares id
    insertShares id u.shareList
    return (true, ())

def delete (consent : Consent) (id : String) : Work UInt64 :=
  Work.transaction consent do
    let d ← Work.dialect
    deleteShares id
    let count ← Work.execute (templates.delete d [templates.equals d "id" (.text id)])
    return (true, count)

def deleteByCreator (consent : Consent) (user : String) : Work UInt64 :=
  Work.transaction consent do
    let d ← Work.dialect
    let own := templates.equals d "create_user" (.text user)
    let rows ← selectTemplates (fun _ => [own]) []
    if rows.isEmpty then return (false, 0)
    let ids := rows.map TemplateRow.id
    let _ ← Work.execute (shares.delete d [shares.oneOf d "template_id" ids])
    let count ← Work.execute (templates.delete d [own])
    return (true, count)

def listByCreator (table user : String) : Work (List TemplateRecord) := do
  let rows ← selectTemplates
    (fun d => [templates.equals d "table_id" (.text table),
      templates.equals d "create_user" (.text user)])
    oldestFirst
  withShares rows

def listSharedWith (table user : String) : Work (List TemplateRecord) := do
  let found ← selectShares (fun d => [shares.equals d "user_id" (.text user)]) []
  if found.isEmpty then return []
  let rows ← selectTemplates
    (fun d => [templates.oneOf d "id" (found.map ShareRow.template),
      templates.equals d "table_id" (.text table),
      templates.equals d "access" (.int32 Access.shared.code)])
    oldestFirst
  withShares rows

/-- The records of a table that everyone sees. They come without the users they are shared
with. -/
def listPublic (table : String) : Work (List TemplateRecord) := do
  let rows ← selectTemplates
    (fun d => [templates.equals d "table_id" (.text table),
      templates.equals d "access" (.int32 Access.everyone.code)])
    oldestFirst
  Work.ofExcept (rows.mapM fun row => row.record [])

def work (consent : Consent) : (r : StoreRequest) → Work r.Answer
  | .create r => create consent r
  | .find id => find id
  | .update id u => update consent id u
  | .delete id => delete consent id
  | .deleteByCreator user => deleteByCreator consent user
  | .listByCreator table user => listByCreator table user
  | .listSharedWith table user => listSharedWith table user
  | .listPublic table => listPublic table

def answerUnder (consent : Consent) (db : Database) (r : StoreRequest) :
    Except QueryError r.Answer × Database :=
  (work consent r).run db

/-- The same from a database that lets transactions begin and end. -/
def answer (db : Database) (r : StoreRequest) : Except QueryError r.Answer × Database :=
  answerUnder .given db r

end TableQuery.Sql.Archive
