import TableQuery.Exchange.Template
import TableQuery.Query.Validate
import TableQuery.Registry.Basic
import TableQuery.Saved.Dialogue

/-!
# What users do with saved templates

Templates are created, changed and deleted by their owners, listed for those who may see them,
and resolved when they are used.

## Main definitions

* `TemplateDesk` — the tables and users that saved templates belong to.
* `Table.syncColumns` — a template that lists each column of its table.
* `TemplateDesk.create`, `TemplateDesk.update`, `TemplateDesk.delete` — changes by owners.
* `TemplateDesk.listForTable`, `TemplateDesk.resolve` — templates to choose from and to use.
-/

namespace TableQuery

/-- The output columns that the table has, and behind them those of its columns that are
missing, visible if they are required. -/
def Table.syncOutput (t : Table) (output : List OutputColumn) : List OutputColumn :=
  let kept := output.filter fun o => t.hasColumn o.column
  if kept.length = t.columns.length then kept
  else
    let missing := t.columns.filter fun c => !(kept.map OutputColumn.column).contains c.id
    kept ++ missing.map fun c => ⟨c.id, c.required, .none⟩

def Table.syncColumns (t : Table) (template : Template) : Template :=
  { template with
    body := { template.body with output := t.syncOutput template.body.output } }

/-- The tables and users that saved templates belong to. -/
structure TemplateDesk where
  registry : Registry
  users : UserDirectory

namespace TemplateDesk

/-- The template of a record, with the columns of its table if it still exists. -/
def templateOf (d : TemplateDesk) (r : TemplateRecord) : Except QueryError Template :=
  match Template.Body.decode? r.body with
  | none => .error .serialization
  | some body =>
    let template := { Template.temporary r.table body .all with id := r.id, name := r.name }
    .ok (match d.registry.table? r.table with
      | some t => t.syncColumns template
      | none => template)

def fileInfo (d : TemplateDesk) (r : TemplateRecord) : FileInfo where
  access := r.access
  createUser := (d.users.byId r.createUser).toOption.getD (.unnamed r.createUser)
  createTime := r.createTime
  modifyTime := r.modifyTime
  shareList := if r.access = .shared then r.shareList else []

def saved (d : TemplateDesk) (r : TemplateRecord) : Except QueryError SavedTemplate := do
  return ⟨← d.templateOf r, some (d.fileInfo r)⟩

def savedAll (d : TemplateDesk) : List TemplateRecord → Except QueryError (List SavedTemplate)
  | [] => .ok []
  | r :: rs => do return (← d.saved r) :: (← d.savedAll rs)

def find (d : TemplateDesk) (id : String) : Dialogue SavedTemplate := do
  d.saved (← Dialogue.request (.find id))

/-- Save a template under a new id for the user of the session. Only shared templates keep a list
of users. -/
def create (d : TemplateDesk) (session : Session) (now : Moment) (id : String)
    (template : Template) (access : Access) (shareList : List String) :
    Dialogue SavedTemplate := do
  let t ← d.registry.find template.table
  t.validate template
  let user ← d.users.current session
  Dialogue.request (.create {
    id
    name := template.name
    table := template.table
    access
    createUser := user.id
    createTime := now
    modifyTime := now
    body := template.body.encode
    shareList := if access = .shared then shareList else [] })
  d.find id

/-- The users that an update shares a template with. Nothing becomes public by an update. -/
def updatedShares (access : Access) (shareList : List String) :
    Except QueryError (List String) :=
  match access with
  | .shared => .ok shareList
  | .everyone => .error .publicSharingDisabled
  | .owner => .ok []

/-- The record of an id, if it belongs to a user. -/
def owned (user : UserInfo) (id : String) : Dialogue TemplateRecord := do
  let record : TemplateRecord ← Dialogue.request (.find id)
  if record.createUser = user.id then return record
  else Dialogue.fail (.operatePermissionDenied id)

def update (d : TemplateDesk) (session : Session) (now : Moment) (template : Template)
    (access : Access) (shareList : List String) : Dialogue SavedTemplate := do
  let t ← d.registry.find template.table
  t.validate template
  let user ← d.users.current session
  let _ ← owned user template.id
  let shareList ← updatedShares access shareList
  Dialogue.request
    (.update template.id ⟨template.name, access, template.body.encode, shareList, now⟩)
  d.find template.id

def delete (d : TemplateDesk) (session : Session) (id : String) : Dialogue Unit := do
  let user ← d.users.current session
  let _ ← owned user id
  let _ ← Dialogue.request (.delete id)
  return ()

def deleteByCreator (d : TemplateDesk) (session : Session) : Dialogue UInt64 := do
  let user ← d.users.current session
  Dialogue.request (.deleteByCreator user.id)

/-- A template of another user, whose name says so. -/
def markedAsShared (s : SavedTemplate) : SavedTemplate :=
  let owner := (s.fileInfo.map fun f => f.createUser.shownName).getD ""
  { s with
    template := { s.template with name := s.template.name ++ " [shared by " ++ owner ++ "]" } }

/-- A template is not younger than another one, where those that belong to nobody come first. -/
def notYounger (a b : SavedTemplate) : Bool :=
  match a.fileInfo, b.fileInfo with
  | none, _ => true
  | some _, none => false
  | some a, some b => compare a.createTime b.createTime != .gt

/-- The templates that the user of the session can choose for a table, each once and oldest
first: the one that the table proposes, the user's own, those shared with the user, and the
public ones. -/
def listForTable (d : TemplateDesk) (session : Session) (table : String) :
    Dialogue (List SavedTemplate) := do
  let t ← d.registry.find table
  let user ← d.users.current session
  let own : List TemplateRecord ← Dialogue.request (.listByCreator table user.id)
  let ownSaved ← d.savedAll own
  let shared : List TemplateRecord ← Dialogue.request (.listSharedWith table user.id)
  let publicOnes : List TemplateRecord ← Dialogue.request (.listPublic table)
  let others ← d.savedAll ((shared ++ publicOnes).filter fun r => r.createUser != user.id)
  let all := ⟨t.defaultTemplate, none⟩ :: ownSaved ++ others.map markedAsShared
  return firstByKey (fun s => s.template.id) (all.mergeSort notYounger)

def resolve (d : TemplateDesk) (table : String) (ref : TemplateRef) : Dialogue Template := do
  let t ← d.registry.find table
  match ref with
  | .inline body => return .temporary table body .all
  | .saved id =>
    if id = Template.emptyId then return t.emptyTemplate
    else if id = Template.defaultId then return t.defaultTemplate
    else
      let s ← d.find id
      return { s.template with table }

end TemplateDesk

end TableQuery
