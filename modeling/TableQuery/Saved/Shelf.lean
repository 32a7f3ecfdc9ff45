import TableQuery.Saved.Dialogue

/-!
# Templates held in memory

## Main definitions

* `Shelf` — records with different ids.
* `Shelf.select` — some of the records, oldest first.
* `Shelf.answer` — requests answered from a shelf.
-/

namespace TableQuery

/-- Records held in memory, with different ids. -/
structure Shelf where
  records : List TemplateRecord

namespace Shelf

def empty : Shelf := ⟨[]⟩

def find? (s : Shelf) (id : String) : Option TemplateRecord :=
  s.records.find? fun r => r.id == id

/-- A record is not younger than another one; of two of the same age the ids decide. -/
def notYounger (a b : TemplateRecord) : Bool :=
  ((compare a.createTime b.createTime).then (compare a.id b.id)) != .gt

/-- The records that satisfy `p`, oldest first. -/
def select (s : Shelf) (p : TemplateRecord → Bool) : List TemplateRecord :=
  (s.records.filter p).mergeSort notYounger

/-- The shelf without the records that satisfy `p`, and their number. -/
def remove (s : Shelf) (p : TemplateRecord → Bool) : UInt64 × Shelf :=
  (UInt64.ofNat (s.records.countP p), ⟨s.records.filter fun r => !p r⟩)

/-- With a further record, whose id must be new. -/
def create (s : Shelf) (r : TemplateRecord) : Except QueryError Unit × Shelf :=
  if (s.find? r.id).isSome then
    (.error (.backend ("template " ++ r.id ++ " already exists")), s)
  else (.ok (), ⟨s.records ++ [r]⟩)

def update (s : Shelf) (id : String) (u : TemplateUpdate) : Except QueryError Unit × Shelf :=
  if (s.find? id).isSome then
    (.ok (), ⟨s.records.map fun r => if r.id = id then u.apply r else r⟩)
  else (.error (.templateNotFound id), s)

def answer (s : Shelf) : (r : StoreRequest) → Except QueryError r.Answer × Shelf
  | .create r => s.create r
  | .find id =>
    match s.find? id with
    | some r => (.ok r, s)
    | none => (.error (.templateNotFound id), s)
  | .update id u => s.update id u
  | .delete id =>
    let (count, rest) := s.remove fun r => r.id == id
    (.ok count, rest)
  | .deleteByCreator user =>
    let (count, rest) := s.remove fun r => r.createUser == user
    (.ok count, rest)
  | .listByCreator table user =>
    (.ok (s.select fun r => r.table == table && r.createUser == user), s)
  | .listSharedWith table user =>
    (.ok (s.select fun r =>
      r.table == table && r.access == .shared && r.shareList.contains user), s)
  | .listPublic table => (.ok (s.select fun r => r.table == table && r.access == .everyone), s)

end Shelf

end TableQuery
