import TableQuery.Error
import TableQuery.Value.Basic

/-!
# Option lists

Columns may hold the numbers of entries of a named list.

## Main definitions

* `OptionLists` — the lists by name.
* `OptionLists.register`, `OptionLists.list`, `OptionLists.resolve` — lists and their entries.
-/

namespace TableQuery

structure OptionLists where
  lists : List (String × List Choice)
  deriving Inhabited

namespace OptionLists

def empty : OptionLists := ⟨[]⟩

/-- The name that stands for an entry that is not there. -/
def unknownName : String := "N/A"

def contains (o : OptionLists) (type : String) : Bool :=
  (o.lists.lookup type).isSome

/-- With a further list, whose name must be new. -/
def register (o : OptionLists) (type : String) (choices : List Choice) :
    Except SchemaError OptionLists :=
  if o.contains type then .error (.duplicateOptionType type)
  else .ok ⟨o.lists ++ [(type, choices)]⟩

def list (o : OptionLists) (type : String) : Except SchemaError (List Choice) :=
  match o.lists.lookup type with
  | some choices => .ok choices
  | none => .error (.optionTypeNotFound type)

/-- The first entry of a list with an id. -/
def lookup? (o : OptionLists) (type : String) (id : Int32) : Option Choice :=
  ((o.lists.lookup type).getD []).find? fun c => c.id == id

/-- The entry of a list with an id, or an entry without a name for it. -/
def resolve (o : OptionLists) (type : String) (id : Int32) : Choice :=
  (o.lookup? type id).getD ⟨id, unknownName⟩

@[simp] theorem resolve_id (o : OptionLists) (type : String) (id : Int32) :
    (o.resolve type id).id = id := by
  unfold resolve lookup?
  cases h : ((o.lists.lookup type).getD []).find? fun c => c.id == id with
  | none => rfl
  | some c => simpa using List.find?_some h

end OptionLists

end TableQuery
