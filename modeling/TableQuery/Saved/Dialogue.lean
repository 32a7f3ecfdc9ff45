import TableQuery.Saved.Basic

/-!
# Dialogues with a store of templates

What is done with saved templates is a dialogue with the store that holds them: one request at a
time, each answered before the next.

## Main definitions

* `StoreRequest`, `StoreRequest.Answer` — requests and what they are answered with.
* `Dialogue` — requests that depend on the answers before them.
* `Dialogue.run` — a dialogue with a store that is a state.
-/

namespace TableQuery

inductive StoreRequest where
  | create (record : TemplateRecord)
  | find (id : String)
  | update (id : String) (update : TemplateUpdate)
  | delete (id : String)
  | deleteByCreator (user : String)
  | listByCreator (table user : String)
  | listSharedWith (table user : String)
  | listPublic (table : String)
  deriving DecidableEq

/-- What a request is answered with: deletions with the number of records deleted. -/
def StoreRequest.Answer : StoreRequest → Type
  | create _ => Unit
  | find _ => TemplateRecord
  | update .. => Unit
  | delete _ => UInt64
  | deleteByCreator _ => UInt64
  | listByCreator .. => List TemplateRecord
  | listSharedWith .. => List TemplateRecord
  | listPublic _ => List TemplateRecord

/-- Requests that depend on the answers before them, up to a result. -/
inductive Dialogue (α : Type) where
  | done (result : Except QueryError α)
  | ask (request : StoreRequest) (next : Except QueryError request.Answer → Dialogue α)

namespace Dialogue

variable {α β σ : Type}

def andThen (d : Dialogue α) (next : α → Dialogue β) : Dialogue β :=
  match d with
  | done (.ok a) => next a
  | done (.error e) => done (.error e)
  | ask request reply => ask request fun answer => (reply answer).andThen next

instance : Monad Dialogue where
  pure a := done (.ok a)
  bind := andThen

instance : MonadLift (Except QueryError) Dialogue where
  monadLift := done

def fail (e : QueryError) : Dialogue α := done (.error e)

/-- One request, whose failure ends the dialogue. -/
def request (r : StoreRequest) : Dialogue r.Answer := ask r done

/-- A dialogue with a store that is a state. -/
def run (answer : σ → (r : StoreRequest) → Except QueryError r.Answer × σ) :
    Dialogue α → σ → Except QueryError α × σ
  | done result, s => (result, s)
  | ask request next, s =>
    let (reply, s) := answer s request
    (next reply).run answer s

end Dialogue

end TableQuery
