import TableQuery.Query.Run

/-!
# Actions on rows

## Main definitions

* `Table.offers` — the actions that a row offers.
* `Engine.executeAction` — a form that was filled in is carried out.
-/

namespace TableQuery

/-- An action as a row offers it, unless its form has nothing for the row. -/
def RowAction.offer (a : RowAction) (session : Session) (row : TableRow) :
    Except QueryError (Option ActionOffer) :=
  let plain : ActionOffer := ⟨a.id, a.name, a.type, none, none, none⟩
  match a with
  | .custom .. => .ok (some plain)
  | .href _ _ style address =>
    .ok (some { plain with href := some (address row), hrefStyle := some style })
  | .form _ _ f =>
    match f.schema session row with
    | .ok schema => .ok (some { plain with formSchema := some schema })
    | .error (.actionNotSupported _) => .ok none
    | .error e => .error e

namespace Table

def offersOf (session : Session) (row : TableRow) :
    List RowAction → Except QueryError (List ActionOffer)
  | [] => .ok []
  | a :: as => do
    let offer ← a.offer session row
    return offer.toList ++ (← offersOf session row as)

def offers (t : Table) (session : Session) (row : TableRow) :
    Except QueryError (List ActionOffer) :=
  offersOf session row (t.actionsFor session row)

def withOffers (t : Table) (session : Session) :
    List TableRow → Except QueryError (List TableRow)
  | [] => .ok []
  | row :: rows => do
    let actions ← t.offers session row
    return { row with actions } :: (← t.withOffers session rows)

end Table

def Engine.executeAction (e : Engine) (session : Session) (table action : String)
    (payload : Json) : Run Unit := do
  let t ← e.registry.find table
  match t.action? action with
  | none => Run.stop (.error (.rowActionNotFound t.id action))
  | some a =>
    match a.form? with
    | none => Run.stop (.error (.notFormAction action))
    | some form =>
      .call (.execute action payload session.user)
        ((form.execute session payload).mapError Stop.error)

end TableQuery
