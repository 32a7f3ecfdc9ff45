import TableQuery.Saved.Service
import TableQuery.Saved.Shelf

/-!
# Calls about saved templates

What users ask of the desk of saved templates, each call as the dialogue with the store that it
leads.

## Main definitions

* `DeskCall`, `DeskCall.dialogue` — calls and their dialogues.
* `TemplateDesk.ActsFor` — a session acts for a user.
* `Dialogue.Respects` — a dialogue writes only what belongs to its user.

## Main results

* `DeskCall.respects_dialogue` — every call respects what belongs to others.
* `DeskCall.newId?_of_creates` — a call creates at most one template, under the id it is given.
-/

namespace TableQuery

namespace Dialogue

variable {α β σ : Type}

def discard (d : Dialogue α) : Dialogue Unit := do
  let _ ← d
  return ()

end Dialogue

/-- A session acts for the user of an id. -/
def TemplateDesk.ActsFor (d : TemplateDesk) (session : Session) (id : String) : Prop :=
  ∃ user, d.users.current session = .ok user ∧ user.id = id

/-- A call of a user. A template is created under an id that nobody was given before. -/
inductive DeskCall where
  | create (now : Moment) (id : String) (template : Template) (access : Access)
      (shareList : List String)
  | update (now : Moment) (template : Template) (access : Access) (shareList : List String)
  | delete (id : String)
  | deleteByCreator
  | find (id : String)
  | listForTable (table : String)

namespace DeskCall

def dialogue (d : TemplateDesk) (session : Session) : DeskCall → Dialogue Unit
  | create now id template access shareList =>
    (d.create session now id template access shareList).discard
  | update now template access shareList => (d.update session now template access shareList).discard
  | delete id => d.delete session id
  | deleteByCreator => (d.deleteByCreator session).discard
  | find id => (d.find id).discard
  | listForTable table => (d.listForTable session table).discard

def newId? : DeskCall → Option String
  | create _ id _ _ _ => some id
  | _ => none

end DeskCall

/-! ## Dialogues that respect what belongs to others -/

namespace Dialogue

/-- A dialogue may still create a template under an id. -/
inductive Creates {α : Type} (id : String) : Dialogue α → Prop where
  | now {r : TemplateRecord} {next : Except QueryError Unit → Dialogue α} (h : r.id = id) :
      Creates id (.ask (.create r) next)
  | later {request : StoreRequest} {next : Except QueryError request.Answer → Dialogue α}
      {answer : Except QueryError request.Answer} (h : Creates id (next answer)) :
      Creates id (.ask request next)

/-- A dialogue creates at most one template, for its own user, and changes and deletes only
templates that it knows to belong to this user: those that are known already and those that it has
found to. It makes nothing public that exists already, and gives lists of users to shared templates
only. -/
inductive Respects {α : Type} (mine : String → Prop) : (String → Prop) → Dialogue α → Prop where
  | done {known : String → Prop} {result : Except QueryError α} : Respects mine known (.done result)
  | create {known : String → Prop} {r : TemplateRecord} {next : Except QueryError Unit → Dialogue α}
      (hmine : mine r.createUser) (hshares : r.shareList ≠ [] → r.access = .shared)
      (honce : ∀ answer id, ¬(next answer).Creates id)
      (hnext : ∀ answer, Respects mine known (next answer)) :
      Respects mine known (.ask (.create r) next)
  | find {known : String → Prop} {id : String}
      {next : Except QueryError TemplateRecord → Dialogue α}
      (hmissing : ∀ e, Respects mine known (next (.error e)))
      (hfound : ∀ r, Respects mine (fun i => known i ∨ i = id ∧ mine r.createUser) (next (.ok r))) :
      Respects mine known (.ask (.find id) next)
  | update {known : String → Prop} {id : String} {u : TemplateUpdate}
      {next : Except QueryError Unit → Dialogue α} (hknown : known id)
      (hshares : u.shareList ≠ [] → u.access = .shared) (hpublic : u.access ≠ .everyone)
      (hnext : ∀ answer, Respects mine known (next answer)) :
      Respects mine known (.ask (.update id u) next)
  | delete {known : String → Prop} {id : String} {next : Except QueryError UInt64 → Dialogue α}
      (hknown : known id) (hnext : ∀ answer, Respects mine known (next answer)) :
      Respects mine known (.ask (.delete id) next)
  | deleteByCreator {known : String → Prop} {user : String}
      {next : Except QueryError UInt64 → Dialogue α} (hmine : mine user)
      (hnext : ∀ answer, Respects mine known (next answer)) :
      Respects mine known (.ask (.deleteByCreator user) next)
  | read {known : String → Prop} {request : StoreRequest}
      {next : Except QueryError request.Answer → Dialogue α}
      (hread : ∀ s : Shelf, (s.answer request).2 = s)
      (hnext : ∀ answer, Respects mine known (next answer)) :
      Respects mine known (.ask request next)

variable {α β : Type} {mine known : String → Prop} {id : String}

/-- To know more is no reason to respect less. -/
theorem Respects.mono {known' : String → Prop} {d : Dialogue α} (h : d.Respects mine known)
    (himp : ∀ id, known id → known' id) : d.Respects mine known' := by
  induction h generalizing known' with
  | done => exact .done
  | create hmine hshares honce _ ih => exact .create hmine hshares honce fun a => ih a himp
  | find _ _ ihm ihf =>
    exact .find (fun e => ihm e himp) fun r => ihf r fun i hi => hi.imp (himp i) id
  | update hknown hshares hpublic _ ih =>
    exact .update (himp _ hknown) hshares hpublic fun a => ih a himp
  | delete hknown _ ih => exact .delete (himp _ hknown) fun a => ih a himp
  | deleteByCreator hmine _ ih => exact .deleteByCreator hmine fun a => ih a himp
  | read hread _ ih => exact .read hread fun a => ih a himp

theorem Creates.of_done_bind {x : Except QueryError α} {next : α → Dialogue β}
    (h : (Dialogue.done x >>= next).Creates id) : ∃ a, x = .ok a ∧ (next a).Creates id := by
  cases x with
  | error e => cases h
  | ok a => exact ⟨a, rfl, h⟩

theorem Creates.of_discard {d : Dialogue α} (h : d.discard.Creates id) : d.Creates id := by
  induction d with
  | done result => obtain ⟨a, -, h⟩ := h.of_done_bind; cases h
  | ask request next ih =>
    cases h with
    | now h => exact .now h
    | later h => exact .later (ih _ h)

theorem Respects.done_bind {x : Except QueryError α} {next : α → Dialogue β}
    (h : ∀ a, x = .ok a → (next a).Respects mine known) :
    (Dialogue.done x >>= next).Respects mine known := by
  cases x with
  | error e => exact .done
  | ok a => exact h a rfl

theorem Respects.discard {d : Dialogue α} (h : d.Respects mine known) :
    d.discard.Respects mine known := by
  induction h with
  | @done _ result => cases result <;> exact .done
  | create hmine hshares honce _ ih =>
    exact .create hmine hshares (fun a id hc => honce a id (.of_discard hc)) ih
  | find _ _ ihm ihf => exact .find ihm ihf
  | update hknown hshares hpublic _ ih => exact .update hknown hshares hpublic ih
  | delete hknown _ ih => exact .delete hknown ih
  | deleteByCreator hmine _ ih => exact .deleteByCreator hmine ih
  | read hread _ ih => exact .read hread ih

end Dialogue

namespace TemplateDesk

variable {d : TemplateDesk} {session : Session} {now : Moment} {id : String} {template : Template}
  {access : Access} {shareList : List String} {mine known : String → Prop}

theorem respects_find (d : TemplateDesk) (id : String) : (d.find id).Respects mine known :=
  .find (fun _ => .done) fun _ => .done

theorem not_creates_find {i : String} : ¬(d.find id).Creates i := by
  intro h
  cases h with
  | later h => obtain ⟨r, -, h⟩ := Dialogue.Creates.of_done_bind h; cases h

theorem respects_create (d : TemplateDesk) (session : Session) :
    (d.create session now id template access shareList).Respects (d.ActsFor session) known := by
  refine .done_bind fun t _ => .done_bind fun _ _ => .done_bind fun user huser => ?_
  refine .create ⟨user, huser, rfl⟩ (fun hne => ?_) (fun answer i h => ?_) fun answer => ?_
  · by_cases hshared : access = .shared
    · exact hshared
    · simp [hshared] at hne
  · obtain ⟨-, -, h⟩ := h.of_done_bind
    exact not_creates_find h
  · exact .done_bind fun _ _ => respects_find d id

/-- Creating a template creates one under the id that was given. -/
theorem eq_of_creates_create {i : String}
    (h : (d.create session now id template access shareList).Creates i) : i = id := by
  obtain ⟨t, -, h⟩ := h.of_done_bind
  obtain ⟨-, -, h⟩ := h.of_done_bind
  obtain ⟨user, -, h⟩ := h.of_done_bind
  cases h with
  | now h => exact h.symm
  | later h =>
    obtain ⟨-, -, h⟩ := Dialogue.Creates.of_done_bind h
    exact absurd h not_creates_find

/-- What is done with a record is done if it belongs to the user. -/
theorem owned_bind {α : Type} (user : UserInfo) (id : String) (next : TemplateRecord → Dialogue α) :
    owned user id >>= next = .ask (.find id) fun (answer : Except QueryError TemplateRecord) =>
      match answer with
      | .error e => .done (.error e)
      | .ok r =>
        if r.createUser = user.id then next r
        else .done (.error (.operatePermissionDenied id)) := by
  show Dialogue.ask (.find id) _ = _
  congr 1
  funext (answer : Except QueryError TemplateRecord)
  cases answer with
  | error e => rfl
  | ok r =>
    show (if r.createUser = user.id then pure r else Dialogue.fail _) >>= next = _
    dsimp only
    split <;> rfl

theorem respects_owned {α : Type} {user : UserInfo} (hmine : mine user.id)
    {next : TemplateRecord → Dialogue α}
    (h : ∀ r, (next r).Respects mine fun i => known i ∨ i = id) :
    (owned user id >>= next).Respects mine known := by
  rw [owned_bind]
  refine .find (fun _ => .done) fun r => ?_
  dsimp only
  split
  · next howner => exact (h r).mono fun i hi => hi.imp_right fun hi => ⟨hi, howner ▸ hmine⟩
  · exact .done

theorem not_creates_owned {α : Type} {user : UserInfo} {i : String}
    {next : TemplateRecord → Dialogue α} (h : ∀ r, ¬(next r).Creates i) :
    ¬(owned user id >>= next).Creates i := by
  rw [owned_bind]
  intro hc
  cases hc with
  | later hc =>
    dsimp only at hc
    split at hc
    · cases hc
    · split at hc
      · exact h _ hc
      · cases hc

theorem respects_update (d : TemplateDesk) (session : Session) :
    (d.update session now template access shareList).Respects (d.ActsFor session) known := by
  refine .done_bind fun t _ => .done_bind fun _ _ => .done_bind fun user huser =>
    respects_owned ⟨user, huser, rfl⟩ fun r => .done_bind fun shares hshares => ?_
  have haccess : (shares ≠ [] → access = .shared) ∧ access ≠ .everyone := by
    cases access <;> cases hshares <;> simp
  exact .update (.inr rfl) haccess.1 haccess.2 fun answer => .done_bind fun _ _ => respects_find d _

theorem not_creates_update {i : String} :
    ¬(d.update session now template access shareList).Creates i := by
  intro h
  obtain ⟨t, -, h⟩ := h.of_done_bind
  obtain ⟨-, -, h⟩ := h.of_done_bind
  obtain ⟨user, -, h⟩ := h.of_done_bind
  refine not_creates_owned (fun r h => ?_) h
  obtain ⟨shares, -, h⟩ := h.of_done_bind
  cases h with
  | later h =>
    obtain ⟨-, -, h⟩ := Dialogue.Creates.of_done_bind h
    exact not_creates_find h

theorem respects_delete (d : TemplateDesk) (session : Session) (id : String) :
    (d.delete session id).Respects (d.ActsFor session) known :=
  .done_bind fun user huser => respects_owned ⟨user, huser, rfl⟩ fun _ =>
    .delete (.inr rfl) fun _ => .done_bind fun _ _ => .done

theorem not_creates_delete {i : String} : ¬(d.delete session id).Creates i := by
  intro h
  obtain ⟨user, -, h⟩ := h.of_done_bind
  refine not_creates_owned (fun r h => ?_) h
  cases h with
  | later h => obtain ⟨-, -, h⟩ := Dialogue.Creates.of_done_bind h; cases h

theorem respects_deleteByCreator (d : TemplateDesk) (session : Session) :
    (d.deleteByCreator session).Respects (d.ActsFor session) known :=
  .done_bind fun user huser => .deleteByCreator ⟨user, huser, rfl⟩ fun _ => .done

theorem not_creates_deleteByCreator {i : String} : ¬(d.deleteByCreator session).Creates i := by
  intro h
  obtain ⟨user, -, h⟩ := h.of_done_bind
  cases h with
  | later h => cases h

theorem respects_listForTable (d : TemplateDesk) (session : Session) (table : String) :
    (d.listForTable session table).Respects mine known := by
  refine .done_bind fun t _ => .done_bind fun user _ => .read (fun _ => rfl) fun answer => ?_
  refine .done_bind fun own _ => .done_bind fun ownSaved _ => .read (fun _ => rfl) fun answer => ?_
  refine .done_bind fun shared _ => .read (fun _ => rfl) fun answer => ?_
  exact .done_bind fun everyone _ => .done_bind fun others _ => .done

theorem not_creates_listForTable {table i : String} :
    ¬(d.listForTable session table).Creates i := by
  intro h
  obtain ⟨t, -, h⟩ := h.of_done_bind
  obtain ⟨user, -, h⟩ := h.of_done_bind
  -- Three lists are read, one after the other.
  cases h with
  | later h =>
    obtain ⟨own, -, h⟩ := Dialogue.Creates.of_done_bind h
    obtain ⟨ownSaved, -, h⟩ := h.of_done_bind
    cases h with
    | later h =>
      obtain ⟨shared, -, h⟩ := Dialogue.Creates.of_done_bind h
      cases h with
      | later h =>
        obtain ⟨everyone, -, h⟩ := Dialogue.Creates.of_done_bind h
        obtain ⟨others, -, h⟩ := h.of_done_bind
        cases h

end TemplateDesk

namespace DeskCall

variable {d : TemplateDesk} {session : Session}

/-- Every call respects what belongs to others, whatever is known before it. -/
theorem respects_dialogue (d : TemplateDesk) (session : Session) (call : DeskCall)
    (known : String → Prop) : (call.dialogue d session).Respects (d.ActsFor session) known := by
  cases call with
  | create => exact (d.respects_create session).discard
  | update => exact (d.respects_update session).discard
  | delete id => exact d.respects_delete session id
  | deleteByCreator => exact (d.respects_deleteByCreator session).discard
  | find id => exact (d.respects_find id).discard
  | listForTable table => exact (d.respects_listForTable session table).discard

/-- A call creates a template at most under the id that it is given. -/
theorem newId?_of_creates {call : DeskCall} {id : String}
    (h : (call.dialogue d session).Creates id) : call.newId? = some id := by
  cases call with
  | create => rw [TemplateDesk.eq_of_creates_create h.of_discard, newId?]
  | update => exact absurd h.of_discard TemplateDesk.not_creates_update
  | delete => exact absurd h TemplateDesk.not_creates_delete
  | deleteByCreator => exact absurd h.of_discard TemplateDesk.not_creates_deleteByCreator
  | find => exact absurd h.of_discard TemplateDesk.not_creates_find
  | listForTable => exact absurd h.of_discard TemplateDesk.not_creates_listForTable

end DeskCall

end TableQuery
