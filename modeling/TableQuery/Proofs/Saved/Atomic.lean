import TableQuery.Proofs.Exchange.Template
import TableQuery.Proofs.Sample
import TableQuery.Proofs.Saved.Calls
import TableQuery.Saved.Shelf

/-!
# Failed calls and the store

Templates are written first and then read back, from the text that was saved. A call that cannot
read what it has written fails, but the record stays. Only doubles that are not finite make this
happen: their texts are written as null, which is no double.

## Main definitions

* `Dialogue.Outcome` — what comes of a dialogue on a store.
* `DeskCall.run` — a call on a store that nobody else uses meanwhile.
* `DeskCall.IsFinite` — a call saves no double that is infinite or no number.

## Main results

* `TemplateDesk.outcome_find` — what was written is read back if its doubles are finite.
* `DeskCall.outcome_run` — what comes of every call.
* `DeskCall.unchanged_of_failed` — which failed calls leave the store as it was.
-/

namespace TableQuery

/-! ## Writing and reading again -/

namespace Shelf

variable {s : Shelf} {id : String} {r : TemplateRecord}

theorem find?_create (h : s.find? r.id = none) : find? ⟨s.records ++ [r]⟩ r.id = some r := by
  unfold find? at h ⊢
  rw [List.find?_append, h]
  simp

theorem find?_update (h : s.find? id = some r) (u : TemplateUpdate) :
    find? ⟨s.records.map fun r => if r.id = id then u.apply r else r⟩ id = some (u.apply r) := by
  have hid : r.id = id := by simpa using List.find?_some h
  have hp : ((fun r : TemplateRecord => r.id == id) ∘ fun r => if r.id = id then u.apply r else r) =
      fun r => r.id == id := by
    funext r
    dsimp only [Function.comp_apply]
    split <;> rfl
  unfold find? at h ⊢
  rw [List.find?_map, hp, h, Option.map_some, if_pos hid]

end Shelf

/-! ## What comes of a dialogue -/

/-- What comes of a dialogue on a store: it fails and leaves the store as it was; it succeeds, and
what it saves is readable; or it fails because a record that it has saved is not. -/
inductive Dialogue.Outcome {α : Type} (s : Shelf) (body? : Option Template.Body) :
    Except QueryError α × Shelf → Prop where
  | failed (e : QueryError) : Outcome s body? (.error e, s)
  | done {a : α} {s' : Shelf} (h : ∀ b ∈ body?, b.IsFinite) : Outcome s body? (.ok a, s')
  | unreadable {s' : Shelf} {b : Template.Body} (hb : b ∈ body?) (h : ¬b.IsFinite)
      (hr : ∃ r ∈ s'.records, r.body = b.encode ∧ Template.Body.decode? r.body = none) :
      Outcome s body? (.error .serialization, s')

namespace Dialogue.Outcome

variable {α β : Type} {s s' : Shelf} {body? : Option Template.Body}

theorem of_done (x : Except QueryError α) :
    Outcome s none ((Dialogue.done x).run Shelf.answer s) := by
  cases x with
  | error e => exact .failed e
  | ok a => exact .done (by simp)

theorem done_bind {x : Except QueryError α} {next : α → Dialogue β}
    (h : ∀ a, x = .ok a → Outcome s body? ((next a).run Shelf.answer s)) :
    Outcome s body? ((Dialogue.done x >>= next).run Shelf.answer s) := by
  cases x with
  | error e => exact .failed e
  | ok a => exact h a rfl

/-- A dialogue that goes on as the store answers, if this does not change the store. -/
theorem request_bind {request : StoreRequest} {next : request.Answer → Dialogue β}
    (hsame : (s.answer request).2 = s)
    (h : ∀ a, (s.answer request).1 = .ok a → Outcome s body? ((next a).run Shelf.answer s)) :
    Outcome s body? ((Dialogue.request request >>= next).run Shelf.answer s) := by
  show Outcome _ _ ((Dialogue.done (s.answer request).1 >>= next).run Shelf.answer
    (s.answer request).2)
  rw [hsame]
  exact .done_bind h

theorem discard {d : Dialogue α} (h : Outcome s body? (d.run Shelf.answer s')) :
    Outcome s body? (d.discard.run Shelf.answer s') := by
  induction d generalizing s' with
  | done result =>
    cases h with
    | failed e => exact .failed e
    | done hb => exact .done hb
    | unreadable hb hnot hr => exact .unreadable hb hnot hr
  | ask request next ih => exact ih _ h

end Dialogue.Outcome

open Dialogue (Outcome)

namespace TemplateDesk

variable {d : TemplateDesk} {session : Session} {now : Moment} {id : String} {template : Template}
  {access : Access} {shareList : List String} {s s' : Shelf}

theorem outcome_find {r : TemplateRecord} {b : Template.Body} (h : s'.find? id = some r)
    (hr : r.body = b.encode) : Outcome s (some b) ((d.find id).run Shelf.answer s') := by
  have hrun : (d.find id).run Shelf.answer s' = (d.saved r, s') := by
    show (Dialogue.done (Shelf.answer s' (.find id)).1 >>= fun r => Dialogue.done (d.saved r)).run
      Shelf.answer (Shelf.answer s' (.find id)).2 = _
    simp only [Shelf.answer, h]
    rfl
  have hreadable := @Template.Body.isSome_decode?_encode b
  rw [hrun, saved, templateOf, hr]
  cases hdecode : Template.Body.decode? b.encode with
  | none =>
    rw [hdecode] at hreadable
    refine .unreadable rfl (fun hb => by simpa using hreadable.mpr hb) ⟨r, ?_, hr, hr ▸ hdecode⟩
    exact List.mem_of_find?_eq_some h
  | some body =>
    rw [hdecode] at hreadable
    refine .done fun b' hb => ?_
    cases hb
    exact hreadable.mp rfl

theorem outcome_create (d : TemplateDesk) (session : Session) (s : Shelf) :
    Outcome s (some template.body)
      ((d.create session now id template access shareList).run Shelf.answer s) := by
  refine .done_bind fun t _ => .done_bind fun _ _ => .done_bind fun user _ => ?_
  show Outcome _ _ ((Dialogue.done (s.create _).1 >>= fun _ => d.find id).run Shelf.answer
    (s.create _).2)
  by_cases hnew : s.find? id = none
  · rw [Shelf.create, if_neg (by simp [hnew])]
    exact outcome_find (Shelf.find?_create hnew) rfl
  · rw [Shelf.create, if_pos (Option.isSome_iff_ne_none.mpr hnew)]
    exact .failed _

/-- What belongs to somebody else is left alone. -/
theorem outcome_owned {α : Type} {user : UserInfo} {next : TemplateRecord → Dialogue α}
    {body? : Option Template.Body}
    (h : ∀ r, s.find? id = some r → Outcome s body? ((next r).run Shelf.answer s)) :
    Outcome s body? ((owned user id >>= next).run Shelf.answer s) := by
  rw [owned_bind]
  show Outcome _ _ (Dialogue.run Shelf.answer _ (s.answer (.find id)).2)
  cases hfind : s.find? id with
  | none =>
    simp only [Shelf.answer, hfind]
    exact .failed _
  | some r =>
    simp only [Shelf.answer, hfind]
    split
    · exact h r hfind
    · exact .failed _

theorem outcome_update (d : TemplateDesk) (session : Session) (s : Shelf) :
    Outcome s (some template.body)
      ((d.update session now template access shareList).run Shelf.answer s) := by
  refine .done_bind fun t _ => .done_bind fun _ _ => .done_bind fun user _ =>
    outcome_owned fun r hfind => .done_bind fun shares _ => ?_
  show Outcome _ _ ((Dialogue.done (s.update template.id _).1 >>= fun _ => d.find template.id).run
    Shelf.answer (s.update template.id _).2)
  rw [Shelf.update, if_pos (by rw [hfind]; rfl)]
  exact outcome_find (Shelf.find?_update hfind _) rfl

theorem outcome_delete (d : TemplateDesk) (session : Session) (id : String) (s : Shelf) :
    Outcome s none ((d.delete session id).run Shelf.answer s) :=
  .done_bind fun _ _ => outcome_owned fun _ _ => .done (by simp)

theorem outcome_deleteByCreator (d : TemplateDesk) (session : Session) (s : Shelf) :
    Outcome s none ((d.deleteByCreator session).run Shelf.answer s) :=
  .done_bind fun _ _ => .done (by simp)

theorem outcome_look (d : TemplateDesk) (id : String) (s : Shelf) :
    Outcome s none ((d.find id).run Shelf.answer s) := by
  refine .request_bind ?_ fun r _ => .of_done (d.saved r)
  dsimp only [Shelf.answer]
  split <;> rfl

theorem outcome_listForTable (d : TemplateDesk) (session : Session) (table : String) (s : Shelf) :
    Outcome s none ((d.listForTable session table).run Shelf.answer s) :=
  .done_bind fun _ _ => .done_bind fun _ _ => .request_bind rfl fun _ _ => .done_bind fun _ _ =>
    .request_bind rfl fun _ _ => .request_bind rfl fun _ _ => .done_bind fun _ _ => .done (by simp)

end TemplateDesk

/-! ## Calls -/

namespace DeskCall

/-- A call on a store that nobody else uses meanwhile. -/
def run (d : TemplateDesk) (session : Session) (call : DeskCall) (s : Shelf) :
    Except QueryError Unit × Shelf :=
  (call.dialogue d session).run Shelf.answer s

def body? : DeskCall → Option Template.Body
  | create _ _ template _ _ | update _ template _ _ => some template.body
  | _ => none

/-- A call saves no double that is infinite or no number. -/
def IsFinite (call : DeskCall) : Prop :=
  ∀ b ∈ call.body?, b.IsFinite

theorem outcome_run (d : TemplateDesk) (session : Session) (call : DeskCall) (s : Shelf) :
    Outcome s call.body? (call.run d session s) := by
  cases call with
  | create => exact (d.outcome_create session s).discard
  | update => exact (d.outcome_update session s).discard
  | delete id => exact d.outcome_delete session id s
  | deleteByCreator => exact (d.outcome_deleteByCreator session s).discard
  | find id => exact (d.outcome_look id s).discard
  | listForTable table => exact (d.outcome_listForTable session table s).discard

/-- A failed call leaves the store as it was if the doubles that it saves are finite. With others a
call always fails: it leaves the store as it was, or it cannot read a record that it has written,
which stays. -/
theorem unchanged_of_failed (d : TemplateDesk) (session : Session) (call : DeskCall) (s : Shelf) :
    (call.IsFinite → ∀ e, (call.run d session s).1 = .error e → (call.run d session s).2 = s) ∧
      (¬call.IsFinite → ∃ e, (call.run d session s).1 = .error e ∧
        ((call.run d session s).2 = s ∨ e = .serialization ∧
          ∃ r ∈ (call.run d session s).2.records, (∃ b ∈ call.body?, r.body = b.encode) ∧
            Template.Body.decode? r.body = none)) := by
  have houtcome := call.outcome_run d session s
  generalize call.run d session s = result at houtcome
  constructor
  · intro hfinite e he
    cases houtcome with
    | failed => rfl
    | done => cases he
    | unreadable hb hnot => exact absurd (hfinite _ hb) hnot
  · intro hnot
    cases houtcome with
    | failed e => exact ⟨e, rfl, .inl rfl⟩
    | done hfinite => exact absurd hfinite hnot
    | unreadable hb _ hr =>
      obtain ⟨r, hmem, hbody, hdecode⟩ := hr
      exact ⟨_, rfl, .inr ⟨rfl, r, hmem, ⟨_, hb, hbody⟩, hdecode⟩⟩

end DeskCall

/-! ## A price without end -/

namespace Bargain

open Sample (ann clock users)

def goods : Table :=
  ⟨"Stock", "Stock", "",
    [{ (default : Column) with id := "Code", name := "Code", type := .string, isKey := true },
      { (default : Column) with
        id := "Price", name := "Price", kind := .float, type := .double
        filters := [⟨Builtin.lt, "less than", .single⟩] }],
    "Code", [], none, none⟩

def desk : TemplateDesk where
  registry := ⟨[goods]⟩
  users := users

def below (price : Float) : Template :=
  .temporary "Stock" ⟨[⟨"Price", Builtin.lt, [.double price]⟩], [.plain "Code"]⟩ .all

def saves (price : Float) : DeskCall :=
  .create clock "t1" (below price) .owner []

def taken : Shelf :=
  ⟨[⟨"t1", "Mine", "Stock", .owner, "ann", clock, clock, "{}", []⟩]⟩

/-- The id is taken, and the call fails without a trace. -/
theorem taken_unchanged :
    (saves 0.5).IsFinite ∧ ((saves 0.5).run desk ann taken).1 =
      .error (.backend "template t1 already exists") ∧
      ((saves 0.5).run desk ann taken).2 = taken := by
  have hfinite : (saves 0.5).IsFinite := by
    rintro b ⟨⟩ c hc v hv
    obtain rfl := List.mem_singleton.mp hc
    obtain rfl := List.mem_singleton.mp hv
    show (0.5 : Float).isFinite = true
    decide +kernel
  have hfailed : ((saves 0.5).run desk ann taken).1 =
      .error (.backend "template t1 already exists") := by
    decide +kernel
  exact ⟨hfinite, hfailed,
    (DeskCall.unchanged_of_failed desk ann (saves 0.5) taken).1 hfinite _ hfailed⟩

/-- The template of a price without end is saved and cannot be read again. -/
theorem endless_price_remains :
    ((saves (1.0 / 0.0)).run desk ann .empty).1 = .error .serialization ∧
      ((saves (1.0 / 0.0)).run desk ann .empty).2 ≠ .empty := by
  have hrun : ((saves (1.0 / 0.0)).run desk ann .empty).1 = .error .serialization ∧
      ((saves (1.0 / 0.0)).run desk ann .empty).2.records.map TemplateRecord.id = ["t1"] := by
    decide +kernel
  refine ⟨hrun.1, fun h => ?_⟩
  have hids := hrun.2
  rw [h] at hids
  cases hids

end Bargain

end TableQuery
