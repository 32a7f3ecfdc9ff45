import TableQuery.Proofs.Lists
import TableQuery.Proofs.Run
import TableQuery.Proofs.Saved.Calls

/-!
# Reading saved templates

Saved templates reach users in three ways: one is found by its id, one is resolved for a table, and
those of a table are listed. All three ask the store and leave it as it is, so what comes of them
depends on others only by what the store holds when their requests are answered.

## Main definitions

* `TemplateRecord.VisibleTo` — who may see a record.
* `Shelf.own`, `Shelf.others` — the records of the user and of others that a list is made of.
* `Dialogue.Asks` — all requests of a dialogue satisfy a property.
* `Dialogue.Reads` — a dialogue changes nothing.
* `Dialogue.heard` — what comes of such a dialogue while others use the store.

## Main results

* `Dialogue.Reads.run_eq` — what comes of it if nobody else does.
* `TemplateDesk.heard_find`, `TemplateDesk.heard_resolve`, `TemplateDesk.heard_listForTable` — the
  three ways to read, taken apart.
-/

namespace TableQuery

/-- A record is visible to a user if it is the user's own, shared with the user, or public. -/
def TemplateRecord.VisibleTo (r : TemplateRecord) (user : String) : Prop :=
  r.createUser = user ∨ r.access = .shared ∧ user ∈ r.shareList ∨ r.access = .everyone

instance (r : TemplateRecord) (user : String) : Decidable (r.VisibleTo user) :=
  inferInstanceAs (Decidable (_ ∨ _ ∧ _ ∨ _))

/-! ## Records of lists -/

namespace Shelf

variable {s s' : Shelf} {p : TemplateRecord → Bool} {table user : String} {r : TemplateRecord}

/-- The records of a table that belong to a user, oldest first. -/
def own (s : Shelf) (table user : String) : List TemplateRecord :=
  s.select fun r => r.table == table && r.createUser == user

/-- The records of a table that belong to others: first those that one store has and that are shared
with the user, then the public ones of a store, which is asked later. -/
def others (s s' : Shelf) (table user : String) : List TemplateRecord :=
  ((s.select fun r => r.table == table && r.access == .shared && r.shareList.contains user) ++
    s'.select fun r => r.table == table && r.access == .everyone).filter
      fun r => r.createUser != user

@[simp] theorem mem_select : r ∈ s.select p ↔ r ∈ s.records ∧ p r = true := by
  rw [select, List.mem_mergeSort, List.mem_filter]

@[simp] theorem mem_own :
    r ∈ s.own table user ↔ r ∈ s.records ∧ r.table = table ∧ r.createUser = user := by
  simp [own]

@[simp] theorem mem_others : r ∈ s.others s' table user ↔
    (r ∈ s.records ∧ r.table = table ∧ r.access = .shared ∧ user ∈ r.shareList ∨
      r ∈ s'.records ∧ r.table = table ∧ r.access = .everyone) ∧ r.createUser ≠ user := by
  simp [others, or_and_right, and_assoc]

end Shelf

/-! ## What dialogues ask -/

namespace Dialogue

variable {α β : Type}

/-- All requests that a dialogue may come to satisfy `p`. -/
inductive Asks (p : StoreRequest → Prop) : Dialogue α → Prop where
  | done {result : Except QueryError α} : Asks p (.done result)
  | ask {request : StoreRequest} {next : Except QueryError request.Answer → Dialogue α}
      (h : p request) (hnext : ∀ answer, Asks p (next answer)) : Asks p (.ask request next)

namespace Asks

variable {p : StoreRequest → Prop}

theorem request {r : StoreRequest} (h : p r) : (Dialogue.request r).Asks p :=
  .ask h fun _ => .done

theorem bind {d : Dialogue α} {next : α → Dialogue β} (h : d.Asks p)
    (hnext : ∀ a, (next a).Asks p) : (d >>= next).Asks p := by
  induction h with
  | @done result =>
    cases result with
    | error e => exact .done
    | ok a => exact hnext a
  | ask h _ ih => exact .ask h ih

theorem done_bind {x : Except QueryError α} {next : α → Dialogue β}
    (h : ∀ a, x = .ok a → (next a).Asks p) : (Dialogue.done x >>= next).Asks p := by
  cases x with
  | error e => exact .done
  | ok a => exact h a rfl

theorem discard {d : Dialogue α} (h : d.Asks p) : d.discard.Asks p :=
  h.bind fun _ => .done

end Asks

/-- A dialogue asks only what leaves a store as it is. -/
abbrev Reads (d : Dialogue α) : Prop :=
  d.Asks fun request => ∀ s : Shelf, (s.answer request).2 = s

/-- What comes of a dialogue that only reads, where its request `n` is answered from `stores n`. -/
def heard : Dialogue α → (Nat → Shelf) → Except QueryError α
  | .done result, _ => result
  | .ask request next, stores =>
    (next ((stores 0).answer request).1).heard fun n => stores (n + 1)

/-- On a store that nobody else uses meanwhile, all requests are answered from the same records. -/
theorem Reads.run_eq {d : Dialogue α} (h : d.Reads) (s : Shelf) :
    d.run Shelf.answer s = (d.heard fun _ => s, s) := by
  induction h with
  | done => rfl
  | @ask request next hsame _ ih =>
    show (next (s.answer request).1).run Shelf.answer (s.answer request).2 = _
    rw [hsame]
    exact ih _

@[simp] theorem liftM_eq_done (x : Except QueryError α) : (liftM x : Dialogue α) = .done x := rfl

theorem done_bind_eq {x : Except QueryError α} {a : α} {next : α → Dialogue β} (h : x = .ok a) :
    (Dialogue.done x >>= next) = next a := by
  rw [h]
  rfl

@[simp] theorem heard_done (x : Except QueryError α) (stores : Nat → Shelf) :
    (Dialogue.done x).heard stores = x := rfl

@[simp] theorem heard_pure (a : α) (stores : Nat → Shelf) :
    (pure a : Dialogue α).heard stores = .ok a := rfl

@[simp] theorem heard_done_bind (x : Except QueryError α) (next : α → Dialogue β)
    (stores : Nat → Shelf) :
    (Dialogue.done x >>= next).heard stores = x >>= fun a => (next a).heard stores := by
  cases x <;> rfl

@[simp] theorem heard_request_bind (request : StoreRequest) (next : request.Answer → Dialogue β)
    (stores : Nat → Shelf) :
    (Dialogue.request request >>= next).heard stores =
      ((stores 0).answer request).1 >>= fun a => (next a).heard fun n => stores (n + 1) :=
  heard_done_bind _ _ _

@[simp] theorem heard_bind_pure (d : Dialogue α) (f : α → β) (stores : Nat → Shelf) :
    (d >>= fun a => pure (f a)).heard stores = d.heard stores >>= fun a => .ok (f a) := by
  induction d generalizing stores with
  | done result => cases result <;> rfl
  | ask request next ih => exact ih _ _

end Dialogue

namespace TemplateDesk

variable {d : TemplateDesk} {r : TemplateRecord}

/-! ## Records as users see them -/

/-- The template of a record has its name and belongs to its table. -/
theorem templateOf_eq_ok {t : Template} (h : d.templateOf r = .ok t) :
    t.id = r.id ∧ t.name = r.name ∧ t.table = r.table := by
  unfold templateOf at h
  split at h
  · cases h
  · cases h
    split <;> exact ⟨rfl, rfl, rfl⟩

/-- The template of a record whose table there is lists each column of this table. -/
theorem templateOf_eq_ok_iff {u : Table} {template : Template}
    (hu : d.registry.find r.table = .ok u) :
    d.templateOf r = .ok template ↔ ∃ b, Template.Body.decode? r.body = some b ∧
      template = u.syncColumns
        { Template.temporary r.table b .all with id := r.id, name := r.name } := by
  rw [templateOf, Registry.find_eq_ok_iff.mp hu]
  cases Template.Body.decode? r.body <;> simp [eq_comm]

/-- A record is readable if its filter and output are. -/
theorem exists_templateOf_iff :
    (∃ t, d.templateOf r = .ok t) ↔ (Template.Body.decode? r.body).isSome := by
  unfold templateOf
  cases Template.Body.decode? r.body <;> simp

theorem saved_eq_ok_iff {e : SavedTemplate} :
    d.saved r = .ok e ↔ ∃ t, d.templateOf r = .ok t ∧ e = ⟨t, some (d.fileInfo r)⟩ := by
  rw [saved, Except.bind_eq_ok_iff]
  simp only [Except.pure_eq_ok, Except.ok.injEq, eq_comm]

theorem savedAll_eq_mapM (d : TemplateDesk) (rs : List TemplateRecord) :
    d.savedAll rs = rs.mapM d.saved := by
  induction rs with
  | nil => rfl
  | cons r rs ih => rw [savedAll, ih, List.mapM_cons]

/-! ## Three ways to read -/

variable {session : Session} {table : String} {stores : Nat → Shelf}

/-- The templates to choose from, in order and each once. -/
def arranged (t : Table) (own others : List SavedTemplate) : List SavedTemplate :=
  firstByKey (fun s => s.template.id)
    ((⟨t.defaultTemplate, none⟩ :: own ++ others.map markedAsShared).mergeSort notYounger)

theorem reads_find (d : TemplateDesk) (id : String) : (d.find id).Reads :=
  .bind (.request fun s => by dsimp only [Shelf.answer]; split <;> rfl) fun _ => .done

theorem reads_resolve (d : TemplateDesk) (table : String) (ref : TemplateRef) :
    (d.resolve table ref).Reads := by
  refine .bind .done fun t => ?_
  cases ref with
  | inline body => exact .done
  | saved id =>
    dsimp only
    split
    · exact .done
    · split
      · exact .done
      · exact (d.reads_find id).bind fun _ => .done

theorem reads_listForTable (d : TemplateDesk) (session : Session) (table : String) :
    (d.listForTable session table).Reads :=
  .bind .done fun _ => .bind .done fun _ => .bind (.request fun _ => rfl) fun _ => .bind .done
    fun _ => .bind (.request fun _ => rfl) fun _ => .bind (.request fun _ => rfl) fun _ =>
      .bind .done fun _ => .done

theorem heard_find (d : TemplateDesk) (id : String) (stores : Nat → Shelf) :
    (d.find id).heard stores =
      match (stores 0).find? id with
      | some r => d.saved r
      | none => .error (.templateNotFound id) := by
  show (Dialogue.done ((stores 0).answer (.find id)).1 >>= fun r => .done (d.saved r)).heard _ = _
  rw [Shelf.answer]
  cases (stores 0).find? id <;> rfl

theorem heard_find_eq_ok_iff {id : String} {e : SavedTemplate} :
    (d.find id).heard stores = .ok e ↔ ∃ r, (stores 0).find? id = some r ∧ d.saved r = .ok e := by
  rw [heard_find]
  cases (stores 0).find? id <;> simp

theorem heard_resolve_inline (d : TemplateDesk) (table : String) (body : Template.Body)
    (stores : Nat → Shelf) :
    (d.resolve table (.inline body)).heard stores =
      d.registry.find table >>= fun _ => .ok (.temporary table body .all) :=
  Dialogue.heard_done_bind _ _ _

theorem heard_resolve (d : TemplateDesk) (table id : String) (stores : Nat → Shelf) :
    (d.resolve table (.saved id)).heard stores = (do
      let t ← d.registry.find table
      if id = Template.emptyId then return t.emptyTemplate
      else if id = Template.defaultId then return t.defaultTemplate
      else
        let s ← (d.find id).heard stores
        return { s.template with table }) := by
  rw [resolve, Dialogue.liftM_eq_done, Dialogue.heard_done_bind]
  congr 1
  funext t
  dsimp only
  split
  · rfl
  · split
    · rfl
    · exact Dialogue.heard_bind_pure _ _ _

/-- A stored template is resolved to the one that is found, for the table that is asked about. -/
theorem heard_resolve_eq_ok_iff {id : String} {template : Template}
    (hid : ¬(id = Template.emptyId ∨ id = Template.defaultId)) :
    (d.resolve table (.saved id)).heard stores = .ok template ↔
      ∃ t e, d.registry.find table = .ok t ∧ (d.find id).heard stores = .ok e ∧
        template = { e.template with table } := by
  rw [not_or] at hid
  simp only [heard_resolve, if_neg hid.1, if_neg hid.2, Except.bind_eq_ok_iff, Except.pure_eq_ok,
    Except.ok.injEq]
  constructor
  · rintro ⟨t, ht, e, he, rfl⟩
    exact ⟨t, e, ht, he, rfl⟩
  · rintro ⟨t, e, ht, he, rfl⟩
    exact ⟨t, ht, e, he, rfl⟩

theorem heard_listForTable (d : TemplateDesk) (session : Session) (table : String)
    (stores : Nat → Shelf) :
    (d.listForTable session table).heard stores = (do
      let t ← d.registry.find table
      let user ← d.users.current session
      let own ← d.savedAll ((stores 0).own table user.id)
      let others ← d.savedAll ((stores 1).others (stores 2) table user.id)
      return arranged t own others) := by
  rw [listForTable, Dialogue.liftM_eq_done, Dialogue.heard_done_bind]
  refine bind_congr fun t => ?_
  rw [Dialogue.liftM_eq_done, Dialogue.heard_done_bind]
  refine bind_congr fun user => ?_
  -- The lists are bound as lists and not as answers, which `rw` does not see through.
  erw [Dialogue.heard_request_bind, Except.ok_bind]
  rw [Dialogue.liftM_eq_done, Dialogue.heard_done_bind]
  refine bind_congr fun own => ?_
  erw [Dialogue.heard_request_bind, Except.ok_bind, Dialogue.heard_request_bind, Except.ok_bind]
  rw [Dialogue.liftM_eq_done, Dialogue.heard_done_bind]
  rfl

end TemplateDesk

end TableQuery
