import TableQuery.Proofs.Sql.Effects

/-!
# Changes of templates as a whole

What changes a template is a transaction of several statements on two relations, of which it can be
told what they do to the rows. So a change is kept as a whole or not at all, and where it is kept
both relations are as it was to leave them.

## Main definitions

* `Sql.Archive.behind` — the rows that a change is to leave.
* `Sql.Archive.Done`, `Sql.Archive.Rejects` — what comes of a change whose statements succeed.

## Main results

* `Sql.Archive.exists_transaction` — a change is a transaction of such statements.
* `Sql.Archive.changed_as_a_whole` — every change is made as a whole, or not at all.
-/

namespace TableQuery.Sql.Archive

/-- The ids of the rows that the first query found. -/
def foundIds : List Exchange → List String
  | .query _ (.ok rows) :: _ => ((rows.mapM readTemplate).toOption.getD []).map TemplateRow.id
  | _ => []

/-- The rows behind a change that went through `xs`. -/
def behind (xs : List Exchange) (rows : Rows) : StoreRequest → Rows
  | .create record =>
    { templates := rows.templates ++ [.ofRecord record]
      shares := rows.shares ++ record.shareList.map (ShareRow.mk record.id) }
  | .update id u =>
    { templates := rows.templates.map fun row => if row.id = id then row.revised u else row
      shares := rows.shares.filter (fun row => row.template ≠ id) ++
        u.shareList.map (ShareRow.mk id) }
  | .delete id =>
    { templates := rows.templates.filter fun row => row.id ≠ id
      shares := rows.shares.filter fun row => row.template ≠ id }
  | .deleteByCreator user =>
    if foundIds xs = [] then rows
    else
      { templates := rows.templates.filter fun row => row.createUser ≠ user
        shares := rows.shares.filter fun row => row.template ∉ foundIds xs }
  | _ => rows

def Changes : StoreRequest → Prop
  | .create _ | .update .. | .delete _ | .deleteByCreator _ => True
  | _ => False

def FindsNothing (r : StoreRequest) (xs : List Exchange) : Prop :=
  ∃ user s, r = .deleteByCreator user ∧ xs = [.query s (.ok [])]

/-- A change fails although no statement of it does. -/
def Rejects (r : StoreRequest) (err : QueryError) (xs : List Exchange) : Prop :=
  (∃ id u s, r = .update id u ∧ xs = [.execution s (.ok 0)] ∧ err = .templateNotFound id) ∨
    ∃ user s rows, r = .deleteByCreator user ∧ xs = [.query s (.ok rows)] ∧
      rows.mapM readTemplate = .error err

/-- The statements of a change do what is to be done; only where there is nothing, the change is
not to be kept. -/
structure Done (d : Dialect) (r : StoreRequest) (keep : Bool) (xs : List Exchange) : Prop where
  leaves : Leaves d xs fun rows => behind xs rows r
  keep_or : keep = true ∨ FindsNothing r xs

section Works

open Work (Keeps)

variable {d : Dialect} {α : Type} {E : QueryError → List Exchange → Prop}

/-- One execution, by what it does to the rows. -/
theorem keeps_execute {f : Fragment} {g : Rows → Rows}
    (h : effect? d (f.statement d) = some g) :
    Keeps d (fun count xs => Leaves d xs g ∧ xs = [.execution (f.statement d) (.ok count)]) E
      (Work.execute f) := by
  refine (Keeps.execute (not_isCommit_of_effect h)).imp ?_ fun _ _ => id
  rintro count xs rfl
  exact ⟨.single h, rfl⟩

theorem keeps_insertShares (id : String) (users : List String) :
    Keeps d (fun _ xs => Leaves d xs fun rows =>
      { rows with shares := rows.shares ++ users.map (ShareRow.mk id) }) E
      (insertShares id users) := by
  unfold insertShares
  split
  · case isTrue hempty =>
    rw [List.isEmpty_iff.mp hempty]
    refine .pure ?_
    intro rows
    simp [effects?]
  · refine .dialect_bind ?_
    refine .bind (keeps_execute (effect_insertShares id users)) ?_
    rintro count xs ⟨hxs, -⟩
    refine .pure ?_
    simpa using hxs

theorem keeps_deleteShares (id : String) :
    Keeps d (fun _ xs => Leaves d xs fun rows =>
      { rows with shares := rows.shares.filter fun row => row.template ≠ id }) E
      (deleteShares id) := by
  refine .dialect_bind ?_
  refine .bind (keeps_execute (effect_deleteShare id)) ?_
  rintro count xs ⟨hxs, -⟩
  refine .pure ?_
  simpa using hxs

theorem keeps_selectTemplates (condition : Fragment) :
    Keeps d (fun found xs => ∃ s rows, xs = [.query s (.ok rows)] ∧ Leaves d xs id ∧
        rows.mapM readTemplate = .ok found)
      (fun err xs => ∃ s rows, xs = [.query s (.ok rows)] ∧ rows.mapM readTemplate = .error err)
      (selectTemplates (fun _ => [condition]) []) := by
  refine .dialect_bind ?_
  have heffect := effect_selectTemplates (d := d) [condition] []
  refine .bind (.query (not_isCommit_of_effect heffect)) ?_
  rintro rows _ rfl
  refine .ofExcept ?_ ?_
  · intro found hfound
    exact ⟨_, rows, rfl, .single heffect, hfound⟩
  · intro err herr
    exact ⟨_, rows, rfl, herr⟩

theorem keeps_create (record : TemplateRecord) : ∃ body : Work (Bool × Unit),
    (∀ consent, create consent record = .transaction consent body) ∧
      ∀ d, Keeps d (fun p => Done d (.create record) p.1) (Rejects (.create record)) body := by
  refine ⟨_, fun _ => rfl, fun d => ?_⟩
  refine .dialect_bind ?_
  refine .bind (keeps_execute (effect_insertTemplate _)) ?_
  rintro count xs ⟨hxs, -⟩
  refine .bind (keeps_insertShares record.id record.shareList) ?_
  rintro _ ys hys
  refine .pure ⟨?_, .inl rfl⟩
  intro rows
  simpa [behind] using hxs.append hys rows

theorem keeps_update (id : String) (u : TemplateUpdate) : ∃ body : Work (Bool × Unit),
    (∀ consent, update consent id u = .transaction consent body) ∧
      ∀ d, Keeps d (fun p => Done d (.update id u) p.1) (Rejects (.update id u)) body := by
  refine ⟨_, fun _ => rfl, fun d => ?_⟩
  refine .dialect_bind ?_
  refine .bind (keeps_execute (effect_updateTemplate _ _)) ?_
  rintro count _ ⟨hxs, rfl⟩
  split
  · case isTrue hzero =>
    refine .bind (Q := fun _ _ => False) (.ofExcept nofun ?_) fun _ _ h => h.elim
    intro err herr
    refine .inl ⟨id, u, _, rfl, by rw [hzero]; rfl, (Except.error.inj herr).symm⟩
  · refine .bind (keeps_deleteShares id) ?_
    rintro _ ys hys
    refine .bind (keeps_insertShares id u.shareList) ?_
    rintro _ zs hzs
    refine .pure ⟨?_, .inl rfl⟩
    intro rows
    simpa [behind] using ((hxs.append hys).append hzs) rows

theorem keeps_delete (id : String) : ∃ body : Work (Bool × UInt64),
    (∀ consent, delete consent id = .transaction consent body) ∧
      ∀ d, Keeps d (fun p => Done d (.delete id) p.1) (Rejects (.delete id)) body := by
  refine ⟨_, fun _ => rfl, fun d => ?_⟩
  refine .dialect_bind ?_
  refine .bind (keeps_deleteShares id) ?_
  rintro _ xs hxs
  refine .bind (keeps_execute (effect_deleteTemplate id)) ?_
  rintro count ys ⟨hys, -⟩
  refine .pure ⟨?_, .inl rfl⟩
  intro rows
  simpa [behind] using hxs.append hys rows

theorem keeps_deleteByCreator (user : String) : ∃ body : Work (Bool × UInt64),
    (∀ consent, deleteByCreator consent user = .transaction consent body) ∧
      ∀ d, Keeps d (fun p => Done d (.deleteByCreator user) p.1)
        (Rejects (.deleteByCreator user)) body := by
  refine ⟨_, fun _ => rfl, fun d => ?_⟩
  refine .dialect_bind ?_
  refine .bind ((keeps_selectTemplates _).imp (fun _ _ => id) ?_) ?_
  · rintro err xs ⟨s, rows, rfl, hrows⟩
    exact .inr ⟨user, s, rows, rfl, rfl, hrows⟩
  rintro found _ ⟨s, rows, rfl, hxs, hfound⟩
  have hids (ys : List Exchange) :
      foundIds (.query s (.ok rows) :: ys) = found.map TemplateRow.id := by
    rw [foundIds, hfound]
    rfl
  split
  · case isTrue hempty =>
    rw [List.isEmpty_iff] at hempty
    subst hempty
    obtain rfl : rows = [] := by
      simpa using Except.mapM_eq_ok_iff.mp hfound
    refine .pure ⟨?_, .inr ⟨user, s, rfl, rfl⟩⟩
    intro stored
    simpa [behind, hids] using hxs stored
  · case isFalse hempty =>
    refine .bind (keeps_execute (effect_deleteShares _)) ?_
    rintro _ ys ⟨hys, -⟩
    refine .bind (keeps_execute (effect_deleteTemplatesOf user)) ?_
    rintro count zs ⟨hzs, -⟩
    refine .pure ⟨?_, .inl rfl⟩
    intro stored
    have hne : found ≠ [] := by simpa using hempty
    simpa [behind, hids, hne] using ((hxs.append hys).append hzs) stored

end Works

theorem exists_transaction {r : StoreRequest} (hr : Changes r) :
    ∃ body : Work (Bool × r.Answer), (∀ consent, work consent r = .transaction consent body) ∧
      ∀ d, Work.Keeps d (fun p => Done d r p.1) (Rejects r) body := by
  cases r with
  | create record => exact keeps_create record
  | update id u => exact keeps_update id u
  | delete id => exact keeps_delete id
  | deleteByCreator user => exact keeps_deleteByCreator user
  | _ => exact hr.elim

theorem update_of_unmatched {consent : Consent} (hbegins : consent.begins = .ok ()) {db : Database}
    {rest : List (Except DbError UInt64)} (hdb : db.executions = .ok 0 :: rest) (id : String)
    (u : TemplateUpdate) : ((update consent id u).run db).1 = .error (.templateNotFound id) := by
  have hexecute (f : Fragment) : ((Work.execute f).run db.begin).1 = .ok 0 := by
    have hbegin : db.begin.executions = .ok 0 :: rest := hdb
    rw [Work.run_execute, hbegin]
    rfl
  have hdialect : (Work.dialect.run db.begin).1 = .ok db.dialect := rfl
  unfold update
  refine Work.transaction_of_error hbegins ?_
  refine (congrArg Prod.fst (Work.bind_of_ok hdialect)).trans ?_
  refine (congrArg Prod.fst (Work.bind_of_ok (hexecute _))).trans ?_
  exact Work.bind_of_error rfl

/-- Every change is made as a whole, or not at all. -/
theorem changed_as_a_whole {r : StoreRequest} (hr : Changes r) (consent : Consent)
    (db : Database) : ∃ xs asked, (∃ db', db.begin.Exchanges xs db') ∧
      (answerUnder consent db r).2.log = db.log ++ [asked] ∧
      Work.Whole consent (fun p => Done db.dialect r p.1) (Rejects r) xs asked
        (answerUnder consent db r).1 ∧
      ∀ id u rest, r = .update id u → consent.begins = .ok () → db.executions = .ok 0 :: rest →
        (answerUnder consent db (.update id u)).1 = .error (.templateNotFound id) ∧
          ∀ s ∈ asked, ¬ s.IsCommit := by
  obtain ⟨body, hbody, hkeeps⟩ := exists_transaction hr
  obtain ⟨xs, asked, hanswers, hlog, hwhole⟩ := (hkeeps db.dialect).transaction consent rfl
  rw [answerUnder, hbody]
  refine ⟨xs, asked, hanswers, hlog, hwhole, ?_⟩
  rintro id u rest rfl hbegins hdb
  have hresult : ((work consent (.update id u)).run db).1 = .error (.templateNotFound id) :=
    update_of_unmatched hbegins hdb id u
  refine ⟨hresult, ?_⟩
  rw [hbody] at hresult
  rcases hwhole.of_error _ hresult with ⟨-, e, -, he⟩ | ⟨hcommit, -⟩
  · cases he
  · exact hcommit

def revision : TemplateUpdate :=
  ⟨"Stock", .shared, "\x7b\x7d", ["ana", "bo"], .midnight ⟨2024, 5, 24, rfl⟩⟩

def ledger (last : Except DbError UInt64) : Database :=
  ⟨.postgres, [], [.ok 1, .ok 3, last], [], none⟩

/-- A revision whose last statement succeeds is kept: the template is as it says, and shared with
these users only. One whose last statement fails is undone. -/
theorem revision_as_a_whole : Changes (.update "t-1" revision) ∧
    (answerUnder .given (ledger (.ok 2)) (.update "t-1" revision)).1 = .ok () ∧
    (∃ xs asked, Leaves .postgres xs (fun rows =>
        { templates := rows.templates.map fun row =>
            if row.id = "t-1" then row.revised revision else row
          shares := rows.shares.filter (fun row => row.template ≠ "t-1") ++
            [⟨"t-1", "ana"⟩, ⟨"t-1", "bo"⟩] }) ∧
      asked = ⟨"BEGIN", []⟩ :: xs.map Exchange.statement ++ [⟨"COMMIT", []⟩] ∧
      (answerUnder .given (ledger (.ok 2)) (.update "t-1" revision)).2.log = [asked]) ∧
    (answerUnder .given (ledger (.error (.custom "gone"))) (.update "t-1" revision)).1 =
      .error (.backend "Custom Error: gone") ∧
    (∃ asked, (∀ s ∈ asked, ¬ Statement.IsCommit s) ∧
      (answerUnder .given (ledger (.error (.custom "gone"))) (.update "t-1" revision)).2.log =
        [asked]) := by
  have hr : Changes (.update "t-1" revision) := trivial
  have hok : (answerUnder .given (ledger (.ok 2)) (.update "t-1" revision)).1 = .ok () := rfl
  have herror : (answerUnder .given (ledger (.error (.custom "gone")))
      (.update "t-1" revision)).1 = .error (.backend "Custom Error: gone") := rfl
  refine ⟨hr, hok, ?_, herror, ?_⟩
  · obtain ⟨xs, asked, -, hlog, hwhole, -⟩ := changed_as_a_whole hr .given (ledger (.ok 2))
    obtain ⟨-, -, keep, hdone, hkeep⟩ := hwhole.of_ok () hok
    rcases hdone.keep_or with htrue | ⟨user, s, hdelete, -⟩
    · exact ⟨xs, asked, hdone.leaves, (hkeep htrue).2, hlog⟩
    · cases hdelete
  · obtain ⟨xs, asked, -, hlog, hwhole, -⟩ :=
      changed_as_a_whole hr .given (ledger (.error (.custom "gone")))
    rcases hwhole.of_error _ herror with ⟨-, e, he, -⟩ | ⟨hcommit, -⟩
    · cases he
    · exact ⟨asked, hcommit, hlog⟩

end TableQuery.Sql.Archive
