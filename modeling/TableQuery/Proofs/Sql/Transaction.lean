import TableQuery.Proofs.Sql.Wording

/-!
# Transactions kept as a whole

Work with a database goes from statement to statement, and each of them may fail. A transaction
around such work is kept only if the database consents behind the last statement, and only if all of
them succeeded. Whatever else comes of it, nothing is asked to be kept.

## Main definitions

* `Sql.Exchange` — a statement and its answer.
* `Sql.Database.Exchanges` — a database is asked statement after statement.
* `Sql.Work.Keeps` — what holds of the statements of a piece of work and of what comes of it.
* `Sql.Work.Whole` — a transaction is kept as a whole, or not at all.

## Main results

* `Sql.Work.Keeps.bind` — steps keep to what the work they make keeps to.
* `Sql.Work.Keeps.transaction` — a transaction is kept as a whole, or not at all.
-/

namespace TableQuery.Sql

/-- A statement ends a transaction so that what was done is kept. -/
def Statement.IsCommit (s : Statement) : Prop := s.text = "COMMIT"

/-! ## Statements and their answers -/

inductive Exchange where
  | query (s : Statement) (answer : Except DbError (List DbRow))
  | execution (s : Statement) (answer : Except DbError UInt64)

namespace Exchange

def statement : Exchange → Statement
  | query s _ => s
  | execution s _ => s

def failure? : Exchange → Option DbError
  | query _ (.error e) => some e
  | execution _ (.error e) => some e
  | _ => none

def Succeeded (x : Exchange) : Prop := x.failure? = none

end Exchange

/-- The last of several statements failed, and none before it. -/
def FailsLast (xs : List Exchange) (err : QueryError) : Prop :=
  ∃ before last e, xs = before ++ [last] ∧ (∀ x ∈ before, x.Succeeded) ∧
    last.failure? = some e ∧ err = e.toQueryError

theorem FailsLast.append {xs ys : List Exchange} {err : QueryError} (h : FailsLast ys err)
    (hxs : ∀ x ∈ xs, x.Succeeded) : FailsLast (xs ++ ys) err := by
  obtain ⟨before, last, e, rfl, hbefore, hlast, herr⟩ := h
  refine ⟨xs ++ before, last, e, by simp, ?_, hlast, herr⟩
  exact List.forall_mem_append.mpr ⟨hxs, hbefore⟩

/-- A database is asked statement after statement. Queries and executions are answered in the order
that was prepared for them; when nothing is left they fail. -/
inductive Database.Exchanges : Database → List Exchange → Database → Prop where
  | nil {db : Database} : Exchanges db [] db
  | query {db db' : Database} {s : Statement} {xs : List Exchange}
      (rest : Exchanges { db.note s with queries := db.queries.tail } xs db') :
      Exchanges db (.query s (db.queries.headD (.error .noRows)) :: xs) db'
  | execution {db db' : Database} {s : Statement} {xs : List Exchange}
      (rest : Exchanges { db.note s with executions := db.executions.tail } xs db') :
      Exchanges db (.execution s (db.executions.headD (.error .noCount)) :: xs) db'

namespace Database

theorem note_of_pending {db : Database} {statements : List Statement}
    (h : db.pending = some statements) (s : Statement) :
    db.note s = { db with pending := some (statements ++ [s]) } := by
  unfold note
  rw [h]

namespace Exchanges

variable {db db' db'' : Database} {xs ys : List Exchange}

theorem append (h : db.Exchanges xs db') (h' : db'.Exchanges ys db'') :
    db.Exchanges (xs ++ ys) db'' := by
  induction h with
  | nil => exact h'
  | query _ ih => exact .query (ih h')
  | execution _ ih => exact .execution (ih h')

theorem dialect_eq (h : db.Exchanges xs db') : db'.dialect = db.dialect := by
  induction h with
  | nil => rfl
  | query _ ih => exact ih.trans (note_dialect _ _)
  | execution _ ih => exact ih.trans (note_dialect _ _)

/-- Within a transaction the statements are kept together until it ends. -/
theorem of_pending (h : db.Exchanges xs db') {statements : List Statement}
    (hpending : db.pending = some statements) :
    db'.pending = some (statements ++ xs.map Exchange.statement) ∧ db'.log = db.log := by
  induction h generalizing statements with
  | nil => exact ⟨by simpa using hpending, rfl⟩
  | @query db _ s _ _ ih =>
    rw [note_of_pending hpending] at ih
    simpa [Exchange.statement] using ih rfl
  | @execution db _ s _ _ ih =>
    rw [note_of_pending hpending] at ih
    simpa [Exchange.statement] using ih rfl

end Exchanges

end Database

/-! ## Work by its statements -/

namespace Work

variable {α β : Type} {d : Dialect}

theorem run_query (f : Fragment) (db : Database) :
    (Work.query f).run db =
      ((db.queries.headD (.error .noRows)).mapError DbError.toQueryError,
        { db.note (f.statement db.dialect) with queries := db.queries.tail }) := by
  obtain ⟨dialect, _ | ⟨answer, rest⟩, executions, log, _ | statements⟩ := db <;> rfl

theorem run_execute (f : Fragment) (db : Database) :
    (Work.execute f).run db =
      ((db.executions.headD (.error .noCount)).mapError DbError.toQueryError,
        { db.note (f.statement db.dialect) with executions := db.executions.tail }) := by
  obtain ⟨dialect, queries, _ | ⟨answer, rest⟩, log, _ | statements⟩ := db <;> rfl

theorem bind_of_ok {w : Work α} {next : α → Work β} {db : Database} {a : α}
    (h : (w.run db).1 = .ok a) : (w >>= next).run db = (next a).run (w.run db).2 := by
  rw [run_bind]
  rcases hrun : w.run db with ⟨err | b, after⟩ <;> rw [hrun] at h
  · cases h
  · obtain rfl : b = a := Except.ok.inj h
    rfl

theorem bind_of_error {w : Work α} {next : α → Work β} {db : Database} {err : QueryError}
    (h : (w.run db).1 = .error err) : ((w >>= next).run db).1 = .error err := by
  rw [run_bind]
  rcases hrun : w.run db with ⟨err' | b, after⟩ <;> rw [hrun] at h
  · obtain rfl : err' = err := Except.error.inj h
    rfl
  · cases h

/-- Whatever a database answers, the statements of the work end no transaction. Where the work has a
result, all of them succeeded and `Q` holds; where it fails, the last of them failed, or all of them
succeeded and `E` holds. -/
def Keeps (d : Dialect) (Q : α → List Exchange → Prop) (E : QueryError → List Exchange → Prop)
    (w : Work α) : Prop :=
  ∀ db : Database, db.dialect = d → ∃ xs, db.Exchanges xs (w.run db).2 ∧
    (∀ x ∈ xs, ¬ x.statement.IsCommit) ∧
    (∀ a, (w.run db).1 = .ok a → (∀ x ∈ xs, x.Succeeded) ∧ Q a xs) ∧
    ∀ err, (w.run db).1 = .error err →
      FailsLast xs err ∨ (∀ x ∈ xs, x.Succeeded) ∧ E err xs

namespace Keeps

variable {Q : α → List Exchange → Prop} {R : β → List Exchange → Prop}
  {E : QueryError → List Exchange → Prop} {w : Work α} {next : α → Work β} {f : Fragment}

theorem ofExcept {x : Except QueryError α} (hok : ∀ a, x = .ok a → Q a [])
    (herror : ∀ err, x = .error err → E err []) : Keeps d Q E (Work.ofExcept x) := by
  intro db _
  refine ⟨[], .nil, by simp, ?_, ?_⟩
  · intro a ha
    exact ⟨by simp, hok a ha⟩
  · intro err herr
    exact .inr ⟨by simp, herror err herr⟩

theorem pure {a : α} (h : Q a []) : Keeps d Q E (Pure.pure a : Work α) :=
  ofExcept (x := .ok a) (fun _ ha => Except.ok.inj ha ▸ h) nofun

theorem dialect : Keeps d (fun d' xs => d = d' ∧ xs = []) E Work.dialect := by
  intro db hd
  refine ⟨[], .nil, by simp, ?_, nofun⟩
  intro d' hd'
  exact ⟨by simp, hd.symm.trans (Except.ok.inj hd'), rfl⟩

theorem imp {Q' : α → List Exchange → Prop} {E' : QueryError → List Exchange → Prop}
    (hw : Keeps d Q E w) (hQ : ∀ a xs, Q a xs → Q' a xs) (hE : ∀ err xs, E err xs → E' err xs) :
    Keeps d Q' E' w := by
  intro db hd
  obtain ⟨xs, hxs, hcommit, hok, herror⟩ := hw db hd
  refine ⟨xs, hxs, hcommit, ?_, ?_⟩
  · intro a ha
    exact (hok a ha).imp_right (hQ a xs)
  · intro err herr
    exact (herror err herr).imp_right (And.imp_right (hE err xs))

/-- One statement: it fails as the database says, or has the result that the database says. -/
theorem statement {ask : Except DbError α → Exchange}
    (hok : ∀ a, (ask (.ok a)).failure? = none) (herror : ∀ e, (ask (.error e)).failure? = some e)
    (hcommit : ∀ answer, ¬ (ask answer).statement.IsCommit)
    (hrun : ∀ db : Database, db.dialect = d → ∃ answer,
      (w.run db).1 = answer.mapError DbError.toQueryError ∧
        db.Exchanges [ask answer] (w.run db).2) :
    Keeps d (fun a xs => xs = [ask (.ok a)]) E w := by
  intro db hd
  obtain ⟨answer, hresult, hafter⟩ := hrun db hd
  refine ⟨[ask answer], hafter, by simpa using hcommit answer, ?_, ?_⟩ <;> rw [hresult]
  · intro a ha
    cases answer with
    | error e => cases ha
    | ok a' =>
      obtain rfl : a' = a := Except.ok.inj ha
      exact ⟨by simpa [Exchange.Succeeded] using hok a', rfl⟩
  · intro err herr
    cases answer with
    | error e => exact .inl ⟨[], _, e, rfl, by simp, herror e, (Except.error.inj herr).symm⟩
    | ok a => cases herr

theorem query (hf : ¬ (f.statement d).IsCommit) :
    Keeps d (fun rows xs => xs = [.query (f.statement d) (.ok rows)]) E (Work.query f) := by
  refine statement (fun _ => rfl) (fun _ => rfl) (fun _ => hf) ?_
  rintro db rfl
  rw [run_query]
  exact ⟨_, rfl, .query .nil⟩

theorem execute (hf : ¬ (f.statement d).IsCommit) :
    Keeps d (fun count xs => xs = [.execution (f.statement d) (.ok count)]) E
      (Work.execute f) := by
  refine statement (fun _ => rfl) (fun _ => rfl) (fun _ => hf) ?_
  rintro db rfl
  rw [run_execute]
  exact ⟨_, rfl, .execution .nil⟩

/-- Steps keep to what the work they make keeps to. -/
theorem bind (hw : Keeps d Q E w)
    (hnext : ∀ a xs, Q a xs →
      Keeps d (fun b ys => R b (xs ++ ys)) (fun err ys => E err (xs ++ ys)) (next a)) :
    Keeps d R E (w >>= next) := by
  intro db hd
  obtain ⟨xs, hxs, hcommit, hok, herror⟩ := hw db hd
  rw [run_bind]
  rcases hrun : w.run db with ⟨err | a, after⟩ <;> rw [hrun] at hxs hok herror
  · refine ⟨xs, hxs, hcommit, nofun, ?_⟩
    intro err' herr'
    obtain rfl : err = err' := Except.error.inj herr'
    exact herror err rfl
  · obtain ⟨hsucceeded, hQ⟩ := hok a rfl
    obtain ⟨ys, hys, hcommit', hok', herror'⟩ :=
      hnext a xs hQ after (hxs.dialect_eq.trans hd)
    refine ⟨xs ++ ys, hxs.append hys, List.forall_mem_append.mpr ⟨hcommit, hcommit'⟩, ?_, ?_⟩
    · intro b hb
      obtain ⟨hsucceeded', hR⟩ := hok' b hb
      exact ⟨List.forall_mem_append.mpr ⟨hsucceeded, hsucceeded'⟩, hR⟩
    · intro err herr
      rcases herror' err herr with hlast | ⟨hsucceeded', hE⟩
      · exact .inl (hlast.append hsucceeded)
      · exact .inr ⟨List.forall_mem_append.mpr ⟨hsucceeded, hsucceeded'⟩, hE⟩

/-- Work is made for the dialect of its database. -/
theorem dialect_bind {next : Dialect → Work β} (h : Keeps d R E (next d)) :
    Keeps d R E (Work.dialect >>= next) := by
  refine .bind dialect ?_
  rintro _ _ ⟨rfl, rfl⟩
  exact h

end Keeps

/-! ## Transactions -/

/-- A transaction is kept as a whole or not at all. Between its beginning and its end, which the
database noted as `asked`, it went through `xs`, and `result` came of it. -/
structure Whole (consent : Consent) (Q : Bool × α → List Exchange → Prop)
    (E : QueryError → List Exchange → Prop) (xs : List Exchange) (asked : List Statement)
    (result : Except QueryError α) : Prop where
  asked_eq : asked = [⟨"BEGIN", []⟩] ∧ xs = [] ∧ (∃ e, consent.begins = .error e) ∨
    consent.begins = .ok () ∧ ∃ last, (last = "COMMIT" ∨ last = "ROLLBACK") ∧
      asked = ⟨"BEGIN", []⟩ :: xs.map Exchange.statement ++ [⟨last, []⟩]
  /-- Behind a COMMIT there is nothing, and before it only what succeeded. -/
  commit_last : ∀ before s behind, asked = before ++ s :: behind → s.IsCommit →
    behind = [] ∧ (∀ s' ∈ before, ¬ s'.IsCommit) ∧ consent.begins = .ok () ∧
      before = ⟨"BEGIN", []⟩ :: xs.map Exchange.statement ∧ ∀ x ∈ xs, x.Succeeded
  /-- Either the COMMIT itself failed, or there was none, for a reason that is known. -/
  of_error : ∀ err, result = .error err →
    (∃ s ∈ asked, s.IsCommit) ∧ (∃ e, consent.commits = .error e ∧ err = e.toQueryError) ∨
      (∀ s ∈ asked, ¬ s.IsCommit) ∧ ((∃ e, consent.begins = .error e ∧ err = e.toQueryError) ∨
        FailsLast xs err ∨ (∀ x ∈ xs, x.Succeeded) ∧ E err xs)
  of_ok : ∀ a, result = .ok a → consent.begins = .ok () ∧ (∀ x ∈ xs, x.Succeeded) ∧
    ∃ keep, Q (keep, a) xs ∧ (keep = true → consent.commits = .ok () ∧
      asked = ⟨"BEGIN", []⟩ :: xs.map Exchange.statement ++ [⟨"COMMIT", []⟩])

/-- Where only the last statement is a COMMIT, a COMMIT is the last statement. -/
theorem eq_of_append_cons_commit {before behind statements : List Statement} {s last : Statement}
    (hstatements : ∀ s ∈ statements, ¬ s.IsCommit)
    (h : statements ++ [last] = before ++ s :: behind) (hs : s.IsCommit) :
    behind = [] ∧ before = statements := by
  rcases List.eq_nil_or_concat behind with rfl | ⟨behind, t, rfl⟩
  · exact ⟨rfl, (List.append_inj_left' h rfl).symm⟩
  · rw [List.concat_eq_append, ← List.cons_append, ← List.append_assoc] at h
    have hmem : s ∈ statements := by
      rw [List.append_inj_left' h rfl]
      simp
    exact absurd hs (hstatements s hmem)

section Transaction

variable {Q : Bool × α → List Exchange → Prop} {E : QueryError → List Exchange → Prop}
  {body : Work (Bool × α)}

/-- What a transaction that was let begin has been asked, but for its end. -/
theorem asked_not_commit {xs : List Exchange} (h : ∀ x ∈ xs, ¬ x.statement.IsCommit) :
    ∀ s ∈ (⟨"BEGIN", []⟩ : Statement) :: xs.map Exchange.statement, ¬ s.IsCommit := by
  rw [List.forall_mem_cons, List.forall_mem_map]
  exact ⟨by simp [Statement.IsCommit], h⟩

theorem Whole.refused {consent : Consent} {e : DbError} (h : consent.begins = .error e) :
    Whole consent Q E [] [⟨"BEGIN", []⟩] (.error e.toQueryError) := by
  have hcommit : ∀ s ∈ [(⟨"BEGIN", []⟩ : Statement)], ¬ s.IsCommit := by
    simp [Statement.IsCommit]
  refine ⟨.inl ⟨rfl, rfl, e, h⟩, ?_, ?_, nofun⟩
  · intro before s behind hasked hs
    exact absurd hs (hcommit s (by rw [hasked]; simp))
  · intro err herr
    exact .inr ⟨hcommit, .inl ⟨e, h, (Except.error.inj herr).symm⟩⟩

theorem Whole.undone {consent : Consent} {xs : List Exchange} {result : Except QueryError α}
    (hbegins : consent.begins = .ok ()) (hxs : ∀ x ∈ xs, ¬ x.statement.IsCommit)
    (herror : ∀ err, result = .error err →
      FailsLast xs err ∨ (∀ x ∈ xs, x.Succeeded) ∧ E err xs)
    (hok : ∀ a, result = .ok a → (∀ x ∈ xs, x.Succeeded) ∧ Q (false, a) xs) :
    Whole consent Q E xs (⟨"BEGIN", []⟩ :: xs.map Exchange.statement ++ [⟨"ROLLBACK", []⟩])
      result := by
  have hcommit : ∀ s ∈ ⟨"BEGIN", []⟩ :: xs.map Exchange.statement ++ [⟨"ROLLBACK", []⟩],
      ¬ Statement.IsCommit s :=
    List.forall_mem_append.mpr ⟨asked_not_commit hxs, by simp [Statement.IsCommit]⟩
  refine ⟨.inr ⟨hbegins, _, .inr rfl, rfl⟩, ?_, ?_, ?_⟩
  · intro before s behind hasked hs
    exact absurd hs (hcommit s (by rw [hasked]; simp))
  · intro err herr
    exact .inr ⟨hcommit, .inr (herror err herr)⟩
  · intro a ha
    obtain ⟨hsucceeded, hQ⟩ := hok a ha
    exact ⟨hbegins, hsucceeded, false, hQ, nofun⟩

theorem Whole.kept {consent : Consent} {xs : List Exchange} {a : α}
    (hbegins : consent.begins = .ok ()) (hxs : ∀ x ∈ xs, ¬ x.statement.IsCommit)
    (hsucceeded : ∀ x ∈ xs, x.Succeeded) (hQ : Q (true, a) xs) :
    Whole consent Q E xs (⟨"BEGIN", []⟩ :: xs.map Exchange.statement ++ [⟨"COMMIT", []⟩])
      ((consent.commits.mapError DbError.toQueryError).map fun _ => a) := by
  have hcommit : ∃ s ∈ ⟨"BEGIN", []⟩ :: xs.map Exchange.statement ++ [⟨"COMMIT", []⟩],
      Statement.IsCommit s :=
    ⟨⟨"COMMIT", []⟩, by simp, rfl⟩
  refine ⟨.inr ⟨hbegins, _, .inl rfl, rfl⟩, ?_, ?_, ?_⟩
  · intro before s behind hasked hs
    obtain ⟨rfl, rfl⟩ := eq_of_append_cons_commit (asked_not_commit hxs) hasked hs
    exact ⟨rfl, asked_not_commit hxs, hbegins, rfl, hsucceeded⟩
  · intro err herr
    refine .inl ⟨hcommit, ?_⟩
    cases hcommits : consent.commits with
    | error e =>
      rw [hcommits] at herr
      exact ⟨e, rfl, (Except.error.inj herr).symm⟩
    | ok _ =>
      rw [hcommits] at herr
      cases herr
  · intro b hb
    cases hcommits : consent.commits with
    | error e =>
      rw [hcommits] at hb
      cases hb
    | ok _ =>
      rw [hcommits] at hb
      obtain rfl : a = b := Except.ok.inj hb
      exact ⟨hbegins, hsucceeded, true, hQ, fun _ => ⟨rfl, rfl⟩⟩

theorem run_transaction {consent : Consent} (h : consent.begins = .ok ()) (db : Database) :
    (Work.transaction consent body).run db =
      match body.run db.begin with
      | (.ok (true, a), db) =>
        ((consent.commits.mapError DbError.toQueryError).map fun _ => a, db.finish "COMMIT")
      | (.ok (false, a), db) => (.ok a, db.finish "ROLLBACK")
      | (.error e, db) => (.error e, db.finish "ROLLBACK") := by
  obtain ⟨begins, commits⟩ := consent
  obtain rfl : begins = .ok () := h
  rfl

theorem run_transaction_refused {consent : Consent} {e : DbError} (h : consent.begins = .error e)
    (db : Database) :
    (Work.transaction consent body).run db = (.error e.toQueryError, db.refuse) := by
  obtain ⟨begins, commits⟩ := consent
  obtain rfl : begins = .error e := h
  rfl

theorem transaction_of_error {consent : Consent} (hbegins : consent.begins = .ok ())
    {db : Database} {err : QueryError} (h : (body.run db.begin).1 = .error err) :
    ((Work.transaction consent body).run db).1 = .error err := by
  rw [run_transaction hbegins]
  rcases hrun : body.run db.begin with ⟨err' | a, after⟩ <;> rw [hrun] at h
  · obtain rfl : err' = err := Except.error.inj h
    rfl
  · cases h

/-- A transaction of statements that end none is kept as a whole or not at all. -/
theorem Keeps.transaction (hbody : Keeps d Q E body) (consent : Consent) {db : Database}
    (hd : db.dialect = d) : ∃ xs asked, (∃ db', db.begin.Exchanges xs db') ∧
      ((Work.transaction consent body).run db).2.log = db.log ++ [asked] ∧
      Whole consent Q E xs asked ((Work.transaction consent body).run db).1 := by
  cases hbegins : consent.begins with
  | error e =>
    rw [run_transaction_refused hbegins]
    exact ⟨[], _, ⟨_, .nil⟩, rfl, .refused hbegins⟩
  | ok _ =>
    rw [run_transaction hbegins]
    obtain ⟨xs, hxs, hcommit, hok, herror⟩ := hbody db.begin hd
    have hopen : db.begin.pending = some [⟨"BEGIN", []⟩] := rfl
    obtain ⟨hpending, hlog⟩ := hxs.of_pending hopen
    have hfinish (last : String) : ((body.run db.begin).2.finish last).log =
        db.log ++ [⟨"BEGIN", []⟩ :: xs.map Exchange.statement ++ [⟨last, []⟩]] := by
      simp only [Database.finish, hpending, hlog]
      rfl
    rcases hbody : body.run db.begin with ⟨err | ⟨_ | _, a⟩, after⟩
    all_goals rw [hbody] at hok herror hfinish
    · refine ⟨xs, _, ⟨_, hxs⟩, hfinish _, .undone hbegins hcommit ?_ nofun⟩
      intro err' herr'
      obtain rfl : err = err' := Except.error.inj herr'
      exact herror err rfl
    · refine ⟨xs, _, ⟨_, hxs⟩, hfinish _, .undone hbegins hcommit nofun ?_⟩
      intro b hb
      obtain rfl : a = b := Except.ok.inj hb
      exact hok (false, a) rfl
    · obtain ⟨hsucceeded, hQ⟩ := hok (true, a) rfl
      exact ⟨xs, _, ⟨_, hxs⟩, hfinish _, .kept hbegins hcommit hsucceeded hQ⟩

end Transaction

end Work

end TableQuery.Sql
