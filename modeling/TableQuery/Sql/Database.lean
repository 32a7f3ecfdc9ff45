import TableQuery.Error
import TableQuery.Sql.Statement

/-!
# Work with a database

A database answers queries with rows and executions with the number of rows they affected, one
after the other as it was prepared to. It keeps what it was asked, with the statements of a
transaction together.

## Main definitions

* `Sql.DbRow` — a row of a query, with `read?` for its values.
* `Sql.DbError` — why a statement fails.
* `Sql.Database` — the answers to come and the statements so far.
* `Sql.Consent` — the answers to the beginning and the end of a transaction.
* `Sql.Work` — work with a database, with `query`, `execute` and `transaction`.
-/

namespace TableQuery.Sql

abbrev DbRow := List (String × Bound)

inductive DbError where
  | custom (reason : String)
  | notFound (what : String)
  /-- There is no answer to a query. -/
  | noRows
  /-- There is no answer to an execution. -/
  | noCount
  /-- A column that must have a value has none. -/
  | missing (column : String)
  deriving DecidableEq, Repr

namespace DbError

def reason : DbError → String
  | custom reason => "Custom Error: " ++ reason
  | notFound what => "record not found: " ++ what
  | noRows => "Query Error: \x60query_results\x60 buffer is empty."
  | noCount => "Execution Error: \x60exec_results\x60 buffer is empty."
  | missing column =>
    "Type Error: A null value was encountered while decoding " ++ Text.quoted column

def toQueryError (e : DbError) : QueryError := .backend e.reason

end DbError

structure Reader (α : Type) where
  read? : Bound → Option α

namespace Reader

def bool : Reader Bool where
  read?
    | .raw (.bool b) => some b
    | _ => none

def int : Reader Int64 where
  read?
    | .raw (.int i) => some i
    | _ => none

def int32 : Reader Int32 where
  read?
    | .int32 i => some i
    | _ => none

def float : Reader Float where
  read?
    | .raw (.float x) => some x
    | _ => none

def text : Reader String where
  read?
    | .raw (.text s) => some s
    | _ => none

def bytes : Reader (List UInt8) where
  read?
    | .raw (.bytes bs) => some bs
    | _ => none

def time : Reader Moment where
  read?
    | .raw (.time t) => some t
    | _ => none

def universal : Reader Moment where
  read?
    | .universal t => some t
    | _ => none

end Reader

namespace DbRow

variable {α : Type}

/-- The value of a column, if it has one of that type. -/
def get? (row : DbRow) (r : Reader α) (column : String) : Option α :=
  (row.lookup column).bind r.read?

def get (row : DbRow) (r : Reader α) (column : String) : Except QueryError α :=
  match DbRow.get? row r column with
  | some a => .ok a
  | none => .error (DbError.missing column).toQueryError

end DbRow

structure Database where
  dialect : Dialect
  /-- The answers to the queries to come. -/
  queries : List (Except DbError (List DbRow))
  /-- The answers to the executions to come. -/
  executions : List (Except DbError UInt64)
  /-- The statements so far, with those of a transaction together. -/
  log : List (List Statement)
  /-- The statements of the transaction that is open. -/
  pending : Option (List Statement)

namespace Database

def note (db : Database) (s : Statement) : Database :=
  match db.pending with
  | none => { db with log := db.log ++ [[s]] }
  | some statements => { db with pending := some (statements ++ [s]) }

theorem note_dialect (db : Database) (s : Statement) : (db.note s).dialect = db.dialect := by
  unfold note
  split <;> rfl

def begin (db : Database) : Database :=
  { db with pending := some [⟨"BEGIN", []⟩] }

def refuse (db : Database) : Database :=
  { db with log := db.log ++ [[⟨"BEGIN", []⟩]] }

def finish (db : Database) (statement : String) : Database :=
  { db with
    log := db.log ++ [db.pending.getD [] ++ [⟨statement, []⟩]]
    pending := none }

end Database

/-- What a database answers when a transaction is to begin, and when it is to be kept. -/
structure Consent where
  begins : Except DbError Unit
  commits : Except DbError Unit

def Consent.given : Consent := ⟨.ok (), .ok ()⟩

abbrev Work := ExceptT QueryError (StateM Database)

namespace Work

variable {α : Type}

def step (run : Database → Except QueryError α × Database) : Work α := run

def ofExcept (r : Except QueryError α) : Work α := step fun db => (r, db)

def dialect : Work Dialect := step fun db => (.ok db.dialect, db)

def query (f : Fragment) : Work (List DbRow) :=
  step fun db =>
    let noted := db.note (f.statement db.dialect)
    match db.queries with
    | [] => (.error DbError.noRows.toQueryError, noted)
    | answer :: rest => (answer.mapError DbError.toQueryError, { noted with queries := rest })

def execute (f : Fragment) : Work UInt64 :=
  step fun db =>
    let noted := db.note (f.statement db.dialect)
    match db.executions with
    | [] => (.error DbError.noCount.toQueryError, noted)
    | answer :: rest => (answer.mapError DbError.toQueryError, { noted with executions := rest })

/-- Work within a transaction. What it does is kept if it says so and the database consents, and
undone if it does not say so or fails. -/
def transaction (consent : Consent) (work : Work (Bool × α)) : Work α :=
  step fun db =>
    match consent.begins with
    | .error e => (.error e.toQueryError, db.refuse)
    | .ok () =>
      match work.run db.begin with
      | (.ok (true, a), db) =>
        ((consent.commits.mapError DbError.toQueryError).map fun _ => a, db.finish "COMMIT")
      | (.ok (false, a), db) => (.ok a, db.finish "ROLLBACK")
      | (.error e, db) => (.error e, db.finish "ROLLBACK")

end Work

end TableQuery.Sql
