import TableQuery.Driver.Basic
import TableQuery.OptionLists
import TableQuery.Registry.Basic

/-!
# Runs of queries

A run calls drivers and forms and ends with a result or stops. The calls are kept, so that what a
query does can be told apart from what it answers.

## Main definitions

* `Call`, `Stop` — what a run does and why it stops.
* `Run` — a run.
* `Engine` — what queries are run against.
-/

namespace TableQuery

inductive Call where
  | fetch (f : Fetch)
  | execute (action : String) (payload : Json) (user : Option String)

inductive Stop where
  | error (e : QueryError)
  /-- A driver does not answer, and nothing limits the time to wait. -/
  | waiting
  /-- Links lead on for longer than there are columns, so they lead in a circle. -/
  | circular

/-- A run: its calls in order, and how it ends. -/
structure Run (α : Type) where
  calls : List Call
  result : Except Stop α

namespace Run

variable {α β : Type}

def done (a : α) : Run α := ⟨[], .ok a⟩

def stop (s : Stop) : Run α := ⟨[], .error s⟩

def andThen (r : Run α) (next : α → Run β) : Run β :=
  match r.result with
  | .error s => ⟨r.calls, .error s⟩
  | .ok a => ⟨r.calls ++ (next a).calls, (next a).result⟩

instance : Monad Run where
  pure := done
  bind := andThen

def ofExcept : Except QueryError α → Run α
  | .ok a => done a
  | .error e => stop (.error e)

instance : MonadLift (Except QueryError) Run where
  monadLift := ofExcept

def call (c : Call) (result : Except Stop α) : Run α := ⟨[c], result⟩

@[simp] theorem calls_pure (a : α) : (pure a : Run α).calls = [] := rfl

@[simp] theorem result_pure (a : α) : (pure a : Run α).result = .ok a := rfl

theorem bind_of_ok {r : Run α} {a : α} (next : α → Run β) (h : r.result = .ok a) :
    r >>= next = ⟨r.calls ++ (next a).calls, (next a).result⟩ := by
  simp [bind, andThen, h]

theorem bind_of_error {r : Run α} {s : Stop} (next : α → Run β) (h : r.result = .error s) :
    r >>= next = ⟨r.calls, .error s⟩ := by
  simp [bind, andThen, h]

end Run

structure Engine where
  registry : Registry
  options : OptionLists
  /-- The drivers by the ids of their tables. -/
  drivers : List (String × Driver)

namespace Engine

def driver (e : Engine) (table : String) : Except QueryError Driver :=
  match e.drivers.lookup table with
  | some d => .ok d
  | none => .error (.driverNotFound table)

/-- With a driver for a table that has none. -/
def registerDriver (e : Engine) (table : String) (d : Driver) : Except QueryError Engine :=
  if (e.drivers.lookup table).isSome then .error (.duplicateDriver table)
  else .ok { e with drivers := (table, d) :: e.drivers }

/-- Without the driver of a table, which must have one. -/
def unregisterDriver (e : Engine) (table : String) : Except QueryError Engine :=
  if (e.drivers.lookup table).isSome then
    .ok { e with drivers := e.drivers.filter fun p => p.1 != table }
  else .error (.driverNotFound table)

end Engine

/-- Ask a driver. One that does not answer is waited for until the deadline of the session. -/
def Driver.ask (d : Driver) (now : Moment) (session : Session) (f : Fetch) : Run Fetched :=
  .call (.fetch f)
    (match d.fetch now session f with
    | .fetched result => .ok result
    | .failed e => .error (.error e)
    | .silent => .error (if session.hasDeadline then .error .sessionTimeout else .waiting))

end TableQuery
