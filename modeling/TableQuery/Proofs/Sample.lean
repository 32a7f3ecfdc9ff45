import Mathlib
import TableQuery.Saved.Basic
import TableQuery.Schema.Compile
import TableQuery.Session

/-!
# Who asks, and when

The examples of this development differ in their tables. What does not depend on these is here. The
examples are evaluated by equations of library functions, some of which only Mathlib as a whole has.

## Main definitions

* `Sample.clock` — the time of every query.
* `Sample.visitor`, `Sample.ann`, `Sample.bob` — who asks.
* `Sample.users` — a directory that knows everyone by an id.
* `Sample.vocabulary` — the operators that are always there, and no option lists.
-/

namespace TableQuery.Sample

def clock : Moment := .midnight ⟨2024, 5, 18, rfl⟩

def visitor : Session := ⟨none, false⟩

def ann : Session := ⟨some "ann", false⟩

def bob : Session := ⟨some "bob", false⟩

def users : UserDirectory where
  current session := .ok (.unnamed (session.user.getD ""))
  byId id := .ok (.unnamed id)

def vocabulary : Vocabulary := ⟨.builtin, .empty⟩

end TableQuery.Sample
