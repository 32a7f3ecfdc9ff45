import Mathlib.Data.List.Forall2
import TableQuery.Query.Run

/-!
# Runs and results taken apart

What a sequence of steps says about its steps: a sequence succeeds when each step does, and stops
where one of them does.

## Main results

* `Except.bind_eq_ok_iff` — a sequence of results succeeds step by step.
* `Except.mapM_eq_ok_iff`, `Except.mapM_eq_error_iff` — so does a list, item by item.
* `Run.result_bind_eq_ok_iff`, `Run.result_bind_eq_error_iff` — the same for runs.
-/

namespace TableQuery

/-- The error of the first item that has no result. -/
def FirstFailure {ε α β : Type} (f : α → Except ε β) (as : List α) (err : ε) : Prop :=
  ∃ before a after, as = before ++ a :: after ∧ (∀ b ∈ before, ∃ c, f b = .ok c) ∧
    f a = .error err

namespace Except

variable {ε α β : Type}

theorem bind_eq_ok_iff {x : Except ε α} {next : α → Except ε β} {b : β} :
    x >>= next = .ok b ↔ ∃ a, x = .ok a ∧ next a = .ok b := by
  cases x <;> simp [bind, Except.bind]

theorem bind_eq_error_iff {x : Except ε α} {next : α → Except ε β} {err : ε} :
    x >>= next = .error err ↔ x = .error err ∨ ∃ a, x = .ok a ∧ next a = .error err := by
  cases x <;> simp [bind, Except.bind]

theorem map_eq_ok_iff {x : Except ε α} {f : α → β} {b : β} :
    x.map f = .ok b ↔ ∃ a, x = .ok a ∧ f a = b := by
  cases x <;> simp [Except.map]

theorem map_eq_error_iff {x : Except ε α} {f : α → β} {err : ε} :
    x.map f = .error err ↔ x = .error err := by
  cases x <;> simp [Except.map]

theorem exists_eq_ok_iff {x : Except ε α} : (∃ a, x = .ok a) ↔ x.toBool = true := by
  cases x <;> simp [Except.toBool]

theorem toOption_eq_some_iff {x : Except ε α} {a : α} : x.toOption = some a ↔ x = .ok a := by
  cases x <;> simp [Except.toOption]

@[simp] theorem ok_bind (a : α) (next : α → Except ε β) :
    (Except.ok a : Except ε α) >>= next = next a := rfl

@[simp] theorem pure_eq_ok (a : α) : (pure a : Except ε α) = .ok a := rfl

section MapM

variable {f : α → Except ε β} {as : List α}

theorem mapM_eq_ok_iff {bs : List β} :
    as.mapM f = .ok bs ↔ List.Forall₂ (fun a b => f a = .ok b) as bs := by
  induction as generalizing bs with
  | nil => simp [eq_comm]
  | cons a as ih =>
    simp only [List.mapM_cons, bind_eq_ok_iff, ih, pure_eq_ok, Except.ok.injEq,
      List.forall₂_cons_left_iff]
    constructor
    · rintro ⟨b, hb, rest, hrest, rfl⟩
      exact ⟨b, rest, hb, hrest, rfl⟩
    · rintro ⟨b, rest, hb, hrest, rfl⟩
      exact ⟨b, hb, rest, hrest, rfl⟩

theorem firstFailure_cons_iff {a : α} {err : ε} : FirstFailure f (a :: as) err ↔
    f a = .error err ∨ (∃ b, f a = .ok b) ∧ FirstFailure f as err := by
  constructor
  · rintro ⟨_ | ⟨b, before⟩, a', after, hsplit, hbefore, ha'⟩ <;> cases hsplit
    · exact .inl ha'
    · rw [List.forall_mem_cons] at hbefore
      exact .inr ⟨hbefore.1, before, a', after, rfl, hbefore.2, ha'⟩
  · rintro (ha | ⟨ha, before, a', after, rfl, hbefore, ha'⟩)
    · exact ⟨[], a, as, rfl, by simp, ha⟩
    · exact ⟨a :: before, a', after, rfl, List.forall_mem_cons.mpr ⟨ha, hbefore⟩, ha'⟩

theorem mapM_eq_error_iff {err : ε} : as.mapM f = .error err ↔ FirstFailure f as err := by
  induction as with
  | nil => simp [FirstFailure]
  | cons a as ih =>
    rw [List.mapM_cons, firstFailure_cons_iff, ← ih]
    cases f a with
    | error err' => simp [bind, Except.bind]
    | ok b => cases as.mapM f <;> simp [bind, Except.bind]

end MapM

end Except

namespace Run

variable {α β γ : Type}

@[simp] theorem liftM_eq_ofExcept (x : Except QueryError α) : (liftM x : Run α) = ofExcept x := rfl

@[simp] theorem ofExcept_ok (a : α) : ofExcept (.ok a) = pure a := rfl

@[simp] theorem result_ofExcept_eq_ok_iff {x : Except QueryError α} {a : α} :
    (ofExcept x).result = .ok a ↔ x = .ok a := by
  cases x <;> simp [ofExcept, done, stop]

instance : LawfulMonad Run := by
  refine LawfulMonad.mk' Run ?_ (fun a next => rfl) ?_
  · rintro α ⟨calls, _ | a⟩ <;> simp [Functor.map, andThen, done]
  · rintro α β γ ⟨calls, _ | a⟩ f g
    · rfl
    · rcases h : f a with ⟨more, _ | b⟩ <;> simp [bind, andThen, h]

theorem result_bind_eq_ok_iff {r : Run α} {next : α → Run β} {b : β} :
    (r >>= next).result = .ok b ↔ ∃ a, r.result = .ok a ∧ (next a).result = .ok b := by
  cases h : r.result with
  | error s => simp [bind_of_error next h]
  | ok a => simp [bind_of_ok next h]

@[simp] theorem result_map_eq_ok_iff {r : Run α} {f : α → β} {b : β} :
    (f <$> r).result = .ok b ↔ ∃ a, r.result = .ok a ∧ f a = b := by
  rw [map_eq_pure_bind, result_bind_eq_ok_iff]
  simp

theorem result_bind_eq_error_iff {r : Run α} {next : α → Run β} {s : Stop} :
    (r >>= next).result = .error s ↔
      r.result = .error s ∨ ∃ a, r.result = .ok a ∧ (next a).result = .error s := by
  cases h : r.result with
  | error s' => simp [bind_of_error next h]
  | ok a => simp [bind_of_ok next h]

/-- A sequence that begins with a lifted result depends on what follows a success. -/
theorem ofExcept_bind_congr {x : Except QueryError α} {next next' : α → Run β}
    (h : ∀ a, x = .ok a → next a = next' a) : ofExcept x >>= next = ofExcept x >>= next' := by
  cases x with
  | error => rfl
  | ok a => exact h a rfl

theorem bind_ofExcept_ok {x : Except QueryError α} {a : α} (next : α → Run β) (h : x = .ok a) :
    ofExcept x >>= next = next a := by
  rw [h]
  rfl

end Run

end TableQuery
