import TableQuery.Proofs.Sql.Like
import TableQuery.Driver.Memory

/-!
# What conditions mean to a database

A database does not know whether a missing value is equal to another one: what it is asked is
true, false or unknown, and it selects the rows for which all of it is true.

## Main definitions

* `Sql.Truth` — the three truth values with their connectives.
* `Sql.Semantics`, `Sql.Semantics.Standard` — how a database orders values and reads their texts.
* `Sql.Semantics.truth` — the truth of a predicate on a value.
* `Sql.Semantics.selects` — a row is selected.
-/

namespace TableQuery

theorem Memory.isAmong_cons {a v : Raw} {values : List Raw} :
    Memory.isAmong a (v :: values) = (a.compare? v == some .eq || Memory.isAmong a values) := rfl

namespace Sql

inductive Truth where
  | yes
  | no
  | unknown
  deriving DecidableEq, Repr

namespace Truth

def ofBool (b : Bool) : Truth :=
  if b then yes else no

def not : Truth → Truth
  | yes => no
  | no => yes
  | unknown => unknown

def negatedIf (negated : Bool) (t : Truth) : Truth :=
  if negated then t.not else t

def and : Truth → Truth → Truth
  | no, _ => no
  | _, no => no
  | yes, t => t
  | unknown, _ => unknown

def or : Truth → Truth → Truth
  | yes, _ => yes
  | _, yes => yes
  | no, t => t
  | unknown, _ => unknown

theorem ofBool_inj {b b' : Bool} : ofBool b = ofBool b' ↔ b = b' := by
  cases b <;> cases b' <;> decide

@[simp] theorem ofBool_eq_yes_iff {b : Bool} : ofBool b = yes ↔ b = true := by
  cases b <;> decide

@[simp] theorem ofBool_eq_no_iff {b : Bool} : ofBool b = no ↔ b = false := by
  cases b <;> decide

@[simp] theorem not_eq_yes_iff {t : Truth} : t.not = yes ↔ t = no := by
  cases t <;> decide

@[simp] theorem and_eq_yes_iff {s t : Truth} : s.and t = yes ↔ s = yes ∧ t = yes := by
  cases s <;> cases t <;> decide

@[simp] theorem or_eq_yes_iff {s t : Truth} : s.or t = yes ↔ s = yes ∨ t = yes := by
  cases s <;> cases t <;> decide

@[simp] theorem or_eq_no_iff {s t : Truth} : s.or t = no ↔ s = no ∧ t = no := by
  cases s <;> cases t <;> decide

end Truth

/-- A sign holds for values in that order. Values without an order are not equal. -/
def Sign.accepts (sign : Sign) (o : Option Ordering) : Bool :=
  match sign with
  | .eq => o == some .eq
  | .ne => o != some .eq
  | .gt => o == some .gt
  | .lt => o == some .lt
  | .ge => o == some .gt || o == some .eq
  | .le => o == some .lt || o == some .eq

structure Semantics where
  order : Raw → Raw → Option Ordering
  text : Raw → List Char

namespace Semantics

/-- The order of values and their texts are those of rows in memory. What a database makes of null
is left to the connectives. -/
structure Standard (db : Semantics) : Prop where
  order_eq : ∀ a b : Raw, a.isNull = false → b.isNull = false → db.order a b = a.compare? b
  text_eq : ∀ a : Raw, a.isNull = false → db.text a = a.display.toList

/-- A comparison with null is unknown. -/
def compare (db : Semantics) (sign : Sign) (a b : Raw) : Truth :=
  if a.isNull || b.isNull then .unknown else .ofBool (sign.accepts (db.order a b))

def among (db : Semantics) (value : Raw) (values : List Raw) : Truth :=
  values.foldr (fun v t => (db.compare .eq value v).or t) .no

def truth (db : Semantics) (value : Raw) : Predicate → Truth
  | .compare sign v => db.compare sign value v
  | .isNull holds => .ofBool (value.isNull == holds)
  | .like negated pattern =>
    if value.isNull then .unknown
    else .negatedIf negated (.ofBool (likes pattern (db.text value)))
  | .among negated values => .negatedIf negated (db.among value values)
  | .within p =>
    (db.compare .ge value (.time p.start)).and (db.compare .lt value (.time p.stop))

def truthOfAll (db : Semantics) (value : Column → Raw) (ps : List (Column × Predicate)) : Truth :=
  ps.foldr (fun p t => (db.truth (value p.1) p.2).and t) .yes

/-- A row is selected if all predicates are true on it. -/
def selects (db : Semantics) (value : Column → Raw) (ps : List (Column × Predicate)) : Bool :=
  db.truthOfAll value ps == .yes

variable {db : Semantics} {value : Column → Raw}

@[simp] theorem selects_nil : db.selects value [] = true := rfl

/-- A row is selected when each predicate is true on it. -/
theorem selects_cons {p : Column × Predicate} {ps : List (Column × Predicate)} :
    db.selects value (p :: ps) = true ↔
      db.truth (value p.1) p.2 = .yes ∧ db.selects value ps = true := by
  simp [selects, truthOfAll]

section Comparisons

variable {sign : Sign} {a b : Raw}

/-- Comparisons that are known are those of values that are there. -/
theorem compare_eq_ofBool_iff (hdb : db.Standard) (hb : b.isNull = false) (holds : Bool) :
    db.compare sign a b = .ofBool holds ↔
      a.isNull = false ∧ sign.accepts (a.compare? b) = holds := by
  cases ha : a.isNull with
  | true => cases holds <;> simp [compare, ha, Truth.ofBool]
  | false =>
    rw [compare, ha, hb, Bool.or_false, if_neg Bool.false_ne_true, hdb.order_eq a b ha hb,
      Truth.ofBool_inj]
    simp

theorem compare_eq_yes_iff (hdb : db.Standard) (hb : b.isNull = false) :
    db.compare sign a b = .yes ↔ a.isNull = false ∧ sign.accepts (a.compare? b) = true :=
  compare_eq_ofBool_iff hdb hb true

theorem compare_eq_no_iff (hdb : db.Standard) (hb : b.isNull = false) :
    db.compare sign a b = .no ↔ a.isNull = false ∧ sign.accepts (a.compare? b) = false :=
  compare_eq_ofBool_iff hdb hb false

end Comparisons

theorem among_cons {a v : Raw} {values : List Raw} :
    db.among a (v :: values) = (db.compare .eq a v).or (db.among a values) := rfl

/-- A value is known to be one of several if it is equal to one of them. -/
theorem among_eq_yes_iff (hdb : db.Standard) {a : Raw} {values : List Raw}
    (hvalues : ∀ v ∈ values, v.isNull = false) :
    db.among a values = .yes ↔ a.isNull = false ∧ Memory.isAmong a values = true := by
  induction values with
  | nil => simp [among, Memory.isAmong]
  | cons v values ih =>
    rw [List.forall_mem_cons] at hvalues
    rw [among_cons, Memory.isAmong_cons, Truth.or_eq_yes_iff, Bool.or_eq_true, ih hvalues.2,
      compare_eq_yes_iff hdb hvalues.1, Sign.accepts]
    tauto

/-- A value is known to be none of several if it is there and equal to none of them. -/
theorem among_eq_no_iff (hdb : db.Standard) {a : Raw} {values : List Raw}
    (hvalues : ∀ v ∈ values, v.isNull = false) (hne : values ≠ []) :
    db.among a values = .no ↔ a.isNull = false ∧ Memory.isAmong a values = false := by
  induction values with
  | nil => exact absurd rfl hne
  | cons v values ih =>
    rw [List.forall_mem_cons] at hvalues
    rw [among_cons, Memory.isAmong_cons, Truth.or_eq_no_iff, Bool.or_eq_false_iff,
      compare_eq_no_iff hdb hvalues.1, Sign.accepts]
    cases values with
    | nil => simp [among, Memory.isAmong]
    | cons w values =>
      rw [ih hvalues.2 (List.cons_ne_nil _ _)]
      tauto

end Semantics

end Sql

end TableQuery
