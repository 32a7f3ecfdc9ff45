import TableQuery.Proofs.Sample
import TableQuery.Proofs.Sql.Agreement

/-!
# Rows in memory and rows in a database

A database selects the rows that are kept in memory, unless a condition negates or searches a
value that is missing.

## Main definitions

* `RawCondition.Known` — a condition does not negate or search a missing value.

## Main results

* `Sql.Semantics.selects_iff_holds` — the rows that a database selects.
* `Goods.uncounted_kept_not_selected` — a row that is kept and not selected.
-/

namespace TableQuery

/-- A condition does not ask of a missing value whether it is different from others or has a
part. -/
def RawCondition.Known (t : Table) (row : StoredRow) (raw : RawCondition) : Prop :=
  raw.operator ∈ Builtin.unknownOnNull → ∀ c, t.column? raw.column = some c →
    (row.value c).isNull = false

namespace Sql

variable {t : Table} {conditions : List RawCondition}

/-- What is asked for each condition is asked for all of them. -/
theorem predicates_eq_ok {now : Moment} (h : ∀ raw ∈ conditions, ∃ c,
      t.column? raw.column = some c ∧ ∃ p, Predicate.ofCondition now c raw = .ok p) :
    ∃ ps, predicates now t conditions = .ok ps := by
  induction conditions with
  | nil => exact ⟨[], rfl⟩
  | cons raw conditions ih =>
    rw [List.forall_mem_cons] at h
    obtain ⟨c, hc, p, hp⟩ := h.1
    obtain ⟨ps, hps⟩ := ih h.2
    exact ⟨(c, p) :: ps, by simp [predicates, Table.column_eq_ok_iff.mpr hc, hp, hps]⟩

/-- A row is selected when what is asked for each condition is true. -/
theorem selects_predicates_iff {db : Semantics} {now : Moment} {value : Column → Raw} :
    (∃ ps, predicates now t conditions = .ok ps ∧ db.selects value ps = true) ↔
      ∀ raw ∈ conditions, ∃ c, t.column? raw.column = some c ∧
        ∃ p, Predicate.ofCondition now c raw = .ok p ∧ db.truth (value c) p = .yes := by
  induction conditions with
  | nil => simp [predicates]
  | cons raw conditions ih =>
    rw [List.forall_mem_cons, ← ih]
    simp only [predicates, Except.bind_eq_ok_iff, Table.column_eq_ok_iff]
    constructor
    · rintro ⟨ps, ⟨c, hc, p, hp, rest, hrest, hps⟩, h⟩
      cases hps
      obtain ⟨hfirst, h⟩ := Semantics.selects_cons.mp h
      exact ⟨⟨c, hc, p, hp, hfirst⟩, rest, hrest, h⟩
    · rintro ⟨⟨c, hc, p, hp, hfirst⟩, rest, hrest, h⟩
      exact ⟨_, ⟨c, hc, p, hp, rest, hrest, rfl⟩, Semantics.selects_cons.mpr ⟨hfirst, h⟩⟩

end Sql

/-- The conditions of a template that fits its table, with operators of the library, can be asked
of memory and, while the days of their periods are within the calendar, of a database. The
database selects the rows that memory keeps, unless a condition negates or searches a value that
is missing. -/
theorem Sql.Semantics.selects_iff_holds {v : Vocabulary} {s : TableSpec} {t : Table}
    {conditions : List Condition} {direct : List RawCondition} {linked : List (Link × Condition)}
    {db : Semantics} (hv : v.operators.Built) (ht : s.compile v = .ok t)
    (hvalid : t.validateFilter conditions = .ok ())
    (hsplit : t.split conditions = .ok (direct, linked))
    (hspace : ∀ raw ∈ direct, namespaceOf raw.operator = builtinNamespace) (hdb : db.Standard)
    (m : Memory) (now : Moment) (row : StoredRow) :
    (∃ kept, m.holds now t row direct = .ok kept) ∧
    ((∀ raw ∈ direct, Period.Available now raw.operator) →
      ∃ ps, predicates now t direct = .ok ps ∧ whereClause now t direct = .ok (whereText ps)) ∧
    ((∃ ps, predicates now t direct = .ok ps ∧ db.selects row.value ps = true) ↔
      m.holds now t row direct = .ok true ∧ ∀ raw ∈ direct, raw.Known t row) := by
  have hsound := TableSpec.sound_of_compile hv ht
  have hagree : ∀ raw ∈ direct, ∃ c, t.column? raw.column = some c ∧
      Agree db m now c (row.value c) raw := by
    intro raw hraw
    obtain ⟨c, op, hoffers⟩ := t.offers_of_split hvalid hsplit raw hraw
    obtain ⟨hop, hid⟩ := hoffers.mem_operators hsound (hspace raw hraw)
    exact ⟨c, hoffers.1, .of_mem_operators hdb hop hid hoffers.2.2.1 hoffers.2.2.2⟩
  refine ⟨Memory.exists_holds ?_, fun hperiods => ?_, ?_⟩
  · intro raw hraw
    obtain ⟨c, hc, h⟩ := hagree raw hraw
    exact ⟨c, hc, h.evaluates⟩
  · have hasks : ∃ ps, predicates now t direct = .ok ps := by
      refine predicates_eq_ok fun raw hraw => ?_
      obtain ⟨c, hc, h⟩ := hagree raw hraw
      exact ⟨c, hc, h.asks (hperiods raw hraw)⟩
    obtain ⟨ps, hps⟩ := hasks
    exact ⟨ps, hps, by rw [whereClause, hps]; rfl⟩
  · rw [selects_predicates_iff, Memory.holds_eq_true_iff, ← forall₂_and]
    refine forall₂_congr fun raw hraw => ?_
    obtain ⟨c, hc, h⟩ := hagree raw hraw
    have hiff := h.yes_iff
    simp only [RawCondition.Known, Memory.Accepts, hc, Option.some.injEq, exists_eq_left',
      forall_eq']
    exact hiff

/-! ## Goods that were not counted yet -/

namespace Goods

open Sample (clock vocabulary)

def spec : TableSpec :=
  ⟨"Goods", "Goods", "",
    [{ (default : FieldSpec) with
        id := "Code", kind := .string, key := true, filters := some "EQ" },
      { (default : FieldSpec) with id := "Qty", kind := .int, filters := some "NE" }]⟩

def notOne : Condition := ⟨"Qty", Builtin.ne, [.int 1]⟩

def notOneStored : RawCondition := ⟨"Qty", Builtin.ne, [.int 1]⟩

def counted : StoredRow := .keyed [("Code", .text "b"), ("Qty", .int 2)]

def uncounted : StoredRow := .keyed [("Code", .text "c"), ("Qty", .null)]

def memory : Memory := ⟨[counted, uncounted], 100000, []⟩

def database : Sql.Semantics := ⟨Raw.compare?, fun v => v.display.toList⟩

theorem database_standard : database.Standard :=
  ⟨fun _ _ _ _ => rfl, fun _ _ => rfl⟩

def quantity : Column :=
  { (default : Column) with
    id := "Qty", name := "Qty", kind := .int, type := .int
    filters := [⟨Builtin.ne, "not equal", .single⟩]
    width := 1, storageName := "Qty" }

theorem exists_table : ∃ t, spec.compile vocabulary = .ok t ∧ t.column? "Qty" = some quantity := by
  have h : (spec.compile vocabulary).toOption.bind (fun t => t.column? "Qty") = some quantity := by
    decide +kernel
  cases ht : spec.compile vocabulary with
  | error => simp [ht, Except.toOption] at h
  | ok t => exact ⟨t, rfl, by simpa [ht, Except.toOption] using h⟩

variable {t : Table}

theorem validateFilter_notOne (hq : t.column? "Qty" = some quantity) :
    t.validateFilter [notOne] = .ok () := by
  simp only [Table.validateFilter, Table.validateCondition, notOne,
    Table.column_eq_ok_iff.mpr hq, Except.ok_bind]
  rfl

theorem split_notOne (hq : t.column? "Qty" = some quantity) :
    t.split [notOne] = .ok ([notOneStored], []) := by
  simp only [Table.split, notOne, Table.column_eq_ok_iff.mpr hq, Except.ok_bind]
  rfl

theorem holds_notOne (hq : t.column? "Qty" = some quantity) {row : StoredRow}
    (hrow : row.value quantity = .int 2 ∨ row.value quantity = .null) :
    memory.holds clock t row [notOneStored] = .ok true := by
  simp only [Memory.holds, notOneStored, Table.column_eq_ok_iff.mpr hq, Except.ok_bind]
  rw [StoredRow.value] at hrow
  rcases hrow with h | h <;> rw [h] <;> rfl

theorem predicates_notOne (hq : t.column? "Qty" = some quantity) :
    Sql.predicates clock t [notOneStored] = .ok [(quantity, .compare .ne (.int 1))] := by
  simp only [Sql.predicates, notOneStored, Table.column_eq_ok_iff.mpr hq, Except.ok_bind]
  rfl

/-- Goods of which there are two are kept in memory and selected by a database. -/
theorem counted_selected : ∃ t, spec.compile vocabulary = .ok t ∧
    t.validateFilter [notOne] = .ok () ∧ t.split [notOne] = .ok ([notOneStored], []) ∧
    memory.holds clock t counted [notOneStored] = .ok true ∧
    ∃ ps, Sql.predicates clock t [notOneStored] = .ok ps ∧
      database.selects counted.value ps = true := by
  obtain ⟨t, ht, hq⟩ := exists_table
  have hbuilt : vocabulary.operators.Built := by
    dsimp only [vocabulary]
    exact Catalog.built_builtin
  have hvalid := validateFilter_notOne hq
  have hsplit := split_notOne hq
  have hholds := holds_notOne hq (.inl (rfl : counted.value quantity = .int 2))
  have hspace : ∀ raw ∈ [notOneStored], namespaceOf raw.operator = builtinNamespace := by
    decide +kernel
  have hknown : ∀ raw ∈ [notOneStored], raw.Known t counted := by
    intro raw hraw _ c hc
    obtain rfl := List.mem_singleton.mp hraw
    obtain rfl : quantity = c := Option.some.inj (hq.symm.trans hc)
    rfl
  exact ⟨t, ht, hvalid, hsplit, hholds,
    (Sql.Semantics.selects_iff_holds hbuilt ht hvalid hsplit hspace
      database_standard memory clock counted).2.2.mpr ⟨hholds, hknown⟩⟩

/-- Goods that nobody has counted are kept in memory, where nothing is not one, and are not
selected by a database. -/
theorem uncounted_kept_not_selected : ∃ t, spec.compile vocabulary = .ok t ∧
    t.validateFilter [notOne] = .ok () ∧ t.split [notOne] = .ok ([notOneStored], []) ∧
    uncounted.value quantity = .null ∧ t.column? "Qty" = some quantity ∧
    memory.holds clock t uncounted [notOneStored] = .ok true ∧
    ∃ ps, Sql.predicates clock t [notOneStored] = .ok ps ∧
      database.selects uncounted.value ps = false := by
  obtain ⟨t, ht, hq⟩ := exists_table
  have hnull : uncounted.value quantity = .null := rfl
  exact ⟨t, ht, validateFilter_notOne hq, split_notOne hq, hnull, hq, holds_notOne hq (.inr hnull),
    _, predicates_notOne hq, rfl⟩

end Goods

end TableQuery
