import TableQuery.Proofs.Operator.Catalog
import TableQuery.Proofs.Query.Split
import TableQuery.Query.Validate

/-!
# Conditions that columns offer

The conditions of a template that fits its table become conditions with as many raw values as
their operators take, none of which is null.

## Main definitions

* `Table.Offers` — a raw condition is one that a column offers.

## Main results

* `Table.offers_of_split` — the raw conditions of a template are offered.
* `Table.Offers.mem_operators` — an operator that is offered under the namespace of the library
  is the library's own.
-/

namespace TableQuery

/-- Values may be compared with a column if they have its type; null counts as a text. -/
theorem Column.accepts_iff {c : Column} {value : Value} :
    c.accepts value = true ↔ c.type = value.type?.getD .string := by
  unfold Column.accepts
  cases value.type? with
  | none => exact beq_iff_eq
  | some type => exact beq_iff_eq.trans eq_comm

/-- Values of a column are never null: where null is accepted it stands for the empty text. -/
theorem Column.isNull_of_native {c : Column} {value : Value} {raw : Raw}
    (h : c.native value = .ok raw) : raw.isNull = false := by
  have htext {s : String} (h : c.nativeOfText s = .ok raw) : raw.isNull = false := by
    unfold Column.nativeOfText at h
    repeat' split at h
    all_goals first
      | cases h; rfl
      | cases h
      | skip
    obtain ⟨t, -, rfl⟩ := Except.map_eq_ok_iff.mp h
    rfl
  unfold Column.native at h
  split at h
  · exact htext h
  · exact htext h
  · split at h <;> cases h <;> rfl
  · cases h; rfl
  · cases h; rfl
  · cases h; rfl
  · obtain ⟨t, -, rfl⟩ := Except.map_eq_ok_iff.mp h
    rfl
  · obtain ⟨t, -, rfl⟩ := Except.map_eq_ok_iff.mp h
    rfl
  · cases h; rfl
  · cases h; rfl
  · cases h

namespace Table

variable {t : Table} {conditions : List Condition} {direct : List RawCondition}
  {linked : List (Link × Condition)}

/-- The raw values of a condition are as many as its values, and none is null. -/
theorem nativeValues_eq_ok {c : Column} {values : List Value} {raws : List Raw}
    (h : nativeValues c values = .ok raws) :
    raws.length = values.length ∧ ∀ raw ∈ raws, raw.isNull = false := by
  induction values generalizing raws with
  | nil =>
    cases h
    simp
  | cons v values ih =>
    obtain ⟨raw, hraw, h⟩ := Except.bind_eq_ok_iff.mp h
    obtain ⟨rest, hrest, h⟩ := Except.bind_eq_ok_iff.mp h
    cases h
    obtain ⟨hlength, hnull⟩ := ih hrest
    rw [List.forall_mem_cons, List.length_cons, List.length_cons, hlength]
    exact ⟨rfl, Column.isNull_of_native hraw, hnull⟩

/-- A raw condition is one that a column offers, with values for its operator. -/
def Offers (t : Table) (c : Column) (op : Operator) (condition : RawCondition) : Prop :=
  t.column? condition.column = some c ∧ c.filter? condition.operator = some op ∧
    op.arity.accepts condition.values.length = true ∧
    ∀ raw ∈ condition.values, raw.isNull = false

theorem validateValues_eq_ok_iff {c : Column} {values : List Value} :
    validateValues c values = .ok () ↔ ∀ value ∈ values, c.accepts value = true := by
  induction values with
  | nil => simp [validateValues]
  | cons value values ih =>
    rw [validateValues, List.forall_mem_cons, ← ih]
    cases c.accepts value <;> simp

/-- A condition fits the table if it names an operator of its column and has values for it that may
be compared with the column. -/
theorem validateCondition_eq_ok_iff {condition : Condition} :
    t.validateCondition condition = .ok () ↔ ∃ c op, t.column? condition.column = some c ∧
      c.filter? condition.operator = some op ∧ op.arity.accepts condition.values.length = true ∧
      ∀ value ∈ condition.values, c.accepts value = true := by
  simp only [validateCondition, Except.bind_eq_ok_iff, column_eq_ok_iff,
    ← validateValues_eq_ok_iff]
  refine exists_congr fun c => ?_
  cases hop : c.filter? condition.operator with
  | none => simp [throw, throwThe, MonadExceptOf.throw]
  | some op => cases hcount : op.arity.accepts condition.values.length <;> simp [hcount]

theorem validateFilter_eq_ok_iff :
    t.validateFilter conditions = .ok () ↔
      ∀ condition ∈ conditions, t.validateCondition condition = .ok () := by
  induction conditions with
  | nil => simp [validateFilter]
  | cons condition conditions ih =>
    rw [List.forall_mem_cons, ← ih, validateFilter, Except.bind_eq_ok_iff]
    exact ⟨fun ⟨⟨⟩, h⟩ => h, fun h => ⟨(), h⟩⟩

/-- The raw conditions of a template that fits its table are offered. -/
theorem offers_of_split (hvalid : t.validateFilter conditions = .ok ())
    (hsplit : t.split conditions = .ok (direct, linked)) :
    ∀ raw ∈ direct, ∃ c op, t.Offers c op raw := by
  induction conditions generalizing direct linked with
  | nil =>
    cases hsplit
    simp
  | cons condition conditions ih =>
    obtain ⟨⟨⟩, hfirst, hvalid⟩ := Except.bind_eq_ok_iff.mp hvalid
    obtain ⟨c, direct', linked', hc, hrest, h⟩ := split_cons_eq_ok_iff.mp hsplit
    have hoffers := ih hvalid hrest
    rcases h with ⟨_, _, rfl, _⟩ | ⟨_, values, hvalues, rfl, _⟩
    · exact hoffers
    · obtain ⟨c', op, hc', hop, hcount, -⟩ := validateCondition_eq_ok_iff.mp hfirst
      obtain rfl : c = c' := Option.some.inj (hc.symm.trans hc')
      obtain ⟨hlength, hnull⟩ := nativeValues_eq_ok hvalues
      rw [List.forall_mem_cons]
      refine ⟨⟨c, op, ?_, hop, ?_, hnull⟩, hoffers⟩
      · rw [column?_id hc, hc]
      · rw [hlength]
        exact hcount

/-- An operator that is offered under the namespace of the library is the library's own. -/
theorem Offers.mem_operators {c : Column} {op : Operator} {raw : RawCondition}
    (h : t.Offers c op raw) (hsound : ∀ c ∈ t.columns, c.Sound)
    (hspace : namespaceOf raw.operator = builtinNamespace) :
    op ∈ Builtin.operators ∧ op.id = raw.operator := by
  obtain ⟨hc, hop, -⟩ := h
  have hid : op.id = raw.operator := by simpa using List.find?_some hop
  refine ⟨hsound c (mem_of_column? hc) op (List.mem_of_find?_eq_some hop) ?_, hid⟩
  rw [hid, hspace]

end Table

end TableQuery
