import TableQuery.Proofs.Query.Lookup
import TableQuery.Proofs.Registry.Keys
import TableQuery.Proofs.Sample
import TableQuery.Proofs.Sql.Selection
import TableQuery.Sql.Source

/-!
# Checks that are made once

A template is checked against its table before it is run. Columns that decode its values and stores
that evaluate its conditions check them again, each in its own way. For a template that fits its
table, none of these later checks fails: what remains are values that cannot be read, operators of
others that a store does not know, periods beyond the calendar, and results that are too large.

## Main definitions

* `QueryError.IsCheck` — the errors of these checks.
* `Table.Prepared` — a table was compiled with the operators of the library.

## Main results

* `Column.native_eq_error` — why a value that fits its column has no raw value.
* `Memory.fetch_eq_error` — why rows in memory cannot be fetched.
* `Sql.whereClause_eq_error` — why there is no clause for conditions.
* `Table.not_isCheck_of_validate` — no later check fails.
-/

namespace TableQuery

/-- An error that says what checking a template says: that a column is unknown, that values have a
wrong type or number, or that an operator of the library does not belong to a column. -/
def QueryError.IsCheck : QueryError → Prop
  | .invalidColumnId .. | .invalidConditionValueCount .. | .invalidConditionValueType .. => True
  | .operatorNotSupported _ operator => namespaceOf operator = builtinNamespace
  | _ => False

/-! ## Tables -/

/-- A table was compiled with operators of the library and of others, and its links may have been
followed among such tables. -/
inductive Table.Prepared : Table → Prop where
  | compiled {s : TableSpec} {v : Vocabulary} {t : Table} (hv : v.operators.Built)
      (h : s.compile v = .ok t) : Prepared t
  | linked {r : Registry} {t t' : Table} (hr : ∀ u ∈ r.tables, Prepared u) (ht : t ∈ r.tables)
      (h : r.linkedTable t = .ok t') : Prepared t'

/-- What its columns offer under the namespace of the library are operators of the library: a linked
column takes over those of the column that it is linked to. -/
theorem Table.Prepared.sound {t : Table} (h : t.Prepared) : ∀ c ∈ t.columns, c.Sound := by
  induction h with
  | compiled hv h => exact TableSpec.sound_of_compile hv h
  | @linked r t t' hr ht h ih =>
    intro c' hc'
    obtain ⟨c, hc, hlinked⟩ := forall₂_exists_left (Registry.eq_of_linkedTable h).2 hc'
    have hlender : ∀ lender, r.lender? t c = some lender → lender.Sound := by
      intro lender hlender
      simp only [Registry.lender?, Option.bind_eq_bind, Option.bind_eq_some_iff] at hlender
      obtain ⟨l, -, here, -, hlender⟩ := hlender
      split at hlender
      · obtain ⟨remote, hremote, hvalue⟩ := Option.bind_eq_some_iff.mp hlender
        exact ih remote (List.mem_of_find?_eq_some hremote) lender (mem_of_column? hvalue)
      · cases hlender
    rw [Column.Sound, Registry.filters_of_linkedColumn hlinked]
    cases hl : r.lender? t c with
    | none => exact ih t ht c hc
    | some lender => exact hlender lender hl

/-! ## Values -/

namespace Column

variable {c : Column} {value : Value} {err : QueryError}

theorem readMoment_eq_error {text : String} (h : c.readMoment text = .error err) :
    ∃ s, err = .failedParseValue c.id s := by
  unfold readMoment at h
  dsimp only at h
  split at h
  · cases h
  · cases h
    exact ⟨_, rfl⟩

theorem nativeOfText_eq_error {text : String} (h : c.nativeOfText text = .error err) :
    ∃ s, err = .failedParseValue c.id s := by
  unfold nativeOfText unreadable at h
  repeat' split at h
  all_goals first
    | cases h; exact ⟨_, rfl⟩
    | cases h
    | exact readMoment_eq_error (Except.map_eq_error_iff.mp h)

/-- A value that fits its column has no raw value only where its text cannot be read. -/
theorem native_eq_error (hfits : c.accepts value = true) (h : c.native value = .error err) :
    ∃ s, err = .failedParseValue c.id s := by
  rw [accepts_iff] at hfits
  cases value <;> simp only [Value.type?, Option.getD_some, Option.getD_none] at hfits <;>
    simp only [native, hfits] at h
  case null | string => exact nativeOfText_eq_error h
  case date | time => exact readMoment_eq_error (Except.map_eq_error_iff.mp h)
  case int => split at h <;> cases h
  all_goals cases h

end Column

/-! ## Operators -/

theorem Builtin.namespaceOf_id : ∀ op ∈ operators, namespaceOf op.id = builtinNamespace := by
  decide +kernel

/-- An operator of another namespace is none of the library. -/
theorem Builtin.ne_id {operator : String} (h : namespaceOf operator ≠ builtinNamespace) :
    ∀ op ∈ operators, operator ≠ op.id := by
  rintro op hop rfl
  exact h (namespaceOf_id op hop)

/-- A database that orders and writes values as rows in memory do. -/
def Sql.Semantics.likeMemory : Semantics := ⟨Raw.compare?, fun v => v.display.toList⟩

theorem Sql.Semantics.likeMemory_standard : likeMemory.Standard :=
  ⟨fun _ _ _ _ => rfl, fun _ _ => rfl⟩

section Offered

variable {m : Memory} {now : Moment} {t : Table} {c : Column} {op : Operator} {a : Raw}
  {raw : RawCondition} {err : QueryError} (hsound : ∀ c ∈ t.columns, c.Sound)

include hsound in
/-- Conditions with operators of the library can be asked of memory and of a database. -/
theorem Table.Offers.agree (h : t.Offers c op raw)
    (hspace : namespaceOf raw.operator = builtinNamespace) (m : Memory) (now : Moment) (a : Raw) :
    Sql.Agree .likeMemory m now c a raw := by
  obtain ⟨hop, hid⟩ := h.mem_operators hsound hspace
  exact .of_mem_operators Sql.Semantics.likeMemory_standard hop hid h.2.2.1 h.2.2.2

include hsound in
/-- A condition that a column offers cannot be evaluated only where memory does not know its
operator, which is not of the library. -/
theorem Memory.evaluate_eq_error (hoffers : t.Offers c op raw)
    (h : m.evaluate now c raw.operator a raw.values = .error err) :
    err = .operatorNotSupported c.id raw.operator ∧
      namespaceOf raw.operator ≠ builtinNamespace := by
  by_cases hspace : namespaceOf raw.operator = builtinNamespace
  · obtain ⟨b, hb⟩ := (hoffers.agree hsound hspace m now a).evaluates
    cases hb.symm.trans h
  · have hne := Builtin.ne_id hspace
    simp only [Builtin.operators, List.forall_mem_cons] at hne
    have hcomparison : comparison? raw.operator = none := by simp [comparison?, hne]
    simp only [evaluate, hcomparison] at h
    split at h <;> cases h
    exact ⟨rfl, hspace⟩

include hsound in
/-- There is nothing to ask of a database for a condition that a column offers only where its
operator means a period beyond the calendar, or is not of the library. -/
theorem Sql.Predicate.ofCondition_eq_error (hoffers : t.Offers c op raw)
    (h : Predicate.ofCondition now c raw = .error err) :
    err = .beyondCalendar c.id raw.operator ∧ ¬Period.Available now raw.operator ∨
      err = .operatorNotSupported c.id raw.operator ∧
        namespaceOf raw.operator ≠ builtinNamespace := by
  by_cases hspace : namespaceOf raw.operator = builtinNamespace
  · have hbeyond : ¬Period.Available now raw.operator := by
      intro havailable
      obtain ⟨p, hp⟩ := (hoffers.agree hsound hspace default now .null).asks havailable
      cases hp.symm.trans h
    have hperiod : (Period.days? raw.operator).isSome = true := (Classical.not_imp.mp hbeyond).1
    rw [Agree.ofCondition_period hperiod] at h
    split at h <;> cases h
    exact .inl ⟨rfl, hbeyond⟩
  · have hne := Builtin.ne_id hspace
    simp only [Builtin.operators, List.forall_mem_cons] at hne
    have hunasked : unasked c raw.operator = .operatorNotSupported c.id raw.operator := by
      simp [unasked, Period.days?, hne]
    rw [Agree.ofCondition_valueless (by simp [comparison?, hne]) (by simp [hne]), hunasked] at h
    split at h <;> cases h
    exact .inr ⟨rfl, hspace⟩

end Offered

/-! ## Stores -/

/-- A store does not know the operator of a condition, which is not of the library. -/
def RawCondition.Foreign (conditions : List RawCondition) (err : QueryError) : Prop :=
  ∃ column, ∃ raw ∈ conditions, err = .operatorNotSupported column raw.operator ∧
    namespaceOf raw.operator ≠ builtinNamespace

section Stores

variable {m : Memory} {now : Moment} {t : Table} {conditions : List RawCondition}
  {err : QueryError}

section Memory

variable (hsound : ∀ c ∈ t.columns, c.Sound)
  (hoffers : ∀ raw ∈ conditions, ∃ c op, t.Offers c op raw)

include hsound hoffers

theorem Memory.holds_eq_error {row : StoredRow} (h : m.holds now t row conditions = .error err) :
    RawCondition.Foreign conditions err := by
  induction conditions with
  | nil => cases h
  | cons raw conditions ih =>
    rw [List.forall_mem_cons] at hoffers
    obtain ⟨⟨c, op, hoffer⟩, hrest⟩ := hoffers
    rw [holds, Table.column_eq_ok_iff.mpr hoffer.1, Except.ok_bind, Except.bind_eq_error_iff] at h
    rcases h with h | ⟨b, -, h⟩
    · exact ⟨c.id, raw, List.mem_cons_self, evaluate_eq_error hsound hoffer h⟩
    · split at h
      · obtain ⟨column, other, hother, herr⟩ := ih hrest h
        exact ⟨column, other, List.mem_cons_of_mem _ hother, herr⟩
      · cases h

theorem Memory.matching_eq_error {rows : List StoredRow}
    (h : m.matching now t conditions rows = .error err) : RawCondition.Foreign conditions err := by
  induction rows with
  | nil => cases h
  | cons row rows ih =>
    rw [matching, Except.bind_eq_error_iff] at h
    rcases h with h | ⟨b, -, h⟩
    · exact holds_eq_error hsound hoffers h
    · rw [Except.bind_eq_error_iff] at h
      rcases h with h | ⟨rest, -, h⟩
      · exact ih h
      · cases h

end Memory

theorem Memory.sumWhole_eq_error {c : Column} {sum : Int64} {raws : List Raw}
    (h : sumWhole c sum raws = .error err) : ∃ reason, err = .failedMapValue c.id reason := by
  induction raws generalizing sum with
  | nil => cases h
  | cons raw raws ih =>
    rw [sumWhole, Except.bind_eq_error_iff] at h
    rcases h with h | ⟨i, -, h⟩
    · unfold addend at h
      split at h
      · cases h
      · split at h <;> cases h
        exact ⟨_, rfl⟩
      · cases h
    · exact ih h

/-- An aggregate of a column of the table fails only where its values do not fit a word. -/
theorem Memory.aggregate_eq_error {rows : List StoredRow} {a : AggregateColumn} {c : Column}
    (hc : t.column? a.column = some c) (h : aggregate t rows a = .error err) :
    ∃ reason, err = .failedMapValue c.id reason := by
  rw [aggregate, Table.column_eq_ok_iff.mpr hc, Except.ok_bind] at h
  dsimp only at h
  split at h
  · cases h
  · split at h
    · rcases Except.bind_eq_error_iff.mp h with h | ⟨value, -, h⟩
      · exact sumWhole_eq_error (Except.map_eq_error_iff.mp h)
      · cases h
    · cases h
  · cases h

/-- Rows in memory cannot be fetched where an operator is not known, where a sum does not fit a
word, or where the rows are too many. -/
theorem Memory.fetch_eq_error {f : Fetch} (hsound : ∀ c ∈ f.table.columns, c.Sound)
    (hoffers : ∀ raw ∈ f.conditions, ∃ c op, f.table.Offers c op raw)
    (haggregates : ∀ a ∈ f.aggregates, ∃ c, f.table.column? a.column = some c)
    (h : m.fetch now f = .error err) :
    RawCondition.Foreign f.conditions err ∨ (∃ column reason, err = .failedMapValue column reason) ∨
      ∃ count limit, err = .resultExceedMaxLimit count limit := by
  rw [fetch, Except.bind_eq_error_iff] at h
  rcases h with h | ⟨matched, -, h⟩
  · exact .inl (matching_eq_error hsound hoffers h)
  · rw [Except.bind_eq_error_iff] at h
    rcases h with h | ⟨aggregates, -, h⟩
    · obtain ⟨before, a, after, hsplit, -, ha⟩ := Except.mapM_eq_error_iff.mp h
      obtain ⟨c, hc⟩ := haggregates a (by simp [hsplit])
      obtain ⟨reason, herr⟩ := aggregate_eq_error hc ha
      exact .inr (.inl ⟨c.id, reason, herr⟩)
    · rw [Except.bind_eq_error_iff] at h
      rcases h with h | ⟨-, -, h⟩
      · unfold PageRequest.checkLimit at h
        split at h <;> cases h
        exact .inr (.inr ⟨_, _, rfl⟩)
      · cases h

/-- There is no clause for conditions where a period is beyond the calendar, or where an operator is
not of the library. -/
theorem Sql.whereClause_eq_error (hsound : ∀ c ∈ t.columns, c.Sound)
    (hoffers : ∀ raw ∈ conditions, ∃ c op, t.Offers c op raw)
    (h : whereClause now t conditions = .error err) :
    (∃ column, ∃ raw ∈ conditions, err = .beyondCalendar column raw.operator ∧
        ¬Period.Available now raw.operator) ∨
      RawCondition.Foreign conditions err := by
  replace h := Except.map_eq_error_iff.mp h
  induction conditions with
  | nil => cases h
  | cons raw conditions ih =>
    rw [List.forall_mem_cons] at hoffers
    obtain ⟨⟨c, op, hoffer⟩, hrest⟩ := hoffers
    rw [predicates, Table.column_eq_ok_iff.mpr hoffer.1, Except.ok_bind,
      Except.bind_eq_error_iff] at h
    rcases h with h | ⟨p, -, h⟩
    · exact (Predicate.ofCondition_eq_error hsound hoffer h).imp
        (fun herr => ⟨c.id, raw, List.mem_cons_self, herr⟩)
        fun herr => ⟨c.id, raw, List.mem_cons_self, herr⟩
    · rw [Except.bind_eq_error_iff] at h
      rcases h with h | ⟨ps, -, h⟩
      · rcases ih hrest h with ⟨column, other, hother, herr⟩ | ⟨column, other, hother, herr⟩
        · exact .inl ⟨column, other, List.mem_cons_of_mem _ hother, herr⟩
        · exact .inr ⟨column, other, List.mem_cons_of_mem _ hother, herr⟩
      · cases h

/-- A database can be asked for aggregates of columns of the table. -/
theorem Sql.exists_aggregateColumns {as : List AggregateColumn} (d : Dialect)
    (h : ∀ a ∈ as, ∃ c, t.column? a.column = some c) :
    ∃ columns, aggregateColumns d t as = .ok columns := by
  induction as with
  | nil => exact ⟨[], rfl⟩
  | cons a as ih =>
    rw [List.forall_mem_cons] at h
    obtain ⟨⟨c, hc⟩, hrest⟩ := h
    obtain ⟨rest, hrest⟩ := ih hrest
    rw [aggregateColumns, Table.column_eq_ok_iff.mpr hc, Except.ok_bind, hrest]
    exact ⟨_, rfl⟩

end Stores

/-- For a template that fits its table, no check that was made before it is run fails later:
not where its values are decoded, and neither in memory nor where statements for a database are
made. -/
theorem Table.not_isCheck_of_validate {t : Table} {template : Template} (ht : t.Prepared)
    (hvalid : t.validate template = .ok ()) :
    (∀ condition ∈ template.body.filter, ∀ c, t.column? condition.column = some c →
      ∀ value ∈ condition.values, ∀ err, c.native value = .error err → ¬err.IsCheck) ∧
    ∀ direct linked, t.split template.body.filter = .ok (direct, linked) →
      (∀ (m : Memory) now f err, f.table = t → f.conditions = direct →
        f.aggregates = Engine.requestedAggregates template.body.output →
        m.fetch now f = .error err → ¬err.IsCheck) ∧
      (∀ now err, Sql.whereClause now t direct = .error err → ¬err.IsCheck) ∧
      ∀ d, ∃ columns, Sql.aggregateColumns d t
        (Engine.requestedAggregates template.body.output) = .ok columns := by
  have hsound := ht.sound
  obtain ⟨hfilter, -, houtput⟩ := validate_eq_ok_iff.mp hvalid
  have haggregates : ∀ a ∈ Engine.requestedAggregates template.body.output,
      ∃ c, t.column? a.column = some c := by
    intro a ha
    obtain ⟨o, ho, rfl⟩ := List.mem_map.mp ha
    obtain ⟨c, hc, -⟩ := columns_of_validateOutput houtput (List.mem_filter.mp ho).1
    exact ⟨c, hc⟩
  refine ⟨?_, fun direct linked hsplit => ⟨?_, ?_, ?_⟩⟩
  · intro condition hcondition c hc value hvalue err herr
    obtain ⟨c', op, hc', -, -, hfits⟩ :=
      validateCondition_eq_ok_iff.mp (validateFilter_eq_ok_iff.mp hfilter condition hcondition)
    obtain rfl := Option.some.inj (hc.symm.trans hc')
    obtain ⟨text, rfl⟩ := Column.native_eq_error (hfits value hvalue) herr
    exact not_false
  · rintro m now f err rfl rfl hf herr
    rw [← hf] at haggregates
    rcases Memory.fetch_eq_error hsound (offers_of_split hfilter hsplit) haggregates herr with
      ⟨column, raw, -, rfl, hspace⟩ | ⟨column, reason, rfl⟩ | ⟨count, limit, rfl⟩
    · exact hspace
    · exact not_false
    · exact not_false
  · intro now err herr
    rcases Sql.whereClause_eq_error hsound (offers_of_split hfilter hsplit) herr with
      ⟨column, raw, -, rfl, -⟩ | ⟨column, raw, -, rfl, hspace⟩
    · exact not_false
    · exact hspace
  · exact fun d => Sql.exists_aggregateColumns d haggregates

/-! ## A tally that is too large -/

namespace Tally

open Sample (clock vocabulary)

def spec : TableSpec :=
  ⟨"Tally", "Tally", "",
    [{ (default : FieldSpec) with
        id := "Code", kind := .string, key := true, filters := some "EQ" },
      { (default : FieldSpec) with
        id := "Qty", kind := .uint, filters := some "NE", aggregates := some "SUM" }]⟩

def question : Template :=
  .temporary "Tally" ⟨[⟨"Qty", Builtin.ne, [.int 1]⟩], [⟨"Qty", true, .sum⟩]⟩ .all

def notOne : RawCondition := ⟨"Qty", Builtin.ne, [.uint 1]⟩

def memory : Memory := ⟨[.keyed [("Qty", .uint 9223372036854775808)]], 100000, []⟩

def quantity : Column :=
  { (default : Column) with
    id := "Qty", name := "Qty", kind := .uint, type := .int
    filters := [⟨Builtin.ne, "not equal", .single⟩], aggregates := [.sum]
    width := 1, storageName := "Qty" }

theorem exists_table : ∃ t, spec.compile vocabulary = .ok t ∧ t.column? "Qty" = some quantity := by
  have h : (spec.compile vocabulary).toOption.bind (fun t => t.column? "Qty") = some quantity := by
    decide +kernel
  obtain ⟨t, ht, hq⟩ := Option.bind_eq_some_iff.mp h
  exact ⟨t, Except.toOption_eq_some_iff.mp ht, hq⟩

/-- The sum does not fit a word, which is no check of the template. -/
theorem sum_too_large : ∃ t f err, spec.compile vocabulary = .ok t ∧ f.table = t ∧
    t.validate question = .ok () ∧ t.split question.body.filter = .ok (f.conditions, []) ∧
    f.aggregates = Engine.requestedAggregates question.body.output ∧
    memory.fetch clock f = .error err ∧ err.code = "FailedMapValue" ∧ ¬err.IsCheck := by
  obtain ⟨t, ht, hq⟩ := exists_table
  have hcolumn := Table.column_eq_ok_iff.mpr hq
  have hvalid : t.validate question = .ok () := by
    simp only [Table.validate, question, Template.temporary, Table.validateFilter,
      Table.validateCondition, Table.validateOutput, hcolumn, Except.ok_bind]
    rfl
  have hsplit : t.split question.body.filter = .ok ([notOne], []) := by
    simp only [Table.split, question, Template.temporary, hcolumn, Except.ok_bind]
    rfl
  have hmatching : memory.matching clock t [notOne] memory.rows = .ok memory.rows := by
    simp only [Memory.matching, memory, Memory.holds, notOne, hcolumn, Except.ok_bind]
    rfl
  have hsum : Memory.sumWhole quantity 0 [.uint 9223372036854775808] =
      .error (.failedMapValue "Qty" "9223372036854775808 overflows SUM") := by
    decide +kernel
  have haggregate : Memory.aggregate t memory.rows ⟨"Qty", .sum⟩ =
      .error (.failedMapValue "Qty" "9223372036854775808 overflows SUM") := by
    simp only [Memory.aggregate, hcolumn, Except.ok_bind]
    exact Except.bind_eq_error_iff.mpr (.inl (Except.map_eq_error_iff.mpr hsum))
  have herr : memory.fetch clock ⟨t, [notOne], [], [⟨"Qty", .sum⟩], .all, none⟩ =
      .error (.failedMapValue "Qty" "9223372036854775808 overflows SUM") := by
    simp only [Memory.fetch, hmatching, Except.ok_bind, Memory.sorted, Option.bind_none,
      List.mapM_cons, haggregate]
    rfl
  have hbuilt : vocabulary.operators.Built := by
    dsimp only [vocabulary]
    exact Catalog.built_builtin
  have hchecked := (Table.not_isCheck_of_validate (.compiled hbuilt ht) hvalid).2 _ _ hsplit
  exact ⟨t, _, _, ht, rfl, hvalid, hsplit, rfl, herr, rfl,
    hchecked.1 memory clock _ _ rfl rfl rfl herr⟩

end Tally

end TableQuery
