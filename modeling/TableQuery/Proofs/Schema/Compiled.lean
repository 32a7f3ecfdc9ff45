import TableQuery.Proofs.Lists
import TableQuery.Proofs.Run
import TableQuery.Schema.Compile

/-!
# Columns of described fields

The fields of a description become columns one by one. A column says what its field says, and its
kind and its type go together. The columns fit behind each other exactly if their ids are different,
and so are their names, and at most one of them is a key.

## Main definitions

* `FieldSpec.Makes` — what a field says about its column.
* `Column.Admitted` — kinds and types that go together.
* `Column.Apart` — columns that fit into one table.

## Main results

* `FieldSpec.makes_of_compile`, `FieldSpec.admitted_of_compile` — the column of a field.
* `TableSpec.compileFields_eq_ok_iff` — the columns of fields are made one by one and fit together.
* `Column.pairwise_apart_iff` — what that means for their ids, names and keys.
* `TableSpec.compile_eq_ok_iff` — the table of a description.
-/

namespace TableQuery

/-- A kind and a type that go together: only moments are dates or times, and they are nothing else;
numbers of entries and whole numbers are shown of whole values, other numbers of all numbers, and
truth values of truth values. The entries are those of a list that is registered. -/
structure Column.Admitted (c : Column) (v : Vocabulary) : Prop where
  storable : c.kind ≠ .bytes ∧ c.kind ≠ .json
  moment : c.kind = .time ↔ c.type = .date ∨ c.type = .time
  whole : c.type = .int ∨ c.type = .choice → c.kind = .int ∨ c.kind = .uint
  number : c.type = .double → c.kind = .int ∨ c.kind = .uint ∨ c.kind = .float
  truth : c.type = .bool → c.kind = .bool
  entries : c.type = .choice →
    ∃ options, c.optionType = some options ∧ v.options.contains options = true

namespace FieldSpec

variable {f : FieldSpec} {v : Vocabulary} {c : Column} {type : ColumnType}

def shownName (f : FieldSpec) : String :=
  f.name.getD f.id

/-- The field is annotated as a key, and its column holds texts. -/
def marksKey (f : FieldSpec) : Bool :=
  f.key && f.columnType.toOption == some .string

structure Makes (f : FieldSpec) (v : Vocabulary) (c : Column) : Prop where
  id_eq : c.id = f.id
  name_eq : c.name = f.shownName
  kind_eq : c.kind = f.kind
  storable : f.kind ≠ .bytes ∧ f.kind ≠ .json
  type_eq : f.columnType = .ok c.type
  optionType_eq : f.columnOptions v c.type = .ok c.optionType
  filters_eq : f.columnFilters v = .ok c.filters
  isKey_eq : c.isKey = f.marksKey

/-- What a field says about its column, and the format that its kind and type have if it declares
none. -/
theorem makes_and_format (h : f.compile v = .ok c) :
    f.Makes v c ∧ c.format = f.format.or (f.kind.defaultFormat c.type) := by
  unfold compile at h
  split at h
  · cases h
  next hkind =>
  obtain ⟨-, -, h⟩ := Except.bind_eq_ok_iff.mp h
  obtain ⟨type, htype, h⟩ := Except.bind_eq_ok_iff.mp h
  obtain ⟨options, hoptions, h⟩ := Except.bind_eq_ok_iff.mp h
  obtain ⟨filters, hfilters, h⟩ := Except.bind_eq_ok_iff.mp h
  obtain ⟨aggregates, -, h⟩ := Except.bind_eq_ok_iff.mp h
  obtain ⟨link, -, h⟩ := Except.bind_eq_ok_iff.mp h
  obtain ⟨style, -, h⟩ := Except.bind_eq_ok_iff.mp h
  obtain ⟨width, -, h⟩ := Except.bind_eq_ok_iff.mp h
  cases h
  refine ⟨⟨rfl, rfl, rfl, not_or.mp hkind, htype, hoptions, hfilters, ?_⟩, rfl⟩
  simp [marksKey, htype, Except.toOption]

theorem makes_of_compile (h : f.compile v = .ok c) : f.Makes v c :=
  (makes_and_format h).1

/-- Only a field of texts becomes a key. -/
theorem type_of_isKey (h : f.compile v = .ok c) (hkey : c.isKey = true) : c.type = .string := by
  have hmakes := makes_of_compile h
  have hmarked : f.marksKey = true := hmakes.isKey_eq ▸ hkey
  simp only [marksKey, hmakes.type_eq, Except.toOption] at hmarked
  grind

/-- A moment is a date or a time, and every other type is one that the kind admits. -/
theorem admits_of_columnType (h : f.columnType = .ok type) :
    f.kind.admits type = true ∧ (f.kind = .time → type = .date ∨ type = .time) := by
  unfold columnType at h
  dsimp only at h
  -- Whether a type is declared or not, a moment is refused unless it is a date or a time, and a
  -- type is refused that the kind does not admit.
  split at h
  · rw [Except.ok_bind] at h
    split at h <;> grind [StoredKind.admits]
  · split at h
    · rw [Except.ok_bind] at h
      split at h <;> grind [StoredKind.admits]
    · cases h

/-- The entries of a column are those of a list that is registered. -/
theorem contains_of_columnOptions {optionType : Option String}
    (h : f.columnOptions v .choice = .ok optionType) :
    ∃ options, optionType = some options ∧ v.options.contains options = true := by
  rw [columnOptions, if_pos rfl] at h
  split at h
  · cases h
  · next options _ =>
    split at h
    · next hcontains =>
      cases h
      exact ⟨options, rfl, hcontains⟩
    · cases h

/-- The kind and the type of the column of a field go together. -/
theorem admitted_of_compile (h : f.compile v = .ok c) : c.Admitted v := by
  obtain ⟨-, -, hkind, hstorable, htype, hoptions, -, -⟩ := makes_of_compile h
  obtain ⟨hadmits, hmoment⟩ := admits_of_columnType htype
  rw [← hkind] at hstorable hadmits hmoment
  refine ⟨hstorable, ⟨hmoment, ?_⟩, ?_, ?_, ?_, fun hchoice => ?_⟩
  · rintro (hdate | htime)
    · simpa [hdate, StoredKind.admits] using hadmits
    · simpa [htime, StoredKind.admits] using hadmits
  · grind [StoredKind.admits, StoredKind.isInteger]
  · grind [StoredKind.admits, StoredKind.isInteger]
  · grind [StoredKind.admits]
  · rw [hchoice] at hoptions
    exact contains_of_columnOptions hoptions

end FieldSpec

/-! ## Columns that fit into one table -/

namespace Column

/-- Columns that fit into one table: they have different ids and names, and they are not both
keys. -/
def Apart (d c : Column) : Prop :=
  d.id ≠ c.id ∧ d.name ≠ c.name ∧ (d.isKey = true → c.isKey = false)

theorem pairwise_isKey_iff {columns : List Column} :
    columns.Pairwise (fun d c => d.isKey = true → c.isKey = false) ↔
      (columns.filter Column.isKey).length ≤ 1 := by
  induction columns with
  | nil => simp
  | cons d columns ih =>
    rw [List.pairwise_cons, ih]
    by_cases hkey : d.isKey = true
    · -- Behind a key there must be none.
      have hnone : columns.filter Column.isKey = [] ↔ ∀ c ∈ columns, c.isKey = false := by
        simp [List.filter_eq_nil_iff]
      rw [List.filter_cons_of_pos hkey, List.length_cons]
      constructor
      · rintro ⟨hrest, -⟩
        rw [hnone.mpr fun c hc => hrest c hc hkey]
        exact Nat.le_refl 1
      · intro hlength
        have hempty := List.length_eq_zero_iff.mp (show (columns.filter isKey).length = 0 by omega)
        exact ⟨fun c hc _ => hnone.mp hempty c hc, by omega⟩
    · simp [hkey]

/-- Columns fit together if their ids are different, and so are their names, and at most one of them
is a key. -/
theorem pairwise_apart_iff {columns : List Column} : columns.Pairwise Apart ↔
    (columns.map Column.id).Nodup ∧ (columns.map Column.name).Nodup ∧
      (columns.filter Column.isKey).length ≤ 1 := by
  unfold Apart List.Nodup
  rw [List.pairwise_and_iff, List.pairwise_and_iff, pairwise_isKey_iff, List.pairwise_map,
    List.pairwise_map]

/-- The first of at most one key is the only one. -/
theorem filter_isKey_eq {columns : List Column} {key : Column}
    (hlength : (columns.filter Column.isKey).length ≤ 1)
    (hkey : columns.find? Column.isKey = some key) : columns.filter Column.isKey = [key] := by
  have hhead : (columns.filter Column.isKey).head? = some key := by
    rw [List.head?_filter, hkey]
  obtain ⟨rest, hrest⟩ := List.head?_eq_some_iff.mp hhead
  rw [hrest] at hlength ⊢
  have hnil : rest = [] := by simpa using hlength
  rw [hnil]

end Column

namespace TableSpec

variable {v : Vocabulary} {table : String} {fields : List FieldSpec} {before columns : List Column}
  {c : Column}

theorem checkColumn_eq_ok_iff :
    checkColumn table before c = .ok () ↔ ∀ d ∈ before, d.Apart c := by
  unfold checkColumn
  split
  · next hid =>
    simp only [reduceCtorEq, false_iff]
    grind [Column.Apart]
  next hid =>
  split
  · next hname =>
    simp only [reduceCtorEq, false_iff]
    grind [Column.Apart]
  next hname =>
  split
  · next first hfirst =>
    have hmem := List.mem_of_find?_eq_some hfirst
    have hkey := List.find?_some hfirst
    grind [Column.Apart]
  · next hnone =>
    rw [List.find?_eq_none] at hnone
    grind [Column.Apart]

/-- The columns of fields are made one by one. They fit together, and behind the columns before
them. -/
theorem compileFields_eq_ok_iff : compileFields v table before fields = .ok columns ↔
    ∃ made, columns = before ++ made ∧ List.Forall₂ (fun f c => f.compile v = .ok c) fields made ∧
      made.Pairwise Column.Apart ∧ ∀ d ∈ before, ∀ c ∈ made, d.Apart c := by
  induction fields generalizing before with
  | nil => simp [compileFields, eq_comm]
  | cons f fields ih =>
    simp only [compileFields, Except.bind_eq_ok_iff, ih, List.forall₂_cons_left_iff]
    constructor
    · rintro ⟨c, hc, ⟨⟩, hcheck, made, rfl, hmade, hpairwise, hbefore⟩
      rw [checkColumn_eq_ok_iff] at hcheck
      refine ⟨c :: made, by simp, ⟨c, made, hc, hmade, rfl⟩, ?_, ?_⟩
      · rw [List.pairwise_cons]
        exact ⟨hbefore c (by simp), hpairwise⟩
      · intro d hd
        rw [List.forall_mem_cons]
        exact ⟨hcheck d hd, hbefore d (List.mem_append_left _ hd)⟩
    · rintro ⟨made, rfl, ⟨c, rest, hc, hrest, rfl⟩, hpairwise, hbefore⟩
      rw [List.pairwise_cons] at hpairwise
      refine ⟨c, hc, (), checkColumn_eq_ok_iff.mpr fun d hd => hbefore d hd c List.mem_cons_self,
        rest, by simp, hrest, hpairwise.2, ?_⟩
      intro d hd e he
      rcases List.mem_append.mp hd with hd | hd
      · exact hbefore d hd e (List.mem_cons_of_mem _ he)
      · rw [List.mem_singleton.mp hd]
        exact hpairwise.1 e he

def shown (s : TableSpec) : List FieldSpec :=
  s.fields.filter fun f => !f.hidden

theorem compileFields_shown_eq_ok_iff {s : TableSpec} :
    compileFields v s.id [] s.shown = .ok columns ↔
      List.Forall₂ (fun f c => f.compile v = .ok c) s.shown columns ∧
        (columns.map Column.id).Nodup ∧ (columns.map Column.name).Nodup ∧
          (columns.filter Column.isKey).length ≤ 1 := by
  rw [compileFields_eq_ok_iff, ← Column.pairwise_apart_iff]
  simp

theorem compile_eq_ok_iff {s : TableSpec} {t : Table} :
    s.compile v = .ok t ↔ ∃ columns key, compileFields v s.id [] s.shown = .ok columns ∧
      columns.find? Column.isKey = some key ∧ key.supports Builtin.eq = true ∧
      t = ⟨s.id, s.name, s.description, columns, key.id, [], none, none⟩ := by
  simp only [compile, shown, Except.bind_eq_ok_iff]
  constructor
  · rintro ⟨columns, hcolumns, h⟩
    split at h
    · cases h
    · next key hkey =>
      split at h
      · next heq =>
        cases h
        exact ⟨columns, key, hcolumns, hkey, heq, rfl⟩
      · cases h
  · rintro ⟨columns, key, hcolumns, hkey, heq, rfl⟩
    exact ⟨columns, hcolumns, by simp [hkey, heq]⟩

end TableSpec

end TableQuery
