import TableQuery.Proofs.Schema.Indexed

/-!
# Well-formed descriptions

A description becomes a table exactly if it is well-formed: each field that is shown becomes a
column by itself, the ids of these fields are different, and so are their names, and exactly one of
them is a key of texts, which can be searched by one value. The table has the columns of these
fields in their order. The id of a field leads to its column, other ids lead nowhere, and the kinds
and types of all columns go together.

## Main definitions

* `TableSpec.WellFormed` — descriptions that become tables.
* `Table.DescribedBy` — a table with the columns of a description.

## Main results

* `TableSpec.compiles_iff` — which descriptions become tables.
* `TableSpec.describedBy_of_compile` — what these tables are.
-/

namespace TableQuery

variable {s : TableSpec} {v : Vocabulary} {t : Table} {columns : List Column}

/-- A description that becomes a table. -/
structure TableSpec.WellFormed (s : TableSpec) (v : Vocabulary) : Prop where
  compiles : ∀ f ∈ s.shown, ∃ c, f.compile v = .ok c
  nodup_ids : (s.shown.map FieldSpec.id).Nodup
  nodup_names : (s.shown.map FieldSpec.shownName).Nodup
  /-- Exactly one field is a key of texts, and its operators search by one value. -/
  key : ∃ f filters, s.shown.filter FieldSpec.marksKey = [f] ∧ f.columnFilters v = .ok filters ∧
    (filters.any fun op => op.id == Builtin.eq) = true

structure Table.DescribedBy (t : Table) (s : TableSpec) (v : Vocabulary) : Prop where
  id_eq : t.id = s.id
  name_eq : t.name = s.name
  description_eq : t.description = s.description
  /-- The columns are those of the fields that are shown, in their order. -/
  columns : List.Forall₂ (fun f c => f.compile v = .ok c) s.shown t.columns
  makes : List.Forall₂ (fun f c => f.Makes v c) s.shown t.columns
  /-- The id of a field leads to its place and its column. -/
  found : ∀ place f, s.shown[place]? = some f → t.position? f.id = some place ∧
    ∃ c, t.columns[place]? = some c ∧ f.compile v = .ok c ∧ t.column? f.id = some c
  /-- Other ids lead nowhere. -/
  missing : ∀ id, id ∉ s.shown.map FieldSpec.id → t.position? id = none ∧ t.column? id = none
  /-- The index that was built on the way leads to the same columns. -/
  indexed : ∃ found, TableSpec.collect v s.id .empty s.shown = .ok found ∧
    found.columns.columns = t.columns ∧ ∀ id, found.columns.get? id = t.column? id
  key : ∃ key, t.columns.filter Column.isKey = [key] ∧ t.key = key.id
  admitted : ∀ c ∈ t.columns, c.Admitted v

namespace TableSpec

/-- The columns of fields have the ids and names of the fields, and their keys are columns of fields
that are keys of texts. -/
theorem columns_of_fields (h : List.Forall₂ (fun f c => f.compile v = .ok c) s.shown columns) :
    s.shown.map FieldSpec.id = columns.map Column.id ∧
      s.shown.map FieldSpec.shownName = columns.map Column.name ∧
      List.Forall₂ (fun f c => f.compile v = .ok c) (s.shown.filter FieldSpec.marksKey)
        (columns.filter Column.isKey) := by
  have hmakes {f : FieldSpec} {c : Column} (hc : f.compile v = .ok c) : f.Makes v c :=
    FieldSpec.makes_of_compile hc
  refine ⟨forall₂_map_eq h fun f c hc => (hmakes hc).id_eq.symm,
    forall₂_map_eq h fun f c hc => (hmakes hc).name_eq.symm,
    List.rel_filter (fun f c hc => ?_) h⟩
  simp only [(hmakes hc).isKey_eq]

/-- Exactly the well-formed descriptions become tables. -/
theorem compiles_iff (s : TableSpec) (v : Vocabulary) :
    (∃ t, s.compile v = .ok t) ↔ s.WellFormed v := by
  simp only [compile_eq_ok_iff, compileFields_shown_eq_ok_iff]
  constructor
  · rintro ⟨t, columns, key, ⟨hfields, hids, hnames, hlength⟩, hfirst, heq, -⟩
    obtain ⟨hid, hname, hkeys⟩ := columns_of_fields hfields
    refine ⟨fun f hf => ?_, hid ▸ hids, hname ▸ hnames, ?_⟩
    · obtain ⟨c, -, hc⟩ := forall₂_exists_right hfields hf
      exact ⟨c, hc⟩
    · rw [Column.filter_isKey_eq hlength hfirst] at hkeys
      obtain ⟨f, rest, hf, hrest, hfilter⟩ := List.forall₂_cons_right_iff.mp hkeys
      cases hrest
      exact ⟨f, key.filters, hfilter, (FieldSpec.makes_of_compile hf).filters_eq, heq⟩
  · rintro ⟨hcompiles, hids, hnames, f, filters, hfilter, hfilters, heq⟩
    obtain ⟨columns, hfields⟩ := exists_forall₂ hcompiles
    obtain ⟨hid, hname, hkeys⟩ := columns_of_fields hfields
    rw [hfilter] at hkeys
    obtain ⟨key, rest, hkey, hrest, hkeys⟩ := List.forall₂_cons_left_iff.mp hkeys
    cases hrest
    have hfirst : columns.find? Column.isKey = some key := by
      rw [← List.head?_filter, hkeys, List.head?_cons]
    have hsame : key.filters = filters :=
      Except.ok.inj ((FieldSpec.makes_of_compile hkey).filters_eq.symm.trans hfilters)
    have hsupports : key.supports Builtin.eq = true := by
      rw [Column.supports, hsame]
      exact heq
    exact ⟨_, columns, key, ⟨hfields, hid ▸ hids, hname ▸ hnames, by simp [hkeys]⟩, hfirst,
      hsupports, rfl⟩

/-- The table of a description has its columns, and nothing else is found in it. -/
theorem describedBy_of_compile (h : s.compile v = .ok t) : t.DescribedBy s v := by
  obtain ⟨columns, key, hcolumns, hfirst, -, ht⟩ := compile_eq_ok_iff.mp h
  obtain rfl : t.columns = columns := congrArg Table.columns ht
  obtain ⟨hfields, hids, -, hlength⟩ := compileFields_shown_eq_ok_iff.mp hcolumns
  obtain ⟨hid, -, -⟩ := columns_of_fields hfields
  refine ⟨congrArg Table.id ht, congrArg Table.name ht, congrArg Table.description ht, hfields,
    hfields.imp fun f c => FieldSpec.makes_of_compile, ?_, ?_, ?_,
    ⟨key, Column.filter_isKey_eq hlength hfirst, congrArg Table.key ht⟩, ?_⟩
  · intro place f hf
    obtain ⟨hlt, rfl⟩ := List.getElem?_eq_some_iff.mp hf
    have hltc : place < t.columns.length := hfields.length_eq ▸ hlt
    have hposition : t.position? s.shown[place].id = some place := by
      rw [Table.position?_eq_some_iff hids, Table.columnIds, ← hid, List.getElem?_map, hf]
      rfl
    refine ⟨hposition, t.columns[place], List.getElem?_eq_getElem hltc, hfields.get hlt hltc, ?_⟩
    rw [Table.column?_eq_bind_position?, hposition]
    exact List.getElem?_eq_getElem hltc
  · intro id hmissing
    have hnone : t.position? id = none := by
      rw [Table.position?_eq_none_iff, Table.columnIds, ← hid]
      exact hmissing
    refine ⟨hnone, ?_⟩
    rw [Table.column?_eq_bind_position?, hnone]
    rfl
  · obtain ⟨hmap, -⟩ := collect_map_eq v s.id s.shown Collected.describes_empty
    obtain ⟨found, hfound, hsame⟩ := Except.map_eq_ok_iff.mp (hmap.trans hcolumns)
    refine ⟨found, hfound, hsame, fun id => ?_⟩
    rw [ColumnList.get?_eq, hsame, Table.column?]
  · intro c hc
    obtain ⟨f, -, hf⟩ := forall₂_exists_left hfields hc
    exact FieldSpec.admitted_of_compile hf

/-- Exactly the well-formed descriptions become tables, and these tables have the columns of the
fields that are shown, each found by its id, and of kinds and types that go together. -/
theorem compiles_iff_wellFormed (s : TableSpec) (v : Vocabulary) :
    ((∃ t, s.compile v = .ok t) ↔ s.WellFormed v) ∧
      ∀ t, s.compile v = .ok t → t.DescribedBy s v :=
  ⟨compiles_iff s v, fun _ => describedBy_of_compile⟩

end TableSpec

/-! ## Clothes of registered sizes -/

namespace Wardrobe

def vocabulary : Vocabulary := ⟨.builtin, ⟨[("Size", [⟨0, "S"⟩, ⟨1, "L"⟩])]⟩⟩

/-- Clothes with a number, a size and the day on which they were bought. Pictures are not shown. -/
def spec : TableSpec :=
  ⟨"Clothes", "Clothes", "",
    [{ (default : FieldSpec) with id := "Picture", kind := .bytes, hidden := true },
      { (default : FieldSpec) with
        id := "No", kind := .string, key := true, filters := some "EQ" },
      { (default : FieldSpec) with
        id := "Size", kind := .uint, valueType := some "OPTION", optionType := some "Size" },
      { (default : FieldSpec) with id := "Bought", kind := .time, valueType := some "DATE" }]⟩

/-- The description is well-formed, and its table has a column for each field that is shown. -/
theorem described : spec.WellFormed vocabulary ∧
    ∃ t, spec.compile vocabulary = .ok t ∧ t.DescribedBy spec vocabulary := by
  obtain ⟨hiff, hdescribed⟩ := TableSpec.compiles_iff_wellFormed spec vocabulary
  have hcompiles : (spec.compile vocabulary).toOption.map Table.columnIds =
      some ["No", "Size", "Bought"] := by
    decide +kernel
  obtain ⟨t, ht, -⟩ := Option.map_eq_some_iff.mp hcompiles
  rw [Except.toOption_eq_some_iff] at ht
  exact ⟨hiff.mp ⟨t, ht⟩, t, ht, hdescribed t ht⟩

end Wardrobe

end TableQuery
