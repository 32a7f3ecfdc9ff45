import TableQuery.Proofs.Exchange.Template
import TableQuery.Proofs.Query.Shape
import TableQuery.Saved.Service

/-!
# Templates that list every column

A saved template is read back with each column of the table that it was saved for. What another
table makes of it depends on the columns that the two tables share.

## Main definitions

* `Table.Runnable` — a template can be run on a table.

## Main results

* `Table.validateOutput_eq_ok_iff` — which output columns a table accepts.
* `Table.columns_syncOutput_perm` — the output lists each column of its table once.
* `Table.validateOutput_syncOutput_iff` — whether another table accepts it.
* `Table.validateFilter_of_decode?` — a table accepts a filter that is read back if it did before.
-/

namespace TableQuery

namespace Table

variable {t u : Table} {output : List OutputColumn} {template : Template}

/-! ## Templates that can be run -/

/-- A template can be run on a table: it is for this table, names only columns that the table has,
and is accepted. -/
structure Runnable (t : Table) (template : Template) : Prop where
  table_eq : template.table = t.id
  filter_columns : ∀ c ∈ template.body.filter, t.hasColumn c.column = true
  output_columns : ∀ o ∈ template.body.output, t.hasColumn o.column = true
  validate_eq : t.validate template = .ok ()

/-- A template that is accepted names only columns that the table has. -/
theorem runnable_iff :
    t.Runnable template ↔ template.table = t.id ∧ t.validate template = .ok () := by
  refine ⟨fun h => ⟨h.table_eq, h.validate_eq⟩, fun ⟨htable, hvalid⟩ => ⟨htable, ?_, ?_, hvalid⟩⟩
  · intro c hc
    have hcond := validateFilter_eq_ok_iff.mp (validate_eq_ok_iff.mp hvalid).1 c hc
    obtain ⟨column, -, hcolumn, -⟩ := validateCondition_eq_ok_iff.mp hcond
    simp [hasColumn, hcolumn]
  · intro o ho
    obtain ⟨c, hc, -⟩ := columns_of_validateOutput (validate_eq_ok_iff.mp hvalid).2.2 ho
    simp [hasColumn, hc]

/-- Output columns are accepted if they are different and the table has them with their
aggregates. -/
theorem validateOutput_eq_ok_iff {seen : List String} :
    t.validateOutput seen output = .ok () ↔
      (output.map OutputColumn.column).Nodup ∧ (∀ o ∈ output, o.column ∉ seen) ∧
        ∀ o ∈ output,
          ∃ c, t.column? o.column = some c ∧ c.supportsAggregate o.aggregate = true := by
  refine ⟨fun h => ⟨(nodup_of_validateOutput h).1, (nodup_of_validateOutput h).2,
    fun o ho => columns_of_validateOutput h ho⟩, ?_⟩
  rintro ⟨hnodup, hseen, hcolumns⟩
  induction output generalizing seen with
  | nil => rfl
  | cons first output ih =>
    rw [List.map_cons, List.nodup_cons] at hnodup
    rw [List.forall_mem_cons] at hseen hcolumns
    obtain ⟨⟨c, hc, hsupports⟩, hcolumns⟩ := hcolumns
    rw [validateOutput, if_neg (by simpa using hseen.1), column_eq_ok_iff.mpr hc, Except.ok_bind,
      if_pos hsupports]
    refine ih hnodup.2 (fun o ho hmem => ?_) hcolumns
    rcases List.mem_cons.mp hmem with heq | hmem
    · exact hnodup.1 (heq ▸ List.mem_map_of_mem ho)
    · exact hseen.2 o ho hmem

theorem hasColumn_iff {id : String} : t.hasColumn id = true ↔ id ∈ t.columnIds := by
  simp [hasColumn, column?, columnIds]

theorem exists_column?_of_hasColumn {id : String} (h : t.hasColumn id = true) :
    ∃ c, t.column? id = some c :=
  Option.isSome_iff_exists.mp h

@[simp] theorem supportsAggregate_none (c : Column) : c.supportsAggregate .none = true := by
  simp [Column.supportsAggregate]

/-- A table with a column that is not internal can run its empty template. -/
theorem runnable_emptyTemplate (hn : t.columnIds.Nodup)
    (hopen : ∃ c ∈ t.columns, c.internal = false) : t.Runnable t.emptyTemplate := by
  refine runnable_iff.mpr ⟨rfl, validate_eq_ok_iff.mpr ⟨rfl, ?_, ?_⟩⟩
  · obtain ⟨c, hc, hinternal⟩ := hopen
    have hmem : c ∈ t.columns.filter fun c => !c.internal := by simp [hc, hinternal]
    simpa [emptyTemplate] using List.ne_nil_of_mem hmem
  · rw [validateOutput_eq_ok_iff]
    refine ⟨?_, by simp, fun o ho => ?_⟩
    · rw [emptyTemplate, List.map_map]
      exact hn.sublist (List.filter_sublist.map _)
    · obtain ⟨c, hc, rfl⟩ := List.mem_map.mp ho
      have hid : c.id ∈ t.columnIds := List.mem_map_of_mem (List.mem_filter.mp hc).1
      obtain ⟨c', hc'⟩ := exists_column?_of_hasColumn (hasColumn_iff.mpr hid)
      exact ⟨c', hc', supportsAggregate_none c'⟩

/-! ## Output with each column -/

/-- An output with each column has those that were listed, and others without aggregate. -/
theorem mem_syncOutput {o : OutputColumn} (h : o ∈ t.syncOutput output) :
    o ∈ output ∧ t.hasColumn o.column = true ∨
      ∃ c ∈ t.columns, o.column = c.id ∧ o.aggregate = .none := by
  unfold syncOutput at h
  dsimp only at h
  split at h
  · exact .inl (List.mem_filter.mp h)
  · rcases List.mem_append.mp h with h | h
    · exact .inl (List.mem_filter.mp h)
    · obtain ⟨c, hc, rfl⟩ := List.mem_map.mp h
      exact .inr ⟨c, (List.mem_filter.mp hc).1, rfl, rfl⟩

theorem mem_syncOutput_of_mem {o : OutputColumn} (ho : o ∈ output)
    (hc : t.hasColumn o.column = true) : o ∈ t.syncOutput output := by
  have hkept : o ∈ output.filter fun o => t.hasColumn o.column := List.mem_filter.mpr ⟨ho, hc⟩
  unfold syncOutput
  dsimp only
  split
  · exact hkept
  · exact List.mem_append_left _ hkept

theorem columns_syncOutput_perm (hn : t.columnIds.Nodup)
    (ho : (output.map OutputColumn.column).Nodup) :
    ((t.syncOutput output).map OutputColumn.column).Perm t.columnIds := by
  have hkept : ((output.filter fun o => t.hasColumn o.column).map OutputColumn.column).Nodup :=
    ho.sublist (List.filter_sublist.map _)
  have hsub : (output.filter fun o => t.hasColumn o.column).map OutputColumn.column ⊆
      t.columnIds := by
    intro id hid
    obtain ⟨o, hmem, rfl⟩ := List.mem_map.mp hid
    exact hasColumn_iff.mp (List.mem_filter.mp hmem).2
  unfold syncOutput
  dsimp only
  split
  · next hlength =>
    -- As many different columns as the table has are all of them.
    refine (List.subperm_of_subset hkept hsub).perm_of_length_le ?_
    rw [List.length_map, hlength, columnIds, List.length_map]
  · rw [List.map_append, List.map_map]
    refine (List.perm_ext_iff_of_nodup ?_ hn).mpr fun id => ?_
    · refine hkept.append (hn.sublist (List.filter_sublist.map _)) ?_
      intro id hid hmissing
      obtain ⟨c, hc, rfl⟩ := List.mem_map.mp hmissing
      have hnot := (List.mem_filter.mp hc).2
      rw [Bool.not_eq_true', ← Bool.not_eq_true, List.contains_iff_mem] at hnot
      exact hnot hid
    · rw [List.mem_append]
      constructor
      · rintro (hid | hid)
        · exact hsub hid
        · obtain ⟨c, hc, rfl⟩ := List.mem_map.mp hid
          exact List.mem_map_of_mem (List.mem_filter.mp hc).1
      · intro hid
        by_cases hlisted : id ∈ (output.filter fun o => t.hasColumn o.column).map
            OutputColumn.column
        · exact .inl hlisted
        · obtain ⟨c, hc, rfl⟩ := List.mem_map.mp hid
          refine .inr (List.mem_map.mpr ⟨c, List.mem_filter.mpr ⟨hc, ?_⟩, rfl⟩)
          simpa using hlisted

/-- What a table makes of an output with each column of another one: it has these columns, and
those that were listed with their aggregates. -/
theorem validateOutput_syncOutput_iff (hn : u.columnIds.Nodup)
    (ho : (output.map OutputColumn.column).Nodup) :
    t.validateOutput [] (u.syncOutput output) = .ok () ↔
      (∀ c ∈ u.columns, t.hasColumn c.id = true) ∧
        ∀ o ∈ output, u.hasColumn o.column = true →
          ∃ c, t.column? o.column = some c ∧ c.supportsAggregate o.aggregate = true := by
  have hperm := columns_syncOutput_perm hn ho
  rw [validateOutput_eq_ok_iff]
  constructor
  · rintro ⟨-, -, hcolumns⟩
    refine ⟨fun c hc => ?_, fun o hmem hc => hcolumns o (mem_syncOutput_of_mem hmem hc)⟩
    obtain ⟨o, hmem, hid⟩ := List.mem_map.mp (hperm.mem_iff.mpr (List.mem_map_of_mem hc))
    obtain ⟨c', hc', -⟩ := hcolumns o hmem
    rw [← hid, hasColumn, hc']
    rfl
  · rintro ⟨hcolumns, hlisted⟩
    refine ⟨hperm.nodup_iff.mpr hn, by simp, fun o hmem => ?_⟩
    rcases mem_syncOutput hmem with ⟨hmem, hc⟩ | ⟨c, hc, hid, haggregate⟩
    · exact hlisted o hmem hc
    · obtain ⟨c', hc'⟩ := exists_column?_of_hasColumn (hcolumns c hc)
      exact ⟨c', hid ▸ hc', haggregate ▸ supportsAggregate_none c'⟩

theorem syncOutput_ne_nil (hn : t.columnIds.Nodup) (ho : (output.map OutputColumn.column).Nodup)
    (ht : t.columns ≠ []) : t.syncOutput output ≠ [] := by
  intro hnil
  have hperm := columns_syncOutput_perm hn ho
  rw [hnil] at hperm
  simpa [columnIds] using ht (by simpa [columnIds] using hperm.symm)

end Table

/-! ## Filters read back -/

/-- A value that is read back is accepted by the same columns. -/
theorem Column.accepts_of_reread? {c : Column} {v w : Value} (h : v.reread? = some w) :
    c.accepts v = c.accepts w := by
  cases v with
  | double x =>
    obtain ⟨y, -, rfl⟩ := Option.map_eq_some_iff.mp h
    rfl
  | _ => rw [Option.some.inj h]

namespace Table

variable {t : Table}

theorem validateCondition_of_reread? {c c' : Condition} (h : c.reread? = some c') :
    t.validateCondition c = .ok () ↔ t.validateCondition c' = .ok () := by
  obtain ⟨values, hvalues, rfl⟩ := Option.map_eq_some_iff.mp h
  have hpairs := mapM_eq_some_iff.mp hvalues
  rw [validateCondition_eq_ok_iff, validateCondition_eq_ok_iff, hpairs.length_eq]
  refine exists_congr fun column => exists_congr fun op => and_congr_right fun _ =>
    and_congr_right fun _ => and_congr_right fun _ => ?_
  exact forall_mem_iff_of_forall₂ hpairs fun v w hvw => by rw [Column.accepts_of_reread? hvw]

/-- A saved filter and output are read back with the same output, and a table accepts the filter
that is read back if it accepts the one that was saved. -/
theorem validateFilter_of_decode? {b b' : Template.Body}
    (h : Template.Body.decode? b.encode = some b') : b'.output = b.output ∧
      (t.validateFilter b.filter = .ok () ↔ t.validateFilter b'.filter = .ok ()) := by
  rw [Template.Body.decode?_encode] at h
  obtain ⟨filter, hfilter, rfl⟩ := Option.map_eq_some_iff.mp h
  refine ⟨rfl, ?_⟩
  rw [validateFilter_eq_ok_iff, validateFilter_eq_ok_iff]
  exact forall_mem_iff_of_forall₂ (mapM_eq_some_iff.mp hfilter) fun c c' hc =>
    validateCondition_of_reread? hc

end Table

end TableQuery
