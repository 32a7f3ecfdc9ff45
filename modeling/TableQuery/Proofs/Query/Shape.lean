import TableQuery.Proofs.Query.Filling
import TableQuery.Proofs.Query.Frame
import TableQuery.Proofs.Registry.Keys

/-!
# The shape of an answer

More columns are fetched than are asked for: the local columns of links, the key and the columns of
conditions. An answer shows none of them. It has a row for each row of the driver, in the order of
the driver, with one cell for each visible column in the order of the template, and the id of a row
is the text of its key, whether or not the key was asked for.

## Main definitions

* `Table.Shaped` — a row of an answer and the row of the driver that it comes from.

## Main results

* `Engine.findRows_shape` — the rows of an answer.
-/

namespace TableQuery

namespace Table

variable {t : Table} {options : OptionLists} {stored : StoredRow} {row : TableRow} {key : Column}

theorem nodup_of_validateOutput {seen : List String} {output : List OutputColumn}
    (h : t.validateOutput seen output = .ok ()) :
    (output.map OutputColumn.column).Nodup ∧ ∀ o ∈ output, o.column ∉ seen := by
  induction output generalizing seen with
  | nil => simp
  | cons first output ih =>
    unfold validateOutput at h
    split at h
    · cases h
    · next hseen =>
      obtain ⟨c, -, h⟩ := Except.bind_eq_ok_iff.mp h
      split at h
      · obtain ⟨hnodup, hrest⟩ := ih h
        constructor
        · rw [List.map_cons, List.nodup_cons]
          refine ⟨?_, hnodup⟩
          intro hmem
          obtain ⟨o, ho, heq⟩ := List.mem_map.mp hmem
          exact hrest o ho (heq ▸ List.mem_cons_self)
        · intro o ho hin
          rcases List.mem_cons.mp ho with rfl | ho
          · exact hseen (by simpa using hin)
          · exact hrest o ho (List.mem_cons_of_mem _ hin)
      · cases h

/-- The output columns of a template that fits its table are different. -/
theorem nodup_of_validate {template : Template} (h : t.validate template = .ok ()) :
    template.outputIds.Nodup :=
  (nodup_of_validateOutput (validate_eq_ok_iff.mp h).2.2).1

theorem key_mem_fetchColumns (output : List String) (conditions : List RawCondition) :
    t.key ∈ t.fetchColumns output conditions := by
  simp [fetchColumns, mem_firstOfEach]

/-- The text of the key among cells is that of the key column, if no other column is marked as
key. -/
theorem shownId_of_key {output : List String} {cells : List (Column × Cell)}
    (hkey : t.keyColumn? = some key) (honly : ∀ c ∈ t.columns, c.isKey = true → c = key)
    (hmem : t.key ∈ output) (hcells : t.cells options stored output = .ok cells) :
    ∃ cell, cellOf options stored key = .ok cell ∧
      shownId cells = if key.isKey then cell.value.display else "" := by
  rw [cells_eq_ok_iff] at hcells
  obtain ⟨p, hp, hcol, hcell⟩ := forall₂_exists_right hcells hmem
  obtain rfl : key = p.1 := Option.some.inj (hkey.symm.trans hcol)
  refine ⟨p.2, hcell, ?_⟩
  have hall : ∀ q ∈ cells, q.1.isKey = true → q.1 = p.1 ∧ q.2 = p.2 := by
    intro q hq hiskey
    obtain ⟨id, -, hqcol, hqcell⟩ := forall₂_exists_left hcells hq
    have heq := honly q.1 (mem_of_column? hqcol) hiskey
    rw [heq] at hqcell
    exact ⟨heq, Except.ok.inj (hqcell.symm.trans hcell)⟩
  unfold shownId
  cases hlast : (cells.filter fun q => q.1.isKey).getLast? with
  | none =>
    rw [List.getLast?_eq_none_iff, List.filter_eq_nil_iff] at hlast
    rw [if_neg (hlast p hp)]
    rfl
  | some last =>
    obtain ⟨hmem, hiskey⟩ := List.mem_filter.mp (List.mem_of_getLast? hlast)
    obtain ⟨hcolumn, hvalue⟩ := hall last hmem hiskey
    rw [if_pos (hcolumn ▸ hiskey), ← hvalue]
    rfl

/-- The id of a row is the text of its key, if the key is a stored column and no other column is
marked as key. -/
theorem id_of_row {output : List String} (hkey : t.keyColumn? = some key)
    (honly : ∀ c ∈ t.columns, c.isKey = true → c = key) (hlink : key.outboundLink? = none)
    (hmem : t.key ∈ output) (h : t.row options stored output = .ok row)
    (hs : ∀ r, stored ≠ .typed r) :
    ∃ raw value, stored.get? key = some raw ∧ key.typed options raw = .ok value ∧
      row.id = value.display := by
  obtain ⟨cells, id, hcells, hid, rfl⟩ := exists_of_row h hs
  obtain ⟨cell, hcell, hshown⟩ := shownId_of_key hkey honly hmem hcells
  obtain ⟨raw, hraw, hvalue⟩ := exists_of_cellOf hlink hcell
  refine ⟨raw, cell.value, hraw, hvalue, ?_⟩
  split at hid
  · simp only [missingId, hkey, hraw, Option.bind_some, Option.map_some, hvalue,
      Except.map, Except.ok.injEq] at hid
    exact hid.symm
  · next hne =>
    obtain rfl := Except.ok.inj hid
    rw [hshown] at hne ⊢
    split at hne
    · next hiskey => exact if_pos hiskey
    · exact absurd rfl hne

/-- The id of a row does not depend on the columns that were asked for with the key. -/
theorem id_eq_of_row {output output' : List String} {row' : TableRow}
    (hkey : t.keyColumn? = some key) (honly : ∀ c ∈ t.columns, c.isKey = true → c = key)
    (hmem : t.key ∈ output) (hmem' : t.key ∈ output') (hs : ∀ r, stored ≠ .typed r)
    (h : t.row options stored output = .ok row) (h' : t.row options stored output' = .ok row') :
    row.id = row'.id := by
  obtain ⟨cells, id, hcells, hid, rfl⟩ := exists_of_row h hs
  obtain ⟨cells', id', hcells', hid', rfl⟩ := exists_of_row h' hs
  obtain ⟨cell, hcell, hshown⟩ := shownId_of_key hkey honly hmem hcells
  obtain ⟨cell', hcell', hshown'⟩ := shownId_of_key hkey honly hmem' hcells'
  obtain rfl := Except.ok.inj (hcell.symm.trans hcell')
  rw [hshown] at hid
  rw [hshown'] at hid'
  exact Except.ok.inj (hid.symm.trans hid')

/-- How a row of an answer comes from a row of the driver: it has one cell for each column asked
for, in their order, and its id is the text of the key, unless the key is linked. -/
structure Shaped (t : Table) (options : OptionLists) (requested : List String)
    (stored : StoredRow) (shown : TableRow) : Prop where
  map_column_eq : shown.cells.map Cell.column = requested
  id_eq : ∀ key, t.keyColumn? = some key → (∀ c ∈ t.columns, c.isKey = true → c = key) →
    key.outboundLink? = none →
    ∃ raw value, stored.get? key = some raw ∧ key.typed options raw = .ok value ∧
      shown.id = value.display

end Table

namespace Engine

variable {e : Engine} {now : Moment} {session : Session} {find : Template → Run TableRows}
  {t : Table}

/-- The rows of an answer that is made of what the driver answered. -/
theorem shaped_of_answer {f : Fetch} {requested : List String} {fetched : Fetched}
    {answer : TableRows} (hmem : f.table.key ∈ f.output) (hrequested : requested ⊆ f.output)
    (hs : ∀ row, .typed row ∉ fetched.rows)
    (h : (e.answer session find false f requested fetched).result = .ok answer) :
    List.Forall₂ (f.table.Shaped e.options requested) fetched.rows answer.rows := by
  obtain ⟨rows, full, aggregates, final, hrows, hfull, -, hfinal, rfl⟩ := answer_eq_ok_iff.mp h
  rw [Table.rows_eq_ok_iff] at hrows
  have hfilled := filledIn_outbound hfull
  have hoffered := Table.sameCells_of_withOffers (Run.result_ofExcept_eq_ok_iff.mp hfinal)
  rw [List.forall₂_map_left_iff] at hoffered
  have hshown := forall₂_trans hfilled hoffered (T := fun row shown =>
    requested ⊆ row.cells.map Cell.column →
      shown.id = row.id ∧ shown.cells.map Cell.column = requested) ?_
  · refine forall₂_trans hrows hshown ?_
    intro stored hstored row shown hrow hshown
    have htyped : ∀ r, stored ≠ .typed r := by
      rintro r rfl
      exact hs r hstored
    obtain ⟨hid, hcolumns⟩ := hshown (by rwa [Table.map_column_of_row hrow htyped])
    refine ⟨hcolumns, ?_⟩
    intro key hkey honly hlink
    rw [hid]
    exact Table.id_of_row hkey honly hlink hmem hrow htyped
  · rintro row - full shown hfull ⟨hid, hcells⟩ hsub
    rw [← hfull.map_column_eq] at hsub
    refine ⟨hid.trans hfull.id_eq, ?_⟩
    rw [hcells]
    exact TableRow.map_column_onlyCells hsub

/-- An answer has a row for each row of the driver, in the order of the driver. Each of them has
one cell for each visible column, in the order of the template, and no other cell, and its id is the
text of the key, unless the key is linked. Where linked conditions find nothing, the driver is not
asked and there are no rows. In a registry that was set up of tables made of descriptions every
table has a key, and only this column is marked as key. -/
theorem findRows_shape {template : Template} {answer : TableRows}
    (h : (e.findRows now session template).result = .ok answer) :
    ∃ t, e.registry.table? template.table = some t ∧ template.onlyVisible.outputIds.Nodup ∧
      (((∀ conditions, ¬ e.AsksFor now session t template.onlyVisible conditions) ∧
          answer.rows = []) ∨
        ∃ conditions d fetched, e.AsksFor now session t template.onlyVisible conditions ∧
          e.driver t.id = .ok d ∧
          d.fetch now session (t.fetchFor template.onlyVisible conditions) = .fetched fetched ∧
          ((∀ row, .typed row ∉ fetched.rows) →
            List.Forall₂ (t.Shaped e.options template.onlyVisible.outputIds)
              fetched.rows answer.rows)) ∧
      ∀ steps, (∀ u, .register u ∈ steps → u.Compiled) → e.registry = Registry.setUp steps →
        ∃ key, t.keyColumn? = some key ∧ ∀ c ∈ t.columns, c.isKey = true → c = key := by
  obtain ⟨t, ht, hv, h⟩ := find_eq_ok_iff.mp h
  refine ⟨t, ht, Table.nodup_of_validate hv, ?_, ?_⟩
  · rcases h with ⟨hnothing, rfl⟩ | ⟨conditions, d, fetched, hasks, hd, hf, ha⟩
    · exact .inl ⟨hnothing.not_asksFor, rfl⟩
    · refine .inr ⟨conditions, d, fetched, hasks, hd, hf, fun htyped => ?_⟩
      exact shaped_of_answer (Table.key_mem_fetchColumns _ _)
        (fun id hid => Table.mem_fetchColumns_of_mem _ hid) htyped ha
  · intro steps hsteps hr
    have hmem : t ∈ (Registry.setUp steps).tables := hr ▸ List.mem_of_find?_eq_some ht
    obtain ⟨key, hkey, -⟩ := Registry.keyed_of_setUp hsteps t hmem
    refine ⟨key, hkey.keyColumn?_eq, fun c hc hiskey => ?_⟩
    have hmarked : c ∈ t.columns.filter Column.isKey := List.mem_filter.mpr ⟨hc, hiskey⟩
    rwa [hkey.filter_isKey, List.mem_singleton] at hmarked

end Engine

/-! ## The names of the materials of a depot -/

namespace Depot

open Sample (clock visitor)

/-- The names of the materials. Their numbers are hidden and the ids of items are not asked for. -/
def names : Template :=
  .temporary "Stock" ⟨[], [.plain "MatName", ⟨"Mat", false, .none⟩]⟩ .all

/-- Both items are shown in their order with their ids and with nothing but the names. -/
theorem names_shaped : ∃ answer,
    ((engine (.text "2")).findRows clock visitor names).result = .ok answer ∧
      (answer.rows.map fun row => (row.id, row.cells.map Cell.column)) =
        [("S1", ["MatName"]), ("S2", ["MatName"])] ∧
      List.Forall₂ (items.Shaped .empty ["MatName"]) (memory (.text "2") "Stock").rows
        answer.rows := by
  have hshown : (((engine (.text "2")).findRows clock visitor names).result.map fun answer =>
      answer.rows.map fun row => (row.id, row.cells.map Cell.column)) =
        .ok [("S1", ["MatName"]), ("S2", ["MatName"])] := by
    cbv
  obtain ⟨answer, hanswer, hshown⟩ := Except.map_eq_ok_iff.mp hshown
  obtain ⟨t, ht, -, hrows, -⟩ := Engine.findRows_shape hanswer
  obtain rfl : items = t := Option.some.inj ht
  have hasks : (engine (.text "2")).AsksFor clock visitor items names.onlyVisible [] :=
    ⟨[], [], [], rfl, rfl, rfl⟩
  refine ⟨answer, hanswer, hshown, ?_⟩
  rcases hrows with ⟨hnone, -⟩ | ⟨conditions, d, fetched, hc, hd, hfetch, hshaped⟩
  · exact absurd hasks (hnone [])
  · obtain rfl := hc.unique hasks
    obtain rfl : (memory (.text "2") "Stock").driver = d :=
      Option.some.inj (Engine.driver_eq_ok_iff.mp hd)
    have hall : (memory (.text "2") "Stock").driver.fetch clock visitor
        (items.fetchFor names.onlyVisible []) =
        .fetched ⟨(memory (.text "2") "Stock").rows, [], ⟨0, 0, 1, 2⟩⟩ := by
      rfl
    obtain rfl := Reply.fetched.inj (hfetch.symm.trans hall)
    exact hshaped (by simp [memory])

end Depot

end TableQuery
