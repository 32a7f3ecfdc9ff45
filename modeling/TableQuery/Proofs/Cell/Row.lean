import TableQuery.Proofs.Lists
import TableQuery.Proofs.Run
import TableQuery.Query.Find

/-!
# Cells of rows

Where the cell of a column in a row of an answer comes from.

## Main definitions

* `Table.cellOf` — the cell of a column of a stored row.
* `StoredRow.shown?` — the value that a stored row shows in a column.

## Main results

* `Table.cells_eq_ok_iff`, `Table.rows_eq_ok_iff` — cells and rows are made one by one.
* `Table.value?_onlyCells_of_row` — the value of a stored column in a row of an answer.
-/

namespace TableQuery

namespace TableRow

/-- Of the cells asked for, the last one of each column is kept. -/
theorem cell?_onlyCells (row : TableRow) (requested : List String) (id : String) :
    (row.onlyCells requested).cell? id =
      if id ∈ requested then row.cells.reverse.find? fun cell => cell.column == id else none := by
  unfold onlyCells cell?
  induction requested with
  | nil => rfl
  | cons first requested ih =>
    simp only [List.filterMap_cons] at ih ⊢
    by_cases hid : first = id
    · subst hid
      cases hf : row.cells.reverse.find? fun cell => cell.column == first with
      | none => simpa [hf] using ih
      | some cell =>
        have hc : cell.column = first := by simpa using List.find?_some hf
        simp [hc]
    · have hne : id ≠ first := fun h => hid h.symm
      cases hf : row.cells.reverse.find? fun cell => cell.column == first with
      | none => simpa [hne] using ih
      | some cell =>
        have hc : cell.column = first := by simpa using List.find?_some hf
        simpa [hc, hid, hne] using ih

/-- Where all columns asked for have cells, one cell of each is kept, in their order. -/
theorem map_column_onlyCells {row : TableRow} {requested : List String}
    (h : requested ⊆ row.cells.map Cell.column) :
    (row.onlyCells requested).cells.map Cell.column = requested := by
  unfold onlyCells
  dsimp only
  induction requested with
  | nil => rfl
  | cons id requested ih =>
    rw [List.cons_subset] at h
    obtain ⟨cell, hcell, hid⟩ := List.mem_map.mp h.1
    cases hfind : row.cells.reverse.find? fun cell => cell.column == id with
    | none =>
      have hnone := List.find?_eq_none.mp hfind cell (List.mem_reverse.mpr hcell)
      exact absurd (by simpa using hid) hnone
    | some found =>
      have hfound : found.column = id := by simpa using List.find?_some hfind
      simp only [List.filterMap_cons, hfind, List.map_cons]
      rw [hfound, ih h.2]

end TableRow

def StoredRow.shown? (options : OptionLists) (row : StoredRow) (c : Column) : Option Value :=
  match row with
  | typed row => (row.cells.reverse.find? fun cell => cell.column == c.id).map Cell.value
  | row => (row.get? c).bind fun raw => (c.typed options raw).toOption

namespace Table

variable {t : Table} {options : OptionLists} {stored : StoredRow}

/-- The value of a cell: what the column shows for the raw value, or for null without one. -/
def cellValue (options : OptionLists) (c : Column) (raw : Option Raw) : Except QueryError Value :=
  raw.elim (.ok c.emptyValue) (c.typed options)

theorem cell_eq_ok_iff {c : Column} {raw : Option Raw} {cell : Cell} :
    c.cell options raw = .ok cell ↔ ∃ value, cellValue options c raw = .ok value ∧
      cell = ⟨c.id, value, c.parts value, c.link, raw.bind fun raw => c.address? raw value,
        if raw.isSome ∧ c.href.isSome then c.hrefStyle else none⟩ := by
  cases raw <;>
    simp only [Column.cell, cellValue, Option.elim, Except.bind_eq_ok_iff, Except.pure_eq_ok,
      Except.ok.injEq] <;>
    constructor <;> rintro ⟨value, hv, rfl⟩ <;> exact ⟨value, hv, rfl⟩

def cellOf (options : OptionLists) (stored : StoredRow) (c : Column) : Except QueryError Cell := do
  c.cell options (← source stored c)

theorem column_of_cellOf {c : Column} {cell : Cell} (h : cellOf options stored c = .ok cell) :
    cell.column = c.id := by
  simp only [cellOf, Except.bind_eq_ok_iff, cell_eq_ok_iff] at h
  obtain ⟨raw, -, value, -, rfl⟩ := h
  rfl

/-- The cell of a stored column shows the raw value that the row provides. -/
theorem exists_of_cellOf {c : Column} {cell : Cell} (hlink : c.outboundLink? = none)
    (h : cellOf options stored c = .ok cell) :
    ∃ raw, stored.get? c = some raw ∧ c.typed options raw = .ok cell.value := by
  have hout : c.isOutbound = false := by simp [Column.isOutbound, hlink]
  simp only [cellOf, source, hout, Bool.false_eq_true, if_false] at h
  cases hget : stored.get? c with
  | none => simp [hget, Except.bind_eq_ok_iff] at h
  | some raw =>
    simp only [hget, Except.ok_bind, cell_eq_ok_iff, cellValue, Option.elim] at h
    obtain ⟨value, hv, rfl⟩ := h
    exact ⟨raw, rfl, hv⟩

theorem cells_eq_ok_iff {ids : List String} {cells : List (Column × Cell)} :
    t.cells options stored ids = .ok cells ↔
      List.Forall₂ (fun id p => t.column? id = some p.1 ∧ cellOf options stored p.1 = .ok p.2)
        ids cells := by
  induction ids generalizing cells with
  | nil => simp [Table.cells, eq_comm]
  | cons id ids ih =>
    simp only [Table.cells, Except.bind_eq_ok_iff, column_eq_ok_iff, ih, List.forall₂_cons_left_iff,
      Except.pure_eq_ok, Except.ok.injEq, cellOf]
    constructor
    · rintro ⟨c, hc, raw, hr, cell, hcell, rest, hrest, rfl⟩
      exact ⟨(c, cell), rest, ⟨hc, raw, hr, hcell⟩, hrest, rfl⟩
    · rintro ⟨⟨c, cell⟩, rest, ⟨hc, raw, hr, hcell⟩, hrest, rfl⟩
      exact ⟨c, hc, raw, hr, cell, hcell, rest, hrest, rfl⟩

theorem rows_eq_ok_iff {output : List String} {rows : List StoredRow} {shown : List TableRow} :
    t.rows options output rows = .ok shown ↔
      List.Forall₂ (fun stored row => t.row options stored output = .ok row) rows shown := by
  induction rows generalizing shown with
  | nil => simp [Table.rows, eq_comm]
  | cons stored rows ih =>
    simp only [Table.rows, Except.bind_eq_ok_iff, ih, List.forall₂_cons_left_iff,
      Except.pure_eq_ok, Except.ok.injEq]
    constructor
    · rintro ⟨row, hr, rest, hrest, rfl⟩
      exact ⟨row, rest, hr, hrest, rfl⟩
    · rintro ⟨row, rest, hr, hrest, rfl⟩
      exact ⟨row, hr, rest, hrest, rfl⟩

/-- A row comes from a stored row, and not from an answer if there is none among them. -/
theorem exists_stored_of_rows {output : List String} {rows : List StoredRow}
    {shown : List TableRow} {row : TableRow} (h : t.rows options output rows = .ok shown)
    (htyped : ∀ r, .typed r ∉ rows) (hrow : row ∈ shown) :
    ∃ stored, (∀ r, stored ≠ .typed r) ∧ t.row options stored output = .ok row := by
  obtain ⟨stored, hmem, hshown⟩ := forall₂_exists_left (rows_eq_ok_iff.mp h) hrow
  refine ⟨stored, ?_, hshown⟩
  rintro r rfl
  exact htyped r hmem

/-- The text of the key among cells, empty if it has no cell. -/
def shownId (cells : List (Column × Cell)) : String :=
  ((cells.filter fun p => p.1.isKey).getLast?.map fun p => p.2.value.display).getD ""

/-- A row that is not an answer already is made of its cells and its id. -/
theorem exists_of_row {output : List String} {row : TableRow}
    (h : t.row options stored output = .ok row) (hs : ∀ r, stored ≠ .typed r) :
    ∃ cells id, t.cells options stored output = .ok cells ∧
      (if shownId cells = "" then t.missingId options stored else .ok (shownId cells)) = .ok id ∧
      row = ⟨id, cells.map Prod.snd, []⟩ := by
  cases stored with
  | typed r => exact absurd rfl (hs r)
  | keyed values | record fields =>
    simp only [Table.row, Except.bind_eq_ok_iff] at h
    obtain ⟨cells, hcells, h⟩ := h
    rw [← shownId] at h
    split at h <;>
      simp only [Except.bind_eq_ok_iff, Except.pure_eq_ok, Except.ok.injEq] at h <;>
      obtain ⟨id, hid, rfl⟩ := h
    · next hempty => exact ⟨cells, id, hcells, by rw [if_pos hempty, hid], rfl⟩
    · next hne => exact ⟨cells, id, hcells, by rw [if_neg hne, hid], rfl⟩

theorem cells_of_row {output : List String} {row : TableRow}
    (h : t.row options stored output = .ok row) (hs : ∀ r, stored ≠ .typed r) :
    ∃ cells, t.cells options stored output = .ok cells ∧ row.cells = cells.map Prod.snd := by
  obtain ⟨cells, id, hcells, -, rfl⟩ := exists_of_row h hs
  exact ⟨cells, hcells, rfl⟩

theorem map_column_of_row {output : List String} {row : TableRow}
    (h : t.row options stored output = .ok row) (hs : ∀ r, stored ≠ .typed r) :
    row.cells.map Cell.column = output := by
  obtain ⟨cells, hcells, hrow⟩ := cells_of_row h hs
  rw [cells_eq_ok_iff] at hcells
  rw [hrow, List.map_map, eq_comm, ← List.forall₂_eq_eq_eq, List.forall₂_map_right_iff]
  refine hcells.imp fun id p hp => ?_
  rw [Function.comp_apply, column_of_cellOf hp.2, column?_id hp.1]

/-- The last cell of a column is the cell of the column. -/
theorem find?_reverse_cells {ids : List String} {cells : List (Column × Cell)} {id : String}
    (h : t.cells options stored ids = .ok cells) (hid : id ∈ ids) :
    ∃ c cell, t.column? id = some c ∧ cellOf options stored c = .ok cell ∧
      (cells.map Prod.snd).reverse.find? (fun cell => cell.column == id) = some cell := by
  rw [cells_eq_ok_iff] at h
  -- Every cell of the column is the same.
  have hall : ∀ p ∈ cells, p.2.column = id →
      t.column? id = some p.1 ∧ cellOf options stored p.1 = .ok p.2 := by
    intro p hp hpid
    obtain ⟨id', -, hcol, hcell⟩ := forall₂_exists_left h hp
    have hid' : id' = id := by rw [← column?_id hcol, ← column_of_cellOf hcell, hpid]
    exact ⟨hid' ▸ hcol, hcell⟩
  obtain ⟨p, hp, hcol, hcell⟩ := forall₂_exists_right h hid
  have hpid : p.2.column = id := by rw [column_of_cellOf hcell, column?_id hcol]
  cases hf : (cells.map Prod.snd).reverse.find? (fun cell => cell.column == id) with
  | none =>
    have hnone := List.find?_eq_none.mp hf p.2 (by simpa using ⟨p.1, hp⟩)
    exact absurd (by simpa using hpid) hnone
  | some cell =>
    have hmem := List.mem_of_find?_eq_some hf
    have hcid : cell.column = id := by simpa using List.find?_some hf
    simp only [List.mem_reverse, List.mem_map] at hmem
    obtain ⟨q, hq, rfl⟩ := hmem
    obtain ⟨hqc, hqcell⟩ := hall q hq hcid
    exact ⟨q.1, q.2, hqc, hqcell, rfl⟩

/-- The value that an answer shows in a stored column is the value of the column in the row that
the driver gave. -/
theorem value?_onlyCells_of_row {output requested : List String} {row : TableRow} {c : Column}
    (h : t.row options stored output = .ok row) (hc : t.column? c.id = some c)
    (hlink : c.outboundLink? = none) (hid : c.id ∈ requested)
    (hsub : c.id ∈ output) :
    (row.onlyCells requested).value? c.id = stored.shown? options c := by
  unfold TableRow.value?
  rw [TableRow.cell?_onlyCells, if_pos hid]
  by_cases hs : ∃ r, stored = .typed r
  · obtain ⟨r, rfl⟩ := hs
    cases h
    rfl
  · have hs' : ∀ r, stored ≠ .typed r := fun r hr => hs ⟨r, hr⟩
    obtain ⟨cells, hcells, hrow⟩ := cells_of_row h hs'
    obtain ⟨c', cell, hc', hcell, hfind⟩ := find?_reverse_cells hcells hsub
    obtain rfl : c' = c := Option.some.inj (hc'.symm.trans hc)
    rw [hrow, hfind]
    obtain ⟨raw, hget, hv⟩ := exists_of_cellOf hlink hcell
    cases stored with
    | typed r => exact absurd rfl (hs' r)
    | keyed values | record fields => simp [StoredRow.shown?, hget, hv, Except.toOption]

end Table

end TableQuery
