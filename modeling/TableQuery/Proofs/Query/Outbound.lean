import TableQuery.Proofs.Query.Findings
import TableQuery.Proofs.Query.Frame

/-!
# Cells of linked columns

The cells of linked columns are filled one column after the other. A column changes no cell but its
own, so every lookup sees the local values as they were stored, and all of them succeed exactly if
each of these values can be expressed where it is looked up.

## Main definitions

* `Table.Shows` — a row has the cells of the columns asked for.
* `Engine.Fills` — the cell of a linked column is filled.

## Main results

* `Engine.exists_fillColumns_iff` — which rows can be filled.
* `Engine.filled_of_fillColumns` — every column is filled by its own lookup.
-/

namespace TableQuery

/-! ## Rows with their own cells -/

theorem nodup_firstOfEach (ss : List String) : (firstOfEach ss).Nodup := by
  induction ss with
  | nil => exact List.nodup_nil
  | cons s ss ih =>
    rw [firstOfEach, List.nodup_cons]
    exact ⟨by simp, ih.filter _⟩

namespace TableRow

variable {row : TableRow} {id : String}

theorem exists_cell_of_value? {v : Value} (h : row.value? id = some v) :
    ∃ cell ∈ row.cells, cell.column = id ∧ cell.value = v := by
  obtain ⟨cell, hcell, hv⟩ := Option.map_eq_some_iff.mp h
  exact ⟨cell, List.mem_of_find?_eq_some hcell, by simpa using List.find?_some hcell, hv⟩

theorem exists_cell? (h : id ∈ row.cells.map Cell.column) : ∃ cell, row.cell? id = some cell := by
  obtain ⟨cell, hcell, hid⟩ := List.mem_map.mp h
  rw [← Option.isSome_iff_exists, cell?, List.find?_isSome]
  exact ⟨cell, hcell, by simpa using hid⟩

theorem exists_value? (h : id ∈ row.cells.map Cell.column) : ∃ v, row.value? id = some v := by
  obtain ⟨cell, hcell⟩ := exists_cell? h
  exact ⟨cell.value, by rw [value?, hcell, Option.map_some]⟩

/-- Where every column has one cell, it does not matter from which end it is found. -/
theorem find?_reverse_eq_cell? (hn : (row.cells.map Cell.column).Nodup) (id : String) :
    row.cells.reverse.find? (fun cell => cell.column == id) = row.cell? id := by
  have hn' : (row.cells.reverse.map Cell.column).Nodup := by
    rwa [List.map_reverse, List.nodup_reverse]
  ext cell
  rw [cell?, find?_key_eq_some_iff hn, find?_key_eq_some_iff hn', List.mem_reverse]

theorem cell?_onlyCells_of_mem (hn : (row.cells.map Cell.column).Nodup) {requested : List String}
    (hid : id ∈ requested) : (row.onlyCells requested).cell? id = row.cell? id := by
  rw [cell?_onlyCells, if_pos hid, find?_reverse_eq_cell? hn]

theorem value?_onlyCells (hn : (row.cells.map Cell.column).Nodup) {requested : List String}
    (hid : id ∈ requested) : (row.onlyCells requested).value? id = row.value? id :=
  congrArg (Option.map Cell.value) (cell?_onlyCells_of_mem hn hid)

end TableRow

namespace Table

variable {t : Table}

/-- A row has a cell of each column asked for, each column has one cell, and the values are of the
types of their columns. -/
structure Shows (t : Table) (output : List String) (row : TableRow) : Prop where
  nodup : (row.cells.map Cell.column).Nodup
  subset : output ⊆ row.cells.map Cell.column
  type?_eq : ∀ cell ∈ row.cells, ∀ c, t.column? cell.column = some c → cell.value.isNull = false →
    cell.value.type? = some c.type

theorem type?_of_cellOf {options : OptionLists} {stored : StoredRow} {c : Column} {cell : Cell}
    (h : cellOf options stored c = .ok cell) : cell.value.type? = some c.type := by
  obtain ⟨raw, -, h⟩ := Except.bind_eq_ok_iff.mp h
  obtain ⟨value, hvalue, rfl⟩ := cell_eq_ok_iff.mp h
  cases raw with
  | none =>
    cases hvalue
    exact c.type?_emptyValue
  | some raw => exact Column.type?_of_typed hvalue

/-- A stored row is shown with the cells asked for. -/
theorem shows_of_row {options : OptionLists} {stored : StoredRow} {output : List String}
    {row : TableRow} (h : t.row options stored output = .ok row) (hs : ∀ r, stored ≠ .typed r)
    (hn : output.Nodup) : t.Shows output row := by
  have hcolumns := map_column_of_row h hs
  obtain ⟨cells, hcells, hrow⟩ := cells_of_row h hs
  rw [cells_eq_ok_iff] at hcells
  refine ⟨hcolumns ▸ hn, hcolumns ▸ List.Subset.refl _, fun cell hcell c hc _ => ?_⟩
  rw [hrow] at hcell
  obtain ⟨p, hp, rfl⟩ := List.mem_map.mp hcell
  obtain ⟨id, -, hcol, hcellOf⟩ := forall₂_exists_left hcells hp
  rw [column_of_cellOf hcellOf, column?_id hcol, hcol] at hc
  obtain rfl := Option.some.inj hc
  exact type?_of_cellOf hcellOf

/-- The values of a column that are looked up have its type. -/
theorem uniform_of_shows {output : List String} {rows : List TableRow}
    (h : ∀ row ∈ rows, t.Shows output row) {l : Link} {here : Column}
    (hhere : t.column? l.localColumn = some here) : l.Uniform rows := by
  refine ⟨here.type, fun row hrow v hv => ?_⟩
  obtain ⟨hvalue, hnull⟩ := Option.filter_eq_some_iff.mp hv
  obtain ⟨cell, hcell, hcolumn, rfl⟩ := TableRow.exists_cell_of_value? hvalue
  exact (h row hrow).type?_eq cell hcell here (hcolumn ▸ hhere) (by simpa using hnull)

end Table

namespace Engine

variable {e : Engine} {find : Template → Run TableRows} {c : Column} {l : Link} {found : Findings}
  {row : TableRow} {rows : List TableRow}

/-! ## One column -/

section SetCell

variable {column id : String} {value : Value} {cells : List Cell}

theorem find?_setCell_of_ne (h : id ≠ column) :
    (setCell column value cells).find? (fun cell => cell.column == id) =
      cells.find? fun cell => cell.column == id := by
  induction cells with
  | nil => rfl
  | cons cell cells ih =>
    unfold setCell
    split
    · next heq => simp [heq, h.symm]
    · simp [List.find?_cons, ih]

/-- The first cell of the column takes the value. -/
theorem find?_setCell :
    (setCell column value cells).find? (fun cell => cell.column == column) =
      (cells.find? fun cell => cell.column == column).map fun cell =>
        { cell with value, values := [value] } := by
  induction cells with
  | nil => rfl
  | cons cell cells ih =>
    unfold setCell
    split
    · next heq => simp [heq]
    · next hne => simpa [List.find?_cons, hne] using ih

end SetCell

/-- The cell of the column shows what was found for the local value, or the value for null. -/
theorem cell?_fillRow :
    (fillRow c l found row).cell? c.id = (row.cell? c.id).map fun cell =>
      let value :=
        ((row.value? l.localColumn).bind fun v => found.lookup v.display).getD c.emptyValue
      { cell with value, values := [value] } :=
  find?_setCell

/-- Filling a column leaves the cells of the others as they are. -/
theorem cell?_fillRow_of_ne {id : String} (h : id ≠ c.id) :
    (fillRow c l found row).cell? id = row.cell? id :=
  find?_setCell_of_ne h

theorem value?_fillRow_of_ne {id : String} (h : id ≠ c.id) :
    (fillRow c l found row).value? id = row.value? id :=
  congrArg (Option.map Cell.value) (cell?_fillRow_of_ne h)

theorem sought?_fillRow {k : Link} (h : c.id ≠ k.localColumn) :
    k.sought? (fillRow c l found row) = k.sought? row := by
  rw [Link.sought?, Link.sought?, value?_fillRow_of_ne h.symm]

theorem uniform_map_fillRow {k : Link} (h : c.id ≠ k.localColumn) :
    k.Uniform (rows.map (fillRow c l found)) ↔ k.Uniform rows := by
  simp only [Link.Uniform, List.forall_mem_map, sought?_fillRow h]

theorem expressible_map_fillRow {k : Link} (h : c.id ≠ k.localColumn) :
    e.Expressible k (rows.map (fillRow c l found)) ↔ e.Expressible k rows := by
  simp only [Expressible, List.forall_mem_map, sought?_fillRow h]

/-- The cell of a linked column is filled with what a row of the other table says about the text
of the local value, or as for null. -/
def Fills (find : Template → Run TableRows) (c : Column) (l : Link) (row full : TableRow) : Prop :=
  ∃ w, full.value? c.id = some w ∧
    (w = c.emptyValue ∨ ∃ v, row.value? l.localColumn = some v ∧ Tells find l v.display w)

theorem fills_of_lookup {full : TableRow} (h : (e.lookup find l rows).result = .ok found)
    (hcell : c.id ∈ row.cells.map Cell.column)
    (hfull : full.cell? c.id = (fillRow c l found row).cell? c.id) :
    Fills find c l row full := by
  obtain ⟨cell, hcell⟩ := TableRow.exists_cell? hcell
  rw [Fills, TableRow.value?, hfull, cell?_fillRow, hcell]
  refine ⟨_, rfl, ?_⟩
  dsimp only
  cases hw : (row.value? l.localColumn).bind fun v => found.lookup v.display with
  | none => exact .inl rfl
  | some w =>
    obtain ⟨v, hv, hw⟩ := Option.bind_eq_some_iff.mp hw
    exact .inr ⟨v, hv, tells_of_lookup h hw⟩

/-! ## All columns -/

/-- Where no local column is filled itself, rows can be filled exactly if each of their lookups
succeeds on its own. -/
theorem exists_fillColumns_iff {linked : List (Column × Link)}
    (hlocal : ∀ p ∈ linked, ∀ q ∈ linked, q.1.id ≠ p.2.localColumn)
    (hlookup : ∀ p ∈ linked, ∀ rows, p.2.Uniform rows →
      ((∃ found, (e.lookup find p.2 rows).result = .ok found) ↔ e.Expressible p.2 rows))
    (hu : ∀ p ∈ linked, p.2.Uniform rows) :
    (∃ filled, (e.fillColumns find linked rows).result = .ok filled) ↔
      ∀ p ∈ linked, e.Expressible p.2 rows := by
  induction linked generalizing rows with
  | nil => simp [fillColumns]
  | cons p linked ih =>
    have hrest (found : Findings) :
        (∃ filled, (e.fillColumns find linked (rows.map (fillRow p.1 p.2 found))).result =
          .ok filled) ↔ ∀ q ∈ linked, e.Expressible q.2 rows := by
      have hne : ∀ q ∈ linked, p.1.id ≠ q.2.localColumn := fun q hq =>
        hlocal q (List.mem_cons_of_mem _ hq) p List.mem_cons_self
      rw [ih
        (fun q hq q' hq' => hlocal q (List.mem_cons_of_mem _ hq) q' (List.mem_cons_of_mem _ hq'))
        (fun q hq => hlookup q (List.mem_cons_of_mem _ hq))
        (fun q hq => (uniform_map_fillRow (hne q hq)).mpr (hu q (List.mem_cons_of_mem _ hq)))]
      exact forall₂_congr fun q hq => expressible_map_fillRow (hne q hq)
    rw [List.forall_mem_cons, ← hlookup p List.mem_cons_self rows (hu p List.mem_cons_self)]
    simp only [fillColumns, Run.result_bind_eq_ok_iff]
    constructor
    · rintro ⟨filled, found, hfound, h⟩
      exact ⟨⟨found, hfound⟩, (hrest found).mp ⟨filled, h⟩⟩
    · rintro ⟨⟨found, hfound⟩, h⟩
      obtain ⟨filled, hfilled⟩ := (hrest found).mpr h
      exact ⟨filled, found, hfound, hfilled⟩

/-- Every column is filled by its own lookup of the local values as they were, if no column is
filled twice and its local column is not filled. -/
theorem filled_of_mem {linked : List (Column × Link)} {filled : List TableRow}
    {p : Column × Link} (hp : p ∈ linked)
    (hn : (linked.map fun q => q.1.id).Nodup) (hlocal : ∀ q ∈ linked, q.1.id ≠ p.2.localColumn)
    (h : (e.fillColumns find linked rows).result = .ok filled) :
    ∃ found, (e.lookup find p.2 rows).result = .ok found ∧
      List.Forall₂ (fun row full => full.cell? p.1.id = (fillRow p.1 p.2 found row).cell? p.1.id)
        rows filled := by
  induction linked generalizing rows with
  | nil => cases hp
  | cons q linked ih =>
    rw [List.map_cons, List.nodup_cons] at hn
    rw [List.forall_mem_cons] at hlocal
    simp only [fillColumns, Run.result_bind_eq_ok_iff] at h
    obtain ⟨found, hfound, h⟩ := h
    rcases List.mem_cons.mp hp with rfl | hp
    · -- The columns behind are other columns, so the cell stays as it is filled here.
      have hrest : List.Forall₂ (TableRow.FilledIn fun id => id ≠ p.1.id)
          (rows.map (fillRow p.1 p.2 found)) filled :=
        filledIn_fillColumns (fun q hq hid => hn.1 (List.mem_map.mpr ⟨q, hq, hid⟩)) h
      rw [List.forall₂_map_left_iff] at hrest
      exact ⟨found, hfound, hrest.imp fun row full hfull => hfull.cell?_eq (not_not.mpr rfl)⟩
    · obtain ⟨found', hfound', hrest⟩ := ih hp hn.2 hlocal.2 h
      rw [lookup_map fun row => value?_fillRow_of_ne hlocal.1.symm] at hfound'
      rw [List.forall₂_map_left_iff] at hrest
      refine ⟨found', hfound', hrest.imp fun row full hfull => ?_⟩
      have hne : p.1.id ≠ q.1.id := fun hid => hn.1 (List.mem_map.mpr ⟨p, hp, hid⟩)
      rw [hfull, cell?_fillRow, cell?_fillRow, cell?_fillRow_of_ne hne,
        value?_fillRow_of_ne hlocal.1.symm]

theorem filled_of_fillColumns {linked : List (Column × Link)} {filled : List TableRow}
    (hn : (linked.map fun q => q.1.id).Nodup)
    (h : (e.fillColumns find linked rows).result = .ok filled) :
    List.Forall₂ (fun row full => full.cells.map Cell.column = row.cells.map Cell.column ∧
        ∀ p ∈ linked, (∀ q ∈ linked, q.1.id ≠ p.2.localColumn) →
          ∃ found, (e.lookup find p.2 rows).result = .ok found ∧
            full.cell? p.1.id = (fillRow p.1 p.2 found row).cell? p.1.id)
      rows filled := by
  have hframe : List.Forall₂ (TableRow.FilledIn fun _ => True) rows filled :=
    filledIn_fillColumns (fun _ _ => trivial) h
  rw [List.forall₂_iff_zip] at hframe ⊢
  refine ⟨hframe.1, fun hmem => ⟨(hframe.2 hmem).map_column_eq, fun p hp hlocal => ?_⟩⟩
  obtain ⟨found, hfound, hcells⟩ := filled_of_mem hp hn hlocal h
  exact ⟨found, hfound, (List.forall₂_iff_zip.mp hcells).2 hmem⟩

end Engine

end TableQuery
