import TableQuery.Proofs.Lists
import TableQuery.Proofs.Registry.Registered
import TableQuery.Proofs.Run
import TableQuery.Query.Outbound

/-!
# What filling leaves as it is

Linked cells are filled in place, one column after the other. Whatever is filled in, a row keeps
its id and its cells with their columns, links and addresses, and the cells of other columns keep
their values too.

## Main definitions

* `Cell.Refilled` — a cell with another value.
* `TableRow.FilledIn` — a row in which only cells of some columns have other values.
* `Table.linksAmong` — the linked ones of some columns, with their links.

## Main results

* `Engine.mem_linkedColumns_iff` — which columns are filled.
* `Engine.filledIn_fillColumns`, `Engine.filledIn_outbound` — what a run that fills cells keeps.
* `TableRow.FilledIn.cell?_eq` — the cells of other columns.
-/

namespace TableQuery

/-- A cell with another value. All else is as it was. -/
structure Cell.Refilled (cell full : Cell) : Prop where
  column_eq : full.column = cell.column
  link_eq : full.link = cell.link
  href_eq : full.href = cell.href
  hrefStyle_eq : full.hrefStyle = cell.hrefStyle

namespace TableRow

/-- A row in which only cells of some columns have other values. -/
structure FilledIn (columns : String → Prop) (row full : TableRow) : Prop where
  id_eq : full.id = row.id
  actions_eq : full.actions = row.actions
  cells : List.Forall₂ (fun cell full => cell.Refilled full ∧
    (¬ columns cell.column → full = cell)) row.cells full.cells

namespace FilledIn

variable {columns : String → Prop} {row full last : TableRow}

theorem refl (row : TableRow) : FilledIn columns row row := by
  refine ⟨rfl, rfl, ?_⟩
  rw [List.forall₂_same]
  intro cell _
  exact ⟨⟨rfl, rfl, rfl, rfl⟩, fun _ => rfl⟩

theorem trans (h : FilledIn columns row full) (h' : FilledIn columns full last) :
    FilledIn columns row last := by
  refine ⟨h'.id_eq.trans h.id_eq, h'.actions_eq.trans h.actions_eq, ?_⟩
  refine forall₂_trans h.cells h'.cells ?_
  rintro cell - full last ⟨hfull, hsame⟩ ⟨hlast, hsame'⟩
  refine ⟨⟨hlast.column_eq.trans hfull.column_eq, hlast.link_eq.trans hfull.link_eq,
    hlast.href_eq.trans hfull.href_eq, hlast.hrefStyle_eq.trans hfull.hrefStyle_eq⟩, ?_⟩
  intro hcolumn
  rw [hsame' (hfull.column_eq.symm ▸ hcolumn), hsame hcolumn]

theorem map_column_eq (h : FilledIn columns row full) :
    full.cells.map Cell.column = row.cells.map Cell.column :=
  (forall₂_map_eq h.cells fun _ _ hcell => hcell.1.column_eq.symm).symm

/-- The cells of other columns are the same. -/
theorem cell?_eq (h : FilledIn columns row full) {id : String} (hid : ¬ columns id) :
    full.cell? id = row.cell? id := by
  have hcolumn : ∀ cell full : Cell, cell.Refilled full ∧ (¬ columns cell.column → full = cell) →
      (cell.column == id) = (full.column == id) := by
    rintro cell full ⟨hfull, -⟩
    rw [hfull.column_eq]
  unfold cell?
  cases hfind : row.cells.find? fun cell => cell.column == id with
  | none =>
    cases hfull : full.cells.find? fun cell => cell.column == id with
    | none => rfl
    | some last =>
      obtain ⟨cell, hcell, -⟩ := forall₂_find?_left h.cells hcolumn hfull
      rw [hfind] at hcell
      cases hcell
  | some cell =>
    obtain ⟨last, hlast, -, hsame⟩ := forall₂_find?_right h.cells hcolumn hfind
    have hcid : cell.column = id := by simpa using List.find?_some hfind
    rw [hlast, hsame (hcid.symm ▸ hid)]

end FilledIn

end TableRow

namespace Engine

variable {e : Engine} {find : Template → Run TableRows} {columns : String → Prop} {t : Table}
  {rows filled : List TableRow}

theorem refilled_setCell {column : String} {value : Value} (hcolumn : columns column)
    (cells : List Cell) :
    List.Forall₂ (fun cell full => cell.Refilled full ∧ (¬ columns cell.column → full = cell))
      cells (setCell column value cells) := by
  have hsame : ∀ cell : Cell, cell.Refilled cell := fun cell => ⟨rfl, rfl, rfl, rfl⟩
  induction cells with
  | nil => exact .nil
  | cons cell cells ih =>
    unfold setCell
    split
    · next heq =>
      refine .cons ⟨⟨rfl, rfl, rfl, rfl⟩, fun hother => absurd (heq ▸ hcolumn) hother⟩ ?_
      rw [List.forall₂_same]
      exact fun cell _ => ⟨hsame cell, fun _ => rfl⟩
    · exact .cons ⟨hsame cell, fun _ => rfl⟩ ih

/-- Filling a column changes its cell. -/
theorem filledIn_fillRow {c : Column} (hcolumn : columns c.id) (l : Link) (found : Findings)
    (row : TableRow) : row.FilledIn columns (fillRow c l found row) :=
  ⟨rfl, rfl, refilled_setCell hcolumn row.cells⟩

/-- Filling several columns changes their cells. -/
theorem filledIn_fillColumns {linked : List (Column × Link)}
    (hcolumns : ∀ p ∈ linked, columns p.1.id)
    (h : (e.fillColumns find linked rows).result = .ok filled) :
    List.Forall₂ (TableRow.FilledIn columns) rows filled := by
  induction linked generalizing rows with
  | nil =>
    cases h
    rw [List.forall₂_same]
    exact fun row _ => .refl row
  | cons p linked ih =>
    rw [List.forall_mem_cons] at hcolumns
    simp only [fillColumns, Run.result_bind_eq_ok_iff] at h
    obtain ⟨found, -, h⟩ := h
    have hrest := ih hcolumns.2 h
    rw [List.forall₂_map_left_iff] at hrest
    exact hrest.imp fun row full hfull =>
      (filledIn_fillRow hcolumns.1 p.2 found row).trans hfull

end Engine

/-! ## Linked columns -/

namespace Table

variable {t : Table}

/-- The linked ones of some columns, with their links. -/
def linksAmong (t : Table) (ids : List String) : List (Column × Link) :=
  ids.filterMap fun id => do
    let c ← t.column? id
    some (c, ← c.outboundLink?)

theorem mem_linksAmong_iff {ids : List String} {p : Column × Link} :
    p ∈ t.linksAmong ids ↔
      p.1.id ∈ ids ∧ t.column? p.1.id = some p.1 ∧ p.1.outboundLink? = some p.2 := by
  simp only [linksAmong, List.mem_filterMap, Option.bind_eq_bind, Option.bind_eq_some_iff,
    Option.some.injEq]
  constructor
  · rintro ⟨id, hid, c, hc, l, hl, rfl⟩
    obtain rfl := column?_id hc
    exact ⟨hid, hc, hl⟩
  · rintro ⟨hid, hc, hl⟩
    exact ⟨p.1.id, hid, p.1, hc, p.2, hl, rfl⟩

theorem sublist_linksAmong (t : Table) (ids : List String) :
    ((t.linksAmong ids).map fun p => p.1.id).Sublist ids := by
  unfold linksAmong
  induction ids with
  | nil => exact .refl _
  | cons id ids ih =>
    rw [List.filterMap_cons]
    split
    · exact ih.cons _
    · next p hp =>
      simp only [Option.bind_eq_bind, Option.bind_eq_some_iff, Option.some.injEq] at hp
      obtain ⟨c, hc, l, -, rfl⟩ := hp
      rw [List.map_cons, column?_id hc]
      exact ih.cons_cons _

end Table

namespace Engine

variable {e : Engine} {find : Template → Run TableRows} {t : Table} {rows filled : List TableRow}
  {row : TableRow} {p : Column × Link}

theorem linkedColumns_eq_linksAmong (t : Table) (row : TableRow) :
    linkedColumns t row = t.linksAmong (row.cells.map Cell.column) := by
  rw [Table.linksAmong, List.filterMap_map]
  rfl

theorem mem_linkedColumns_iff :
    p ∈ linkedColumns t row ↔ p.1.id ∈ row.cells.map Cell.column ∧ t.column? p.1.id = some p.1 ∧
      p.1.outboundLink? = some p.2 := by
  rw [linkedColumns_eq_linksAmong, Table.mem_linksAmong_iff]

theorem sublist_linkedColumns (t : Table) (row : TableRow) :
    ((linkedColumns t row).map fun p => p.1.id).Sublist (row.cells.map Cell.column) :=
  linkedColumns_eq_linksAmong t row ▸ t.sublist_linksAmong _

theorem hasLink_of_mem_linkedColumns (h : p ∈ linkedColumns t row) : t.HasLink p.2 := by
  obtain ⟨-, hc, hl⟩ := mem_linkedColumns_iff.mp h
  exact ⟨p.1.id, p.1, hc, hl⟩

/-- Filling the linked cells of rows changes cells of linked columns only. -/
theorem filledIn_outbound (h : (e.outbound find t rows).result = .ok filled) :
    List.Forall₂ (TableRow.FilledIn fun id => ∃ c, t.column? id = some c ∧ c.isOutbound = true)
      rows filled := by
  cases rows with
  | nil =>
    cases h
    exact .nil
  | cons first rest =>
    refine filledIn_fillColumns ?_ h
    intro p hp
    obtain ⟨-, hc, hl⟩ := mem_linkedColumns_iff.mp hp
    exact ⟨p.1, hc, by simp [Column.isOutbound, hl]⟩

end Engine

end TableQuery
