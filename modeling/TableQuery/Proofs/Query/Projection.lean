import TableQuery.Proofs.Query.Completeness
import TableQuery.Proofs.Query.JoinFree
import TableQuery.Proofs.Sample

/-!
# The same column in different answers

Two runs that differ in the columns asked for show the same rows. A stored column shows the same in
both. The cell of a linked column is filled from that of its local column as it is at this time. If
the local column is linked in its turn, it may be filled already or not: this depends on whether it
was asked for as well, and before the other column or behind it.

## Main definitions

* `Template.showing`, `visibleIds` — a template with other output columns, and those it shows.
* `Table.FilledBefore` — the cell of a linked column is filled before another one.
* `Table.Alike` — a column shows the same whether one output is asked for or another one.
* `Engine.cellsOf` — the cells of a column in rows.

## Main results

* `Engine.cellsOf_of_linked` — how the cells of a linked column are filled.
* `Engine.findRows_showing` — what answers with different output columns have in common.
-/

namespace TableQuery

def Template.showing (template : Template) (output : List OutputColumn) : Template :=
  { template with body := { template.body with output } }

def visibleIds (output : List OutputColumn) : List String :=
  (output.filter OutputColumn.visible).map OutputColumn.column

namespace Table

variable {t : Table} {output output' : List String} {id : String} {c : Column} {l : Link}

/-- The cell of a linked column is filled before that of another one, since it comes before it in
the output. -/
def FilledBefore (t : Table) (output : List String) (column other : String) : Prop :=
  ¬t.Stores column ∧ column ∈ output.takeWhile (· != other)

/-- A column shows the same with both outputs: it is stored, or its local column is filled before
it in neither of them, or it is in both and shows the same as well. -/
inductive Alike (t : Table) (output output' : List String) : String → Prop where
  | stored {id : String} (h : t.Stores id) : Alike t output output' id
  | linked {id : String} {c : Column} {l : Link} (hc : t.column? id = some c)
      (hl : c.outboundLink? = some l)
      (hsame : t.FilledBefore output l.localColumn id ↔ t.FilledBefore output' l.localColumn id)
      (hlocal : t.FilledBefore output l.localColumn id → Alike t output output' l.localColumn) :
      Alike t output output' id

/-- Where links begin at stored columns, all columns show the same with all outputs. -/
theorem alike_of_stores (hstores : ∀ l, t.HasLink l → t.Stores l.localColumn)
    (hc : t.column? id = some c) : t.Alike output output' id := by
  cases hl : c.outboundLink? with
  | none =>
    refine .stored fun c' hc' => ?_
    obtain rfl := Option.some.inj (hc.symm.trans hc')
    exact hl
  | some l =>
    have hlocal := hstores l ⟨id, c, hc, hl⟩
    exact .linked hc hl (iff_of_false (fun h => h.1 hlocal) fun h => h.1 hlocal)
      fun h => absurd hlocal h.1

theorem mem_map_linksAmong {ids : List String} :
    id ∈ (t.linksAmong ids).map (fun p => p.1.id) ↔ id ∈ ids ∧ ¬t.Stores id := by
  simp only [List.mem_map, mem_linksAmong_iff]
  constructor
  · rintro ⟨p, ⟨hid, hc, hl⟩, rfl⟩
    refine ⟨hid, fun hstores => ?_⟩
    rw [hstores p.1 hc] at hl
    cases hl
  · rintro ⟨hid, hstores⟩
    simp only [Stores, not_forall] at hstores
    obtain ⟨c, hc, hl⟩ := hstores
    obtain ⟨l, hl⟩ := Option.ne_none_iff_exists'.mp hl
    obtain rfl := column?_id hc
    exact ⟨(c, l), ⟨hid, hc, hl⟩, rfl⟩

/-- A linked column of an output divides the linked columns into those filled before it and those
behind. -/
theorem linksAmong_eq_append (hid : id ∈ output) (hc : t.column? id = some c)
    (hl : c.outboundLink? = some l) (more : List String) :
    ∃ before after, t.linksAmong (output ++ more) = before ++ (c, l) :: after ∧
      ∀ column, column ∈ before.map (fun p => p.1.id) ↔ t.FilledBefore output column id := by
  obtain ⟨first, rest, rfl, hfirst⟩ := List.eq_append_cons_of_mem hid
  refine ⟨t.linksAmong first, t.linksAmong (rest ++ more), ?_, fun column => ?_⟩
  · simp [linksAmong, hc, hl]
  · have htake : (first ++ id :: rest).takeWhile (· != id) = first := by
      rw [List.takeWhile_append_of_pos, List.takeWhile_cons_of_neg (by simp), List.append_nil]
      intro a ha
      simpa using fun h : a = id => hfirst (h ▸ ha)
    rw [mem_map_linksAmong, FilledBefore, htake, and_comm]

/-- The columns asked for are fetched first, and further ones behind them. -/
theorem fetchColumns_eq_append (hn : output.Nodup) (conditions : List RawCondition) :
    ∃ more, t.fetchColumns output conditions = output ++ more := by
  have hfirst (ids more : List String) (hn : ids.Nodup) :
      ∃ rest, firstOfEach (ids ++ more) = ids ++ rest := by
    induction ids with
    | nil => exact ⟨_, rfl⟩
    | cons id ids ih =>
      rw [List.nodup_cons] at hn
      obtain ⟨rest, hrest⟩ := ih hn.2
      have hkeep : ids.filter (· != id) = ids :=
        List.filter_eq_self.mpr fun a ha => by simpa using fun h : a = id => hn.1 (h ▸ ha)
      rw [List.cons_append, firstOfEach, hrest, List.filter_append, hkeep]
      exact ⟨_, rfl⟩
  simp only [fetchColumns, List.append_assoc]
  exact hfirst output _ hn

/-- The cell of a column in a row depends on the stored row only. -/
theorem cell?_of_row {options : OptionLists} {stored : StoredRow} {row : TableRow}
    (hs : ∀ r, stored ≠ .typed r) (hn : output.Nodup)
    (h : t.row options stored output = .ok row) (hid : id ∈ output) :
    ∃ c, t.column? id = some c ∧ row.cell? id = (cellOf options stored c).toOption := by
  have hcolumns := map_column_of_row h hs
  obtain ⟨cells, hcells, hrow⟩ := cells_of_row h hs
  obtain ⟨c, cell, hc, hcell, hfind⟩ := find?_reverse_cells hcells hid
  refine ⟨c, hc, ?_⟩
  rw [← TableRow.find?_reverse_eq_cell? (hcolumns ▸ hn), hrow, hfind, hcell]
  rfl

end Table

namespace Engine

variable {e : Engine} {now : Moment} {session : Session} {find : Template → Run TableRows}
  {t : Table} {rows rows' full full' : List TableRow} {id : String} {c : Column} {l : Link}

/-! ## The cells of a column -/

def cellsOf (rows : List TableRow) (id : String) : List (Option Cell) :=
  rows.map fun row => row.cell? id

/-- The cell of a linked column, filled by what was found for the cell of its local column. -/
def fillCell (c : Column) (found : Findings) (cell here : Option Cell) : Option Cell :=
  cell.map fun cell =>
    let value := ((here.map Cell.value).bind fun v => found.lookup v.display).getD c.emptyValue
    { cell with value, values := [value] }

theorem cellsOf_eq_of_filledIn {columns : String → Prop}
    (h : List.Forall₂ (TableRow.FilledIn columns) rows full) (hid : ¬columns id) :
    cellsOf full id = cellsOf rows id :=
  (forall₂_map_eq h fun _ _ hrow => (hrow.cell?_eq hid).symm).symm

theorem cellsOf_map_fillRow {found : Findings} :
    cellsOf (rows.map (fillRow c l found)) c.id =
      List.zipWith (fillCell c found) (cellsOf rows c.id) (cellsOf rows l.localColumn) := by
  simp only [cellsOf, List.map_map, List.zipWith_map, List.zipWith_self]
  exact List.map_congr_left fun row _ => cell?_fillRow

theorem lookup_eq_of_cellsOf (h : cellsOf rows l.localColumn = cellsOf rows' l.localColumn) :
    e.lookup find l rows = e.lookup find l rows' := by
  have hvalues := congrArg (List.map (Option.map Cell.value)) h
  rw [cellsOf, cellsOf, List.map_map, List.map_map] at hvalues
  exact lookup_eq_of_values hvalues

theorem fillColumns_append_eq_ok_iff {before after : List (Column × Link)} :
    (e.fillColumns find (before ++ after) rows).result = .ok full ↔
      ∃ mid, (e.fillColumns find before rows).result = .ok mid ∧
        (e.fillColumns find after mid).result = .ok full := by
  induction before generalizing rows with
  | nil => simp [fillColumns]
  | cons p before ih =>
    simp only [List.cons_append, fillColumns, Run.result_bind_eq_ok_iff, ih]
    constructor
    · rintro ⟨found, hfound, mid, hmid, h⟩
      exact ⟨mid, ⟨found, hfound, hmid⟩, h⟩
    · rintro ⟨mid, ⟨found, hfound, hmid⟩, h⟩
      exact ⟨found, hfound, mid, hmid, h⟩

/-- A column that is not among those filled keeps its cells. -/
theorem cellsOf_of_fillColumns {linked : List (Column × Link)}
    (h : (e.fillColumns find linked rows).result = .ok full)
    (hid : id ∉ linked.map fun p => p.1.id) : cellsOf full id = cellsOf rows id :=
  cellsOf_eq_of_filledIn
    (filledIn_fillColumns (fun _ hp => List.mem_map_of_mem (f := fun p => p.1.id) hp) h) hid

/-- The cells of a linked column are filled by a lookup of the cells of its local column. These are
the filled ones, if the local column is filled before, and otherwise those that were there. -/
theorem cellsOf_of_linked {output more : List String} (hn : (output ++ more).Nodup)
    (h : (e.fillColumns find (t.linksAmong (output ++ more)) rows).result = .ok full)
    (hid : id ∈ output) (hc : t.column? id = some c) (hl : c.outboundLink? = some l) :
    ∃ mid found, (e.lookup find l mid).result = .ok found ∧
      cellsOf full id = List.zipWith (fillCell c found) (cellsOf rows id)
        (cellsOf mid l.localColumn) ∧
      (t.FilledBefore output l.localColumn id →
        cellsOf mid l.localColumn = cellsOf full l.localColumn) ∧
      (¬t.FilledBefore output l.localColumn id →
        cellsOf mid l.localColumn = cellsOf rows l.localColumn) := by
  obtain rfl := Table.column?_id hc
  obtain ⟨before, after, hlinks, hbefore⟩ := Table.linksAmong_eq_append hid hc hl more
  have hnodup : ((t.linksAmong (output ++ more)).map fun p => p.1.id).Nodup :=
    .sublist (t.sublist_linksAmong _) hn
  rw [hlinks, List.map_append, List.map_cons, List.nodup_append, List.nodup_cons] at hnodup
  obtain ⟨-, ⟨hafter, -⟩, hdisjoint⟩ := hnodup
  rw [hlinks, fillColumns_append_eq_ok_iff] at h
  obtain ⟨mid, hmid, h⟩ := h
  refine ⟨mid, ?_⟩
  have hkept : ∀ column ∈ before.map (fun p => p.1.id), cellsOf mid column = cellsOf full column :=
    fun column hcolumn => (cellsOf_of_fillColumns h fun hmem =>
      hdisjoint column hcolumn column hmem rfl).symm
  have hown : cellsOf mid c.id = cellsOf rows c.id :=
    cellsOf_of_fillColumns hmid fun hmem =>
      hdisjoint c.id hmem c.id List.mem_cons_self rfl
  simp only [fillColumns, Run.result_bind_eq_ok_iff] at h
  obtain ⟨found, hfound, h⟩ := h
  refine ⟨found, hfound, ?_, fun hfilled => hkept _ ((hbefore _).mpr hfilled),
    fun hfilled => cellsOf_of_fillColumns hmid fun hmem => hfilled ((hbefore _).mp hmem)⟩
  rw [cellsOf_of_fillColumns h hafter, cellsOf_map_fillRow, hown]

/-! ## Two outputs -/

section Outputs

variable {output output' more more' : List String}

/-- Rows with the same own cells show the same in columns that both outputs fill alike. -/
theorem cellsOf_eq_of_alike (hn : (output ++ more).Nodup) (hn' : (output' ++ more').Nodup)
    (hown : ∀ id ∈ output ++ more, id ∈ output' ++ more' → cellsOf rows id = cellsOf rows' id)
    (hlocal : ∀ id ∈ output, ∀ c l, t.column? id = some c → c.outboundLink? = some l →
      l.localColumn ∈ output ++ more)
    (hlocal' : ∀ id ∈ output', ∀ c l, t.column? id = some c → c.outboundLink? = some l →
      l.localColumn ∈ output' ++ more')
    (h : (e.fillColumns find (t.linksAmong (output ++ more)) rows).result = .ok full)
    (h' : (e.fillColumns find (t.linksAmong (output' ++ more')) rows').result = .ok full')
    (halike : t.Alike output output' id) (hid : id ∈ output) (hid' : id ∈ output') :
    cellsOf full id = cellsOf full' id := by
  induction halike with
  | @stored id hstores =>
    have hnot (ids : List String) : id ∉ (t.linksAmong ids).map fun p => p.1.id :=
      fun hmem => (Table.mem_map_linksAmong.mp hmem).2 hstores
    rw [cellsOf_of_fillColumns h (hnot _), cellsOf_of_fillColumns h' (hnot _)]
    exact hown id (List.mem_append_left _ hid) (List.mem_append_left _ hid')
  | @linked id c l hc hl hsame _ ih =>
    obtain ⟨mid, found, hfound, hcells, hbefore, hnot⟩ := cellsOf_of_linked hn h hid hc hl
    obtain ⟨mid', found', hfound', hcells', hbefore', hnot'⟩ := cellsOf_of_linked hn' h' hid' hc hl
    have hhere : cellsOf mid l.localColumn = cellsOf mid' l.localColumn := by
      by_cases hfilled : t.FilledBefore output l.localColumn id
      · have hfilled' := hsame.mp hfilled
        rw [hbefore hfilled, hbefore' hfilled']
        exact ih hfilled (List.takeWhile_subset _ hfilled.2) (List.takeWhile_subset _ hfilled'.2)
      · rw [hnot hfilled, hnot' (mt hsame.mpr hfilled)]
        exact hown _ (hlocal id hid c l hc hl) (hlocal' id hid' c l hc hl)
    rw [lookup_eq_of_cellsOf hhere] at hfound
    obtain rfl := Except.ok.inj (hfound.symm.trans hfound')
    rw [hcells, hcells', hhere,
      hown id (List.mem_append_left _ hid) (List.mem_append_left _ hid')]

end Outputs

/-! ## Runs -/

/-- Rows that have the same columns are filled in these. -/
theorem fillColumns_of_outbound {ids : List String}
    (hcolumns : ∀ row ∈ rows, row.cells.map Cell.column = ids)
    (h : (e.outbound find t rows).result = .ok full) :
    (rows = [] ∧ full = []) ∨
      (e.fillColumns find (t.linksAmong ids) rows).result = .ok full := by
  cases rows with
  | nil =>
    cases h
    exact .inl ⟨rfl, rfl⟩
  | cons first rest =>
    have hlinks : linkedColumns t first = t.linksAmong ids := by
      rw [← hcolumns first List.mem_cons_self, linkedColumns_eq_linksAmong]
    exact .inr (hlinks ▸ h)

/-- Rows with the same own cells show the same after linked cells were filled. -/
theorem cellsOf_eq_of_outbound {output output' : List String} {conditions : List RawCondition}
    (hn : output.Nodup) (hn' : output'.Nodup)
    (hcolumns : ∀ row ∈ rows, row.cells.map Cell.column = t.fetchColumns output conditions)
    (hcolumns' : ∀ row ∈ rows', row.cells.map Cell.column = t.fetchColumns output' conditions)
    (hown : ∀ id ∈ t.fetchColumns output conditions, id ∈ t.fetchColumns output' conditions →
      cellsOf rows id = cellsOf rows' id)
    (h : (e.outbound find t rows).result = .ok full)
    (h' : (e.outbound find t rows').result = .ok full')
    (halike : t.Alike output output' id) (hid : id ∈ output) (hid' : id ∈ output') :
    cellsOf full id = cellsOf full' id := by
  have hlength : rows.length = rows'.length := by
    have hcells := hown id (Table.mem_fetchColumns_of_mem _ hid)
      (Table.mem_fetchColumns_of_mem _ hid')
    simpa [cellsOf] using congrArg List.length hcells
  -- What was asked for is fetched first, so the outputs say what is filled before what.
  have hlocal (output : List String) : ∀ id ∈ output, ∀ c l, t.column? id = some c →
      c.outboundLink? = some l → l.localColumn ∈ t.fetchColumns output conditions := by
    intro id hid c l hc hl
    obtain rfl := Table.column?_id hc
    exact localColumn_mem_fetchColumns _ hid hc hl
  obtain ⟨more, hmore⟩ := Table.fetchColumns_eq_append (t := t) hn conditions
  obtain ⟨more', hmore'⟩ := Table.fetchColumns_eq_append (t := t) hn' conditions
  rcases fillColumns_of_outbound hcolumns h with ⟨rfl, rfl⟩ | hfill
  · obtain rfl := List.eq_nil_of_length_eq_zero hlength.symm
    cases h'
    rfl
  rcases fillColumns_of_outbound hcolumns' h' with ⟨rfl, rfl⟩ | hfill'
  · obtain rfl := List.eq_nil_of_length_eq_zero hlength
    cases h
    rfl
  rw [hmore] at hfill hown
  rw [hmore'] at hfill' hown
  exact cellsOf_eq_of_alike (hmore ▸ nodup_firstOfEach _) (hmore' ▸ nodup_firstOfEach _) hown
    (hmore ▸ hlocal output) (hmore' ▸ hlocal output') hfill hfill' halike hid hid'

/-- An answer shows the cells of rows after linked cells were filled. -/
theorem cellsOf_of_answer {f : Fetch} {requested : List String} {fetched : Fetched}
    {answer : TableRows} (hn : f.output.Nodup) (hs : ∀ row, .typed row ∉ fetched.rows)
    (h : (e.answer session find false f requested fetched).result = .ok answer) :
    ∃ rows full, f.table.rows e.options f.output fetched.rows = .ok rows ∧
      (∀ row ∈ rows, row.cells.map Cell.column = f.output) ∧
      (e.outbound find f.table rows).result = .ok full ∧
      answer.rows.map TableRow.id = rows.map TableRow.id ∧
      ∀ id ∈ requested, cellsOf answer.rows id = cellsOf full id := by
  obtain ⟨rows, hrows, hids, -⟩ := map_id_of_answer h
  obtain ⟨rows', full, aggregates, final, hrows', hfull, -, hfinal, rfl⟩ := answer_eq_ok_iff.mp h
  obtain rfl := Except.ok.inj (hrows.symm.trans hrows')
  have hcolumns : ∀ row ∈ rows, row.cells.map Cell.column = f.output := by
    intro row hrow
    obtain ⟨stored, htyped, hshown⟩ := Table.exists_stored_of_rows hrows hs hrow
    exact Table.map_column_of_row hshown htyped
  refine ⟨rows, full, hrows, hcolumns, hfull, hids, fun id hid => ?_⟩
  have hoffered := Table.sameCells_of_withOffers (Run.result_ofExcept_eq_ok_iff.mp hfinal)
  have hcells : cellsOf final id = cellsOf (full.map fun row => row.onlyCells requested) id :=
    (forall₂_map_eq hoffered fun row shown hshown => by
      rw [TableRow.cell?, TableRow.cell?, hshown.2]).symm
  rw [hcells, cellsOf, cellsOf, List.map_map]
  refine List.map_congr_left fun row hrow => TableRow.cell?_onlyCells_of_mem ?_ hid
  obtain ⟨own, hown, hfilled⟩ := forall₂_exists_left (filledIn_outbound hfull) hrow
  rw [hfilled.map_column_eq, hcolumns own hown]
  exact hn

/-- The rows that are made of the same stored rows have the same ids, and the same cells in the
columns of both. -/
theorem same_of_rows {options : OptionLists} {key : Column} {output output' : List String}
    {stored : List StoredRow} (hkey : t.KeyedBy key) (hs : ∀ row, .typed row ∉ stored)
    (hn : output.Nodup) (hn' : output'.Nodup) (hmem : t.key ∈ output) (hmem' : t.key ∈ output')
    (h : t.rows options output stored = .ok rows)
    (h' : t.rows options output' stored = .ok rows') :
    rows.map TableRow.id = rows'.map TableRow.id ∧
      ∀ id ∈ output, id ∈ output' → cellsOf rows id = cellsOf rows' id := by
  have hpair : List.Forall₂ (fun row row' : TableRow => row.id = row'.id ∧
      ∀ id ∈ output, id ∈ output' → row.cell? id = row'.cell? id) rows rows' := by
    have htyped : ∀ row ∈ stored, ∀ r, row ≠ .typed r := by
      rintro - hrow r rfl
      exact hs r hrow
    have hrows := (List.forall₂_and_left _ _).mpr ⟨htyped, Table.rows_eq_ok_iff.mp h⟩
    refine forall₂_trans hrows.flip (Table.rows_eq_ok_iff.mp h') ?_
    rintro row - s row' ⟨htyped, hrow⟩ hrow'
    refine ⟨Table.id_eq_of_row hkey.keyColumn?_eq (fun c => hkey.eq_of_isKey) hmem hmem' htyped hrow
      hrow', fun id hid hid' => ?_⟩
    obtain ⟨c, hc, hcell⟩ := Table.cell?_of_row htyped hn hrow hid
    obtain ⟨c', hc', hcell'⟩ := Table.cell?_of_row htyped hn' hrow' hid'
    obtain rfl := Option.some.inj (hc.symm.trans hc')
    exact hcell.trans hcell'.symm
  exact ⟨forall₂_map_eq hpair fun _ _ hrow => hrow.1,
    fun id hid hid' => forall₂_map_eq hpair fun _ _ hrow => hrow.2 id hid hid'⟩

/-- Two runs over rows in memory that differ in the output columns either do not come to the driver,
or are answered from the same rows. -/
theorem answers_of_showing {template : Template}
    (ht : e.registry.table? template.table = some t) {m : Memory}
    (hd : e.drivers.lookup t.id = some m.driver) {output output' : List OutputColumn}
    {answer answer' : TableRows}
    (h : (e.findRows now session (template.showing output)).result = .ok answer)
    (h' : (e.findRows now session (template.showing output')).result = .ok answer') :
    (answer = .empty ∧ answer' = .empty) ∨ ∃ conditions fetched fetched',
      fetched'.rows = fetched.rows ∧ (∀ row ∈ fetched.rows, row ∈ m.rows) ∧
      (e.answer session (e.findSimple now session (e.columnCount + 1)) false
        (t.fetchFor (template.showing output).onlyVisible conditions) (visibleIds output)
        fetched).result = .ok answer ∧
      (e.answer session (e.findSimple now session (e.columnCount + 1)) false
        (t.fetchFor (template.showing output').onlyVisible conditions) (visibleIds output')
        fetched').result = .ok answer' := by
  obtain ⟨t₁, ht₁, -, hrun⟩ := find_eq_ok_iff.mp h
  obtain ⟨t₂, ht₂, -, hrun'⟩ := find_eq_ok_iff.mp h'
  obtain rfl : t₁ = t := Option.some.inj (ht₁.symm.trans ht)
  obtain rfl : t₂ = t₁ := Option.some.inj (ht₂.symm.trans ht₁)
  -- What the driver is asked for does not depend on the output, so it is asked for the same rows.
  rcases hrun with ⟨hnothing, hempty⟩ | ⟨conditions, d, fetched, hasks, hdriver, hf, hanswer⟩
  · rcases hrun' with ⟨-, hempty'⟩ | ⟨conditions', -, -, hasks', -⟩
    · exact .inl ⟨hempty, hempty'⟩
    · exact absurd hasks' (hnothing.not_asksFor conditions')
  · rcases hrun' with ⟨hnothing', -⟩ | ⟨conditions', d', fetched', hasks', hdriver', hf', hanswer'⟩
    · exact absurd hasks (hnothing'.not_asksFor conditions)
    obtain rfl : conditions = conditions' := hasks.unique hasks'
    obtain rfl : m.driver = d := Option.some.inj (hd.symm.trans (driver_eq_ok_iff.mp hdriver))
    obtain rfl : m.driver = d' := Option.some.inj (hd.symm.trans (driver_eq_ok_iff.mp hdriver'))
    have hfetch := Memory.ask_eq_ok_iff.mp (Driver.ask_eq_ok_iff.mpr hf)
    have hfetch' := Memory.ask_eq_ok_iff.mp (Driver.ask_eq_ok_iff.mpr hf')
    exact .inr ⟨conditions, fetched, fetched',
      Memory.rows_eq_of_fetch hfetch hfetch' rfl rfl rfl rfl,
      fun row => Memory.mem_rows_of_fetch hfetch, hanswer, hanswer'⟩

/-- Over keyed rows in memory, two runs that differ in the output columns answer the same rows, in
the same order and with the same ids. They show the same cells in a visible column of both that is
stored, or whose local column is filled before it in neither output, or in both and with the same
cells. So they do in all columns where links begin at stored columns. -/
theorem findRows_showing {template : Template} {steps : List Registry.Step}
    (hsteps : ∀ u, .register u ∈ steps → u.Compiled) (hr : e.registry = Registry.setUp steps)
    (ht : e.registry.table? template.table = some t) {m : Memory}
    (hd : e.drivers.lookup t.id = some m.driver) (hm : ∀ row, .typed row ∉ m.rows)
    {output output' : List OutputColumn} {answer answer' : TableRows}
    (h : (e.findRows now session (template.showing output)).result = .ok answer)
    (h' : (e.findRows now session (template.showing output')).result = .ok answer') :
    answer.rows.map TableRow.id = answer'.rows.map TableRow.id ∧
    (∀ id ∈ visibleIds output, id ∈ visibleIds output' →
      t.Alike (visibleIds output) (visibleIds output') id →
      cellsOf answer.rows id = cellsOf answer'.rows id) ∧
    ((∀ l, t.HasLink l → t.Stores l.localColumn) →
      ∀ id ∈ visibleIds output, id ∈ visibleIds output' →
        cellsOf answer.rows id = cellsOf answer'.rows id) := by
  obtain ⟨key, hkey, -⟩ := Registry.keyed_of_setUp hsteps t (hr ▸ List.mem_of_find?_eq_some ht)
  have hvalid {output : List OutputColumn} {answer : TableRows}
      (h : (e.findRows now session (template.showing output)).result = .ok answer) :
      (visibleIds output).Nodup ∧ ∀ id ∈ visibleIds output, ∃ c, t.column? id = some c := by
    obtain ⟨u, hu, hv, -⟩ := find_eq_ok_iff.mp h
    obtain rfl : u = t := Option.some.inj (hu.symm.trans ht)
    exact ⟨Table.nodup_of_validate hv, fun id hid => Table.column_of_validate hv hid⟩
  suffices hsame : answer.rows.map TableRow.id = answer'.rows.map TableRow.id ∧
      ∀ id ∈ visibleIds output, id ∈ visibleIds output' →
        t.Alike (visibleIds output) (visibleIds output') id →
        cellsOf answer.rows id = cellsOf answer'.rows id by
    refine ⟨hsame.1, hsame.2, fun hstores id hid hid' => hsame.2 id hid hid' ?_⟩
    obtain ⟨c, hc⟩ := (hvalid h).2 id hid
    exact Table.alike_of_stores hstores hc
  rcases answers_of_showing ht hd h h' with ⟨rfl, rfl⟩ | ⟨conditions, fetched, fetched', hfetched,
    hmem, hanswer, hanswer'⟩
  · exact ⟨rfl, fun _ _ _ _ => rfl⟩
  have htyped : ∀ row, .typed row ∉ fetched.rows := fun row hrow => hm row (hmem _ hrow)
  obtain ⟨rows, full, hrows, hcolumns, hfull, hids, hcells⟩ :=
    cellsOf_of_answer (nodup_firstOfEach _) htyped hanswer
  obtain ⟨rows', full', hrows', hcolumns', hfull', hids', hcells'⟩ :=
    cellsOf_of_answer (nodup_firstOfEach _) (hfetched ▸ htyped) hanswer'
  rw [hfetched] at hrows'
  obtain ⟨hrowIds, hown⟩ := same_of_rows hkey htyped (nodup_firstOfEach _) (nodup_firstOfEach _)
    (Table.key_mem_fetchColumns _ _) (Table.key_mem_fetchColumns _ _) hrows hrows'
  refine ⟨hids.trans (hrowIds.trans hids'.symm), fun id hid hid' halike => ?_⟩
  rw [hcells id hid, hcells' id hid']
  exact cellsOf_eq_of_outbound (hvalid h).1 (hvalid h').1 hcolumns hcolumns' hown hfull hfull'
    halike hid hid'

end Engine

/-! ## The rooms of books -/

namespace Library

open Sample (clock visitor vocabulary)

def field (id : String) (key : Bool) (link : Option String) : FieldSpec :=
  { (default : FieldSpec) with id, kind := .string, key, filters := some "EQ", link }

def roomSpec : TableSpec :=
  ⟨"Room", "Room", "", [field "Id" true none, field "Name" false none]⟩

def shelfSpec : TableSpec :=
  ⟨"Shelf", "Shelf", "", [field "Id" true none, field "Room" false none,
    field "RoomName" false (some "Room(Room,Id,Name)")]⟩

def bookSpec : TableSpec :=
  ⟨"Book", "Book", "", [field "Id" true none, field "Shelf" false none,
    field "Room" false (some "Shelf(Shelf,Id,Room)"),
    field "RoomName" false (some "Room(Room,Id,Name)")]⟩

/-- The descriptions become the tables of the library. -/
theorem compileFields_eq : ∀ p ∈ [(bookSpec, books), (roomSpec, rooms), (shelfSpec, shelves)],
    (TableSpec.compileFields vocabulary p.1.id [] (p.1.fields.filter fun f => !f.hidden)).toOption =
      some p.2.columns := by
  decide +kernel

def steps : List Registry.Step :=
  [.register books, .register rooms, .register shelves, .validateLinks]

theorem compiled_of_mem_steps {t : Table} (h : .register t ∈ steps) : t.Compiled := by
  have hfields := fun p hp => Except.toOption_eq_some_iff.mp (compileFields_eq p hp)
  simp only [steps, List.mem_cons, Registry.Step.register.injEq, reduceCtorEq, List.not_mem_nil,
    or_false] at h
  rcases h with rfl | rfl | rfl
  · exact ⟨bookSpec, vocabulary, TableSpec.compile_eq_ok_iff.mpr
      ⟨_, _, hfields (bookSpec, books) (by simp), rfl, rfl, rfl⟩⟩
  · exact ⟨roomSpec, vocabulary, TableSpec.compile_eq_ok_iff.mpr
      ⟨_, _, hfields (roomSpec, rooms) (by simp), rfl, rfl, rfl⟩⟩
  · exact ⟨shelfSpec, vocabulary, TableSpec.compile_eq_ok_iff.mpr
      ⟨_, _, hfields (shelfSpec, shelves) (by simp), rfl, rfl, rfl⟩⟩

theorem setUp_steps : Registry.setUp steps = registry := by
  cbv

theorem keyed_memory (table : String) : ∀ row, .typed row ∉ (memory table).rows := by
  intro row
  unfold memory
  split_ifs <;> simp

def everything : Template :=
  .temporary "Book" ⟨[], []⟩ .all

def roomNames (answer : TableRows) : List (Option String) :=
  answer.rows.map fun row => (row.value? "RoomName").map Value.display

/-- Where rooms are asked for before their names, it does not matter what else is asked for. -/
theorem alike_behind_room :
    books.Alike ["Room", "RoomName"] ["Id", "Room", "RoomName"] "RoomName" := by
  have hlinked : ¬books.Stores "Room" := fun h => nomatch h _ rfl
  have hstored : books.Stores "Shelf" := by
    intro c hc
    obtain rfl := Option.some.inj hc
    rfl
  have hroom : books.Alike ["Room", "RoomName"] ["Id", "Room", "RoomName"] "Room" :=
    .linked rfl rfl (iff_of_false (fun h => h.1 hstored) fun h => h.1 hstored)
      fun h => absurd hstored h.1
  exact .linked rfl rfl (iff_of_true ⟨hlinked, by decide⟩ ⟨hlinked, by decide⟩) fun _ => hroom

theorem named_with_ids : ∃ answer answer',
    (engine.findRows clock visitor
      (everything.showing [.plain "Room", .plain "RoomName"])).result = .ok answer ∧
    (engine.findRows clock visitor
      (everything.showing [.plain "Id", .plain "Room", .plain "RoomName"])).result =
        .ok answer' ∧
    roomNames answer = [some "Attic"] ∧ answer.rows.map TableRow.id = answer'.rows.map TableRow.id ∧
    Engine.cellsOf answer.rows "RoomName" = Engine.cellsOf answer'.rows "RoomName" := by
  have hfirst : (engine.findRows clock visitor
      (everything.showing [.plain "Room", .plain "RoomName"])).result.map roomNames =
        .ok [some "Attic"] := by
    cbv
  have hsecond : (engine.findRows clock visitor
      (everything.showing [.plain "Id", .plain "Room", .plain "RoomName"])).result.map roomNames =
        .ok [some "Attic"] := by
    cbv
  obtain ⟨answer, hanswer, hnames⟩ := Except.map_eq_ok_iff.mp hfirst
  obtain ⟨answer', hanswer', -⟩ := Except.map_eq_ok_iff.mp hsecond
  obtain ⟨hids, hcells, -⟩ := Engine.findRows_showing (fun _ => compiled_of_mem_steps)
    setUp_steps.symm (t := books) (m := memory "Book") rfl rfl (keyed_memory _) hanswer hanswer'
  exact ⟨answer, answer', hanswer, hanswer', hnames, hids,
    hcells "RoomName" (by decide) (by decide) alike_behind_room⟩

/-- The room of a book is linked. Asked for before the name of the room, it is filled before, and
the name is found. Asked for behind it, it is not filled yet, and the name is empty. -/
theorem named_by_order : (∀ t, .register t ∈ steps → t.Compiled) ∧
    engine.registry = Registry.setUp steps ∧
    (∀ table row, .typed row ∉ (memory table).rows) ∧ ∃ answer answer',
      (engine.findRows clock visitor
        (everything.showing [.plain "Room", .plain "RoomName"])).result = .ok answer ∧
      (engine.findRows clock visitor
        (everything.showing [.plain "RoomName", .plain "Room"])).result = .ok answer' ∧
      roomNames answer = [some "Attic"] ∧ roomNames answer' = [some ""] := by
  have hbefore : (engine.findRows clock visitor
      (everything.showing [.plain "Room", .plain "RoomName"])).result.map roomNames =
        .ok [some "Attic"] := by
    cbv
  have hbehind : (engine.findRows clock visitor
      (everything.showing [.plain "RoomName", .plain "Room"])).result.map roomNames =
        .ok [some ""] := by
    cbv
  obtain ⟨answer, hanswer, hnames⟩ := Except.map_eq_ok_iff.mp hbefore
  obtain ⟨answer', hanswer', hnames'⟩ := Except.map_eq_ok_iff.mp hbehind
  exact ⟨fun _ => compiled_of_mem_steps, setUp_steps.symm, keyed_memory, answer, answer', hanswer,
    hanswer', hnames, hnames'⟩

end Library

end TableQuery
