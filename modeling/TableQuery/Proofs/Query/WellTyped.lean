import TableQuery.Proofs.Query.Completeness

/-!
# Types of values in answers

A stored column shows values of its type. A linked column shows a value of its type only where
nothing was found: what a row of the other table says is taken as it is, so it has the type of the
column there. Neither making a table nor following its links compares the two types.

## Main definitions

* `Table.Each` — what holds of the values of all cells of a row.
* `Engine.Displays` — the values that a column may show.

## Main results

* `Engine.each_fillRow`, `Engine.each_fillColumns` — filling one column, and all of them.
* `Engine.findRows_displays` — the types of the values in an answer.
* `Depot.number_in_text_column` — a column of texts that shows a number.
-/

namespace TableQuery

namespace Table

variable {t : Table} {options : OptionLists} {stored : StoredRow} {output : List String}
  {row : TableRow}

/-- The cells of a row are cells of columns of the table, of whose values something holds. -/
def Each (t : Table) (P : Column → Value → Prop) (row : TableRow) : Prop :=
  ∀ cell ∈ row.cells, ∃ c, t.column? cell.column = some c ∧ P c cell.value

/-- Every value of a row has the type of its column. -/
def WellTyped (t : Table) (row : TableRow) : Prop :=
  t.Each (fun c v => v.type? = some c.type) row

theorem Each.imp {P Q : Column → Value → Prop} (h : t.Each P row)
    (himp : ∀ c v, c ∈ t.columns → P c v → Q c v) : t.Each Q row := by
  intro cell hcell
  obtain ⟨c, hc, hv⟩ := h cell hcell
  exact ⟨c, hc, himp c cell.value (mem_of_column? hc) hv⟩

theorem Each.onlyCells {P : Column → Value → Prop} (h : t.Each P row) (requested : List String) :
    t.Each P (row.onlyCells requested) := by
  intro cell hcell
  obtain ⟨id, -, hfind⟩ := List.mem_filterMap.mp hcell
  exact h cell (List.mem_reverse.mp (List.mem_of_find?_eq_some hfind))

/-- A linked column has no value of its own. -/
theorem value_of_cellOf_linked {c : Column} {l : Link} {cell : Cell}
    (hlink : c.outboundLink? = some l) (h : cellOf options stored c = .ok cell) :
    cell.value = c.emptyValue := by
  have hout : c.isOutbound = true := by simp [Column.isOutbound, hlink]
  simp only [cellOf, source, hout, if_true, Except.ok_bind, cell_eq_ok_iff, cellValue,
    Option.elim] at h
  obtain ⟨value, hvalue, rfl⟩ := h
  exact (Except.ok.inj hvalue).symm

/-- A stored row shows values of the types of the columns, and linked columns are empty. -/
theorem each_of_row (h : t.row options stored output = .ok row) (hs : ∀ r, stored ≠ .typed r) :
    t.Each (fun c v => v.type? = some c.type ∧
      (c.outboundLink? ≠ none → v = c.emptyValue)) row := by
  obtain ⟨cells, hcells, hrow⟩ := cells_of_row h hs
  rw [cells_eq_ok_iff] at hcells
  intro cell hcell
  rw [hrow] at hcell
  obtain ⟨p, hp, rfl⟩ := List.mem_map.mp hcell
  obtain ⟨id, -, hc, hcellOf⟩ := forall₂_exists_left hcells hp
  refine ⟨p.1, ?_, type?_of_cellOf hcellOf, fun hlink => ?_⟩
  · rw [column_of_cellOf hcellOf, column?_id hc, hc]
  · obtain ⟨l, hl⟩ := Option.ne_none_iff_exists'.mp hlink
    exact value_of_cellOf_linked hl hcellOf

end Table

namespace Engine

variable {e : Engine} {now : Moment} {session : Session} {find : Template → Run TableRows}
  {t : Table} {rows filled : List TableRow} {P : Column → Value → Prop}

/-! ## Filling -/

theorem each_fillRow {c : Column} {l : Link} {found : Findings} {row : TableRow}
    (hc : t.column? c.id = some c) (hempty : P c c.emptyValue)
    (hfound : ∀ text w, found.lookup text = some w → P c w) (h : t.Each P row) :
    t.Each P (fillRow c l found row) := by
  have hvalue : P c (((row.value? l.localColumn).bind fun v => found.lookup v.display).getD
      c.emptyValue) := by
    cases hw : (row.value? l.localColumn).bind fun v => found.lookup v.display with
    | none => exact hempty
    | some w =>
      obtain ⟨v, -, hw⟩ := Option.bind_eq_some_iff.mp hw
      exact hfound v.display w hw
  have hset (cells : List Cell)
      (h : ∀ cell ∈ cells, ∃ c, t.column? cell.column = some c ∧ P c cell.value) {value : Value}
      (hvalue : P c value) : ∀ cell ∈ setCell c.id value cells,
        ∃ c, t.column? cell.column = some c ∧ P c cell.value := by
    induction cells with
    | nil => exact h
    | cons cell cells ih =>
      rw [List.forall_mem_cons] at h
      unfold setCell
      split
      · next heq => exact List.forall_mem_cons.mpr ⟨⟨c, heq ▸ hc, hvalue⟩, h.2⟩
      · exact List.forall_mem_cons.mpr ⟨h.1, ih h.2⟩
  exact hset row.cells h hvalue

theorem each_fillColumns {linked : List (Column × Link)}
    (hlinked : ∀ p ∈ linked, t.column? p.1.id = some p.1 ∧ P p.1 p.1.emptyValue ∧
      ∀ text w, Tells find p.2 text w → P p.1 w)
    (h : (e.fillColumns find linked rows).result = .ok filled)
    (hrows : ∀ row ∈ rows, t.Each P row) : ∀ row ∈ filled, t.Each P row := by
  induction linked generalizing rows with
  | nil =>
    cases h
    exact hrows
  | cons p linked ih =>
    rw [List.forall_mem_cons] at hlinked
    obtain ⟨⟨hc, hempty, htells⟩, hlinked⟩ := hlinked
    simp only [fillColumns, Run.result_bind_eq_ok_iff] at h
    obtain ⟨found, hfound, h⟩ := h
    refine ih hlinked h (List.forall_mem_map.mpr fun row hrow => ?_)
    exact each_fillRow hc hempty (fun text w hw => htells text w (tells_of_lookup hfound hw))
      (hrows row hrow)

/-- What holds of the values of rows, of the values for null, and of what other tables say, holds of
the values of filled rows. -/
theorem each_outbound (hempty : ∀ c ∈ t.columns, ∀ l, c.outboundLink? = some l → P c c.emptyValue)
    (htells : ∀ c ∈ t.columns, ∀ l, c.outboundLink? = some l →
      ∀ text w, Tells find l text w → P c w)
    (h : (e.outbound find t rows).result = .ok filled) (hrows : ∀ row ∈ rows, t.Each P row) :
    ∀ row ∈ filled, t.Each P row := by
  cases rows with
  | nil =>
    cases h
    exact hrows
  | cons first rest =>
    refine each_fillColumns (fun p hp => ?_) h hrows
    obtain ⟨-, hc, hl⟩ := mem_linkedColumns_iff.mp hp
    have hmem := Table.mem_of_column? hc
    exact ⟨hc, hempty p.1 hmem p.2 hl, htells p.1 hmem p.2 hl⟩

/-! ## Questions of links -/

/-- What is found simply has the types of the columns. -/
theorem wellTyped_of_findSimple
    (hstored : ∀ d, e.drivers.lookup t.id = some d → d.GivesStored now session) {depth : Nat}
    {template : Template} (ht : e.registry.table? template.table = some t) {answer : TableRows}
    (h : (e.findSimple now session depth template).result = .ok answer) :
    ∀ row ∈ answer.rows, t.WellTyped row := by
  intro shown hshown
  obtain ⟨conditions, stored, row, htyped, hrow, rfl⟩ :=
    exists_row_of_findSimple ht hstored h shown hshown
  exact ((Table.each_of_row hrow htyped).imp fun _ _ _ hv => hv.1).onlyCells _

/-- So what a row of the other table says has the type of the column whose value is taken. -/
theorem type?_of_tells {l : Link}
    (hstored : ∀ table d, e.drivers.lookup table = some d → d.GivesStored now session) {depth : Nat}
    {text : String} {w : Value} (h : Tells (e.findSimple now session depth) l text w) :
    ∃ remote value, e.registry.table? l.table = some remote ∧
      remote.column? l.valueColumn = some value ∧ w.type? = some value.type := by
  have hanswer : ∃ operator values page answer row,
      (e.findSimple now session depth (l.template operator values page)).result = .ok answer ∧
        row ∈ answer.rows ∧ row.value? l.valueColumn = some w := by
    cases h with
    | shown h hrow _ hw => exact ⟨_, _, _, _, _, h, hrow, hw⟩
    | first h hrow hw => exact ⟨_, _, _, _, _, h, List.mem_of_mem_head? hrow, hw⟩
  obtain ⟨operator, values, page, answer, row, hfind, hrow, hw⟩ := hanswer
  have hremote : ∃ remote, e.registry.table? l.table = some remote := by
    cases depth with
    | zero => cases hfind
    | succ depth =>
      obtain ⟨remote, -, -, hremote, -⟩ := findOnce_eq_ok_iff.mp hfind
      exact ⟨remote, hremote⟩
  obtain ⟨remote, hremote⟩ := hremote
  obtain ⟨cell, hcell, hcolumn, rfl⟩ := TableRow.exists_cell_of_value? hw
  obtain ⟨value, hvalue, htype⟩ :=
    wellTyped_of_findSimple (hstored remote.id) hremote hfind row hrow cell hcell
  exact ⟨remote, value, hremote, hcolumn ▸ hvalue, htype⟩

/-! ## Answers -/

/-- The values that a column may show: if it is stored, values of its type, and if it is linked, the
value for null or what a row of the other table says, which has the type of the column there. -/
def Displays (e : Engine) (find : Template → Run TableRows) (c : Column) (v : Value) : Prop :=
  match c.outboundLink? with
  | none => v.type? = some c.type
  | some l => v = c.emptyValue ∨ ∃ remote value text, e.registry.table? l.table = some remote ∧
    remote.column? l.valueColumn = some value ∧ Tells find l text v ∧ v.type? = some value.type

/-- Linked columns have the types of the columns whose values they take. -/
def LinksTyped (e : Engine) (t : Table) : Prop :=
  ∀ c ∈ t.columns, ∀ l, c.outboundLink? = some l → ∀ remote value,
    e.registry.table? l.table = some remote → remote.column? l.valueColumn = some value →
      value.type = c.type

theorem LinksTyped.type?_of_displays (h : e.LinksTyped t) {c : Column} (hc : c ∈ t.columns)
    {v : Value} (hv : e.Displays find c v) : v.type? = some c.type := by
  unfold Displays at hv
  split at hv
  · exact hv
  · next l hl =>
    rcases hv with rfl | ⟨remote, value, text, hremote, hvalue, -, htype⟩
    · exact c.type?_emptyValue
    · rw [htype, h c hc l hl remote value hremote hvalue]

/-- Where drivers give stored rows, stored columns show values of their types, and linked columns
show the value for null, or what a row of the other table says, which has the type of the column
there. So all values of an answer have the types of their columns, if linked columns have the types
of the columns whose values they take. -/
theorem findRows_displays
    (hstored : ∀ table d, e.drivers.lookup table = some d → d.GivesStored now session)
    {template : Template} {answer : TableRows}
    (h : (e.findRows now session template).result = .ok answer) :
    ∃ t, e.registry.table? template.table = some t ∧
      (∀ row ∈ answer.rows,
        t.Each (e.Displays (e.findSimple now session (e.columnCount + 1))) row) ∧
      (e.LinksTyped t → ∀ row ∈ answer.rows, t.WellTyped row) := by
  obtain ⟨t, ht, -, h⟩ := find_eq_ok_iff.mp h
  refine ⟨t, ht, ?_⟩
  suffices hall : ∀ row ∈ answer.rows,
      t.Each (e.Displays (e.findSimple now session (e.columnCount + 1))) row from
    ⟨hall, fun hlinks row hrow =>
      (hall row hrow).imp fun c v hc hv => hlinks.type?_of_displays hc hv⟩
  rcases h with ⟨-, rfl⟩ | ⟨conditions, d, fetched, -, hd, hf, ha⟩
  · simp [TableRows.empty]
  obtain ⟨rows, full, aggregates, final, hrows, hfull, -, hfinal, rfl⟩ := answer_eq_ok_iff.mp ha
  have hown : ∀ row ∈ rows,
      t.Each (e.Displays (e.findSimple now session (e.columnCount + 1))) row := by
    intro row hrow
    obtain ⟨stored, hmem, hrow⟩ := forall₂_exists_left (Table.rows_eq_ok_iff.mp hrows) hrow
    have htyped : ∀ r, stored ≠ .typed r := by
      rintro r rfl
      exact hstored t.id d (driver_eq_ok_iff.mp hd) _ _ hf r hmem
    refine (Table.each_of_row hrow htyped).imp fun c v _ hv => ?_
    unfold Displays
    cases hl : c.outboundLink? with
    | none => exact hv.1
    | some l => exact .inl (hv.2 (by simp [hl]))
  have hfilled := each_outbound (fun c _ l hl => by simp [Displays, hl])
    (fun c _ l hl text w hw => by
      obtain ⟨remote, value, hremote, hvalue, htype⟩ := type?_of_tells hstored hw
      unfold Displays
      rw [hl]
      exact .inr ⟨remote, value, text, hremote, hvalue, hw, htype⟩) hfull hown
  intro shown hshown
  have hoffered := Table.sameCells_of_withOffers (Run.result_ofExcept_eq_ok_iff.mp hfinal)
  obtain ⟨own, hmem, -, hcells⟩ := forall₂_exists_left hoffered hshown
  obtain ⟨row, hrow, rfl⟩ := List.mem_map.mp hmem
  intro cell hcell
  exact (hfilled row hrow).onlyCells _ cell (hcells ▸ hcell)

end Engine

/-! ## The materials of a depot -/

namespace Depot

open Sample (clock visitor)

theorem givesStored (mat : Raw) (table : String) (d : Driver)
    (h : (engine mat).drivers.lookup table = some d) : d.GivesStored clock visitor := by
  obtain ⟨before, after, hdrivers, -⟩ := List.lookup_eq_some_iff.mp h
  have hmem : (table, d) ∈ (engine mat).drivers := hdrivers ▸ by simp
  simp only [engine, List.mem_cons, Prod.mk.injEq, List.not_mem_nil, or_false] at hmem
  rcases hmem with ⟨-, rfl⟩ | ⟨-, rfl⟩
  all_goals exact Memory.givesStored_driver (by simp [memory]) clock visitor

/-- Names are texts here and there. -/
theorem linksTyped (mat : Raw) : (engine mat).LinksTyped items := by
  intro c hc l hl remote value hremote hvalue
  simp only [items, List.mem_cons, List.not_mem_nil, or_false] at hc
  rcases hc with rfl | rfl | rfl
  · cases hl
  · cases hl
  · obtain rfl := Option.some.inj hl
    obtain rfl := Option.some.inj hremote
    obtain rfl := Option.some.inj hvalue
    rfl

/-- All values are texts, also where the material is missing. -/
theorem names_wellTyped : ∃ answer,
    ((engine (.text "2")).findRows clock visitor question).result = .ok answer ∧
      (answer.rows.map fun row => row.value? "MatName") =
        [some (.string "Bolt"), some (.string "")] ∧
      ∀ row ∈ answer.rows, items.WellTyped row := by
  have hnames : (((engine (.text "2")).findRows clock visitor question).result.map fun answer =>
      answer.rows.map fun row => row.value? "MatName") =
        .ok [some (.string "Bolt"), some (.string "")] := by
    cbv
  obtain ⟨answer, hanswer, hnames⟩ := Except.map_eq_ok_iff.mp hnames
  obtain ⟨t, ht, -, htyped⟩ := Engine.findRows_displays (givesStored (.text "2")) hanswer
  obtain rfl : items = t := Option.some.inj ht
  exact ⟨answer, hanswer, hnames, htyped (linksTyped _)⟩

def numbered : Table :=
  ⟨"Stock", "Stock", "", [.ofTexts "Id" true none, .ofTexts "Mat" false none,
    .ofTexts "MatNo" false (some ⟨"Material", "Mat", "Code", "No"⟩)], "Id", [], none, none⟩

def numberedEngine : Engine :=
  { engine (.text "M1") with registry := ⟨[materials, numbered]⟩ }

/-- The first item has no material, and its number is an empty text. The number of the second one is
not a text. -/
theorem number_in_text_column : (⟨[materials, numbered]⟩ : Registry).Registered ∧
    (⟨[materials, numbered]⟩ : Registry).validateLinks = .ok numberedEngine.registry ∧
    (∀ table d, numberedEngine.drivers.lookup table = some d → d.GivesStored clock visitor) ∧
    ((numbered.column? "MatNo").map Column.type = some .string) ∧
    (numberedEngine.findRows clock visitor
      (.temporary "Stock" ⟨[], [.plain "Id", .plain "MatNo"]⟩ .all)).result.map
        (fun answer => answer.rows.map fun row => row.value? "MatNo") =
          .ok [some (.string ""), some (.int 1)] := by
  refine ⟨?_, by cbv, givesStored (.text "M1"), by rfl, by cbv⟩
  have hfirst : Registry.empty.register materials = .ok ⟨[materials]⟩ := rfl
  have hsecond : (⟨[materials]⟩ : Registry).register numbered = .ok ⟨[materials, numbered]⟩ := by
    rfl
  exact .register (.register .empty hfirst) hsecond

end Depot

end TableQuery
