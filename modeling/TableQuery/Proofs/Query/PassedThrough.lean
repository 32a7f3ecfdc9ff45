import TableQuery.Proofs.Query.Projection
import TableQuery.Proofs.Query.Pushdown

/-!
# Rows that are answers already

A driver may give rows that are answers already. No column of its table maps them, so that an answer
shows their cells as the driver made them, in the order of the template. But linked columns are
filled into them as into other rows: the first row tells which columns, and their cells are
overwritten in every row, also where the driver had filled them itself and there is no local value
to look up.

## Main definitions

* `TableRow.Carries` — a row has one cell of a column.
* `Engine.Overwrites` — a column is filled into rows.
* `Engine.PassedThrough` — a row of the driver and what an answer shows of it.

## Main results

* `Engine.exists_last_fill` — a column is filled for the last time.
* `Engine.findRows_passedThrough` — what an answer shows of rows that are answers already.
* `Stock.ready_name_overwritten` — a linked cell that the driver had filled is lost.
-/

namespace TableQuery

namespace TableRow

variable {row full : TableRow} {cell : Cell} {columns : String → Prop}

/-- A row has this cell and no other one of its column. -/
def Carries (row : TableRow) (cell : Cell) : Prop :=
  row.cells.filter (fun other => other.column == cell.column) = [cell]

theorem Carries.cell?_eq (h : row.Carries cell) : row.cell? cell.column = some cell := by
  rw [cell?, ← List.head?_filter, h, List.head?_cons]

/-- It does not matter from which end it is found. -/
theorem Carries.cell?_onlyCells (h : row.Carries cell) {requested : List String}
    (hmem : cell.column ∈ requested) : (row.onlyCells requested).cell? cell.column = some cell := by
  rw [TableRow.cell?_onlyCells, if_pos hmem, ← List.head?_filter, List.filter_reverse, h,
    List.reverse_singleton, List.head?_cons]

/-- Cells that are filled in stay the only ones of their columns. -/
theorem FilledIn.exists_carries (h : FilledIn columns row full) (hcell : row.Carries cell) :
    ∃ last, full.Carries last ∧ cell.Refilled last ∧ (¬ columns cell.column → last = cell) := by
  have hfilter : List.Forall₂ (fun cell last => cell.Refilled last ∧
      (¬ columns cell.column → last = cell))
      (row.cells.filter fun other => other.column == cell.column)
      (full.cells.filter fun other => other.column == cell.column) := by
    refine List.rel_filter (fun other last hlast => ?_) h.cells
    dsimp only
    rw [hlast.1.column_eq]
  rw [hcell, List.forall₂_cons_left_iff] at hfilter
  obtain ⟨last, rest, hlast, hrest, hfull⟩ := hfilter
  rw [List.forall₂_nil_left_iff] at hrest
  subst hrest
  refine ⟨last, ?_, hlast⟩
  rw [Carries, hlast.1.column_eq, hfull]

theorem FilledIn.imp {columns' : String → Prop} (h : FilledIn columns row full)
    (himp : ∀ id, columns id → columns' id) : FilledIn columns' row full := by
  refine ⟨h.id_eq, h.actions_eq, h.cells.imp ?_⟩
  rintro cell last ⟨hlast, hkept⟩
  exact ⟨hlast, fun hcolumn => hkept fun hid => hcolumn (himp _ hid)⟩

/-- A row with the cells asked for has those of the columns that it had. -/
theorem map_column_onlyCells_eq_filter (row : TableRow) (requested : List String) :
    (row.onlyCells requested).cells.map Cell.column =
      requested.filter fun id => id ∈ row.cells.map Cell.column := by
  unfold onlyCells
  dsimp only
  induction requested with
  | nil => rfl
  | cons id requested ih =>
    cases hfind : row.cells.reverse.find? fun cell => cell.column == id with
    | none =>
      have hmem : id ∉ row.cells.map Cell.column := by
        rw [List.find?_eq_none] at hfind
        simpa using hfind
      rw [List.filter_cons_of_neg (by simpa using hmem), ← ih]
      simp only [List.filterMap_cons, hfind]
    | some cell =>
      have hid : cell.column = id := by simpa using List.find?_some hfind
      have hmem : id ∈ row.cells.map Cell.column :=
        hid ▸ List.mem_map_of_mem (List.mem_reverse.mp (List.mem_of_find?_eq_some hfind))
      rw [List.filter_cons_of_pos (by simpa using hmem), ← ih]
      simp only [List.filterMap_cons, hfind, List.map_cons, hid]

end TableRow

namespace Engine

variable {e : Engine} {now : Moment} {session : Session} {find : Template → Run TableRows}
  {t : Table} {rows filled : List TableRow}

/-- A column is filled into rows: it is linked, and the first row has a cell of it. -/
def Overwrites (t : Table) (rows : List TableRow) (c : Column) (l : Link) : Prop :=
  ∃ first ∈ rows.head?, (c, l) ∈ linkedColumns t first

/-- Of all the times at which a column is filled, the last one counts. -/
theorem exists_last_fill {linked : List (Column × Link)} {p : Column × Link} (hp : p ∈ linked)
    (hsame : ∀ q ∈ linked, q.1.id = p.1.id → q = p)
    (h : (e.fillColumns find linked rows).result = .ok filled) :
    ∃ mid found,
      List.Forall₂ (TableRow.FilledIn fun id => ∃ q ∈ linked, q.1.id = id) rows mid ∧
      (e.lookup find p.2 mid).result = .ok found ∧
      List.Forall₂ (TableRow.FilledIn fun id => id ≠ p.1.id) (mid.map (fillRow p.1 p.2 found))
        filled := by
  induction linked generalizing rows with
  | nil => cases hp
  | cons q linked ih =>
    rw [List.forall_mem_cons] at hsame
    simp only [fillColumns, Run.result_bind_eq_ok_iff] at h
    obtain ⟨found, hfound, h⟩ := h
    by_cases hlater : p ∈ linked
    · obtain ⟨mid, found', hmid, hlookup, hrest⟩ := ih hlater hsame.2 h
      refine ⟨mid, found', ?_, hlookup, hrest⟩
      rw [List.forall₂_map_left_iff] at hmid
      refine hmid.imp fun row full hfull => ?_
      have hfirst : row.FilledIn (fun id => ∃ r ∈ q :: linked, r.1.id = id)
          (fillRow q.1 q.2 found row) :=
        filledIn_fillRow ⟨q, List.mem_cons_self, rfl⟩ q.2 found row
      refine hfirst.trans (hfull.imp ?_)
      rintro id ⟨r, hr, hid⟩
      exact ⟨r, List.mem_cons_of_mem q hr, hid⟩
    · obtain rfl : p = q := by
        rcases List.mem_cons.mp hp with rfl | hlater'
        · rfl
        · exact absurd hlater' hlater
      refine ⟨rows, found, ?_, hfound, ?_⟩
      · rw [List.forall₂_same]
        exact fun row _ => .refl row
      · refine filledIn_fillColumns (fun q hq hid => hlater ?_) h
        rwa [hsame.2 q hq hid] at hq

/-- What is filled into the cell of a column: what was found for the local value, or the value for
null. -/
def filledValue (c : Column) (l : Link) (found : Findings) (row : TableRow) : Value :=
  ((row.value? l.localColumn).bind fun v => found.lookup v.display).getD c.emptyValue

theorem filledValue_eq_or_tells {found : Findings} (c : Column) {l : Link}
    (h : (e.lookup find l rows).result = .ok found) (row : TableRow) :
    filledValue c l found row = c.emptyValue ∨
      ∃ text, Tells find l text (filledValue c l found row) := by
  unfold filledValue
  cases hw : (row.value? l.localColumn).bind fun v => found.lookup v.display with
  | none => exact .inl rfl
  | some w =>
    obtain ⟨v, -, hw⟩ := Option.bind_eq_some_iff.mp hw
    exact .inr ⟨v.display, tells_of_lookup h hw⟩

/-- What is filled into the cell of a linked column of a row: what a row of the other table says
about some text, or the value for null. Where the local column is not filled itself, the text is
that of the local value of the row. -/
def Supplies (e : Engine) (find : Template → Run TableRows) (t : Table) (rows : List TableRow)
    (c : Column) (l : Link) (row : TableRow) (w : Value) : Prop :=
  (w = c.emptyValue ∨ ∃ text, Tells find l text w) ∧
    ((∀ c' l', Overwrites t rows c' l' → c'.id ≠ l.localColumn) →
      ∃ found, (e.lookup find l rows).result = .ok found ∧ w = filledValue c l found row)

/-- How an answer shows a row of the driver: with its id, and with those of the columns asked for
that it has, in the order of the template. The only cell of a column is shown as it is, unless the
column is filled into the rows. Then the cell keeps its link and address, and shows what was filled
in. -/
structure PassedThrough (e : Engine) (find : Template → Run TableRows) (t : Table)
    (rows : List TableRow) (requested : List String) (row shown : TableRow) : Prop where
  id_eq : shown.id = row.id
  map_column_eq : shown.cells.map Cell.column =
    requested.filter fun id => id ∈ row.cells.map Cell.column
  cell?_eq : ∀ cell, row.Carries cell → cell.column ∈ requested →
    (∀ c l, Overwrites t rows c l → c.id ≠ cell.column) → shown.cell? cell.column = some cell
  overwritten : ∀ cell c l, row.Carries cell → cell.column ∈ requested →
    Overwrites t rows c l → c.id = cell.column →
    ∃ w, Supplies e find t rows c l row w ∧
      shown.cell? cell.column = some { cell with value := w, values := [w] }

theorem overwrites_cons_iff {first : TableRow} {rest : List TableRow} {c : Column} {l : Link} :
    Overwrites t (first :: rest) c l ↔ (c, l) ∈ linkedColumns t first := by
  simp [Overwrites]

/-- Filling changes the cells of the columns that are filled into the rows. -/
theorem filledIn_overwrites (h : (e.outbound find t rows).result = .ok filled) :
    List.Forall₂ (TableRow.FilledIn fun id => ∃ c l, Overwrites t rows c l ∧ c.id = id) rows
      filled := by
  cases rows with
  | nil =>
    cases h
    exact .nil
  | cons first rest =>
    exact filledIn_fillColumns (fun p hp => ⟨p.1, p.2, overwrites_cons_iff.mpr hp, rfl⟩) h

/-- The only cell of a column shows what is filled in. -/
theorem carries_fillRow {row : TableRow} {cell : Cell} (hcell : row.Carries cell) {c : Column}
    (hid : c.id = cell.column) (l : Link) (found : Findings) :
    (fillRow c l found row).Carries
      { cell with value := filledValue c l found row, values := [filledValue c l found row] } := by
  have hfill : row.FilledIn (fun _ => True) (fillRow c l found row) :=
    filledIn_fillRow trivial l found row
  obtain ⟨full, hfull, hrefilled, -⟩ := hfill.exists_carries hcell
  have hshown := hfull.cell?_eq
  rw [hrefilled.column_eq, ← hid, cell?_fillRow, hid, hcell.cell?_eq, Option.map_some,
    Option.some.injEq] at hshown
  subst hshown
  exact hfull

/-- The cells of a column that is filled into rows. -/
theorem filled_of_overwrites {c : Column} {l : Link} (hover : Overwrites t rows c l)
    (h : (e.outbound find t rows).result = .ok filled) :
    List.Forall₂ (fun row full => ∀ cell, row.Carries cell → c.id = cell.column →
      ∃ w, Supplies e find t rows c l row w ∧
        full.Carries { cell with value := w, values := [w] }) rows filled := by
  cases rows with
  | nil =>
    cases h
    exact .nil
  | cons first rest =>
    simp only [overwrites_cons_iff, Supplies] at hover ⊢
    -- The table tells the link of a column, so a column is always filled in the same way.
    have hsame : ∀ q ∈ linkedColumns t first, q.1.id = c.id → q = (c, l) := by
      intro q hq hid
      obtain ⟨-, hc, hl⟩ := mem_linkedColumns_iff.mp hover
      obtain ⟨-, hqc, hql⟩ := mem_linkedColumns_iff.mp hq
      rw [hid, hc] at hqc
      obtain rfl := Option.some.inj hqc
      rw [hl] at hql
      obtain rfl := Option.some.inj hql
      rfl
    obtain ⟨mid, found, hmid, hfound, hlast⟩ := exists_last_fill hover hsame h
    have hlocal (hstays : ∀ c' l', (c', l') ∈ linkedColumns t first → c'.id ≠ l.localColumn)
        {row own : TableRow} (hown : row.FilledIn
          (fun id => ∃ q ∈ linkedColumns t first, q.1.id = id) own) :
        row.value? l.localColumn = own.value? l.localColumn := by
      refine congrArg (Option.map Cell.value) (hown.cell?_eq ?_).symm
      rintro ⟨q, hq, hid⟩
      exact hstays q.1 q.2 hq hid
    rw [List.forall₂_map_left_iff] at hlast
    refine forall₂_trans hmid hlast fun row _ own full hown hfull cell hcell hid => ?_
    obtain ⟨before, hbefore, hrefilled, -⟩ := hown.exists_carries hcell
    have hcolumn := hid.trans hrefilled.column_eq.symm
    obtain ⟨last, hlast, -, hkept⟩ :=
      hfull.exists_carries (carries_fillRow hbefore hcolumn l found)
    obtain rfl := hkept (not_not.mpr hcolumn.symm)
    rw [hrefilled.column_eq, hrefilled.link_eq, hrefilled.href_eq, hrefilled.hrefStyle_eq] at hlast
    refine ⟨filledValue c l found own, ⟨filledValue_eq_or_tells c hfound own, fun hstays =>
      ⟨found, ?_, ?_⟩⟩, hlast⟩
    · rwa [lookup_eq_of_values (forall₂_map_eq hmid fun _ _ hown => hlocal hstays hown)]
    · rw [filledValue, filledValue, hlocal hstays hown]

/-- So rows pass through filling, but for the cells of the columns that are filled. -/
theorem passedThrough_of_filled {requested : List String} {row full shown : TableRow}
    (hframe : row.FilledIn (fun id => ∃ c l, Overwrites t rows c l ∧ c.id = id) full)
    (hfilled : ∀ c l, Overwrites t rows c l → ∀ cell, row.Carries cell → c.id = cell.column →
      ∃ w, Supplies e find t rows c l row w ∧
        full.Carries { cell with value := w, values := [w] })
    (hid : shown.id = full.id) (hcells : shown.cells = (full.onlyCells requested).cells) :
    e.PassedThrough find t rows requested row shown := by
  have hcell (id : String) : shown.cell? id = (full.onlyCells requested).cell? id := by
    rw [TableRow.cell?, hcells, TableRow.cell?]
  refine ⟨hid.trans hframe.id_eq, ?_, fun cell hcarries hmem hstays => ?_,
    fun cell c l hcarries hmem hover hid => ?_⟩
  · rw [hcells, TableRow.map_column_onlyCells_eq_filter, hframe.map_column_eq]
  · obtain ⟨last, hlast, -, hkept⟩ := hframe.exists_carries hcarries
    obtain rfl := hkept (by rintro ⟨c, l, hover, hid⟩; exact hstays c l hover hid)
    rw [hcell, hlast.cell?_onlyCells hmem]
  · obtain ⟨w, hw, hlast⟩ := hfilled c l hover cell hcarries hid
    exact ⟨w, hw, (hcell _).trans (hlast.cell?_onlyCells hmem)⟩

theorem passedThrough_of_answer {f : Fetch} {requested : List String} {fetched : Fetched}
    {answer : TableRows}
    (h : (e.answer session find false f requested fetched).result = .ok answer) :
    ∃ rows, f.table.rows e.options f.output fetched.rows = .ok rows ∧
      List.Forall₂ (fun stored shown => ∀ given, stored = .typed given →
        e.PassedThrough find f.table rows requested given shown) fetched.rows answer.rows := by
  obtain ⟨rows, full, aggregates, final, hrows, hfull, -, hfinal, rfl⟩ := answer_eq_ok_iff.mp h
  refine ⟨rows, hrows, ?_⟩
  have hoffered := Table.sameCells_of_withOffers (Run.result_ofExcept_eq_ok_iff.mp hfinal)
  rw [List.forall₂_map_left_iff] at hoffered
  have hframe := List.forall₂_iff_zip.mp (filledIn_overwrites hfull)
  have hfilled : List.Forall₂ (fun row full =>
      row.FilledIn (fun id => ∃ c l, Overwrites f.table rows c l ∧ c.id = id) full ∧
      ∀ c l, Overwrites f.table rows c l → ∀ cell, row.Carries cell → c.id = cell.column →
        ∃ w, Supplies e find f.table rows c l row w ∧
          full.Carries { cell with value := w, values := [w] }) rows full :=
    List.forall₂_iff_zip.mpr ⟨hframe.1, fun hmem => ⟨hframe.2 hmem, fun c l hover =>
      (List.forall₂_iff_zip.mp (filled_of_overwrites hover hfull)).2 hmem⟩⟩
  have hshown := forall₂_trans hfilled hoffered
    (T := fun row shown => e.PassedThrough find f.table rows requested row shown)
    fun row _ full shown hrow hshown => passedThrough_of_filled hrow.1 hrow.2 hshown.1 hshown.2
  refine forall₂_trans (Table.rows_eq_ok_iff.mp hrows) hshown ?_
  rintro stored - row shown hrow hshown given rfl
  cases hrow
  exact hshown

/-- What an answer shows of rows that are answers already, whatever the driver: their ids, and the
only cells of their columns as they are, but for those of linked columns of which the first row has
a cell. Such a cell shows what is filled in, whatever it was, and so stays as it is only if it
showed this already. -/
theorem findRows_passedThrough {template : Template} {answer : TableRows}
    (h : (e.findRows now session template).result = .ok answer) :
    ∃ t, e.registry.table? template.table = some t ∧
      (((∀ conditions, ¬ e.AsksFor now session t template.onlyVisible conditions) ∧
          answer.rows = []) ∨
        ∃ conditions d fetched rows, e.AsksFor now session t template.onlyVisible conditions ∧
          e.driver t.id = .ok d ∧
          d.fetch now session (t.fetchFor template.onlyVisible conditions) = .fetched fetched ∧
          t.rows e.options (t.fetchColumns template.onlyVisible.outputIds conditions)
            fetched.rows = .ok rows ∧
          List.Forall₂ (fun stored shown => ∀ given, stored = .typed given →
            e.PassedThrough (e.findSimple now session (e.columnCount + 1)) t rows
              template.onlyVisible.outputIds given shown) fetched.rows answer.rows) := by
  obtain ⟨t, ht, -, h⟩ := find_eq_ok_iff.mp h
  refine ⟨t, ht, ?_⟩
  rcases h with ⟨hnothing, rfl⟩ | ⟨conditions, d, fetched, hasks, hd, hf, ha⟩
  · exact .inl ⟨hnothing.not_asksFor, rfl⟩
  · obtain ⟨rows, hrows, hshown⟩ := passedThrough_of_answer ha
    exact .inr ⟨conditions, d, fetched, rows, hasks, hd, hf, hrows, hshown⟩

end Engine

/-! ## Items that are answers already -/

namespace Stock

open Sample (clock visitor)

/-- The name of a bolt, which the driver tells with an address. -/
def readyName : Cell :=
  { Cell.plain "MatName" (.string "Bolt") with
    values := [.string "Bolt"], href := some "/materials/bolt" }

/-- An item with the name of its material, but without the material. -/
def ready : TableRow := ⟨"S1", [.plain "Id" (.string "S1"), readyName], []⟩

def readyEngine : Engine :=
  { engine with
    drivers := [("Material", (memory "Material").driver),
      ("Stock", (⟨[.typed ready], 100000, []⟩ : Memory).driver)] }

/-- All items with the names of their materials before their ids. -/
def names : Template :=
  .temporary "Stock" ⟨[], [.plain "MatName", .plain "Id"]⟩ .all

/-- The item passes through with its id. -/
theorem ready_passed : ∃ answer,
    (readyEngine.findRows clock visitor names).result = .ok answer ∧
      (answer.rows.map fun row => (row.id, row.cells.map Cell.column)) =
        [("S1", ["MatName", "Id"])] ∧
      List.Forall₂ (fun stored shown => ∀ given, stored = StoredRow.typed given →
        readyEngine.PassedThrough
          (readyEngine.findSimple clock visitor (readyEngine.columnCount + 1)) items [ready]
          ["MatName", "Id"] given shown) [.typed ready] answer.rows := by
  have hshown : ((readyEngine.findRows clock visitor names).result.map fun answer =>
      answer.rows.map fun row => (row.id, row.cells.map Cell.column)) =
        .ok [("S1", ["MatName", "Id"])] := by
    cbv
  obtain ⟨answer, hanswer, hshown⟩ := Except.map_eq_ok_iff.mp hshown
  obtain ⟨t, ht, hpassed⟩ := Engine.findRows_passedThrough hanswer
  obtain rfl : items = t := Option.some.inj ht
  refine ⟨answer, hanswer, hshown, ?_⟩
  have hasks : readyEngine.AsksFor clock visitor items names.onlyVisible [] :=
    ⟨[], [], [], rfl, rfl, rfl⟩
  rcases hpassed with ⟨hnone, -⟩ | ⟨conditions, d, fetched, rows, hc, hd, hfetch, hrows, hpassed⟩
  · exact absurd hasks (hnone [])
  · obtain rfl := hc.unique hasks
    obtain rfl : (⟨[.typed ready], 100000, []⟩ : Memory).driver = d :=
      Option.some.inj (Engine.driver_eq_ok_iff.mp hd)
    have hall : (⟨[.typed ready], 100000, []⟩ : Memory).driver.fetch clock visitor
        (items.fetchFor names.onlyVisible []) = .fetched ⟨[.typed ready], [], ⟨0, 0, 1, 1⟩⟩ := by
      rfl
    obtain rfl := Reply.fetched.inj (hfetch.symm.trans hall)
    cases hrows
    exact hpassed

/-- The name is lost: the column is linked, and there is no material to look it up by. -/
theorem ready_name_overwritten : (⟨[materials, items]⟩ : Registry).Registered ∧
    (⟨[materials, items]⟩ : Registry).validateLinks = .ok readyEngine.registry ∧
    ready.Carries readyName ∧ readyName.column ∈ names.onlyVisible.outputIds ∧
    (readyEngine.findRows clock visitor names).result.map
      (fun answer => answer.rows.map fun row => row.cell? "MatName") =
        .ok [some { readyName with value := .string "", values := [.string ""] }] ∧
    { readyName with value := .string "", values := [.string ""] } ≠ readyName := by
  refine ⟨?_, by cbv, by rfl, by decide, by cbv, fun h => by
    simpa [readyName, Cell.plain] using congrArg Cell.value h⟩
  have hfirst : Registry.empty.register materials = .ok ⟨[materials]⟩ := rfl
  have hsecond : (⟨[materials]⟩ : Registry).register items = .ok ⟨[materials, items]⟩ := by rfl
  exact .register (.register .empty hfirst) hsecond

end Stock

end TableQuery
