import TableQuery.Proofs.Query.Shape

/-!
# Complete linked cells

A linked cell shows the value of a row that its own lookup came to and that belongs to the local
value of its row, and the value for null only where there is no such row. Columns are filled one
after the other into the same rows, so this needs that no column changes what another one is looked
up by, or what it was filled with.

## Main definitions

* `Engine.FoundFor` — a row of the other table was found for a text.
* `Engine.Complete` — a linked cell is filled as far as it can be.

## Main results

* `Engine.lookup_findings`, `Engine.lookup_lookupEach` — what lookups say about a text.
* `Engine.outbound_complete` — filled rows are complete.
-/

namespace TableQuery

/-- A row shows the column searched in and the column whose value is taken. -/
def Link.ShownBy (l : Link) (row : TableRow) : Prop :=
  ∃ s w, row.value? l.searchColumn = some s ∧ row.value? l.valueColumn = some w

theorem Link.shownBy_of_columns {l : Link} {row : TableRow}
    (h : row.cells.map Cell.column = l.output.map OutputColumn.column) : l.ShownBy row := by
  obtain ⟨hsearch, hvalue⟩ := l.mem_output
  rw [← h] at hsearch hvalue
  obtain ⟨s, hs⟩ := TableRow.exists_value? hsearch
  obtain ⟨w, hw⟩ := TableRow.exists_value? hvalue
  exact ⟨s, w, hs, hw⟩

/-- The value in the first row of an answer. -/
def Link.firstValue? (l : Link) (answer : TableRows) : Option Value :=
  answer.rows.head?.bind fun r => r.value? l.valueColumn

/-- Rows that a driver answers with are stored rows, not answers already. -/
def Driver.GivesStored (d : Driver) (now : Moment) (session : Session) : Prop :=
  ∀ f fetched, d.fetch now session f = .fetched fetched → ∀ row, .typed row ∉ fetched.rows

theorem Memory.givesStored_driver {m : Memory} (h : ∀ row, .typed row ∉ m.rows) (now : Moment)
    (session : Session) : m.driver.GivesStored now session := by
  intro f fetched hf row hrow
  exact h row (mem_rows_of_fetch (ask_eq_ok_iff.mp (Driver.ask_eq_ok_iff.mpr hf)) hrow)

namespace Engine

variable {e : Engine} {find : Template → Run TableRows} {l : Link} {search : Column}
  {rows filled : List TableRow} {found : Findings}

/-! ## What lookups say about a text -/

/-- Of the rows that show a text, the last one tells its value. -/
theorem lookup_findings {text : String} (hshown : ∀ r ∈ rows, l.ShownBy r) :
    (findings l rows).lookup text =
      (rows.reverse.find? fun r => (r.value? l.searchColumn).map Value.display == some text).bind
        fun r => r.value? l.valueColumn := by
  unfold findings
  rw [← List.filterMap_reverse]
  replace hshown : ∀ r ∈ rows.reverse, l.ShownBy r := fun r hr =>
    hshown r (List.mem_reverse.mp hr)
  generalize rows.reverse = reversed at hshown ⊢
  induction reversed with
  | nil => rfl
  | cons r rows ih =>
    rw [List.forall_mem_cons] at hshown
    obtain ⟨⟨s, w, hs, hw⟩, hrest⟩ := hshown
    simp only [List.filterMap_cons, hs, hw, Option.bind_eq_bind, Option.bind_some,
      List.lookup_cons, List.find?_cons, Option.map_some]
    by_cases htext : s.display = text
    · simp [htext, hw]
    · have hne : (some s.display == some text) = false := by simpa using htext
      rw [beq_eq_false_iff_ne.mpr (Ne.symm htext), hne]
      exact ih hrest

/-- What is answered where the values of rows are looked up one by one, for a value of a text. -/
def AnsweredFor (find : Template → Run TableRows) (l : Link) (search : Column)
    (rows : List TableRow) (text : String) (answer : TableRows) : Prop :=
  ∃ row ∈ rows, ∃ v key, l.sought? row = some v ∧ search.retyped v = .ok key ∧
    key.display = text ∧ (find (l.template Builtin.eq [key] ⟨0, 1⟩)).result = .ok answer

theorem answeredFor_cons_iff {row : TableRow} {text : String} {answer : TableRows} :
    AnsweredFor find l search (row :: rows) text answer ↔
      (∃ v key, l.sought? row = some v ∧ search.retyped v = .ok key ∧ key.display = text ∧
        (find (l.template Builtin.eq [key] ⟨0, 1⟩)).result = .ok answer) ∨
      AnsweredFor find l search rows text answer :=
  List.exists_mem_cons_iff ..

/-- The first row asks one question, for the text of its key. -/
theorem answeredFor_cons_iff_of_sought {row : TableRow} {v key : Value} {own answer : TableRows}
    {text : String} (hv : l.sought? row = some v) (hkey : search.retyped v = .ok key)
    (hown : (find (l.template Builtin.eq [key] ⟨0, 1⟩)).result = .ok own) :
    AnsweredFor find l search (row :: rows) text answer ↔
      (key.display = text ∧ answer = own) ∨ AnsweredFor find l search rows text answer := by
  rw [answeredFor_cons_iff]
  refine or_congr_left ⟨?_, ?_⟩
  · rintro ⟨v', key', hv', hkey', htext, hanswer⟩
    obtain rfl := Option.some.inj (hv.symm.trans hv')
    obtain rfl := Except.ok.inj (hkey.symm.trans hkey')
    exact ⟨htext, Except.ok.inj (hanswer.symm.trans hown)⟩
  · rintro ⟨htext, rfl⟩
    exact ⟨v, key, hv, hkey, htext, hown⟩

/-- One by one, a text gets the value of an answer for it, unless all answers for it are empty. -/
theorem lookup_lookupEach {found' : Findings} (text : String)
    (h : (lookupEach find l search found rows).result = .ok found') :
    (∃ answer w, AnsweredFor find l search rows text answer ∧ l.firstValue? answer = some w ∧
        found'.lookup text = some w) ∨
      (found'.lookup text = found.lookup text ∧
        ∀ answer, AnsweredFor find l search rows text answer → l.firstValue? answer = none) := by
  induction rows generalizing found with
  | nil =>
    cases h
    refine .inr ⟨rfl, ?_⟩
    rintro answer ⟨row, hrow, -⟩
    cases hrow
  | cons row rows ih =>
    rw [lookupEach, ← Link.sought?] at h
    cases hv : l.sought? row with
    | none =>
      rw [hv] at h
      simpa [answeredFor_cons_iff, hv] using ih h
    | some v =>
      simp only [hv, Run.liftM_eq_ofExcept, Run.result_bind_eq_ok_iff,
        Run.result_ofExcept_eq_ok_iff] at h
      obtain ⟨key, hkey, answer, hanswer, h⟩ := h
      simp only [answeredFor_cons_iff_of_sought hv hkey hanswer]
      rw [← Link.firstValue?] at h
      cases htold : l.firstValue? answer with
      | none =>
        rw [htold] at h
        rcases ih h with ⟨later, w, hfor, hw, hlookup⟩ | ⟨hlookup, hnone⟩
        · exact .inl ⟨later, w, .inr hfor, hw, hlookup⟩
        · refine .inr ⟨hlookup, ?_⟩
          rintro answer' (⟨-, rfl⟩ | hfor)
          · exact htold
          · exact hnone answer' hfor
      | some told =>
        rw [htold] at h
        rcases ih h with ⟨later, w, hfor, hw, hlookup⟩ | ⟨hlookup, hnone⟩
        · exact .inl ⟨later, w, .inr hfor, hw, hlookup⟩
        · rw [List.lookup_cons] at hlookup
          by_cases htext : key.display = text
          · refine .inl ⟨answer, told, .inl ⟨htext, rfl⟩, htold, ?_⟩
            rw [hlookup, beq_iff_eq.mpr htext.symm]
          · refine .inr ⟨?_, ?_⟩
            · rw [hlookup, beq_eq_false_iff_ne.mpr (Ne.symm htext)]
            · rintro answer' (⟨htext', -⟩ | hfor)
              · exact absurd htext' htext
              · exact hnone answer' hfor

/-! ## Rows of the other table -/

/-- A row of the other table was found for a text. Where all values are looked up at once, it is
any row that shows the text; where they are looked up one by one, it comes first for a value of the
text. -/
inductive FoundFor (find : Template → Run TableRows) (l : Link) (search : Column)
    (rows : List TableRow) (text : String) (r : TableRow) : Prop where
  | listed {keys : List Value} {answer : TableRows}
      (hin : search.supports Builtin.isIn = true) (hkeys : localKeys l search [] rows = .ok keys)
      (hne : keys ≠ []) (h : (find (l.template Builtin.isIn keys .all)).result = .ok answer)
      (hr : r ∈ answer.rows) (hs : (r.value? l.searchColumn).map Value.display = some text)
  | first {answer : TableRows} (hin : search.supports Builtin.isIn = false)
      (h : AnsweredFor find l search rows text answer) (hr : answer.rows.head? = some r)

/-- A linked cell shows the value of a row that was found for the text of the local value, or the
value for null if no row was found. -/
def Complete (find : Template → Run TableRows) (c : Column) (l : Link) (search : Column)
    (rows : List TableRow) (row full : TableRow) : Prop :=
  ∃ cell, full.cell? c.id = some cell ∧ cell.values = [cell.value] ∧
    ((∃ v r, row.value? l.localColumn = some v ∧ FoundFor find l search rows v.display r ∧
        r.value? l.valueColumn = some cell.value) ∨
      ((∀ v r, row.value? l.localColumn = some v → ¬ FoundFor find l search rows v.display r) ∧
        cell.value = c.emptyValue))

section Lookup

variable {remote : Table}
  (hremote : e.registry.table? l.table = some remote)
  (hsearch : remote.column? l.searchColumn = some search)
  (hshown : ∀ operator values page answer,
    (find (l.template operator values page)).result = .ok answer → ∀ r ∈ answer.rows, l.ShownBy r)
  (h : (e.lookup find l rows).result = .ok found)

include hremote hsearch hshown h

/-- A lookup has a value for a text exactly if it found a row for it, and it is the value of such a
row. -/
theorem foundFor_of_lookup (text : String) :
    (∃ r w, FoundFor find l search rows text r ∧ r.value? l.valueColumn = some w ∧
        found.lookup text = some w) ∨
      (found.lookup text = none ∧ ∀ r, ¬ FoundFor find l search rows text r) := by
  rcases lookup_cases hremote hsearch h with ⟨hin, h⟩ | ⟨hin, h⟩
  · obtain ⟨keys, hkeys, ⟨rfl, rfl⟩ | ⟨hne, answer, hanswer, rfl⟩⟩ := lookupAll_eq_ok_iff.mp h
    · refine .inr ⟨rfl, ?_⟩
      rintro r (⟨-, hkeys', hne, -⟩ | ⟨hin', -⟩)
      · exact hne (Except.ok.inj (hkeys'.symm.trans hkeys))
      · cases hin.symm.trans hin'
    · have hrows := hshown _ _ _ _ hanswer
      rw [lookup_findings hrows]
      cases hfind : answer.rows.reverse.find? fun r =>
          (r.value? l.searchColumn).map Value.display == some text with
      | some r =>
        have hr := List.mem_reverse.mp (List.mem_of_find?_eq_some hfind)
        obtain ⟨s, w, -, hw⟩ := hrows r hr
        have htext : (r.value? l.searchColumn).map Value.display = some text := by
          simpa using List.find?_some hfind
        exact .inl ⟨r, w, .listed hin hkeys hne hanswer hr htext, hw, hw⟩
      | none =>
        refine .inr ⟨rfl, ?_⟩
        rintro r (⟨-, hkeys', -, hanswer', hr, htext⟩ | ⟨hin', -⟩)
        · obtain rfl := Except.ok.inj (hkeys.symm.trans hkeys')
          obtain rfl := Except.ok.inj (hanswer.symm.trans hanswer')
          exact List.find?_eq_none.mp hfind r (List.mem_reverse.mpr hr) (beq_iff_eq.mpr htext)
        · cases hin.symm.trans hin'
  · rcases lookup_lookupEach text h with ⟨answer, w, hfor, htold, hlookup⟩ | ⟨hlookup, hnone⟩
    · obtain ⟨r, hr, hw⟩ := Option.bind_eq_some_iff.mp htold
      exact .inl ⟨r, w, .first hin hfor hr, hw, hlookup⟩
    · refine .inr ⟨hlookup, ?_⟩
      rintro r (⟨hin', -⟩ | ⟨-, hfor, hr⟩)
      · cases hin.symm.trans hin'
      · have htold := hnone _ hfor
        obtain ⟨-, -, v, key, -, -, -, hanswer⟩ := hfor
        obtain ⟨s, w, -, hw⟩ := hshown _ _ _ _ hanswer r (List.mem_of_mem_head? hr)
        rw [Link.firstValue?, hr, Option.bind_some, hw] at htold
        cases htold

theorem complete_of_lookup {c : Column} {row full : TableRow}
    (hcell : c.id ∈ row.cells.map Cell.column)
    (hfull : full.cell? c.id = (fillRow c l found row).cell? c.id) :
    Complete find c l search rows row full := by
  obtain ⟨cell, hcell⟩ := TableRow.exists_cell? hcell
  rw [cell?_fillRow, hcell, Option.map_some] at hfull
  refine ⟨_, hfull, rfl, ?_⟩
  dsimp only
  cases hv : row.value? l.localColumn with
  | none => exact .inr ⟨by simp, rfl⟩
  | some v =>
    rw [Option.bind_some]
    rcases foundFor_of_lookup hremote hsearch hshown h v.display with
      ⟨r, w, hfor, hw, hlookup⟩ | ⟨hlookup, hnone⟩
    · exact .inl ⟨v, r, rfl, hfor, by rw [hlookup, hw, Option.getD_some]⟩
    · refine .inr ⟨?_, by rw [hlookup, Option.getD_none]⟩
      intro v' r hv'
      obtain rfl := Option.some.inj hv'
      exact hnone r

end Lookup

/-! ## Questions of links -/

section FindSimple

variable {now : Moment} {session : Session} {remote t : Table}

/-- What a simple run shows are stored rows with the cells asked for. -/
theorem exists_row_of_findSimple {template : Template}
    (hremote : e.registry.table? template.table = some remote)
    (hd : ∀ d, e.drivers.lookup remote.id = some d → d.GivesStored now session) {depth : Nat}
    {answer : TableRows}
    (h : (e.findSimple now session depth template).result = .ok answer) :
    ∀ shown ∈ answer.rows, ∃ conditions stored row, (∀ r, stored ≠ .typed r) ∧
      remote.row e.options stored (remote.fetchColumns template.outputIds conditions) = .ok row ∧
      shown = row.onlyCells template.outputIds := by
  cases depth with
  | zero => cases h
  | succ depth =>
    obtain ⟨remote', direct, linked, hremote', -, -, h⟩ := findOnce_eq_ok_iff.mp h
    obtain rfl := Option.some.inj (hremote.symm.trans hremote')
    rcases h with ⟨-, rfl⟩ | ⟨translated, d, fetched, -, hdriver, hf, ha⟩
    · simp [TableRows.empty]
    · obtain ⟨rows, aggregates, hrows, -, rfl⟩ := answer_simple_eq_ok_iff.mp ha
      have hgiven := hd d (driver_eq_ok_iff.mp hdriver) _ _ (Driver.ask_eq_ok_iff.mp hf)
      refine List.forall_mem_map.mpr fun row hrow => ?_
      obtain ⟨stored, htyped, hrow⟩ := Table.exists_stored_of_rows hrows hgiven hrow
      exact ⟨_, stored, row, htyped, hrow, rfl⟩

/-- Rows that a question with the output of a link finds show both columns of the link. -/
theorem shownBy_of_output (hremote : e.registry.table? l.table = some remote)
    (hd : ∀ d, e.drivers.lookup remote.id = some d → d.GivesStored now session) {depth : Nat}
    {template : Template} (htable : template.table = l.table)
    (houtput : template.body.output = l.output) {answer : TableRows}
    (h : (e.findSimple now session depth template).result = .ok answer) :
    ∀ r ∈ answer.rows, l.ShownBy r := by
  intro r hr
  rw [← htable] at hremote
  obtain ⟨conditions, stored, row, htyped, hrow, rfl⟩ := exists_row_of_findSimple hremote hd h r hr
  apply Link.shownBy_of_columns
  rw [← houtput]
  apply TableRow.map_column_onlyCells
  rw [Table.map_column_of_row hrow htyped]
  exact fun id hid => Table.mem_fetchColumns_of_mem _ hid

/-- Rows that the question of a link finds show both columns of the link. -/
theorem shownBy_of_findSimple (hremote : e.registry.table? l.table = some remote)
    (hd : ∀ d, e.drivers.lookup remote.id = some d → d.GivesStored now session) {depth : Nat}
    {operator : String} {values : List Value} {page : PageRequest} {answer : TableRows}
    (h : (e.findSimple now session depth (l.template operator values page)).result = .ok answer) :
    ∀ r ∈ answer.rows, l.ShownBy r :=
  shownBy_of_output hremote hd rfl rfl h

/-! ## Filled rows -/

/-- The local columns of the columns asked for are fetched. -/
theorem localColumn_mem_fetchColumns {output : List String} (conditions : List RawCondition)
    {c : Column} (hid : c.id ∈ output) (hc : t.column? c.id = some c)
    (hl : c.outboundLink? = some l) : l.localColumn ∈ t.fetchColumns output conditions := by
  have hlink : l ∈ output.filterMap fun id => (t.column? id).bind Column.outboundLink? :=
    List.mem_filterMap.mpr ⟨c.id, hid, by rw [hc, Option.bind_some, hl]⟩
  rw [Table.fetchColumns, Table.mem_firstOfEach, List.mem_append, List.mem_append, List.mem_append]
  exact .inl (.inl (.inr (List.mem_map_of_mem hlink)))

/-- Where filling linked cells succeeds, every row keeps its id and all its cells but those of
linked columns, of which only the values change. Each cell of a column whose local column is stored
is complete, and the local values of columns that were asked for are there. -/
theorem outbound_complete {output : List String} {conditions : List RawCondition}
    {stored : List StoredRow}
    (hrows : t.rows e.options (t.fetchColumns output conditions) stored = .ok rows)
    (hstored : ∀ row, .typed row ∉ stored)
    (hremote : ∀ l remote d, t.HasLink l → e.registry.table? l.table = some remote →
      e.drivers.lookup remote.id = some d → d.GivesStored now session)
    (h : (e.outbound (e.findSimple now session (e.columnCount + 1)) t rows).result = .ok filled) :
    List.Forall₂ (fun row full =>
      row.FilledIn (fun id => ∃ c, t.column? id = some c ∧ c.isOutbound = true) full ∧
      ∀ c l, c.id ∈ row.cells.map Cell.column → t.column? c.id = some c →
        c.outboundLink? = some l → t.Stores l.localColumn →
        (c.id ∈ output → ∃ v, row.value? l.localColumn = some v) ∧
        ∃ remote search, e.registry.table? l.table = some remote ∧
          remote.column? l.searchColumn = some search ∧
          Complete (e.findSimple now session (e.columnCount + 1)) c l search rows row full)
      rows filled := by
  have hcolumns : ∀ row ∈ rows, row.cells.map Cell.column = t.fetchColumns output conditions := by
    intro row hrow
    obtain ⟨s, hs, hrow⟩ := forall₂_exists_left (Table.rows_eq_ok_iff.mp hrows) hrow
    refine Table.map_column_of_row hrow ?_
    rintro r rfl
    exact hstored r hs
  have hframe := filledIn_outbound h
  rw [List.forall₂_iff_zip] at hframe ⊢
  refine ⟨hframe.1, ?_⟩
  intro row full hmem
  refine ⟨hframe.2 hmem, ?_⟩
  intro c l hid hc hl hlocal
  have hrow := (List.of_mem_zip hmem).1
  refine ⟨fun hasked => ?_, ?_⟩
  · apply TableRow.exists_value?
    rw [hcolumns row hrow]
    exact localColumn_mem_fetchColumns conditions hasked hc hl
  · cases rows with
    | nil => cases hrow
    | cons first rest =>
      -- All rows have the same columns, so the first row tells of this one too.
      have hfirst := hcolumns first List.mem_cons_self
      have hlinked : (c, l) ∈ linkedColumns t first := by
        refine mem_linkedColumns_iff.mpr ⟨?_, hc, hl⟩
        rwa [hfirst, ← hcolumns row hrow]
      have hn : ((linkedColumns t first).map fun q => q.1.id).Nodup := by
        refine .sublist (sublist_linkedColumns t first) ?_
        rw [hfirst]
        exact nodup_firstOfEach _
      obtain ⟨found, hfound, hcells⟩ := filled_of_mem hlinked hn
        (fun q hq => id_ne_of_mem_linkedColumns hq hlocal) h
      obtain ⟨remote, search, value, htable, hsearch, -⟩ := lookup_eq_ok_iff.mp hfound
      refine ⟨remote, search, htable, hsearch, ?_⟩
      refine complete_of_lookup htable hsearch (fun operator values page answer hanswer => ?_)
        hfound hid ((List.forall₂_iff_zip.mp hcells).2 hmem)
      exact shownBy_of_findSimple htable (hremote l remote · ⟨c.id, c, hc, hl⟩ htable) hanswer

end FindSimple

end Engine

/-! ## The items of a depot -/

namespace Depot

open Sample (clock visitor)

def fetched : List String := items.fetchColumns question.outputIds []

/-- The name of the bolt is filled in, and the name of the missing material is empty. -/
theorem names_complete : ∃ rows filled,
    items.rows .empty fetched (memory (.text "2") "Stock").rows = .ok rows ∧
      ((engine (.text "2")).outbound ((engine (.text "2")).findSimple clock visitor
        ((engine (.text "2")).columnCount + 1)) items rows).result = .ok filled ∧
      (filled.map fun row => (row.id, (row.value? "MatName").map Value.display)) =
        [("S1", some "Bolt"), ("S2", some "")] ∧
      List.Forall₂ (fun row full =>
        row.FilledIn (fun id => ∃ c, items.column? id = some c ∧ c.isOutbound = true) full ∧
        ∀ c l, c.id ∈ row.cells.map Cell.column → items.column? c.id = some c →
          c.outboundLink? = some l → items.Stores l.localColumn →
          (c.id ∈ question.outputIds → ∃ v, row.value? l.localColumn = some v) ∧
          ∃ remote search, (engine (.text "2")).registry.table? l.table = some remote ∧
            remote.column? l.searchColumn = some search ∧
            Engine.Complete ((engine (.text "2")).findSimple clock visitor
              ((engine (.text "2")).columnCount + 1)) c l search rows row full)
        rows filled := by
  have hnames : ((Run.ofExcept (items.rows .empty fetched (memory (.text "2") "Stock").rows) >>=
      fun rows => (engine (.text "2")).outbound ((engine (.text "2")).findSimple clock visitor
        ((engine (.text "2")).columnCount + 1)) items rows).result.map fun filled =>
      filled.map fun row => (row.id, (row.value? "MatName").map Value.display)) =
        .ok [("S1", some "Bolt"), ("S2", some "")] := by
    cbv
  obtain ⟨filled, hfilled, hnames⟩ := Except.map_eq_ok_iff.mp hnames
  simp only [Run.result_bind_eq_ok_iff, Run.result_ofExcept_eq_ok_iff] at hfilled
  obtain ⟨rows, hrows, hfilled⟩ := hfilled
  refine ⟨rows, filled, hrows, hfilled, hnames,
    Engine.outbound_complete hrows (by simp [memory]) ?_ hfilled⟩
  rintro l remote d ⟨column, c, hc, hl⟩ hremote hd
  have hlinks : ∀ c ∈ items.columns, ∀ l, c.outboundLink? = some l → l.table = "Material" := by
    decide
  rw [hlinks c (Table.mem_of_column? hc) l hl] at hremote
  obtain rfl := Option.some.inj hremote
  obtain rfl := Option.some.inj hd
  exact Memory.givesStored_driver (by simp [memory]) clock visitor

end Depot

end TableQuery
