import TableQuery.Proofs.Driver.Sums
import TableQuery.Proofs.Query.PassedThrough

/-!
# Rows that are answered alone

A row of an answer is made of a stored row, of what other tables say about its local values, and of
its actions, and aggregates are computed besides. With the stored row alone all this is done once
more. Where only stored columns are shown, it leads to the same row.

## Main definitions

* `Engine.AnswersAlone` — the row that becomes of a stored row without other rows.

## Main results

* `Memory.exists_shown_total` — fewer values have an aggregate as well.
* `Table.exists_row_of_subset` — fewer columns can be shown as well.
* `Engine.answersAlone_of_own` — a row of stored columns is answered alone as it is.
-/

namespace TableQuery

/-! ## Aggregates -/

namespace Column

variable {c : Column} {options : OptionLists} {v : Value}

/-- Where one whole number can be shown, so can another one, but as an entry of an option list. -/
theorem exists_typed_int {i : Int64} (htype : c.type ≠ .choice)
    (h : c.typed options (.int i) = .ok v) (j : Int64) : ∃ w, c.typed options (.int j) = .ok w := by
  unfold typed at h ⊢
  cases hc : c.type <;> simp_all [Raw.isNull, textValue, Raw.argument?, wholeNumber, Raw.float?,
    boolValue, dateText, unshowable, Except.map]

/-- Where one double can be shown, so can another one. -/
theorem exists_typed_float {x : Float} (h : c.typed options (.float x) = .ok v) (y : Float) :
    ∃ w, c.typed options (.float y) = .ok w := by
  unfold typed at h ⊢
  cases hc : c.type
  case choice =>
    simp [hc, Raw.isNull, choiceId, wholeNumber, unshowable, Except.map_eq_ok_iff,
      Except.bind_eq_ok_iff] at h
  all_goals simp_all [Raw.isNull, textValue, Raw.argument?, wholeNumber, Raw.float?, boolValue,
    dateText, unshowable, Except.map]

end Column

namespace Memory

variable {c : Column} {values values' : List Raw}

/-- Where an aggregate over values can be shown, so can that over some of them. -/
theorem exists_shown_total {options : OptionLists} {id : String} {a : Aggregate} {value : Raw}
    {v : Value} (htype : c.type ≠ .choice) (hsub : values' ⊆ values)
    (h : total c a values = .ok value)
    (hv : Table.aggregateValue options c ⟨id, a, value⟩ = .ok v) :
    ∃ value' v', total c a values' = .ok value' ∧
      Table.aggregateValue options c ⟨id, a, value'⟩ = .ok v' := by
  cases a with
  | none => exact ⟨value, v, h, hv⟩
  | sum =>
    unfold total at h ⊢
    dsimp only at h ⊢
    split at h
    · next hinteger =>
      obtain ⟨s, hs, rfl⟩ := Except.map_eq_ok_iff.mp h
      have hall := exists_sumWhole_iff.mp ⟨s, hs⟩
      obtain ⟨s', hs'⟩ := exists_sumWhole_iff.mpr fun raw hraw => hall raw (hsub hraw)
      obtain ⟨w, hw⟩ := Column.exists_typed_int htype hv s'
      exact ⟨.int s', w, by rw [if_pos hinteger, hs']; rfl, hw⟩
    · next hinteger =>
      obtain rfl := Except.ok.inj h
      obtain ⟨w, hw⟩ :=
        Column.exists_typed_float hv (sumFloats (values'.filterMap Raw.float?))
      exact ⟨_, w, by rw [if_neg hinteger], hw⟩
  | average =>
    have hshown : ∀ raw : Raw, raw = .null ∨ (∃ x, raw = .float x) →
        ∃ w, Table.aggregateValue options c ⟨id, .average, raw⟩ = .ok w := by
      rintro raw (rfl | ⟨x, rfl⟩)
      · exact ⟨c.emptyValue, rfl⟩
      · exact ⟨.double x, rfl⟩
    unfold total
    dsimp only
    split_ifs with hempty
    · exact ⟨_, _, rfl, (hshown _ (.inl rfl)).choose_spec⟩
    · exact ⟨_, _, rfl, (hshown _ (.inr ⟨_, rfl⟩)).choose_spec⟩

end Memory

namespace Table

variable {t : Table} {options : OptionLists} {stored : StoredRow} {key : Column}

theorem exists_aggregates_iff {as : List AggregateColumn} {rows : List StoredRow} :
    (∃ raws results, as.mapM (Memory.aggregate t rows) = .ok raws ∧
      t.aggregates options raws = .ok results) ↔
      ∀ a ∈ as, ∃ c value v, t.column? a.column = some c ∧
        Memory.total c a.aggregate (Memory.counted c rows) = .ok value ∧
        aggregateValue options c ⟨a.column, a.aggregate, value⟩ = .ok v := by
  induction as with
  | nil => exact ⟨fun _ a ha => absurd ha List.not_mem_nil, fun _ => ⟨[], [], rfl, rfl⟩⟩
  | cons a as ih =>
    rw [List.forall_mem_cons, ← ih]
    simp only [List.mapM_cons, Except.bind_eq_ok_iff, Memory.aggregate_eq_ok_iff,
      Except.pure_eq_ok, Except.ok.injEq]
    constructor
    · rintro ⟨raws, results, ⟨raw, ⟨c, value, hc, hvalue, rfl⟩, rest, hrest, rfl⟩, hshown⟩
      simp only [aggregates, Except.bind_eq_ok_iff, column_eq_ok_iff] at hshown
      obtain ⟨c', hc', v, hv, results', hresults', -⟩ := hshown
      obtain rfl := Option.some.inj (hc.symm.trans hc')
      exact ⟨⟨c, value, v, hc, hvalue, hv⟩, rest, results', hrest, hresults'⟩
    · rintro ⟨⟨c, value, v, hc, hvalue, hv⟩, rest, results, hrest, hresults⟩
      refine ⟨_, ⟨c.id, c.name, a.aggregate, v⟩ :: results,
        ⟨_, ⟨c, value, hc, hvalue, rfl⟩, rest, hrest, rfl⟩, ?_⟩
      simp only [aggregates, column_eq_ok_iff.mpr hc, Except.ok_bind, hv, hresults]
      rfl

theorem withOffers_eq_ok_iff {session : Session} {rows shown : List TableRow} :
    t.withOffers session rows = .ok shown ↔
      List.Forall₂ (fun row full => ∃ actions, t.offers session row = .ok actions ∧
        full = { row with actions }) rows shown := by
  induction rows generalizing shown with
  | nil => simp [withOffers, eq_comm]
  | cons row rows ih =>
    simp only [withOffers, Except.bind_eq_ok_iff, ih, List.forall₂_cons_left_iff,
      Except.pure_eq_ok, Except.ok.injEq]
    constructor
    · rintro ⟨actions, hactions, rest, hrest, rfl⟩
      exact ⟨_, rest, ⟨actions, hactions, rfl⟩, hrest, rfl⟩
    · rintro ⟨full, rest, ⟨actions, hactions, rfl⟩, hrest, rfl⟩
      exact ⟨actions, hactions, rest, hrest, rfl⟩

/-- What can be shown with more columns can be shown with fewer ones, and looks the same. -/
theorem exists_row_of_subset {output output' requested : List String} {row : TableRow}
    (hkey : t.KeyedBy key) (hlink : key.outboundLink? = none) (hs : ∀ r, stored ≠ .typed r)
    (hmem : t.key ∈ output') (hsub : output' ⊆ output) (hrequested : requested ⊆ output')
    (h : t.row options stored output = .ok row) :
    ∃ row', t.row options stored output' = .ok row' ∧
      row'.onlyCells requested = row.onlyCells requested := by
  have honly : ∀ c ∈ t.columns, c.isKey = true → c = key := fun _ => hkey.eq_of_isKey
  obtain ⟨cells, id, hcells, hid, hrow⟩ := exists_of_row h hs
  obtain ⟨raw, value, hraw, hvalue, -⟩ :=
    id_of_row hkey.keyColumn?_eq honly hlink (hsub hmem) h hs
  obtain ⟨cells', hcells'⟩ : ∃ cells', t.cells options stored output' = .ok cells' := by
    simp only [cells_eq_ok_iff] at hcells ⊢
    refine exists_forall₂ fun id hid => ?_
    obtain ⟨p, -, hp⟩ := forall₂_exists_right hcells (hsub hid)
    exact ⟨p, hp⟩
  have hmissing : t.missingId options stored = .ok value.display := by
    simp [missingId, hkey.keyColumn?_eq, hraw, hvalue, Except.map]
  obtain ⟨row', hrow'⟩ : ∃ row', t.row options stored output' = .ok row' := by
    cases stored with
    | typed r => exact absurd rfl (hs r)
    | keyed | record =>
      simp only [Table.row, hcells', Except.ok_bind, hmissing]
      split <;> exact ⟨_, rfl⟩
  refine ⟨row', hrow', ?_⟩
  have hsame := id_eq_of_row hkey.keyColumn?_eq honly hmem (hsub hmem) hs hrow' h
  obtain ⟨_, id', hcells₁, -, rfl⟩ := exists_of_row hrow' hs
  obtain rfl := Except.ok.inj (hcells'.symm.trans hcells₁)
  subst hrow
  simp only [TableRow.onlyCells, TableRow.mk.injEq, and_true]
  refine ⟨hsame, List.filterMap_congr fun id hid => ?_⟩
  obtain ⟨c, cell, hc, hcell, hfind⟩ := find?_reverse_cells hcells (hsub (hrequested hid))
  obtain ⟨c', cell', hc', hcell', hfind'⟩ := find?_reverse_cells hcells' (hrequested hid)
  obtain rfl := Option.some.inj (hc.symm.trans hc')
  rw [hfind, hfind', Except.ok.inj (hcell.symm.trans hcell')]

/-- The id of a row, after its linked cells are filled and its actions found, is the text of its
key. -/
theorem id_of_own {output requested : List String} {columns : String → Prop} {session : Session}
    {own full row : TableRow} (hkey : t.KeyedBy key) (hlink : key.outboundLink? = none)
    (hs : ∀ r, stored ≠ .typed r) (hmem : t.key ∈ output)
    (hown : t.row options stored output = .ok own) (hfilled : own.FilledIn columns full)
    (hoffers : t.withOffers session [full.onlyCells requested] = .ok [row]) :
    ∃ raw, stored.get? key = some raw ∧ key.typed options raw = .ok (.string row.id) := by
  obtain ⟨raw, value, hraw, hvalue, hid⟩ := id_of_row hkey.keyColumn?_eq
    (fun _ => hkey.eq_of_isKey) hlink hmem hown hs
  have hshown := List.forall₂_cons.mp (sameCells_of_withOffers hoffers)
  have hrow : row.id = value.display := hshown.1.1.trans (hfilled.id_eq.trans hid)
  exact ⟨raw, hraw, hrow ▸ Column.typed_eq_string hkey.type_eq hvalue⟩

end Table

/-- Where the columns of a row are different, the cells that are not filled in stay. -/
theorem TableRow.FilledIn.onlyCells_eq {columns : String → Prop} {row full : TableRow}
    {requested : List String} (h : row.FilledIn columns full)
    (hn : (row.cells.map Cell.column).Nodup) (hstays : ∀ id ∈ requested, ¬ columns id) :
    full.onlyCells requested = row.onlyCells requested := by
  simp only [TableRow.onlyCells, TableRow.mk.injEq]
  refine ⟨h.id_eq, List.filterMap_congr fun id hid => ?_, h.actions_eq⟩
  rw [TableRow.find?_reverse_eq_cell? hn, TableRow.find?_reverse_eq_cell? (h.map_column_eq ▸ hn),
    h.cell?_eq (hstays id hid)]

namespace Engine

variable {e : Engine} {now : Moment} {session : Session} {find : Template → Run TableRows}
  {t : Table} {template : Template} {stored : StoredRow} {row : TableRow} {key : Column}

/-- The row that becomes of a stored row without other rows: its linked cells are filled, its
actions are found, and the aggregates over it can be shown. -/
def AnswersAlone (e : Engine) (now : Moment) (session : Session) (t : Table) (template : Template)
    (stored : StoredRow) (row : TableRow) : Prop :=
  (∃ own full,
    t.row e.options stored (t.fetchColumns template.outputIds []) = .ok own ∧
    (e.outbound (e.findSimple now session (e.columnCount + 1)) t [own]).result = .ok [full] ∧
    t.withOffers session [full.onlyCells template.outputIds] = .ok [row]) ∧
  ∃ raws results,
    (requestedAggregates template.body.output).mapM (Memory.aggregate t [stored]) = .ok raws ∧
    t.aggregates e.options raws = .ok results

/-- The id of the row is the text of its key. -/
theorem AnswersAlone.typed_eq (h : e.AnswersAlone now session t template stored row)
    (hkey : t.KeyedBy key) (hlink : key.outboundLink? = none) (hs : ∀ r, stored ≠ .typed r) :
    ∃ raw, stored.get? key = some raw ∧ key.typed e.options raw = .ok (.string row.id) := by
  obtain ⟨⟨own, full, hown, hfull, hoffers⟩, -⟩ := h
  have hfilled := List.forall₂_cons.mp (filledIn_outbound hfull)
  exact Table.id_of_own hkey hlink hs (Table.key_mem_fetchColumns _ _) hown hfilled.1 hoffers

/-- A row of an answer comes from a stored row. -/
theorem exists_own_of_answer {f : Fetch} {requested : List String} {fetched : Fetched}
    {answer : TableRows} (h : (e.answer session find false f requested fetched).result = .ok answer)
    (hrow : row ∈ answer.rows) :
    ∃ stored ∈ fetched.rows, ∃ own full, f.table.row e.options stored f.output = .ok own ∧
      own.FilledIn (fun id => ∃ c, f.table.column? id = some c ∧ c.isOutbound = true) full ∧
      f.table.withOffers session [full.onlyCells requested] = .ok [row] := by
  obtain ⟨rows, fulls, _, final, hrows, hfulls, -, hfinal, rfl⟩ := answer_eq_ok_iff.mp h
  have hoffers := Table.withOffers_eq_ok_iff.mp (Run.result_ofExcept_eq_ok_iff.mp hfinal)
  rw [List.forall₂_map_left_iff] at hoffers
  obtain ⟨full, hfull, hoffer⟩ := forall₂_exists_left hoffers hrow
  obtain ⟨own, hown, hfilled⟩ := forall₂_exists_left (filledIn_outbound hfulls) hfull
  obtain ⟨stored, hstored, hshown⟩ := forall₂_exists_left (Table.rows_eq_ok_iff.mp hrows) hown
  exact ⟨stored, hstored, own, full, hshown, hfilled,
    Table.withOffers_eq_ok_iff.mpr (.cons hoffer .nil)⟩

/-- Rows without linked columns have nothing to be filled. -/
theorem outbound_of_stores {rows : List TableRow}
    (h : ∀ row ∈ rows, ∀ id ∈ row.cells.map Cell.column, t.Stores id) :
    e.outbound find t rows = pure rows := by
  cases rows with
  | nil => rfl
  | cons first rest =>
    have hnone : linkedColumns t first = [] := by
      rw [List.eq_nil_iff_forall_not_mem]
      intro p hp
      obtain ⟨hcolumn, hc, -⟩ := mem_linkedColumns_iff.mp hp
      exact id_ne_of_mem_linkedColumns hp (h first List.mem_cons_self _ hcolumn) rfl
    rw [outbound, hnone]
    rfl

/-- Stored columns alone are fetched with the key. -/
theorem stores_of_mem_fetchColumns {output : List String} (hkey : t.KeyedBy key)
    (hlink : key.outboundLink? = none) (houtput : ∀ id ∈ output, t.Stores id) {id : String}
    (hid : id ∈ t.fetchColumns output []) : t.Stores id := by
  have hkeyStores : t.Stores t.key := fun c hc => by
    obtain rfl := Option.some.inj (hkey.keyColumn?_eq.symm.trans hc)
    exact hlink
  simp only [Table.fetchColumns, Table.mem_firstOfEach, List.mem_append, List.mem_map,
    List.mem_filterMap, List.map_nil, List.not_mem_nil, or_false, List.mem_singleton] at hid
  rcases hid with (hid | ⟨l, ⟨id', hid', hl⟩, -⟩) | rfl
  · exact houtput id hid
  · obtain ⟨c, hc, hl⟩ := Option.bind_eq_some_iff.mp hl
    rw [houtput id' hid' c hc] at hl
    cases hl
  · exact hkeyStores

/-- A row of an answer with stored columns only is what becomes of its stored row without other
rows. -/
theorem answersAlone_of_own {own full : TableRow} {conditions : List RawCondition}
    (hkey : t.KeyedBy key) (hlink : key.outboundLink? = none) (hs : ∀ r, stored ≠ .typed r)
    (hown : t.row e.options stored (t.fetchColumns template.outputIds conditions) = .ok own)
    (hfilled : own.FilledIn (fun id => ∃ c, t.column? id = some c ∧ c.isOutbound = true) full)
    (hoffers : t.withOffers session [full.onlyCells template.outputIds] = .ok [row])
    (hstores : ∀ id ∈ template.outputIds, t.Stores id) :
    ∃ own' full',
      t.row e.options stored (t.fetchColumns template.outputIds []) = .ok own' ∧
      (e.outbound (e.findSimple now session (e.columnCount + 1)) t [own']).result = .ok [full'] ∧
      t.withOffers session [full'.onlyCells template.outputIds] = .ok [row] := by
  have hsub : t.fetchColumns template.outputIds [] ⊆
      t.fetchColumns template.outputIds conditions := by
    intro id hid
    simp only [Table.fetchColumns, Table.mem_firstOfEach, List.map_nil, List.append_nil] at hid ⊢
    exact List.mem_append_left _ hid
  have hn : (own.cells.map Cell.column).Nodup := by
    rw [Table.map_column_of_row hown hs]
    exact nodup_firstOfEach _
  obtain ⟨own', hown', hsame⟩ := Table.exists_row_of_subset hkey hlink hs
    (Table.key_mem_fetchColumns _ _) hsub
    (fun id hid => Table.mem_fetchColumns_of_mem _ hid) hown
  have hfull : full.onlyCells template.outputIds = own.onlyCells template.outputIds := by
    refine hfilled.onlyCells_eq hn fun id hid => ?_
    rintro ⟨c, hc, hout⟩
    simp [Column.isOutbound, hstores id hid c hc] at hout
  refine ⟨own', own', hown', ?_, by rw [hsame, ← hfull, hoffers]⟩
  rw [outbound_of_stores]
  · rfl
  · intro row hrow id hid
    rw [List.mem_singleton.mp hrow, Table.map_column_of_row hown' hs] at hid
    exact stores_of_mem_fetchColumns hkey hlink hstores hid

/-- Where aggregates over rows can be shown, so can those over one of them, if none is over entries
of option lists. -/
theorem exists_aggregates_alone {as : List AggregateColumn} {rows : List StoredRow}
    {raws : List RawAggregate} {results : List AggregateResult}
    (hchoice : ∀ a ∈ as, ∀ c, t.column? a.column = some c → c.type ≠ .choice)
    (hraws : as.mapM (Memory.aggregate t rows) = .ok raws)
    (hresults : t.aggregates e.options raws = .ok results) (hmem : stored ∈ rows) :
    ∃ raws results, as.mapM (Memory.aggregate t [stored]) = .ok raws ∧
      t.aggregates e.options raws = .ok results := by
  have hall := Table.exists_aggregates_iff.mp ⟨raws, results, hraws, hresults⟩
  refine Table.exists_aggregates_iff.mpr fun a ha => ?_
  obtain ⟨c, value, v, hc, hvalue, hv⟩ := hall a ha
  have hsub : Memory.counted c [stored] ⊆ Memory.counted c rows := by
    intro raw hraw
    simp only [Memory.counted, List.mem_filter, List.mem_filterMap, List.mem_singleton] at hraw ⊢
    obtain ⟨⟨row, rfl, hget⟩, hnull⟩ := hraw
    exact ⟨⟨row, hmem, hget⟩, hnull⟩
  obtain ⟨value', v', hvalue', hv'⟩ :=
    Memory.exists_shown_total (hchoice a ha c hc) hsub hvalue hv
  exact ⟨c, value', v', hc, hvalue', hv'⟩

end Engine

end TableQuery
