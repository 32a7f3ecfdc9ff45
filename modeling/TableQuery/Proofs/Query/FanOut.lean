import TableQuery.Proofs.Query.ShortCircuit

/-!
# Questions behind linked cells

A run asks the driver of its table, and then one driver for each linked column of its rows: once
where a list of values can be searched for, and otherwise once for each row. What is asked there is
not led on. The cells of the rows that come back are taken as they are, and no action is offered for
them.

## Main definitions

* `Link.localCells` — the local values of rows, one for each text.
* `Link.fetch` — what the driver of the other table is asked for.
* `Engine.AsksOnce` — a run that is one question to one driver.
* `Engine.Resolves` — the calls that fill the cells of a linked column.
* `Engine.FansOut` — the calls that fill the linked cells of rows.

## Main results

* `Engine.asksOnce_of_lookup` — a question of a link in a stored column is not led on.
* `Engine.resolves_of_lookup` — the calls of a lookup.
* `Engine.Resolves.length_eq` — their number.
* `Engine.calls_fillColumns` — columns are filled by the calls of their own lookups.
* `Engine.fansOut_of_find` — the calls of a run.
-/

namespace TableQuery

namespace Link

/-- The local values of rows, the first one of each text. -/
def localCells (l : Link) (rows : List TableRow) : List Value :=
  firstByKey Value.display (rows.filterMap fun row => row.value? l.localColumn)

/-- They have the texts of the rows, each once, where it is first seen. -/
theorem map_display_localCells (l : Link) (rows : List TableRow) :
    (l.localCells rows).map Value.display =
      firstOfEach (rows.filterMap fun row => (row.value? l.localColumn).map Value.display) := by
  have hmap {vs : List Value} :
      (firstByKey Value.display vs).map Value.display = firstOfEach (vs.map Value.display) := by
    induction vs with
    | nil => rfl
    | cons v vs ih =>
      rw [firstByKey, List.map_cons, List.map_cons, firstOfEach, ← ih, List.filter_map]
      rfl
  rw [localCells, hmap, List.map_filterMap]

/-- What the driver of the other table is asked for by a lookup: the rows whose values in the column
searched in do what the operator says, with the columns of the link. -/
def fetch (l : Link) (remote : Table) (search : Column) (operator : String) (raws : List Raw)
    (page : PageRequest) : Fetch where
  table := remote
  conditions := [⟨search.id, operator, raws⟩]
  output := remote.fetchColumns (l.output.map OutputColumn.column) [⟨search.id, operator, raws⟩]
  aggregates := []
  page
  order := none

theorem fetchFor_template (l : Link) (remote : Table) (search : Column) (operator : String)
    (values : List Value) (raws : List Raw) (page : PageRequest) :
    remote.fetchFor (l.template operator values page) [⟨search.id, operator, raws⟩] =
      l.fetch remote search operator raws page := by
  have hplain : Engine.requestedAggregates l.output = [] := by
    unfold output
    split <;> rfl
  rw [Table.fetchFor, fetch]
  congr

end Link

namespace Engine

variable {e : Engine} {now : Moment} {session : Session} {find : Template → Run TableRows}
  {t : Table} {template : Template} {l : Link} {remote : Table} {search : Column}
  {rows : List TableRow}

/-! ## Questions that are not led on -/

/-- A run asks the driver of one table once. It answers with the rows of this driver, with their
cells as the driver provides them and with no more actions than they have. -/
structure AsksOnce (e : Engine) (now : Moment) (session : Session) (f : Fetch)
    (requested : List String) (run : Run TableRows) : Prop where
  calls_eq : run.calls = [.fetch f]
  plain : ∃ d fetched rows answer, e.driver f.table.id = .ok d ∧
    d.fetch now session f = .fetched fetched ∧
    f.table.rows e.options f.output fetched.rows = .ok rows ∧
    run.result = .ok answer ∧ answer.rows = rows.map fun row => row.onlyCells requested

/-- Beyond the questions that fill linked cells, an answer takes no call. -/
theorem calls_answer {simple : Bool} {f : Fetch} {requested : List String} {fetched : Fetched}
    {answer : TableRows} (hrows : f.table.rows e.options f.output fetched.rows = .ok rows)
    (h : (e.answer session find simple f requested fetched).result = .ok answer) :
    (e.answer session find simple f requested fetched).calls =
      (e.filled find simple f.table rows).calls := by
  obtain ⟨rows', full, aggregates, final, hrows', hfull, haggregates, hfinal, -⟩ :=
    answer_eq_ok_iff.mp h
  obtain rfl := Except.ok.inj (hrows.symm.trans hrows')
  have hsilent (rows : List TableRow) : (offered session simple f.table rows).calls = [] := by
    unfold offered Run.ofExcept
    repeat' split
    all_goals rfl
  rw [answer_eq, Run.bind_ofExcept_ok _ hrows, Run.bind_of_ok _ hfull,
    Run.bind_ofExcept_ok _ haggregates, Run.bind_of_ok _ hfinal, hsilent, Run.calls_pure,
    List.nil_append, List.append_nil]

/-- The calls of a run that found rows: those of its groups, its own one, and those of its
answer. -/
theorem calls_findOnce {simple : Bool} {answer : TableRows} {direct translated : List RawCondition}
    {linked : List (Link × Condition)} {d : Driver} {fetched : Fetched}
    (ht : e.registry.table? template.table = some t)
    (hs : t.split template.body.filter = .ok (direct, linked))
    (hi : (e.inbound find t (LinkGroup.collect linked)).result = .ok (some translated))
    (hd : e.driver t.id = .ok d)
    (hf : d.fetch now session (t.fetchFor template (direct ++ translated)) = .fetched fetched)
    (h : (e.findOnce now session find simple template).result = .ok answer) :
    (e.answer session find simple (t.fetchFor template (direct ++ translated)) template.outputIds
        fetched).result = .ok answer ∧
      (e.findOnce now session find simple template).calls =
        (e.inbound find t (LinkGroup.collect linked)).calls ++
          .fetch (t.fetchFor template (direct ++ translated)) ::
            (e.answer session find simple (t.fetchFor template (direct ++ translated))
              template.outputIds fetched).calls := by
  obtain ⟨t', direct', linked', ht', hv, hs', -⟩ := findOnce_eq_ok_iff.mp h
  obtain rfl : t = t' := Option.some.inj (ht.symm.trans ht')
  have hask := Driver.ask_eq_ok_iff.mpr hf
  have hrun : e.findOnce now session find simple template = (do
      let _ ← e.inbound find t (LinkGroup.collect linked)
      let fetched ← d.ask now session (t.fetchFor template (direct ++ translated))
      e.answer session find simple (t.fetchFor template (direct ++ translated)) template.outputIds
        fetched) := by
    simp only [findOnce, Run.liftM_eq_ofExcept]
    rw [Run.bind_ofExcept_ok _ (Registry.find_eq_ok_iff.mpr ht), Run.bind_ofExcept_ok _ hv,
      Run.bind_ofExcept_ok _ hs, Run.bind_of_ok _ hi, Run.bind_of_ok _ hi]
    dsimp only
    rw [Run.bind_ofExcept_ok _ hd]
    rfl
  rw [hrun, Run.bind_of_ok _ hi, Run.bind_of_ok _ hask] at h ⊢
  exact ⟨h, rfl⟩

/-- A question of a link is one question to the driver of the other table, if the column searched in
is stored. -/
theorem asksOnce_of_lookup {depth : Nat} {operator : String} {values : List Value}
    {page : PageRequest} {answer : TableRows}
    (hremote : e.registry.table? l.table = some remote)
    (hsearch : remote.column? l.searchColumn = some search)
    (hstored : search.outboundLink? = none) (hop : qualify operator = operator)
    (h : (e.findSimple now session (depth + 1) (l.template operator values page)).result =
      .ok answer) :
    ∃ raws, Table.nativeValues search values = .ok raws ∧
      e.AsksOnce now session (l.fetch remote search operator raws page)
        (l.output.map OutputColumn.column)
        (e.findSimple now session (depth + 1) (l.template operator values page)) := by
  obtain ⟨t, direct, linked, ht, -, hs, hcases⟩ := findOnce_eq_ok_iff.mp h
  obtain rfl : remote = t := Option.some.inj (hremote.symm.trans ht)
  have hsplit := (Table.split_lookup_eq_ok_iff hsearch hstored).mp hs
  obtain ⟨raws, hraws, rfl, rfl⟩ := hsplit
  refine ⟨raws, hraws, ?_⟩
  rcases hcases with ⟨hnone, -⟩ | ⟨translated, d, fetched, hi, hd, hask, hanswer⟩
  · -- Without linked conditions there is no group that could find nothing.
    cases hnone
  · obtain rfl := Option.some.inj (Except.ok.inj hi)
    have hf := Driver.ask_eq_ok_iff.mp hask
    obtain ⟨-, hcalls⟩ := calls_findOnce ht hs hi hd hf h
    rw [List.append_nil, hop, Link.fetchFor_template] at hf hanswer hcalls
    obtain ⟨rows, aggregates, hrows, -, rfl⟩ := answer_simple_eq_ok_iff.mp hanswer
    refine ⟨?_, d, fetched, rows, _, hd, hf, hrows, h, rfl⟩
    rw [findSimple, hcalls, calls_answer hrows hanswer]
    rfl

/-! ## One linked column -/

/-- The calls that fill the cells of a linked column, where the rows have local values. -/
inductive Resolves (e : Engine) (now : Moment) (session : Session)
    (find : Template → Run TableRows) (l : Link) (remote : Table) (search : Column)
    (rows : List TableRow) : List Call → Prop where
  /-- Where a list of values can be searched for, the driver of the other table is asked once, for
  all rows with one value for each local text. -/
  | listed {keys : List Value} {raws : List Raw}
      (hin : search.supports Builtin.isIn = true)
      (hlocal : ∀ row ∈ rows, ∃ v, row.value? l.localColumn = some v)
      (hkeys : List.Forall₂ (fun v key => search.retyped v = .ok key) (l.localCells rows) keys)
      (hraws : Table.nativeValues search keys = .ok raws)
      (hask : e.AsksOnce now session (l.fetch remote search Builtin.isIn raws .all)
        (l.output.map OutputColumn.column) (find (l.template Builtin.isIn keys .all))) :
      Resolves e now session find l remote search rows
        [.fetch (l.fetch remote search Builtin.isIn raws .all)]
  /-- Otherwise it is asked for each row, for the first row with its local value. -/
  | each {raws : List Raw}
      (hin : search.supports Builtin.isIn = false)
      (hasks : List.Forall₂ (fun row raw => ∃ v key, row.value? l.localColumn = some v ∧
          search.retyped v = .ok key ∧ search.native key = .ok raw ∧
          e.AsksOnce now session (l.fetch remote search Builtin.eq [raw] ⟨0, 1⟩)
            (l.output.map OutputColumn.column) (find (l.template Builtin.eq [key] ⟨0, 1⟩)))
        rows raws) :
      Resolves e now session find l remote search rows
        (raws.map fun raw => .fetch (l.fetch remote search Builtin.eq [raw] ⟨0, 1⟩))

theorem Resolves.length_eq {calls : List Call}
    (h : e.Resolves now session find l remote search rows calls) :
    calls.length = if search.supports Builtin.isIn then 1 else rows.length := by
  cases h with
  | listed hin => rw [if_pos hin, List.length_singleton]
  | each hin hasks =>
    rw [if_neg (by simp [hin]), List.length_map, hasks.length_eq]

/-- The keys of a list are the values that are looked up, one for each text. -/
theorem localKeys_eq_of_seen {seen : List String} :
    localKeys l search seen rows =
      ((firstByKey Value.display (rows.filterMap l.sought?)).filter fun v =>
        !seen.contains v.display).mapM search.retyped := by
  induction rows generalizing seen with
  | nil => rfl
  | cons row rows ih =>
    rw [localKeys_cons, List.filterMap_cons]
    cases l.sought? row with
    | none => exact ih
    | some v =>
      dsimp only
      rw [filter_firstByKey_cons]
      split
      · exact ih
      · rw [ih, List.mapM_cons]

section Lookup

variable (hlocal : ∀ row ∈ rows, ∃ v, row.value? l.localColumn = some v ∧ l.sought? row = some v)

include hlocal

/-- Where no local value is null, they are all looked up. -/
theorem localKeys_eq : localKeys l search [] rows = (l.localCells rows).mapM search.retyped := by
  have hsought : rows.filterMap l.sought? = rows.filterMap fun row => row.value? l.localColumn := by
    refine List.filterMap_congr fun row hrow => ?_
    obtain ⟨v, hv, hs⟩ := hlocal row hrow
    rw [hv, hs]
  rw [localKeys_eq_of_seen, hsought, Link.localCells]
  simp

/-- All at once they are looked up with one question, if there is a row. -/
theorem calls_lookupAll {found : Findings} (hne : rows ≠ [])
    (h : (lookupAll find l search rows).result = .ok found) :
    ∃ keys answer, List.Forall₂ (fun v key => search.retyped v = .ok key) (l.localCells rows) keys ∧
      (find (l.template Builtin.isIn keys .all)).result = .ok answer ∧
      (lookupAll find l search rows).calls = (find (l.template Builtin.isIn keys .all)).calls := by
  obtain ⟨keys, hkeys, hcases⟩ := lookupAll_eq_ok_iff.mp h
  have htyped := Except.mapM_eq_ok_iff.mp ((localKeys_eq hlocal).symm.trans hkeys)
  have hsome : keys ≠ [] := by
    rintro rfl
    obtain ⟨row, hrow⟩ := List.exists_mem_of_ne_nil rows hne
    obtain ⟨v, hv, -⟩ := hlocal row hrow
    have hmem : v ∈ rows.filterMap fun row => row.value? l.localColumn :=
      List.mem_filterMap.mpr ⟨row, hrow, hv⟩
    obtain ⟨first, hfirst, -⟩ := exists_mem_firstByKey Value.display hmem
    obtain ⟨key, hkey, -⟩ := forall₂_exists_right htyped hfirst
    cases hkey
  rcases hcases with ⟨hempty, -⟩ | ⟨-, answer, hanswer, -⟩
  · exact absurd hempty hsome
  · refine ⟨keys, answer, htyped, hanswer, ?_⟩
    rw [lookupAll, Run.liftM_eq_ofExcept, Run.bind_ofExcept_ok _ hkeys,
      if_neg (by simpa using hsome), Run.bind_of_ok _ hanswer, Run.calls_pure, List.append_nil]

/-- One by one they are looked up with a question for each row. -/
theorem calls_lookupEach {found found' : Findings}
    (h : (lookupEach find l search found rows).result = .ok found') :
    ∃ keys, List.Forall₂ (fun row key => ∃ v answer, row.value? l.localColumn = some v ∧
          search.retyped v = .ok key ∧
          (find (l.template Builtin.eq [key] ⟨0, 1⟩)).result = .ok answer) rows keys ∧
      (lookupEach find l search found rows).calls =
        keys.flatMap fun key => (find (l.template Builtin.eq [key] ⟨0, 1⟩)).calls := by
  induction rows generalizing found with
  | nil => exact ⟨[], .nil, rfl⟩
  | cons row rows ih =>
    rw [List.forall_mem_cons] at hlocal
    obtain ⟨⟨v, hv, hs⟩, hlocal⟩ := hlocal
    rw [lookupEach, ← Link.sought?, hs] at h ⊢
    dsimp only at h ⊢
    simp only [Run.liftM_eq_ofExcept] at h ⊢
    obtain ⟨key, hkey, h⟩ := Run.result_bind_eq_ok_iff.mp h
    replace hkey := Run.result_ofExcept_eq_ok_iff.mp hkey
    obtain ⟨answer, hanswer, h⟩ := Run.result_bind_eq_ok_iff.mp h
    rw [Run.bind_ofExcept_ok _ hkey, Run.bind_of_ok _ hanswer]
    -- Whatever is found for the row, the rows behind it ask on.
    split at h <;>
    · obtain ⟨keys, hkeys, hcalls⟩ := ih hlocal h
      refine ⟨key :: keys, .cons ⟨v, answer, hv, hkey, hanswer⟩ hkeys, ?_⟩
      rw [List.flatMap_cons, ← hcalls]

theorem resolves_of_lookup {depth : Nat} {found : Findings} (hne : rows ≠ [])
    (hremote : e.registry.table? l.table = some remote)
    (hsearch : remote.column? l.searchColumn = some search)
    (hstored : search.outboundLink? = none)
    (h : (e.lookup (e.findSimple now session (depth + 1)) l rows).result = .ok found) :
    e.Resolves now session (e.findSimple now session (depth + 1)) l remote search rows
      (e.lookup (e.findSimple now session (depth + 1)) l rows).calls := by
  obtain ⟨remote', search', value, hremote', hsearch', hvalue, hways⟩ := lookup_eq_ok_iff.mp h
  obtain rfl := Option.some.inj (hremote.symm.trans hremote')
  obtain rfl := Option.some.inj (hsearch.symm.trans hsearch')
  rw [lookup_eq hremote hsearch hvalue]
  rcases hways with ⟨hin, hall⟩ | ⟨hin, heq, heach⟩
  · obtain ⟨keys, answer, hkeys, hanswer, hcalls⟩ := calls_lookupAll hlocal hne hall
    obtain ⟨raws, hraws, hask⟩ := asksOnce_of_lookup hremote hsearch hstored rfl hanswer
    rw [if_pos hin, hcalls, hask.calls_eq]
    refine .listed hin ?_ hkeys hraws hask
    intro row hrow
    obtain ⟨v, hv, -⟩ := hlocal row hrow
    exact ⟨v, hv⟩
  · obtain ⟨keys, hkeys, hcalls⟩ := calls_lookupEach hlocal heach
    have hasks : ∀ key ∈ keys, ∃ raw, search.native key = .ok raw ∧
        e.AsksOnce now session (l.fetch remote search Builtin.eq [raw] ⟨0, 1⟩)
          (l.output.map OutputColumn.column)
          (e.findSimple now session (depth + 1) (l.template Builtin.eq [key] ⟨0, 1⟩)) := by
      intro key hkey
      obtain ⟨row, -, v, answer, -, -, hanswer⟩ := forall₂_exists_left hkeys hkey
      obtain ⟨raws, hraws, hask⟩ := asksOnce_of_lookup hremote hsearch hstored rfl hanswer
      obtain ⟨raw, hraw, hraws⟩ := Except.bind_eq_ok_iff.mp hraws
      cases hraws
      exact ⟨raw, hraw, hask⟩
    obtain ⟨raws, hraws⟩ := exists_forall₂ hasks
    have heach : (keys.map fun key =>
        (e.findSimple now session (depth + 1) (l.template Builtin.eq [key] ⟨0, 1⟩)).calls) =
        raws.map fun raw => [.fetch (l.fetch remote search Builtin.eq [raw] ⟨0, 1⟩)] :=
      forall₂_map_eq hraws fun key raw h => h.2.calls_eq
    rw [if_neg (by simp [hin]), if_pos heq, hcalls, List.flatMap_def, heach, ← List.flatMap_def,
      ← List.map_eq_flatMap]
    apply Resolves.each hin
    apply forall₂_trans hkeys hraws
    rintro row - key raw ⟨v, -, hv, hkey, -⟩ ⟨hraw, hask⟩
    exact ⟨v, key, hv, hkey, hraw, hask⟩

end Lookup

/-! ## All linked columns -/

/-- Rows are filled by the calls of a lookup for each linked column. Where no column is filled that
it looks up from, it is the lookup of the rows as they were. -/
theorem calls_fillColumns {linked : List (Column × Link)} {filled : List TableRow}
    (h : (e.fillColumns find linked rows).result = .ok filled) :
    ∃ segments, (e.fillColumns find linked rows).calls = segments.flatten ∧
      List.Forall₂ (fun p segment => (∀ q ∈ linked, q.1.id ≠ p.2.localColumn) →
          (∃ found, (e.lookup find p.2 rows).result = .ok found) ∧
          segment = (e.lookup find p.2 rows).calls)
        linked segments := by
  induction linked generalizing rows with
  | nil => exact ⟨[], rfl, .nil⟩
  | cons p linked ih =>
    obtain ⟨found, hfound, hrest⟩ := Run.result_bind_eq_ok_iff.mp h
    obtain ⟨segments, hcalls, hsegments⟩ := ih hrest
    refine ⟨(e.lookup find p.2 rows).calls :: segments, ?_, ?_⟩
    · rw [fillColumns, Run.bind_of_ok _ hfound, hcalls, List.flatten_cons]
    · refine .cons (fun _ => ⟨⟨found, hfound⟩, rfl⟩) (hsegments.imp fun q segment hq hlocal => ?_)
      rw [List.forall_mem_cons] at hlocal
      rw [← lookup_map fun row => value?_fillRow_of_ne hlocal.1.symm]
      exact hq hlocal.2

/-- The calls that fill the linked cells of rows. They fall into segments, one for each linked
column that the rows have a cell of. A requested linked column is one of them, and between stored
columns it is resolved by its own segment. -/
def FansOut (e : Engine) (now : Moment) (session : Session) (find : Template → Run TableRows)
    (t : Table) (requested : List String) (rows : List TableRow) (calls : List Call) : Prop :=
  ∃ (linked : List (Column × Link)) (segments : List (List Call)), calls = segments.flatten ∧
    (linked.map fun p => p.1.id).Nodup ∧
    (∀ p ∈ linked, t.column? p.1.id = some p.1 ∧ p.1.outboundLink? = some p.2 ∧
      ∀ row ∈ rows, p.1.id ∈ row.cells.map Cell.column) ∧
    (∀ c l, c.id ∈ requested → t.column? c.id = some c → c.outboundLink? = some l →
      (c, l) ∈ linked) ∧
    List.Forall₂ (fun p segment => p.1.id ∈ requested → t.Stores p.2.localColumn →
        ∃ remote search, e.registry.table? p.2.table = some remote ∧
          remote.column? p.2.searchColumn = some search ∧
          (search.outboundLink? = none →
            e.Resolves now session find p.2 remote search rows segment))
      linked segments

/-- The value of a stored row is not null, so it is looked up. -/
theorem exists_sought?_of_row {options : OptionLists} {stored : StoredRow} {output : List String}
    {row : TableRow} (h : t.row options stored output = .ok row) (hs : ∀ r, stored ≠ .typed r)
    (hlocal : l.localColumn ∈ output) :
    ∃ v, row.value? l.localColumn = some v ∧ l.sought? row = some v := by
  rw [← Table.map_column_of_row h hs] at hlocal
  obtain ⟨v, hv⟩ := TableRow.exists_value? hlocal
  refine ⟨v, hv, ?_⟩
  obtain ⟨cell, hcell, -, rfl⟩ := TableRow.exists_cell_of_value? hv
  obtain ⟨cells, hcells, hrow⟩ := Table.cells_of_row h hs
  rw [hrow] at hcell
  obtain ⟨p, hp, rfl⟩ := List.mem_map.mp hcell
  obtain ⟨id, -, -, hcellOf⟩ := forall₂_exists_left (Table.cells_eq_ok_iff.mp hcells) hp
  have hnull := Value.isNull_eq_false_of_type? (Table.type?_of_cellOf hcellOf)
  rw [Link.sought?, hv, Option.filter_some, hnull]
  rfl

/-- Rows of a driver that are not answers already are filled by a lookup for each linked column. -/
theorem fansOut_of_outbound {depth : Nat} {requested : List String}
    {conditions : List RawCondition} {stored : List StoredRow} {filled : List TableRow}
    (hrows : t.rows e.options (t.fetchColumns requested conditions) stored = .ok rows)
    (hne : stored ≠ []) (htyped : ∀ row, .typed row ∉ stored)
    (h : (e.outbound (e.findSimple now session (depth + 1)) t rows).result = .ok filled) :
    e.FansOut now session (e.findSimple now session (depth + 1)) t requested rows
      (e.outbound (e.findSimple now session (depth + 1)) t rows).calls := by
  cases rows with
  | nil => exact absurd (List.forall₂_nil_right_iff.mp (Table.rows_eq_ok_iff.mp hrows)) hne
  | cons first rest =>
    have hcolumns : ∀ row ∈ first :: rest,
        row.cells.map Cell.column = t.fetchColumns requested conditions := by
      intro row hrow
      obtain ⟨s, hs, hshown⟩ := Table.exists_stored_of_rows hrows htyped hrow
      exact Table.map_column_of_row hshown hs
    have hfirst := hcolumns first List.mem_cons_self
    obtain ⟨segments, hcalls, hsegments⟩ := calls_fillColumns h
    refine ⟨linkedColumns t first, segments, hcalls, ?_, ?_, ?_, ?_⟩
    · apply List.Nodup.sublist (sublist_linkedColumns t first)
      rw [hfirst]
      exact nodup_firstOfEach _
    · intro p hp
      obtain ⟨hid, hc, hl⟩ := mem_linkedColumns_iff.mp hp
      refine ⟨hc, hl, fun row hrow => ?_⟩
      rwa [hcolumns row hrow, ← hfirst]
    · intro c l hid hc hl
      apply mem_linkedColumns_iff.mpr
      rw [hfirst]
      exact ⟨Table.mem_fetchColumns_of_mem conditions hid, hc, hl⟩
    · rw [List.forall₂_iff_zip] at hsegments ⊢
      refine ⟨hsegments.1, ?_⟩
      intro p segment hmem hid hstored
      have hp := (List.of_mem_zip hmem).1
      obtain ⟨-, hc, hl⟩ := mem_linkedColumns_iff.mp hp
      obtain ⟨⟨found, hfound⟩, rfl⟩ :=
        hsegments.2 hmem fun q hq => id_ne_of_mem_linkedColumns hq hstored
      obtain ⟨remote, search, value, hremote, hsearch, -⟩ := lookup_eq_ok_iff.mp hfound
      refine ⟨remote, search, hremote, hsearch, fun hsearched => ?_⟩
      refine resolves_of_lookup ?_ (List.cons_ne_nil _ _) hremote hsearch hsearched hfound
      intro row hrow
      obtain ⟨s, hs, hshown⟩ := Table.exists_stored_of_rows hrows htyped hrow
      exact exists_sought?_of_row hshown hs (localColumn_mem_fetchColumns conditions hid hc hl)

/-- A run whose driver gives rows that are not answers already asks this driver once, after the
questions of its groups, and then fills the linked cells. Each requested linked column between
stored columns takes one question to the other table, with one value for each local text, if a list
of values can be searched for there. Otherwise it takes one question for each row, for the first row
with its local value. None of these questions is led on to other tables, and none offers actions. -/
theorem fansOut_of_find {conditions : List RawCondition} {d : Driver} {fetched : Fetched}
    {answer : TableRows} (ht : e.registry.table? template.table = some t)
    (hasks : e.AsksFor now session t template conditions) (hd : e.driver t.id = .ok d)
    (hf : d.fetch now session (t.fetchFor template conditions) = .fetched fetched)
    (hne : fetched.rows ≠ []) (htyped : ∀ row, .typed row ∉ fetched.rows)
    (h : (e.find now session template).result = .ok answer) :
    ∃ rows fill, t.rows e.options (t.fetchColumns template.outputIds conditions)
        fetched.rows = .ok rows ∧ rows.length = fetched.rows.length ∧
      (e.find now session template).calls =
        asked (e.findSimple now session (e.columnCount + 1))
            (LinkGroup.collect (t.linkedConditions template.body.filter)) ++
          .fetch (t.fetchFor template conditions) :: fill ∧
      e.FansOut now session (e.findSimple now session (e.columnCount + 1)) t template.outputIds
        rows fill := by
  obtain ⟨direct, linked, translated, hs, hi, rfl⟩ := hasks
  obtain ⟨hanswer, hcalls⟩ := calls_findOnce ht hs hi hd hf h
  obtain ⟨rows, full, aggregates, final, hrows, hfull, -⟩ := answer_eq_ok_iff.mp hanswer
  have hfill := fansOut_of_outbound hrows hne htyped hfull
  have hlists := (inbound_eq_some_iff.mp hi).imp fun g condition => lists_iff.mpr
  rw [calls_answer hrows hanswer, inbound_of_lists hlists, Table.linked_of_split hs] at hcalls
  exact ⟨rows, _, hrows, (Table.rows_eq_ok_iff.mp hrows).length_eq.symm, hcalls, hfill⟩

end Engine

/-! ## Two items of one material -/

namespace Depot

open Sample (clock visitor)

def number : Column := { Column.ofTexts "No" false none with kind := .int, type := .int }

def toMaterial : Link := ⟨"Material", "Mat", "No", "Name"⟩

/-- The names of two items take one question for the number of their material. -/
theorem names_asked_once : ∃ answer rows fill,
    ((engine (.text "1")).find clock visitor question).result = .ok answer ∧
      items.rows .empty (items.fetchColumns question.outputIds [])
        (memory (.text "1") "Stock").rows = .ok rows ∧ rows.length = 2 ∧
      ((engine (.text "1")).find clock visitor question).calls =
        .fetch (items.fetchFor question []) :: fill ∧
      fill = [.fetch (toMaterial.fetch materials number Builtin.isIn [.int 1] .all)] ∧
      (engine (.text "1")).FansOut clock visitor ((engine (.text "1")).findSimple clock visitor
        ((engine (.text "1")).columnCount + 1)) items question.outputIds rows fill := by
  have hids : (((engine (.text "1")).find clock visitor question).result.map fun answer =>
      answer.rows.map TableRow.id) = .ok ["S1", "S2"] := by
    cbv
  obtain ⟨answer, hanswer, -⟩ := Except.map_eq_ok_iff.mp hids
  have hasks : (engine (.text "1")).AsksFor clock visitor items question [] :=
    ⟨[], [], [], rfl, rfl, rfl⟩
  have hfetch : (memory (.text "1") "Stock").driver.fetch clock visitor
      (items.fetchFor question []) =
        .fetched ⟨(memory (.text "1") "Stock").rows, [], ⟨0, 0, 1, 2⟩⟩ := by
    rfl
  have hcalls : ((engine (.text "1")).find clock visitor question).calls =
      [.fetch (items.fetchFor question []),
        .fetch (toMaterial.fetch materials number Builtin.isIn [.int 1] .all)] := by
    cbv
  obtain ⟨rows, fill, hrows, hlength, hrun, hfill⟩ := Engine.fansOut_of_find rfl hasks rfl hfetch
    (by simp [memory]) (by simp [memory]) hanswer
  have hsame : .fetch (items.fetchFor question []) :: fill =
      [.fetch (items.fetchFor question []),
        .fetch (toMaterial.fetch materials number Builtin.isIn [.int 1] .all)] :=
    hrun.symm.trans hcalls
  exact ⟨answer, rows, fill, hanswer, hrows, hlength, hrun, (List.cons.inj hsame).2, hfill⟩

end Depot

end TableQuery
