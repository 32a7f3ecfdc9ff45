import TableQuery.Proofs.Cell.Row
import TableQuery.Proofs.Cell.Typed
import TableQuery.Proofs.Query.Found

/-!
# Questions to tables in memory

A run of a template without linked conditions on a table whose rows are held in memory finds the
rows on which the conditions hold.

## Main results

* `Driver.ask_eq_ok_iff` — what is answered was fetched.
* `Engine.found_of_direct`, `Engine.shown_of_direct` — the rows that such a run finds.
-/

namespace TableQuery

theorem Driver.ask_eq_ok_iff {d : Driver} {now : Moment} {session : Session} {f : Fetch}
    {fetched : Fetched} :
    (d.ask now session f).result = .ok fetched ↔ d.fetch now session f = .fetched fetched := by
  unfold Driver.ask Run.call
  cases d.fetch now session f <;> simp

theorem Memory.ask_eq_ok_iff {m : Memory} {now : Moment} {session : Session} {f : Fetch}
    {fetched : Fetched} :
    (m.driver.ask now session f).result = .ok fetched ↔ m.fetch now f = .ok fetched := by
  rw [Driver.ask_eq_ok_iff]
  cases h : m.fetch now f <;> simp [Memory.driver, Reply.ofExcept, h]

/-- The output of a lookup has both columns of the link. -/
theorem Link.mem_output (l : Link) : l.searchColumn ∈ l.output.map OutputColumn.column ∧
    l.valueColumn ∈ l.output.map OutputColumn.column := by
  unfold output
  split
  · next heq => simp [OutputColumn.plain, heq]
  · simp [OutputColumn.plain]

/-- The question of a link has one condition, which is on the column searched in. -/
theorem Link.filter_template (l : Link) (operator : String) (values : List Value)
    (page : PageRequest) : (l.template operator values page).body.filter =
      [⟨l.searchColumn, qualify operator, values⟩] :=
  rfl

namespace Table

variable {t : Table}

/-- In a stored column it is a condition on raw values. -/
theorem split_lookup_eq_ok_iff {l : Link} {search : Column} {operator : String}
    {values : List Value} {page : PageRequest} {direct : List RawCondition}
    {linked : List (Link × Condition)} (hsearch : t.column? l.searchColumn = some search)
    (hstored : search.outboundLink? = none) :
    t.split (l.template operator values page).body.filter = .ok (direct, linked) ↔
      ∃ raws, nativeValues search values = .ok raws ∧
        direct = [⟨search.id, qualify operator, raws⟩] ∧ linked = [] := by
  rw [Link.filter_template, split_cons_eq_ok_iff]
  simp [hsearch, hstored, split, and_assoc]

theorem columns_of_validateOutput {seen : List String} {output : List OutputColumn}
    (h : t.validateOutput seen output = .ok ()) {o : OutputColumn} (ho : o ∈ output) :
    ∃ c, t.column? o.column = some c ∧ c.supportsAggregate o.aggregate = true := by
  induction output generalizing seen with
  | nil => cases ho
  | cons first output ih =>
    simp only [validateOutput] at h
    split at h
    · cases h
    · simp only [Except.bind_eq_ok_iff, column_eq_ok_iff] at h
      obtain ⟨c, hc, h⟩ := h
      split at h
      · next hsupports =>
        rcases List.mem_cons.mp ho with rfl | ho
        · exact ⟨c, hc, hsupports⟩
        · exact ih h ho
      · cases h

theorem validate_eq_ok_iff {template : Template} :
    t.validate template = .ok () ↔ t.validateFilter template.body.filter = .ok () ∧
      template.body.output ≠ [] ∧ t.validateOutput [] template.body.output = .ok () := by
  simp only [validate, Except.bind_eq_ok_iff]
  constructor
  · rintro ⟨⟨⟩, hf, h⟩
    split at h
    · simp [Except.bind_eq_ok_iff] at h
    · next hne => exact ⟨hf, by simpa using hne, h⟩
  · rintro ⟨hf, hne, ho⟩
    refine ⟨(), hf, ?_⟩
    rw [if_neg (by simpa using hne)]
    exact ho

/-- The output columns of a template that fits its table exist. -/
theorem column_of_validate {template : Template} (h : t.validate template = .ok ()) {id : String}
    (hid : id ∈ template.outputIds) : ∃ c, t.column? id = some c := by
  obtain ⟨o, ho, rfl⟩ := List.mem_map.mp hid
  obtain ⟨c, hc, -⟩ := columns_of_validateOutput (validate_eq_ok_iff.mp h).2.2 ho
  exact ⟨c, hc⟩

theorem mem_firstOfEach {s : String} {ss : List String} : s ∈ firstOfEach ss ↔ s ∈ ss := by
  induction ss with
  | nil => rfl
  | cons first ss ih =>
    simp only [firstOfEach, List.mem_cons, List.mem_filter, ih, bne_iff_ne, ne_eq]
    by_cases h : s = first <;> simp [h]

theorem mem_fetchColumns_of_mem {id : String} {output : List String}
    (conditions : List RawCondition) (h : id ∈ output) : id ∈ t.fetchColumns output conditions := by
  simp [fetchColumns, mem_firstOfEach, h]

theorem linkedConditions_eq_nil {conditions : List Condition}
    (h : ∀ condition ∈ conditions, t.linkOf? condition = none) :
    t.linkedConditions conditions = [] := by
  unfold linkedConditions
  rw [List.filterMap_eq_nil_iff]
  intro condition hc
  simp [h condition hc]

end Table

namespace Engine

variable {e : Engine} {now : Moment} {session : Session} {find : Template → Run TableRows}

/-- The rows that a simple run of a template without linked conditions finds: a page of the rows
on which the conditions hold, with the cells asked for. -/
theorem found_of_direct {remote : Table} {m : Memory} {template : Template} {found : TableRows}
    (hr : e.registry.table? template.table = some remote)
    (hd : e.drivers.lookup remote.id = some m.driver)
    (hdirect : ∀ condition ∈ template.body.filter, remote.linkOf? condition = none)
    (h : (e.findOnce now session find true template).result = .ok found) :
    ∃ keep output full, (∀ row, keep row = true ↔
        ∀ condition ∈ template.body.filter, m.Meets now remote row condition.column condition) ∧
      (∀ id ∈ template.outputIds, id ∈ output ∧ ∃ c, remote.column? id = some c) ∧
      List.Forall₂ (fun stored row => remote.row e.options stored output = .ok row)
        (template.page.window (Memory.sorted remote template.order (m.rows.filter keep))) full ∧
      found.rows = full.map fun row => row.onlyCells template.outputIds := by
  obtain ⟨remote', direct, linked, hr', hv, hs, h⟩ := findOnce_eq_ok_iff.mp h
  obtain rfl : remote' = remote := Option.some.inj (hr'.symm.trans hr)
  have hlinked : linked = [] := by
    rw [Table.linked_of_split hs, Table.linkedConditions_eq_nil hdirect]
  subst hlinked
  rcases h with ⟨hi, -⟩ | ⟨translated, d, fetched, hi, hd', hf, ha⟩
  · simp [LinkGroup.collect, inbound] at hi
  · have htr : translated = [] := by simpa [LinkGroup.collect, inbound, eq_comm] using hi
    subst htr
    rw [List.append_nil] at hf ha
    obtain rfl : m.driver = d := Option.some.inj (hd.symm.trans (driver_eq_ok_iff.mp hd'))
    obtain ⟨matched, aggregates, hm, -, -, rfl⟩ :=
      Memory.fetch_eq_ok_iff.mp (Memory.ask_eq_ok_iff.mp hf)
    obtain ⟨rows, aggregates', hrows, -, rfl⟩ := answer_simple_eq_ok_iff.mp ha
    obtain ⟨-, rfl⟩ := Memory.matching_eq_ok_iff.mp hm
    refine ⟨m.keeps now remote' direct, _, rows, fun row => ?_, fun id hid => ⟨?_, ?_⟩,
      Table.rows_eq_ok_iff.mp hrows, rfl⟩
    · refine Memory.keeps_iff.trans ((Table.accepts_direct_iff hs).trans ?_)
      exact forall₂_congr fun condition hc => forall_prop_of_true (hdirect condition hc)
    · exact Table.mem_fetchColumns_of_mem _ hid
    · exact Table.column_of_validate hv hid

/-- The rows found show the stored columns asked for as the rows in memory do. A row in memory that
is not an answer already has one cell for each column asked for. -/
theorem shown_of_direct {remote : Table} {m : Memory} {template : Template} {found : TableRows}
    (hr : e.registry.table? template.table = some remote)
    (hd : e.drivers.lookup remote.id = some m.driver)
    (hdirect : ∀ condition ∈ template.body.filter, remote.linkOf? condition = none)
    (horder : template.order = none)
    (h : (e.findOnce now session find true template).result = .ok found) :
    ∃ keep, (∀ row, keep row = true ↔
        ∀ condition ∈ template.body.filter, m.Meets now remote row condition.column condition) ∧
      (∀ id ∈ template.outputIds, ∃ c, remote.column? id = some c) ∧
      List.Forall₂ (fun stored row =>
          (∀ id ∈ template.outputIds, ∀ c, remote.column? id = some c → c.outboundLink? = none →
            row.value? id = stored.shown? e.options c) ∧
          ((∀ r, stored ≠ .typed r) → row.cells.map Cell.column = template.outputIds))
        (template.page.window (m.rows.filter keep)) found.rows := by
  obtain ⟨keep, output, full, hkeep, hids, hfull, hfound⟩ := found_of_direct hr hd hdirect h
  rw [horder] at hfull
  refine ⟨keep, hkeep, fun id hid => (hids id hid).2, ?_⟩
  rw [hfound, List.forall₂_map_right_iff]
  refine hfull.imp fun stored row hrow => ⟨fun id hid c hc hlink => ?_, fun htyped => ?_⟩
  · have hout := (hids id hid).1
    have hcid := Table.column?_id hc
    rw [← hcid] at hid hout hc ⊢
    exact Table.value?_onlyCells_of_row hrow hc hlink hid hout
  · apply TableRow.map_column_onlyCells
    rw [Table.map_column_of_row hrow htyped]
    exact fun id hid => (hids id hid).1

end Engine

def Column.ofTexts (id : String) (isKey : Bool) (link : Option Link) : Column :=
  { (default : Column) with
    id, name := id, kind := .string, isKey, link, storageName := id
    filters := [⟨Builtin.eq, "equal", .single⟩, ⟨Builtin.isIn, "in", .multiple⟩] }

end TableQuery
