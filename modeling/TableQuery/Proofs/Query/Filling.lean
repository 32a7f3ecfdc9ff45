import TableQuery.Proofs.Query.Outbound
import TableQuery.Proofs.Sample

/-!
# Runs that fill linked cells

A run that asks for linked columns does what it does without them, and fills their cells. It
succeeds exactly if each local value can be expressed in the column in which it is looked up. A
local value that cannot makes the whole run fail, and does not leave the cell of its row empty.

## Main definitions

* `Table.unlinked` — a template without its linked output columns.
* `Engine.AsksFor`, `Engine.FindsNothing` — what a run asks its driver for, if anything.
* `Engine.OwnRows`, `Engine.FillsBy` — the rows of a run with their own cells, and the links that
  fill the others.
* `Engine.Answering` — drivers and forms answer.

## Main results

* `Engine.find_eq_ok_iff` — the ways in which a run succeeds.
* `Engine.findRows_iff_expressible` — which runs with linked columns succeed, and what the cells
  show.
* `Depot.unnumbered_item_fails` — one local value makes a run fail.
-/

namespace TableQuery

namespace Table

/-- A template without the output columns that are filled from other tables. -/
def unlinked (t : Table) (template : Template) : Template :=
  { template with
    body := { template.body with
      output := template.body.output.filter fun o =>
        ((t.column? o.column).bind Column.outboundLink?).isNone } }

theorem onlyVisible_unlinked (t : Table) (template : Template) :
    (t.unlinked template).onlyVisible = t.unlinked template.onlyVisible := by
  simp only [unlinked, Template.onlyVisible, List.filter_filter, Bool.and_comm]

end Table

namespace Engine

/-- The conditions with which a run asks the driver of its table. -/
def AsksFor (e : Engine) (now : Moment) (session : Session) (t : Table) (template : Template)
    (conditions : List RawCondition) : Prop :=
  ∃ direct linked translated, t.split template.body.filter = .ok (direct, linked) ∧
    (e.inbound (e.findSimple now session (e.columnCount + 1)) t (LinkGroup.collect linked)).result =
      .ok (some translated) ∧
    conditions = direct ++ translated

/-- The linked conditions of a run find nothing, and its driver is not asked. -/
def FindsNothing (e : Engine) (now : Moment) (session : Session) (t : Table)
    (template : Template) : Prop :=
  ∃ direct linked, t.split template.body.filter = .ok (direct, linked) ∧
    (e.inbound (e.findSimple now session (e.columnCount + 1)) t (LinkGroup.collect linked)).result =
      .ok none

/-- The rows of a run before the cells of linked columns are filled. -/
def OwnRows (e : Engine) (now : Moment) (session : Session) (t : Table) (template : Template)
    (rows : List TableRow) : Prop :=
  ∃ conditions d fetched, e.AsksFor now session t template conditions ∧ e.driver t.id = .ok d ∧
    d.fetch now session (t.fetchFor template conditions) = .fetched fetched ∧
    t.rows e.options (t.fetchColumns template.outputIds conditions) fetched.rows = .ok rows

/-- A run fills cells through a link. -/
def FillsBy (e : Engine) (now : Moment) (session : Session) (t : Table) (template : Template)
    (l : Link) : Prop :=
  ∃ first rest c, e.OwnRows now session t template (first :: rest) ∧
    (c, l) ∈ linkedColumns t first

/-- Drivers and forms answer a run: the driver of the table provides linked columns if it provides
the others, the tables that links lead to answer lookups, and forms have something for every row.
Rows that are answers already show what was asked for. -/
structure Answering (e : Engine) (now : Moment) (session : Session) (t : Table)
    (template : Template) : Prop where
  own : ∀ conditions, e.AsksFor now session t template conditions →
    e.Provides now session (t.fetchFor (t.unlinked template) conditions) →
    e.Provides now session (t.fetchFor template conditions)
  typed : ∀ conditions d fetched row, e.AsksFor now session t template conditions →
    e.driver t.id = .ok d →
    d.fetch now session (t.fetchFor template conditions) = .fetched fetched →
    .typed row ∈ fetched.rows → t.Shows (t.fetchColumns template.outputIds conditions) row
  lookups : ∀ l, e.FillsBy now session t template l → e.ProvidesLookups now session l
  offers : ∀ rows, ∃ offered, t.withOffers session rows = .ok offered

variable {e : Engine} {now : Moment} {session : Session} {t : Table} {template : Template}
  {rows : List TableRow}

/-! ## Rows of a run -/

theorem AsksFor.unique {conditions conditions' : List RawCondition}
    (h : e.AsksFor now session t template conditions)
    (h' : e.AsksFor now session t template conditions') : conditions = conditions' := by
  obtain ⟨direct, linked, translated, hs, hi, rfl⟩ := h
  obtain ⟨direct', linked', translated', hs', hi', rfl⟩ := h'
  obtain ⟨rfl, rfl⟩ := Prod.mk.inj (Except.ok.inj (hs.symm.trans hs'))
  obtain rfl := Option.some.inj (Except.ok.inj (hi.symm.trans hi'))
  rfl

theorem FindsNothing.not_asksFor (h : e.FindsNothing now session t template)
    (conditions : List RawCondition) : ¬e.AsksFor now session t template conditions := by
  rintro ⟨direct', linked', translated, hs', hi', -⟩
  obtain ⟨direct, linked, hs, hi⟩ := h
  obtain ⟨rfl, rfl⟩ := Prod.mk.inj (Except.ok.inj (hs.symm.trans hs'))
  cases hi.symm.trans hi'

/-- A run of a template that fits its table succeeds where linked conditions find nothing, or where
the driver answers what it is asked. -/
theorem find_eq_ok_iff {answer : TableRows} :
    (e.find now session template).result = .ok answer ↔
      ∃ t, e.registry.table? template.table = some t ∧ t.validate template = .ok () ∧
        ((e.FindsNothing now session t template ∧ answer = .empty) ∨
          ∃ conditions d fetched, e.AsksFor now session t template conditions ∧
            e.driver t.id = .ok d ∧
            d.fetch now session (t.fetchFor template conditions) = .fetched fetched ∧
            (e.answer session (e.findSimple now session (e.columnCount + 1)) false
              (t.fetchFor template conditions) template.outputIds fetched).result =
              .ok answer) := by
  rw [find, findOnce_eq_ok_iff]
  constructor
  · rintro ⟨t, direct, linked, ht, hv, hs, ⟨hi, hnone⟩ | ⟨translated, d, fetched, hi, hd, hf, ha⟩⟩
    · exact ⟨t, ht, hv, .inl ⟨⟨direct, linked, hs, hi⟩, hnone⟩⟩
    · exact ⟨t, ht, hv, .inr ⟨_, d, fetched, ⟨direct, linked, translated, hs, hi, rfl⟩, hd,
        Driver.ask_eq_ok_iff.mp hf, ha⟩⟩
  · rintro ⟨t, ht, hv, ⟨⟨direct, linked, hs, hi⟩, hnone⟩ |
      ⟨_, d, fetched, ⟨direct, linked, translated, hs, hi, rfl⟩, hd, hf, ha⟩⟩
    · exact ⟨t, direct, linked, ht, hv, hs, .inl ⟨hi, hnone⟩⟩
    · exact ⟨t, direct, linked, ht, hv, hs, .inr ⟨translated, d, fetched, hi, hd,
        Driver.ask_eq_ok_iff.mpr hf, ha⟩⟩

theorem OwnRows.unique {rows' : List TableRow} (h : e.OwnRows now session t template rows)
    (h' : e.OwnRows now session t template rows') : rows = rows' := by
  obtain ⟨conditions, d, fetched, hc, hd, hf, hrows⟩ := h
  obtain ⟨conditions', d', fetched', hc', hd', hf', hrows'⟩ := h'
  obtain rfl := hc.unique hc'
  obtain rfl := Except.ok.inj (hd.symm.trans hd')
  obtain rfl := Reply.fetched.inj (hf.symm.trans hf')
  exact Except.ok.inj (hrows.symm.trans hrows')

theorem OwnRows.shows (h : e.OwnRows now session t template rows)
    (hanswering : e.Answering now session t template) :
    ∃ output, template.outputIds ⊆ output ∧ ∀ row ∈ rows, t.Shows output row := by
  obtain ⟨conditions, d, fetched, hc, hd, hf, hrows⟩ := h
  refine ⟨t.fetchColumns template.outputIds conditions,
    fun id hid => Table.mem_fetchColumns_of_mem conditions hid, fun row hrow => ?_⟩
  obtain ⟨stored, hstored, hshown⟩ := forall₂_exists_left (Table.rows_eq_ok_iff.mp hrows) hrow
  by_cases htyped : ∃ r, stored = .typed r
  · obtain ⟨r, rfl⟩ := htyped
    cases hshown
    exact hanswering.typed conditions d fetched _ hc hd hf hstored
  · exact Table.shows_of_row hshown (fun r hr => htyped ⟨r, hr⟩) (nodup_firstOfEach _)

/-! ## Linked columns of rows -/

/-- A stored column is not filled. -/
theorem id_ne_of_mem_linkedColumns {row : TableRow} {q : Column × Link}
    (hq : q ∈ linkedColumns t row) {column : String} (hstored : t.Stores column) :
    q.1.id ≠ column := by
  rintro rfl
  obtain ⟨-, hc, hl⟩ := mem_linkedColumns_iff.mp hq
  rw [hstored q.1 hc] at hl
  cases hl

/-! ## Runs -/

/-- The links of a run look up stored columns in stored columns. -/
def LooksUpStored (e : Engine) (now : Moment) (session : Session) (t : Table)
    (template : Template) : Prop :=
  ∀ l, e.FillsBy now session t template l → t.Stores l.localColumn ∧
    ∀ remote, e.registry.table? l.table = some remote → remote.Stores l.searchColumn

section Find

variable {before : Registry} (hn : before.Registered)
  (hlinks : before.validateLinks = .ok e.registry)
  (hsound : ∀ u ∈ e.registry.tables, ∀ c ∈ u.columns, c.Sound)
  (ht : e.registry.table? template.table = some t)
  (hanswering : e.Answering now session t template)
  (hstored : e.LooksUpStored now session t template)

include hn hlinks hsound ht hanswering hstored

/-- The rows of a run can be filled exactly if their local values can be expressed. -/
theorem exists_outbound_iff (hrows : e.OwnRows now session t template rows) :
    (∃ filled, (e.outbound (e.findSimple now session (e.columnCount + 1)) t rows).result =
        .ok filled) ↔
      ∀ l, e.FillsBy now session t template l → e.Expressible l rows := by
  obtain ⟨output, -, hshows⟩ := hrows.shows hanswering
  cases rows with
  | nil => simp [outbound, Expressible]
  | cons first rest =>
    have hfills {p : Column × Link} (hp : p ∈ linkedColumns t first) :
        e.FillsBy now session t template p.2 :=
      ⟨first, rest, p.1, hrows, hp⟩
    have hl {p : Column × Link} (hp : p ∈ linkedColumns t first) : t.HasLink p.2 :=
      hasLink_of_mem_linkedColumns hp
    have hu {p : Column × Link} (hp : p ∈ linkedColumns t first) :
        p.2.Uniform (first :: rest) := by
      obtain ⟨here, remote, search, value, hleads⟩ :=
        Registry.linked_of_validateLinks hn hlinks _ t ht p.2 (hl hp)
      exact Table.uniform_of_shows hshows hleads.here_eq
    refine (exists_fillColumns_iff
      (fun p hp q hq => id_ne_of_mem_linkedColumns hq (hstored p.2 (hfills hp)).1)
      (fun p hp rows hu => exists_lookup_iff hn hlinks hsound ht (hl hp)
        (hstored p.2 (hfills hp)).2 (hanswering.lookups p.2 (hfills hp)) hu)
      (fun p hp => hu hp)).trans ?_
    constructor
    · rintro h l ⟨first', rest', c, hrows', hc⟩
      obtain ⟨rfl, rfl⟩ := List.cons.inj (hrows.unique hrows')
      exact h (c, l) hc
    · exact fun h p hp => h p.2 (hfills hp)

/-- A run succeeds exactly if the template fits the table and the local values can be expressed. -/
theorem exists_find_iff {bare : TableRows}
    (hbare : (e.find now session (t.unlinked template)).result = .ok bare) :
    (∃ answer, (e.find now session template).result = .ok answer) ↔
      t.validate template = .ok () ∧ ∀ rows, e.OwnRows now session t template rows →
        ∀ l, e.FillsBy now session t template l → e.Expressible l rows := by
  constructor
  · rintro ⟨answer, h⟩
    obtain ⟨t', ht', hv, h⟩ := find_eq_ok_iff.mp h
    obtain rfl : t' = t := Option.some.inj (ht'.symm.trans ht)
    refine ⟨hv, fun rows hrows => ?_⟩
    rw [← exists_outbound_iff hn hlinks hsound ht hanswering hstored hrows]
    rcases h with ⟨hnothing, -⟩ | ⟨conditions, d, fetched, hasks, hd, hf, ha⟩
    · obtain ⟨conditions, -, -, hasks, -⟩ := hrows
      exact absurd hasks (hnothing.not_asksFor conditions)
    · obtain ⟨rows', full, -, -, hrows', hfull, -⟩ := answer_eq_ok_iff.mp ha
      have hown : e.OwnRows now session t' template rows' :=
        ⟨conditions, d, fetched, hasks, hd, hf, hrows'⟩
      obtain rfl := hrows.unique hown
      exact ⟨full, hfull⟩
  · rintro ⟨hv, hall⟩
    obtain ⟨t', ht', -, h⟩ := find_eq_ok_iff.mp hbare
    obtain rfl : t' = t := Option.some.inj (ht'.symm.trans ht)
    -- The conditions of a run do not depend on its output.
    rcases h with ⟨hnothing, -⟩ | ⟨conditions, d, fetched, hasks, hd, hf, ha⟩
    · exact ⟨.empty, find_eq_ok_iff.mpr ⟨t', ht, hv, .inl ⟨hnothing, rfl⟩⟩⟩
    · replace hasks : e.AsksFor now session t' template conditions := hasks
      obtain ⟨d', fetched', rows, aggregates, hd', hf', hrows, haggregates⟩ :=
        hanswering.own conditions hasks (provides_of_answer hd (Driver.ask_eq_ok_iff.mpr hf) ha)
      have hown : e.OwnRows now session t' template rows :=
        ⟨conditions, d', fetched', hasks, hd', hf', hrows⟩
      obtain ⟨full, hfull⟩ := (exists_outbound_iff hn hlinks hsound ht hanswering hstored hown).mpr
        (hall rows hown)
      obtain ⟨final, hfinal⟩ :=
        hanswering.offers (full.map fun row => row.onlyCells template.outputIds)
      have hanswer : (e.answer session (e.findSimple now session (e.columnCount + 1)) false
          (t'.fetchFor template conditions) template.outputIds fetched').result =
          .ok ⟨final, aggregates, fetched'.page⟩ :=
        answer_eq_ok_iff.mpr ⟨rows, full, aggregates, final, hrows, hfull, haggregates,
          Run.result_ofExcept_eq_ok_iff.mpr hfinal, rfl⟩
      exact ⟨_, find_eq_ok_iff.mpr ⟨t', ht, hv,
        .inr ⟨conditions, d', fetched', hasks, hd', hf', hanswer⟩⟩⟩

omit hn hlinks hsound in
/-- The linked cells of an answer are filled from the rows of the run. -/
theorem fills_of_find {answer : TableRows} (h : (e.find now session template).result = .ok answer) :
    ∃ rows, (rows = [] ∨ e.OwnRows now session t template rows) ∧
      List.Forall₂ (fun row shown => ∀ c l, c.id ∈ template.outputIds →
          t.column? c.id = some c → c.outboundLink? = some l →
          Fills (e.findSimple now session (e.columnCount + 1)) c l row shown)
        rows answer.rows := by
  obtain ⟨t', ht', -, h⟩ := find_eq_ok_iff.mp h
  obtain rfl : t' = t := Option.some.inj (ht'.symm.trans ht)
  rcases h with ⟨-, rfl⟩ | ⟨conditions, d, fetched, hasks, hd, hf, ha⟩
  · exact ⟨[], .inl rfl, .nil⟩
  obtain ⟨rows, full, -, final, hrows, hfull, -, hfinal, rfl⟩ := answer_eq_ok_iff.mp ha
  have hown : e.OwnRows now session t' template rows :=
    ⟨conditions, d, fetched, hasks, hd, hf, hrows⟩
  refine ⟨rows, .inr hown, ?_⟩
  obtain ⟨output, houtput, hshows⟩ := hown.shows hanswering
  have hoffered := Table.sameCells_of_withOffers (Run.result_ofExcept_eq_ok_iff.mp hfinal)
  rw [List.forall₂_map_left_iff] at hoffered
  cases rows with
  | nil =>
    cases hfull
    cases hoffered
    exact .nil
  | cons first rest =>
    have hn : ((linkedColumns t' first).map fun q => q.1.id).Nodup :=
      .sublist (sublist_linkedColumns t' first) (hshows first List.mem_cons_self).nodup
    refine forall₂_trans (filled_of_fillColumns hn hfull) hoffered
      fun row hrow full shown hfull hshown c l hid hc hl => ?_
    obtain ⟨hcolumns, hfilled⟩ := hfull
    have hcell {r : TableRow} (hr : r ∈ first :: rest) : c.id ∈ r.cells.map Cell.column :=
      (hshows r hr).subset (houtput hid)
    have hlinked : (c, l) ∈ linkedColumns t' first :=
      mem_linkedColumns_iff.mpr ⟨hcell List.mem_cons_self, hc, hl⟩
    obtain ⟨found, hfound, hfilled⟩ := hfilled (c, l) hlinked fun q hq =>
      id_ne_of_mem_linkedColumns hq (hstored l ⟨first, rest, c, hown, hlinked⟩).1
    obtain ⟨w, hw, hfill⟩ := fills_of_lookup hfound (hcell hrow) hfilled
    have hnodup : (full.cells.map Cell.column).Nodup := by
      rw [hcolumns]
      exact (hshows row hrow).nodup
    have hshown : shown.value? c.id = (full.onlyCells template.outputIds).value? c.id := by
      unfold TableRow.value? TableRow.cell?
      rw [hshown.2]
    exact ⟨w, hshown.trans ((TableRow.value?_onlyCells hnodup hid).trans hw), hfill⟩

end Find

/-- A run with linked columns, of which it is known that it succeeds without them, succeeds exactly
if each local value that is not null can be expressed in the column in which it is looked up. Every
linked cell then shows what a row of the other table says about the text of the local value of its
row, or the value for null where no row says anything. Null itself is shown in the local column as
a value and looked up as this value. -/
theorem findRows_iff_expressible {before : Registry} (hn : before.Registered)
    (hlinks : before.validateLinks = .ok e.registry)
    (hsound : ∀ u ∈ e.registry.tables, ∀ c ∈ u.columns, c.Sound)
    (ht : e.registry.table? template.table = some t)
    (hanswering : e.Answering now session t template.onlyVisible)
    (hstored : e.LooksUpStored now session t template.onlyVisible) {bare : TableRows}
    (hbare : (e.findRows now session (t.unlinked template)).result = .ok bare) :
    ((∃ answer, (e.findRows now session template).result = .ok answer) ↔
      t.validate template.onlyVisible = .ok () ∧
        ∀ rows, e.OwnRows now session t template.onlyVisible rows →
          ∀ l, e.FillsBy now session t template.onlyVisible l → e.Expressible l rows) ∧
    ∀ answer, (e.findRows now session template).result = .ok answer →
      ∃ rows, (rows = [] ∨ e.OwnRows now session t template.onlyVisible rows) ∧
        List.Forall₂ (fun row shown => ∀ c l, c.id ∈ template.onlyVisible.outputIds →
            t.column? c.id = some c → c.outboundLink? = some l →
            Fills (e.findSimple now session (e.columnCount + 1)) c l row shown)
          rows answer.rows := by
  have ht' : e.registry.table? template.onlyVisible.table = some t := ht
  rw [findRows, Table.onlyVisible_unlinked] at hbare
  exact ⟨exists_find_iff hn hlinks hsound ht' hanswering hstored hbare,
    fun answer h => fills_of_find ht' hanswering hstored h⟩

end Engine

/-! ## A depot of numbered materials -/

namespace Depot

open Sample (clock visitor)

def materials : Table :=
  ⟨"Material", "Material", "", [.ofTexts "Code" true none,
    { Column.ofTexts "No" false none with kind := .int, type := .int },
    .ofTexts "Name" false none], "Code", [], none, none⟩

def items : Table :=
  ⟨"Stock", "Stock", "", [.ofTexts "Id" true none, .ofTexts "Mat" false none,
    .ofTexts "MatName" false (some ⟨"Material", "Mat", "No", "Name"⟩)], "Id", [], none, none⟩

/-- A bolt with the number 1, an item of it, and an item of some material. -/
def memory (mat : Raw) (table : String) : Memory where
  rows :=
    if table = "Material" then
      [.keyed [("Code", .text "M1"), ("No", .int 1), ("Name", .text "Bolt")]]
    else
      [.keyed [("Id", .text "S1"), ("Mat", .text "1")], .keyed [("Id", .text "S2"), ("Mat", mat)]]
  limit := 100000
  operators := []

def engine (mat : Raw) : Engine where
  registry := ⟨[materials, items]⟩
  options := .empty
  drivers :=
    [("Material", (memory mat "Material").driver), ("Stock", (memory mat "Stock").driver)]

def question : Template :=
  .temporary "Stock" ⟨[], [.plain "Id", .plain "MatName"]⟩ .all

theorem registered : (⟨[materials, items]⟩ : Registry).Registered := by
  have hfirst : Registry.empty.register materials = .ok ⟨[materials]⟩ := rfl
  have hsecond : (⟨[materials]⟩ : Registry).register items = .ok ⟨[materials, items]⟩ := by rfl
  exact .register (.register .empty hfirst) hsecond

theorem validateLinks_registry (mat : Raw) :
    (⟨[materials, items]⟩ : Registry).validateLinks = .ok (engine mat).registry := by
  cbv

theorem sound (mat : Raw) : ∀ u ∈ (engine mat).registry.tables, ∀ c ∈ u.columns, c.Sound := by
  intro u hu c hc op hop _
  have hops : ∀ u ∈ [materials, items], ∀ c ∈ u.columns, ∀ op ∈ c.filters,
      op ∈ Builtin.operators := by
    decide
  exact hops u hu c hc op hop

variable {mat : Raw}

theorem asksFor_eq_nil {conditions : List RawCondition}
    (h : (engine mat).AsksFor clock visitor items question conditions) : conditions = [] :=
  h.unique ⟨[], [], [], rfl, rfl, rfl⟩

theorem eq_of_fillsBy {l : Link} (h : (engine mat).FillsBy clock visitor items question l) :
    l = ⟨"Material", "Mat", "No", "Name"⟩ := by
  obtain ⟨first, rest, c, -, hc⟩ := h
  obtain ⟨-, hc, hl⟩ := Engine.mem_linkedColumns_iff.mp hc
  have hmem := Table.mem_of_column? hc
  simp only [items, List.mem_cons, List.not_mem_nil, or_false] at hmem
  rcases hmem with rfl | rfl | rfl
  · cases hl
  · cases hl
  · exact (Option.some.inj hl).symm

theorem looksUpStored : (engine mat).LooksUpStored clock visitor items question := by
  intro l hl
  obtain rfl := eq_of_fillsBy hl
  constructor
  · intro c hc
    obtain rfl := Option.some.inj hc
    rfl
  · intro remote hremote c hc
    obtain rfl := Option.some.inj hremote
    obtain rfl := Option.some.inj hc
    rfl

/-- All drivers answer, whether the second item has no material, one without a number, or one that
is missing. -/
theorem answering (hmat : mat ∈ [.null, .text "x", .text "2"]) :
    (engine mat).Answering clock visitor items question where
  own conditions hc _ := by
    obtain rfl := asksFor_eq_nil hc
    refine Engine.provides_of_memory rfl rfl (fun _ _ => ⟨true, rfl⟩) (fun n hn => ?_) ?_
    · have hn : n ≤ 2 := hn
      obtain rfl | rfl | rfl : n = 0 ∨ n = 1 ∨ n = 2 := by omega
      all_goals rfl
    · have hrows : (memory mat "Stock").rows = [.keyed [("Id", .text "S1"), ("Mat", .text "1")],
          .keyed [("Id", .text "S2"), ("Mat", mat)]] := rfl
      rw [hrows, List.forall_mem_cons, List.forall_mem_singleton]
      simp only [Except.exists_eq_ok_iff]
      simp only [List.mem_cons, List.not_mem_nil, or_false] at hmat
      rcases hmat with rfl | rfl | rfl
      all_goals exact ⟨by cbv, by cbv⟩
  typed conditions d fetched row _ hd hf hrow := by
    obtain rfl : (memory mat "Stock").driver = d :=
      Option.some.inj (Engine.driver_eq_ok_iff.mp hd)
    have hfetch := Memory.ask_eq_ok_iff.mp (Driver.ask_eq_ok_iff.mpr hf)
    have hmem := Memory.mem_rows_of_fetch hfetch hrow
    simp [memory] at hmem
  lookups l hl := by
    obtain rfl := eq_of_fillsBy hl
    intro remote search hremote hsearch
    obtain rfl := Option.some.inj hremote
    obtain rfl := Option.some.inj hsearch
    have hlimit (page : PageRequest) (n : Nat) (hn : n ≤ 1) :
        page.checkLimit (UInt64.ofNat n) 100000 = .ok () := by
      obtain rfl | rfl : n = 0 ∨ n = 1 := by omega
      all_goals simp [PageRequest.checkLimit]
    have hrows : ∀ row ∈ (memory mat "Material").rows, ∃ shown,
        materials.row .empty row ["No", "Name", "Code"] = .ok shown := by
      intro row hrow
      obtain rfl := List.mem_singleton.mp hrow
      rw [Except.exists_eq_ok_iff]
      cbv
    constructor
    · intro keys raws _
      refine Engine.provides_of_memory rfl rfl (fun _ _ => Memory.exists_holds ?_) (hlimit _) hrows
      intro condition hc
      obtain rfl := List.mem_singleton.mp hc
      exact ⟨_, rfl, _, Memory.evaluate_isIn ..⟩
    · intro key raw _
      refine Engine.provides_of_memory rfl rfl (fun _ _ => Memory.exists_holds ?_) (hlimit _) hrows
      intro condition hc
      obtain rfl := List.mem_singleton.mp hc
      exact ⟨_, rfl, _, Memory.evaluate_eq ..⟩
  offers rows := by
    induction rows with
    | nil => exact ⟨[], rfl⟩
    | cons row rows ih =>
      obtain ⟨offered, h⟩ := ih
      refine ⟨{ row with actions := [] } :: offered, ?_⟩
      rw [Table.withOffers, h]
      rfl

/-- An item whose material is missing is shown with an empty name. -/
theorem missing_material_is_empty : ∃ answer,
    ((engine (.text "2")).findRows clock visitor question).result = .ok answer ∧
      (answer.rows.map fun row => (row.value? "MatName").map Value.display) =
        [some "Bolt", some ""] ∧
      (∀ rows, (engine (.text "2")).OwnRows clock visitor items question rows →
        ∀ l, (engine (.text "2")).FillsBy clock visitor items question l →
          (engine (.text "2")).Expressible l rows) ∧
      ∃ rows, (rows = [] ∨ (engine (.text "2")).OwnRows clock visitor items question rows) ∧
        List.Forall₂ (fun row shown => ∀ c l, c.id ∈ question.outputIds →
            items.column? c.id = some c → c.outboundLink? = some l →
            Engine.Fills ((engine (.text "2")).findSimple clock visitor
              ((engine (.text "2")).columnCount + 1)) c l row shown)
          rows answer.rows := by
  have hnames : (((engine (.text "2")).findRows clock visitor question).result.map fun answer =>
      answer.rows.map fun row => (row.value? "MatName").map Value.display) =
        .ok [some "Bolt", some ""] := by
    cbv
  have hids : (((engine (.text "2")).findRows clock visitor (items.unlinked question)).result.map
      fun answer => answer.rows.map TableRow.id) = .ok ["S1", "S2"] := by
    cbv
  obtain ⟨answer, hanswer, hnames⟩ := Except.map_eq_ok_iff.mp hnames
  obtain ⟨bare, hbare, -⟩ := Except.map_eq_ok_iff.mp hids
  obtain ⟨hiff, hfills⟩ := Engine.findRows_iff_expressible registered
    (validateLinks_registry (.text "2")) (sound _) (t := items) rfl (answering (by simp))
    looksUpStored hbare
  obtain ⟨-, hexpressible⟩ := hiff.mp ⟨answer, hanswer⟩
  exact ⟨answer, hanswer, hnames, hexpressible, hfills answer hanswer⟩

/-- An item without a material, or with one that has no number, makes the whole run fail, which
succeeds without the names. -/
theorem unnumbered_item_fails : (⟨[materials, items]⟩ : Registry).Registered ∧
    (⟨[materials, items]⟩ : Registry).validateLinks = .ok (engine .null).registry ∧
    items.validate question = .ok () ∧
    ((engine .null).Answering clock visitor items question ∧
      ((engine .null).findRows clock visitor (items.unlinked question)).result.map
        (fun answer => answer.rows.map TableRow.id) = .ok ["S1", "S2"] ∧
      ((engine .null).findRows clock visitor question).result =
        .error (.error (.failedParseValue "No" ""))) ∧
    (engine (.text "x")).Answering clock visitor items question ∧
      ((engine (.text "x")).findRows clock visitor (items.unlinked question)).result.map
        (fun answer => answer.rows.map TableRow.id) = .ok ["S1", "S2"] ∧
      ((engine (.text "x")).findRows clock visitor question).result =
        .error (.error (.failedParseValue "No" "x")) := by
  exact ⟨registered, validateLinks_registry _, by cbv, ⟨answering (by simp), by cbv, by cbv⟩,
    answering (by simp), by cbv, by cbv⟩

end Depot

end TableQuery
