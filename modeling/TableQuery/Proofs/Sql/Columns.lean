import Mathlib.Tactic.SplitIfs
import TableQuery.Proofs.Cell.Recovered
import TableQuery.Proofs.Lists
import TableQuery.Proofs.Run
import TableQuery.Proofs.Sample
import TableQuery.Proofs.Schema.WellFormed
import TableQuery.Sql.Source

/-!
# Columns read from a database

A select reads each name that values are stored under once, by the expression and the kind of the
first column that is asked for under this name. Other columns of the same name are shown what this
one reads. That is their own value if the expression and the kind are the same.

## Main definitions

* `Sql.Record`, `Sql.answer` — what a database holds, and what it answers a select.
* `Sql.own` — the value of a column by its own expression and kind.
* `Sql.wanted` — the columns that a select must show.
* `Sql.Source.Serves` — a select shows each of them its own value.

## Main results

* `Sql.readRow_answer` — what is read are the own values of the columns of the select.
* `Sql.serves_iff_alike` — when a select shows all columns their own values.
* `TableSpec.serves_iff` — when all selects of a table do.
-/

namespace TableQuery

namespace Sql

/-- A row that a database holds: the values of all expressions. -/
abbrev Record := String → Bound

/-- What a database answers a select for columns: the values of their expressions under the names
that they are stored under. -/
def answer (record : Record) (columns : List Column) : DbRow :=
  columns.map fun c => (c.storageName, record c.expression)

/-- The value of the column's own expression, read by its own kind. -/
def own (record : Record) (c : Column) : Except QueryError Raw :=
  readValue (answer record [c]) c

section Read

variable {record : Record} {columns : List Column} {c : Column} {row : DbRow} {raw : Raw}

theorem lookup_answer (hn : (columns.map Column.storageName).Nodup) (hc : c ∈ columns) :
    (answer record columns).lookup c.storageName = some (record c.expression) := by
  have hanswer : List.Forall₂ (fun c v => v.1 = c.storageName ∧ record c.expression = v.2) columns
      (answer record columns) :=
    List.forall₂_map_right_iff.mpr (List.forall₂_same.mpr fun _ _ => ⟨rfl, rfl⟩)
  obtain ⟨v, rfl, hlookup⟩ := lookup_of_forall₂ hn hanswer hc
  exact hlookup

/-- What is read depends on the kind of the column and on the value under its name only. An error
tells the column besides. -/
theorem readValue_congr {row' : DbRow} {d : Column} (hkind : c.kind = d.kind)
    (hlookup : row.lookup c.storageName = row'.lookup d.storageName)
    (h : readValue row c = .ok raw) : readValue row' d = .ok raw := by
  have hget {α : Type} (r : Reader α) :
      DbRow.get? row r c.storageName = DbRow.get? row' r d.storageName := by
    simp only [DbRow.get?, hlookup]
  unfold readValue at h ⊢
  simp only [hget, hkind] at h
  cases hd : d.kind <;> rw [hd] at h <;> try exact h
  simp only at h ⊢
  split at h
  · exact h
  · split_ifs at h ⊢
    exact h

theorem readValue_answer_eq_ok_iff (hn : (columns.map Column.storageName).Nodup)
    (hc : c ∈ columns) :
    readValue (answer record columns) c = .ok raw ↔ own record c = .ok raw := by
  have hlookup : (answer record columns).lookup c.storageName =
      (answer record [c]).lookup c.storageName := by
    rw [lookup_answer hn hc, lookup_answer (by simp) (List.mem_singleton_self c)]
  exact ⟨readValue_congr rfl hlookup, readValue_congr rfl hlookup.symm⟩

theorem readRow_eq_ok_iff {values : List (String × Raw)} :
    readRow row columns = .ok values ↔
      List.Forall₂ (fun c v => v.1 = c.storageName ∧ readValue row c = .ok v.2) columns values := by
  induction columns generalizing values with
  | nil => simp [readRow, eq_comm]
  | cons c columns ih =>
    simp only [readRow, Except.bind_eq_ok_iff, Except.pure_eq_ok, Except.ok.injEq, ih,
      List.forall₂_cons_left_iff]
    constructor
    · rintro ⟨raw, hraw, rest, hrest, rfl⟩
      exact ⟨_, rest, ⟨rfl, hraw⟩, hrest, rfl⟩
    · rintro ⟨⟨name, raw⟩, rest, ⟨rfl, hraw⟩, hrest, rfl⟩
      exact ⟨raw, hraw, rest, hrest, rfl⟩

/-- What is read from an answer are the own values of all columns, unless one cannot be read. -/
theorem readRow_answer (hn : (columns.map Column.storageName).Nodup) :
    (∀ values, readRow (answer record columns) columns = .ok values → ∀ c ∈ columns,
      ∃ raw, own record c = .ok raw ∧ (StoredRow.keyed values).get? c = some raw) ∧
    ((∀ c ∈ columns, ∃ raw, own record c = .ok raw) →
      ∃ values, readRow (answer record columns) columns = .ok values) := by
  constructor
  · intro values h c hc
    obtain ⟨raw, hraw, hlookup⟩ := lookup_of_forall₂
      (P := fun c raw => readValue (answer record columns) c = .ok raw) hn
      (readRow_eq_ok_iff.mp h) hc
    rw [readValue_answer_eq_ok_iff hn hc] at hraw
    exact ⟨raw, hraw, by rw [StoredRow.get?, hlookup, Option.getD_some]⟩
  · intro h
    obtain ⟨values, hvalues⟩ := exists_forall₂ (R := fun (c : Column) (v : String × Raw) =>
      v.1 = c.storageName ∧ readValue (answer record columns) c = .ok v.2) fun c hc => by
        obtain ⟨raw, hraw⟩ := h c hc
        exact ⟨(c.storageName, raw), rfl, (readValue_answer_eq_ok_iff hn hc).mpr hraw⟩
    exact ⟨values, readRow_eq_ok_iff.mpr hvalues⟩

theorem readRows_eq_ok_iff {rows : List DbRow} {stored : List StoredRow} :
    readRows columns rows = .ok stored ↔
      List.Forall₂ (fun row s => ∃ values, readRow row columns = .ok values ∧ s = .keyed values)
        rows stored := by
  induction rows generalizing stored with
  | nil => simp [readRows, eq_comm]
  | cons row rows ih =>
    simp only [readRows, Except.bind_eq_ok_iff, Except.pure_eq_ok, Except.ok.injEq, ih,
      List.forall₂_cons_left_iff]
    constructor
    · rintro ⟨values, hvalues, rest, hrest, rfl⟩
      exact ⟨_, rest, ⟨values, hvalues, rfl⟩, hrest, rfl⟩
    · rintro ⟨_, rest, ⟨values, hvalues, rfl⟩, hrest, rfl⟩
      exact ⟨values, hvalues, rest, hrest, rfl⟩

end Read

/-! ## Selects -/

def requested (t : Table) (output : List String) : List Column :=
  (output.filterMap t.column?).filter fun c => !c.isOutbound

/-- The columns that a select must show: those that are asked for, and the key if there are none. -/
def wanted (t : Table) (output : List String) : List Column :=
  if requested t output = [] then t.keyColumn?.toList else requested t output

section Select

variable {t : Table} {output : List String}

/-- A select reads the first of the columns of each name. -/
theorem selectColumns_eq (t : Table) (output : List String) :
    selectColumns t output = firstByKey Column.storageName (wanted t output) := by
  have hread : readColumns t output = firstByKey Column.storageName (requested t output) := rfl
  unfold selectColumns wanted
  rw [hread]
  cases h : requested t output with
  | nil =>
    rw [firstByKey, if_pos rfl]
    cases t.keyColumn? <;> rfl
  | cons c cs =>
    rw [firstByKey, if_neg (List.cons_ne_nil c cs)]
    rfl

theorem nodup_selectColumns (t : Table) (output : List String) :
    ((selectColumns t output).map Column.storageName).Nodup := by
  rw [selectColumns_eq]
  exact nodup_firstByKey _ _

/-- The rows that a select answers are read from the answer of the database. -/
theorem select_run (s : Source) (f : Fetch) (conditions : Fragment) {db : Database}
    {rows : List DbRow} {rest : List (Except DbError (List DbRow))}
    (hdb : db.queries = .ok rows :: rest) :
    ((s.select f conditions).run db).1 = readRows (selectColumns f.table f.output) rows := by
  obtain ⟨dialect, queries, executions, log, pending⟩ := db
  obtain rfl : queries = _ := hdb
  rfl

/-- Columns of one name are read by the same expression and kind. -/
def Alike (c d : Column) : Prop :=
  d.storageName = c.storageName → d.expression = c.expression ∧ d.kind = c.kind

/-- A row has the own value of every column that a select must show. -/
def Shows (t : Table) (output : List String) (record : Record) (row : StoredRow) : Prop :=
  ∀ c ∈ wanted t output, ∃ raw, own record c = .ok raw ∧ row.get? c = some raw

/-- A select shows the own values of all columns, in a row for each record of the database, and
fails only if a value cannot be read. -/
def Source.Serves (s : Source) (f : Fetch) : Prop :=
  ∀ (conditions : Fragment) (db : Database) (records : List Record)
      (rest : List (Except DbError (List DbRow))),
    db.queries =
        .ok (records.map fun record => answer record (selectColumns f.table f.output)) :: rest →
      (∀ rows, ((s.select f conditions).run db).1 = .ok rows →
        List.Forall₂ (Shows f.table f.output) records rows) ∧
      ((∀ record ∈ records, ∀ c ∈ wanted f.table f.output, ∃ raw, own record c = .ok raw) →
        ∃ rows, ((s.select f conditions).run db).1 = .ok rows)

end Select

/-! ## Columns of one name -/

def readAs (kind : StoredKind) (v : Bound) : Except QueryError Raw :=
  readValue [("", v)] { (default : Column) with kind, storageName := "" }

section ReadAs

variable {raw : Raw} {record : Record} {c d : Column}

theorem own_eq_ok_iff : own record c = .ok raw ↔ readAs c.kind (record c.expression) = .ok raw := by
  have hlookup : (answer record [c]).lookup c.storageName =
      [("", record c.expression)].lookup "" := by
    rw [lookup_answer (by simp) (List.mem_singleton_self c)]
    rfl
  exact ⟨readValue_congr rfl hlookup, readValue_congr rfl hlookup.symm⟩

theorem own_of_alike (hname : d.storageName = c.storageName) (h : Alike c d)
    (hraw : own record d = .ok raw) : own record c = .ok raw := by
  obtain ⟨hexpression, hkind⟩ := h hname
  rw [own_eq_ok_iff] at hraw ⊢
  rwa [hexpression, hkind] at hraw

def sample : StoredKind → Bound
  | .bool => .raw (.bool true)
  | .int | .uint => .raw (.int 1)
  | .float => .raw (.float 1)
  | .string | .json => .raw (.text "")
  | .time => .raw (.time (.midnight ⟨2024, 5, 19, rfl⟩))
  | .bytes => .raw (.bytes [])

/-- A record in which one expression has a value that columns of a kind can read. -/
def marked (expression : String) (kind : StoredKind) : Record :=
  fun e => if e = expression then sample kind else .raw .null

theorem readAs_null (kind : StoredKind) : readAs kind (.raw .null) = .ok .null := by
  cases kind <;> rfl

/-- Columns of other kinds read null in its place, or a value of their own kind. -/
theorem exists_readAs_sample (kind kind' : StoredKind) :
    ∃ raw, readAs kind' (sample kind) = .ok raw ∧
      (kind ≠ .json → kind' ≠ .json → (raw.kind? = some kind ↔ kind' = kind)) := by
  cases kind <;> cases kind' <;> exact ⟨_, rfl, by decide⟩

theorem exists_own_marked (expression : String) (kind : StoredKind) (c : Column) :
    ∃ raw, own (marked expression kind) c = .ok raw := by
  simp only [own_eq_ok_iff, marked]
  split
  · obtain ⟨raw, hraw, -⟩ := exists_readAs_sample kind c.kind
    exact ⟨raw, hraw⟩
  · exact ⟨.null, readAs_null _⟩

/-- Columns that show the same of a record that one of them can read are read alike. -/
theorem alike_of_own_marked (hc : c.kind ≠ .json) (hd : d.kind ≠ .json)
    (h : own (marked c.expression c.kind) c = .ok raw)
    (h' : own (marked c.expression c.kind) d = .ok raw) :
    d.expression = c.expression ∧ d.kind = c.kind := by
  obtain ⟨raw', hraw', hkind⟩ := exists_readAs_sample c.kind c.kind
  rw [own_eq_ok_iff, marked, if_pos rfl, hraw'] at h
  obtain rfl := Except.ok.inj h
  have hsome : raw'.kind? = some c.kind := (hkind hc hc).mpr rfl
  rw [own_eq_ok_iff, marked] at h'
  split at h'
  · next hexpression =>
    obtain ⟨raw, hraw, hkind'⟩ := exists_readAs_sample c.kind d.kind
    obtain rfl := Except.ok.inj (hraw.symm.trans h')
    exact ⟨hexpression, (hkind' hc hd).mp hsome⟩
  · rw [readAs_null] at h'
    obtain rfl := Except.ok.inj h'
    cases hsome

end ReadAs

/-! ## All columns of a select -/

variable {t : Table} {output : List String} {s : Source} {f : Fetch}

theorem mem_wanted_of_mem_selectColumns {d : Column} (hd : d ∈ selectColumns t output) :
    d ∈ wanted t output := by
  rw [selectColumns_eq] at hd
  exact mem_of_mem_firstByKey hd

theorem mem_columns_of_mem_wanted {c : Column} (hc : c ∈ wanted t output) : c ∈ t.columns := by
  unfold wanted at hc
  split at hc
  · exact Table.mem_of_column? (Option.mem_toList.mp hc)
  · obtain ⟨id, -, hid⟩ := List.mem_filterMap.mp (List.mem_filter.mp hc).1
    exact Table.mem_of_column? hid

/-- What a select shows of a column is the own value of the column that is read for its name. -/
theorem own_of_readRow {record : Record} {values : List (String × Raw)} {c d : Column}
    (h : readRow (answer record (selectColumns t output)) (selectColumns t output) = .ok values)
    (hd : d ∈ selectColumns t output) (hname : d.storageName = c.storageName) :
    ∃ raw, own record d = .ok raw ∧ (StoredRow.keyed values).get? c = some raw := by
  obtain ⟨raw, hraw, hget⟩ := (readRow_answer (nodup_selectColumns t output)).1 values h d hd
  refine ⟨raw, hraw, ?_⟩
  rw [← hget, StoredRow.get?, StoredRow.get?, hname]

/-- A record that only one column can read tells which columns are read alike with it. -/
theorem alike_of_serves (hjson : ∀ c ∈ f.table.columns, c.kind ≠ .json) (h : s.Serves f)
    {c d : Column} (hc : c ∈ wanted f.table f.output) (hd : d ∈ selectColumns f.table f.output) :
    Alike c d := by
  intro hname
  let record := marked c.expression c.kind
  let db : Database :=
    ⟨.sqlite, [.ok [answer record (selectColumns f.table f.output)]], [], [], none⟩
  obtain ⟨hrows, hsucceeds⟩ := h [] db [record] [] rfl
  obtain ⟨rows, hrun⟩ := hsucceeds fun record' hrecord c' _ => by
    obtain rfl := List.mem_singleton.mp hrecord
    exact exists_own_marked _ _ c'
  obtain ⟨row, rest, hshows, -, rfl⟩ := List.forall₂_cons_left_iff.mp (hrows _ hrun)
  rw [select_run s f [] (rfl : db.queries = [.ok _]), readRows_eq_ok_iff] at hrun
  obtain ⟨values, hvalues, rfl⟩ := (List.forall₂_cons.mp hrun).1
  obtain ⟨raw, hraw, hget⟩ := own_of_readRow hvalues hd hname
  obtain ⟨raw', hraw', hget'⟩ := hshows c hc
  obtain rfl := Option.some.inj (hget.symm.trans hget')
  have hkind {e : Column} (he : e ∈ wanted f.table f.output) : e.kind ≠ .json :=
    hjson e (mem_columns_of_mem_wanted he)
  exact alike_of_own_marked (hkind hc) (hkind (mem_wanted_of_mem_selectColumns hd)) hraw' hraw

theorem serves_of_alike
    (h : ∀ c ∈ wanted f.table f.output, ∀ d ∈ selectColumns f.table f.output, Alike c d) :
    s.Serves f := by
  intro conditions db records rest hdb
  rw [select_run s f conditions hdb]
  refine ⟨fun rows hrows => ?_, fun hown => ?_⟩
  · rw [readRows_eq_ok_iff, List.forall₂_map_left_iff] at hrows
    refine hrows.imp fun record row hrow c hc => ?_
    obtain ⟨values, hvalues, rfl⟩ := hrow
    obtain ⟨d, hd, hname⟩ := exists_mem_firstByKey Column.storageName hc
    rw [← selectColumns_eq] at hd
    obtain ⟨raw, hraw, hget⟩ := own_of_readRow hvalues hd hname
    exact ⟨raw, own_of_alike hname (h c hc d hd) hraw, hget⟩
  · obtain ⟨rows, hrows⟩ := exists_forall₂ (R := fun (record : Record) (row : StoredRow) =>
      ∃ values, readRow (answer record (selectColumns f.table f.output))
        (selectColumns f.table f.output) = .ok values ∧ row = .keyed values)
      fun record hrecord => by
        obtain ⟨values, hvalues⟩ := (readRow_answer (nodup_selectColumns f.table f.output)).2
          fun d hd => hown record hrecord d (mem_wanted_of_mem_selectColumns hd)
        exact ⟨.keyed values, values, hvalues, rfl⟩
    exact ⟨rows, readRows_eq_ok_iff.mpr (List.forall₂_map_left_iff.mpr hrows)⟩

/-- A select shows all columns their own values exactly if each of them is read alike with the
column that is read for its name. -/
theorem serves_iff_alike (hjson : ∀ c ∈ t.columns, c.kind ≠ .json) (ht : f.table = t) :
    s.Serves f ↔ ∀ c ∈ wanted t f.output, ∀ d ∈ selectColumns t f.output, Alike c d := by
  subst ht
  exact ⟨fun h _ hc _ hd => alike_of_serves hjson h hc hd, serves_of_alike⟩

/-- What is asked for are stored columns, unless the key stands for them. -/
theorem alike_of_mem_wanted {c d : Column}
    (h : ∀ c ∈ t.columns, ∀ d ∈ t.columns, c.isOutbound = false → d.isOutbound = false → Alike c d)
    (hc : c ∈ wanted t output) (hd : d ∈ wanted t output) : Alike c d := by
  have hct := mem_columns_of_mem_wanted hc
  have hdt := mem_columns_of_mem_wanted hd
  unfold wanted at hc hd
  split at hc
  · next hnil =>
    rw [if_pos hnil] at hd
    obtain rfl := Option.some.inj ((Option.mem_toList.mp hc).symm.trans (Option.mem_toList.mp hd))
    exact fun _ => ⟨rfl, rfl⟩
  · next hne =>
    rw [if_neg hne] at hd
    have hstored {e : Column} (he : e ∈ requested t output) : e.isOutbound = false := by
      simpa using (List.mem_filter.mp he).2
    exact h c hct d hdt (hstored hc) (hstored hd)

end Sql

/-! ## All selects of a table -/

namespace TableSpec

variable {spec : TableSpec} {v : Vocabulary} {t : Table}

theorem wanted_ne_nil (h : spec.compile v = .ok t) (output : List String) :
    Sql.wanted t output ≠ [] := by
  obtain ⟨key, hkeys, hkey⟩ := (describedBy_of_compile h).key
  have hmem : key ∈ t.columns :=
    (List.mem_filter.mp (hkeys ▸ List.mem_singleton_self key : key ∈ t.columns.filter _)).1
  have hsome : t.keyColumn?.isSome = true := by
    rw [Table.keyColumn?, Table.column?, hkey, List.find?_isSome]
    exact ⟨key, hmem, beq_self_eq_true _⟩
  unfold Sql.wanted
  split
  · obtain ⟨c, hc⟩ := Option.isSome_iff_exists.mp hsome
    simp [hc]
  · next hne => exact hne

theorem selectColumns_ne_nil (h : spec.compile v = .ok t) (output : List String) :
    Sql.selectColumns t output ≠ [] := by
  intro hnil
  obtain ⟨c, cs, hwanted⟩ := List.exists_cons_of_ne_nil (wanted_ne_nil h output)
  rw [Sql.selectColumns_eq, hwanted] at hnil
  cases hnil

theorem column?_of_mem (h : spec.compile v = .ok t) {c : Column} (hc : c ∈ t.columns) :
    t.column? c.id = some c := by
  obtain ⟨columns, key, hcolumns, -, -, rfl⟩ := compile_eq_ok_iff.mp h
  obtain ⟨-, hids, -⟩ := compileFields_shown_eq_ok_iff.mp hcolumns
  exact (find?_key_eq_some_iff hids).mpr ⟨hc, rfl⟩

/-- A select always reads a column. It shows all columns that are asked for their own values exactly
if each is read alike with the first of its name among them. All selects of a table do so, whatever
is asked for and in whichever order, exactly if stored columns of one name are read by the same
expression and kind. -/
theorem serves_iff (h : spec.compile v = .ok t) (s : Sql.Source) :
    (∀ output, Sql.selectColumns t output ≠ []) ∧
    (∀ f : Fetch, f.table = t → (s.Serves f ↔ ∀ c ∈ Sql.wanted t f.output,
      ∀ d ∈ Sql.selectColumns t f.output, Sql.Alike c d)) ∧
    ((∀ f : Fetch, f.table = t → s.Serves f) ↔ ∀ c ∈ t.columns, ∀ d ∈ t.columns,
      c.isOutbound = false → d.isOutbound = false → Sql.Alike c d) := by
  have hjson : ∀ c ∈ t.columns, c.kind ≠ .json := fun c hc =>
    ((describedBy_of_compile h).admitted c hc).storable.2
  refine ⟨selectColumns_ne_nil h, fun f hf => Sql.serves_iff_alike hjson hf, ?_, ?_⟩
  · intro hall c hc d hd hcin hdin
    -- Asked for first, the one column is read in place of the other.
    let f : Fetch := { (default : Fetch) with table := t, output := [d.id, c.id] }
    have hrequested : Sql.requested t f.output = [d, c] := by
      simp [Sql.requested, f, column?_of_mem h hc, column?_of_mem h hd, hcin, hdin]
    have hwanted : Sql.wanted t f.output = [d, c] := by
      rw [Sql.wanted, hrequested, if_neg (List.cons_ne_nil d [c])]
    refine (Sql.serves_iff_alike hjson rfl).mp (hall f rfl) c ?_ d ?_
    · rw [hwanted]
      simp
    · rw [Sql.selectColumns_eq, hwanted, firstByKey]
      exact List.mem_cons_self
  · intro halike f hf
    rw [Sql.serves_iff_alike hjson hf]
    intro c hc d hd
    exact Sql.alike_of_mem_wanted halike hc (Sql.mem_wanted_of_mem_selectColumns hd)

end TableSpec

/-! ## The amounts of invoices -/

namespace Invoices

open Sql (Record answer own selectColumns)
open Sample (vocabulary)

/-- An amount that is computed by the database and stored as `amount` in its answers. -/
def amountField (id expression : String) : FieldSpec :=
  { (default : FieldSpec) with
    id := id, kind := .int, storageName := some "amount", storageExpression := some expression }

def amount (id expression : String) : Column :=
  { (default : Column) with
    id := id, name := id, kind := .int, type := .int, width := 1, storageName := "amount"
    storageExpression := some expression }

def number : Column :=
  { (default : Column) with
    id := "No", name := "No", kind := .string, type := .string, isKey := true, width := 1
    filters := [⟨Builtin.eq, "equal", .single⟩], storageName := "No" }

def spec (first second : FieldSpec) : TableSpec :=
  ⟨"Invoice", "Invoice", "",
    [{ (default : FieldSpec) with
        id := "No", kind := .string, key := true, filters := some "EQ" }, first, second]⟩

def invoices (first second : Column) : Table :=
  ⟨"Invoice", "Invoice", "", [number, first, second], "No", [], none, none⟩

theorem compile_spec {first second : FieldSpec} {first' second' : Column}
    (h : (TableSpec.compileFields vocabulary "Invoice" [] (spec first second).shown).toOption =
      some [number, first', second']) :
    (spec first second).compile vocabulary = .ok (invoices first' second') :=
  TableSpec.compile_eq_ok_iff.mpr
    ⟨_, number, Except.toOption_eq_some_iff.mp h, rfl, rfl, rfl⟩

/-- The gross amount is the amount due: both are shown, whatever is asked for. -/
theorem due_served :
    (spec (amountField "Gross" "net + tax") (amountField "Due" "net + tax")).compile vocabulary =
      .ok (invoices (amount "Gross" "net + tax") (amount "Due" "net + tax")) ∧
    ∀ (s : Sql.Source) (f : Fetch),
      f.table = invoices (amount "Gross" "net + tax") (amount "Due" "net + tax") → s.Serves f := by
  have hcompile : (spec (amountField "Gross" "net + tax") (amountField "Due" "net + tax")).compile
      vocabulary = .ok (invoices (amount "Gross" "net + tax") (amount "Due" "net + tax")) :=
    compile_spec (by decide +kernel)
  refine ⟨hcompile, fun s => (TableSpec.serves_iff hcompile s).2.2.mpr ?_⟩
  intro c hc d hd _ _ hname
  simp only [invoices, List.mem_cons, List.not_mem_nil, or_false] at hc hd
  rcases hc with rfl | rfl | rfl <;> rcases hd with rfl | rfl | rfl <;>
    first
    | exact ⟨rfl, rfl⟩
    | exact absurd hname (by decide)

def record : Record
  | "No" => .raw (.text "a")
  | "net" => .raw (.int 100)
  | "net + tax" => .raw (.int 119)
  | _ => .raw .null

/-- If the net amount is asked for first, then it is shown as the gross amount. -/
theorem gross_not_served :
    (spec (amountField "Net" "net") (amountField "Gross" "net + tax")).compile vocabulary =
      .ok (invoices (amount "Net" "net") (amount "Gross" "net + tax")) ∧
    selectColumns (invoices (amount "Net" "net") (amount "Gross" "net + tax"))
      ["No", "Net", "Gross"] = [number, amount "Net" "net"] ∧
    own record (amount "Gross" "net + tax") = .ok (.int 119) ∧
    Sql.readRow (answer record [number, amount "Net" "net"]) [number, amount "Net" "net"] =
      .ok [("No", .text "a"), ("amount", .int 100)] ∧
    (StoredRow.keyed [("No", .text "a"), ("amount", .int 100)]).get?
      (amount "Gross" "net + tax") = some (.int 100) :=
  ⟨compile_spec (by decide +kernel), by decide +kernel, rfl, rfl, rfl⟩

end Invoices

end TableQuery
