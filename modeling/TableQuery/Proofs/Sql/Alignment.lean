import TableQuery.Proofs.Run
import TableQuery.Proofs.Sql.Columns
import TableQuery.Proofs.Sql.Placeholders
import TableQuery.Proofs.Sql.Spelling
import TableQuery.Proofs.Sql.Wording

/-!
# Placeholders and values in step

A fetch asks a database for up to three statements, with the same conditions in each of them. Their
texts and their values are handed over apart, and fit: behind expressions without placeholders, each
placeholder stands for the value that its clause is about.

## Main definitions

* `Sql.Question`, `Sql.Source.Poses` — what a source asks about the rows that conditions hold for.
* `Sql.Question.Aligned` — the placeholders of a statement fit its values.
* `Sql.Work.Asks` — work asks a database only for statements of a kind.

## Main results

* `Sql.Predicate.spaced_clause`, `Sql.spaced_whereText`, `Sql.spaced_pageClause` — texts and
  placeholders of clauses can be told apart.
* `Sql.Source.Poses.placeholders_head` — before the conditions only names between quotes can look
  like placeholders.
* `Sql.Source.asks_fetch` — a fetch asks for the statements of its questions.
* `Sql.Question.aligned_statement`, `Sql.Source.fetch_aligned` — their placeholders fit their
  values.
-/

namespace TableQuery

namespace Sql

/-! ## Clauses of plain expressions -/

section Spaced

open Dialect (Quiet Begins Plain Divides)
open Fragment (Spaced)

variable {d : Dialect} {expression : String}

theorem Fragment.Spaced.join {separator : String} (hsep : Divides separator) {fs : List Fragment}
    (h : ∀ f ∈ fs, Spaced d f) : Spaced d (join separator fs) := by
  induction fs with
  | nil => exact .nil
  | cons f fs ih =>
    obtain ⟨hf, hfs⟩ := List.forall_mem_cons.mp h
    cases fs with
    | nil => exact hf
    | cons g fs => exact hf.append (.text hsep.quiet.clear (ih hfs)) (opens_text hsep.begins _)

/-- An expression between texts without the signs of placeholders. -/
theorem clear_between {before after : String} (hbefore : Quiet before.toList)
    (h : d.Plain expression) (hafter : Divides after) :
    d.Clear (before ++ expression ++ after).toList := by
  rw [String.append_assoc, String.toList_append]
  exact hbefore.clear.append (h.clear_append hafter)

theorem spaced_raw (v : Raw) : Spaced d (.raw v) :=
  .value Fragment.opens_nil .nil

theorem Fragment.Spaced.append_text {f : Fragment} (hf : Spaced d f) {s : String}
    (hs : Divides s) : Spaced d (f ++ .text s) :=
  hf.append (.text hs.quiet.clear .nil) (opens_text hs.begins _)

/-- The clause of a predicate on a plain expression. -/
theorem Predicate.spaced_clause (h : d.Plain expression) (p : Predicate) :
    Spaced d (p.clause expression) := by
  cases p with
  | compare sign v =>
    have hsign : Divides (" " ++ (sign.text ++ " ")) := by
      cases sign <;> simp [Sign.text]
    rw [clause, String.append_assoc, String.append_assoc]
    exact .text (h.clear_append hsign) (spaced_raw v)
  | isNull holds =>
    refine .text (h.clear_append ?_) .nil
    cases holds <;> simp
  | like negated pattern =>
    refine Fragment.Spaced.append_text (.text (h.clear_append ?_) (spaced_raw _)) ?_
    · cases negated <;> simp
    · simp
  | among negated values =>
    refine Fragment.Spaced.append_text (.text (h.clear_append ?_) (.join ?_ ?_)) ?_
    · cases negated <;> simp
    · simp
    · exact List.forall_mem_map.mpr fun v _ => spaced_raw v
    · simp
  | within p =>
    have hopen : Quiet "(".toList := by simp
    have hfrom : Divides " >= " := by simp
    have hand : Divides " AND " := by simp
    have huntil : Divides " < " := by simp
    have hclose : Divides ")" := by simp
    have hmiddle : Begins (" AND " ++ expression ++ " < ").toList := by
      rw [String.append_assoc, String.toList_append]
      exact hand.begins.append _
    have hstart : Spaced d (.text ("(" ++ expression ++ " >= ") ++ .raw (.time p.start)) :=
      .text (clear_between hopen h hfrom) (spaced_raw _)
    have hstop : Spaced d (.text (" AND " ++ expression ++ " < ") ++ .raw (.time p.stop)) :=
      .text (clear_between hand.quiet h huntil) (spaced_raw _)
    have hboth := hstart.append hstop (Fragment.opens_text hmiddle _)
    rw [← List.append_assoc] at hboth
    exact hboth.append_text hclose

variable {ps : List (Column × Predicate)}

theorem spaced_whereText (h : ∀ p ∈ ps, d.Plain p.1.expression) : Spaced d (whereText ps) := by
  unfold whereText
  split
  · exact .nil
  · have hand : Divides " AND " := by simp
    refine .text (Quiet.clear (by simp)) (.join hand (List.forall_mem_map.mpr ?_))
    exact fun p hp => p.2.spaced_clause (h p hp)

theorem opens_whereText : Fragment.Opens d (whereText ps) := by
  unfold whereText
  split
  · exact Fragment.opens_nil
  · exact Fragment.opens_text (by simp) _

theorem spaced_pageClause (p : PageRequest) : Spaced d (pageClause p) := by
  have hoffset : Divides " OFFSET " := by simp
  unfold pageClause
  split
  · have hlimit : Spaced d (.text " LIMIT " ++ .raw (.int p.size.toInt64)) :=
      .text (Quiet.clear (by simp)) (spaced_raw _)
    have hopens : Fragment.Opens d (.raw (.int p.offset.toInt64)) := Fragment.opens_value _ _
    exact (hlimit.append_text hoffset).append (spaced_raw _) hopens
  · exact .nil

theorem opens_pageClause (p : PageRequest) : Fragment.Opens d (pageClause p) := by
  unfold pageClause
  split
  · exact Fragment.opens_text (by simp) _
  · exact Fragment.opens_nil

/-- An order has no text, or one around the expression of a column. -/
theorem orderClause_cases (t : Table) (order : Option SortKey) :
    orderClause t order = "" ∨ ∃ c ∈ t.columns, ∃ direction : Direction,
      orderClause t order = " ORDER BY " ++ c.expression ++ (" " ++ direction.name) := by
  unfold orderClause
  split
  · exact .inl rfl
  · rename_i key c h
    split
    · obtain ⟨key', -, hkey⟩ := Option.bind_eq_some_iff.mp h
      obtain ⟨c', hc, heq⟩ := Option.map_eq_some_iff.mp hkey
      cases heq
      exact .inr ⟨c, Table.mem_of_column? hc, key.direction, String.append_assoc⟩
    · exact .inl rfl

theorem orderClause_clear {t : Table} (h : ∀ c ∈ t.columns, d.Plain c.expression)
    (order : Option SortKey) :
    d.Clear (orderClause t order).toList ∧ Dialect.Opens (orderClause t order).toList := by
  obtain horder | ⟨c, hc, direction, horder⟩ := orderClause_cases t order
  · rw [horder]
    exact ⟨Quiet.clear (by simp), Dialect.opens_nil⟩
  · have hdirection : Divides (" " ++ direction.name) := by
      cases direction <;> simp [Direction.name]
    have hbegins : Begins " ORDER BY ".toList := by simp
    rw [horder]
    refine ⟨clear_between (by simp) (h c hc) hdirection, ?_⟩
    rw [String.append_assoc, String.toList_append]
    exact (hbegins.append _).opens

end Spaced

/-! ## What is read, and from where -/

section Heads

open Dialect (Quiet Begins Plain Divides)

variable {d : Dialect} {t : Table}

theorem placeholders_intercalate {separator : String} (h : Divides separator)
    (items : List String) :
    d.placeholders (separator.intercalate items) = items.flatMap d.placeholders := by
  induction items with
  | nil => rw [String.intercalate_nil, Dialect.placeholders_empty, List.flatMap_nil]
  | cons item items ih =>
    cases items with
    | nil => rw [String.intercalate_singleton, List.flatMap_singleton]
    | cons item' items =>
      rw [String.intercalate_cons_cons, String.append_assoc, Dialect.placeholders_divided h, ih,
        ← List.flatMap_cons]

/-- The placeholders of what is read from a relation are those of the items. -/
theorem placeholders_read {relation : String} (hrelation : d.Plain relation)
    (items : List String) :
    d.placeholders ("SELECT " ++ ", ".intercalate items ++ " FROM " ++ relation) =
      items.flatMap d.placeholders := by
  have hcomma : Divides ", " := by simp
  have hfrom : Divides " FROM " := by simp
  rw [String.append_assoc, String.append_assoc,
    Dialect.placeholders_clear_append (Quiet.clear (by simp)),
    Dialect.placeholders_divided hfrom, hrelation, List.append_nil,
    placeholders_intercalate hcomma]

/-- The placeholders of an expression under a name are those of the name. -/
theorem placeholders_item {expression : String} (h : d.Plain expression) (name : String) :
    d.placeholders (expression ++ " AS " ++ name) = d.placeholders name := by
  have has : Divides " AS " := by simp
  rw [String.append_assoc, Dialect.placeholders_divided has, h, List.nil_append]

theorem plain_aggregateName (i : Nat) : d.Plain (aggregateName i) := by
  have hchars : (aggregateName i).toList = "agg_".toList ++ Text.digits 10 i := by
    simp [aggregateName, Text.ofInt, Text.signed]
  have hdigits : Quiet (Text.digits 10 i) := fun c hc =>
    ⟨Text.ne_of_mem_digits hc (by decide), Text.ne_of_mem_digits hc (by decide)⟩
  have hquiet : Quiet (aggregateName i).toList := by
    rw [hchars, Dialect.quiet_append]
    exact ⟨by simp, hdigits⟩
  exact hquiet.clear.plain

/-- The expression of an aggregate of a plain expression. -/
theorem plain_aggregateExpression {c : Column} {a : Aggregate} {e : String}
    (h : d.Plain c.expression) (he : aggregateExpression d c a = some e) : d.Plain e := by
  let types := ["SIGNED", "BIGINT", "DOUBLE", "DOUBLE PRECISION"]
  have hcast {function type : String} (hfunction : Quiet function.toList) (htype : type ∈ types) :
      d.Plain (function ++ c.expression ++ ") AS " ++ type ++ ")") := by
    have htail : Divides (") AS " ++ (type ++ ")")) := by
      simp only [types, List.mem_cons, List.not_mem_nil, or_false] at htype
      rcases htype with rfl | rfl | rfl | rfl <;> simp
    rw [String.append_assoc, String.append_assoc]
    exact (clear_between hfunction h htail).plain
  cases a with
  | none => cases he
  | sum =>
    rw [← Option.some.inj he]
    exact hcast (by simp) (by split_ifs <;> simp [types])
  | average =>
    rw [← Option.some.inj he]
    exact hcast (by simp) (by split_ifs <;> simp [types])

theorem mem_of_mem_numbered {α : Type} {first i : Nat} {as : List α} {a : α}
    (h : (i, a) ∈ numbered first as) : a ∈ as := by
  induction as generalizing first with
  | nil => cases h
  | cons b bs ih =>
    rcases List.mem_cons.mp h with heq | hrest
    · cases heq
      exact List.mem_cons_self
    · exact List.mem_cons_of_mem _ (ih hrest)

theorem plain_of_mem_aggregateColumns (h : ∀ c ∈ t.columns, d.Plain c.expression)
    {as : List AggregateColumn} {columns : List (Column × Aggregate × String)}
    (hcolumns : aggregateColumns d t as = .ok columns) : ∀ c ∈ columns, d.Plain c.2.2 := by
  induction as generalizing columns with
  | nil =>
    cases hcolumns
    exact fun c hc => absurd hc List.not_mem_nil
  | cons a as ih =>
    rw [aggregateColumns] at hcolumns
    obtain ⟨c, hc, hcolumns⟩ := Except.bind_eq_ok_iff.mp hcolumns
    obtain ⟨rest, hrest, hcolumns⟩ := Except.bind_eq_ok_iff.mp hcolumns
    cases hcolumns
    intro x hx
    rcases List.mem_append.mp hx with hfirst | hx
    · obtain ⟨e, he, rfl⟩ := Option.map_eq_some_iff.mp (Option.mem_toList.mp hfirst)
      exact plain_aggregateExpression (h c (Table.mem_of_column? (Table.column_eq_ok_iff.mp hc))) he
    · exact ih hrest x hx

end Heads

/-! ## What a source asks -/

structure Question where
  /-- What is read, and from where. -/
  head : String
  /-- The names between quotes in it. -/
  names : List String
  order : String
  page : PageRequest

namespace Question

/-- The question behind its head, where an action says what stands for a value. -/
def spellTail {m : Type → Type} [Monad m] (operand : Bound → m String)
    (ps : List (Column × Predicate)) (q : Question) : m String := do
  let filter ← spellWhere operand ps
  let page ← spellPage operand q.page
  return filter ++ q.order ++ page

def tail (filter : Fragment) (q : Question) : Fragment :=
  filter ++ .text q.order ++ pageClause q.page

def statement (d : Dialect) (filter : Fragment) (q : Question) : Statement :=
  (.text q.head ++ q.tail filter : Fragment).statement d

/-- A question about all rows in no order ends with the conditions. -/
theorem statement_of_all (d : Dialect) (head : String) (filter : Fragment) :
    statement d filter ⟨head, [], "", .all⟩ = (.text head ++ filter : Fragment).statement d := by
  have hpage : pageClause .all = [] := rfl
  simp [statement, tail, hpage, Fragment.statement, Fragment.render_append, Fragment.text,
    Fragment.render, Fragment.values]

end Question

/-- The questions about the rows of a source: how many they are, their aggregates, and they
themselves. -/
inductive Source.Poses (s : Source) (d : Dialect) (f : Fetch) : Question → Prop where
  | count : Poses s d f ⟨"SELECT COUNT(*) AS total FROM " ++ s.relation, [], "", .all⟩
  | aggregates {columns : List (Column × Aggregate × String)}
      (h : aggregateColumns d f.table f.aggregates = .ok columns) :
      Poses s d f ⟨"SELECT " ++ ", ".intercalate ((numbered 0 (columns.map fun (_, _, e) => e)).map
        fun (i, e) => e ++ " AS " ++ aggregateName i) ++ " FROM " ++ s.relation, [], "", .all⟩
  | select :
      Poses s d f ⟨"SELECT " ++ ", ".intercalate ((selectColumns f.table f.output).map
        fun c => c.expression ++ " AS " ++ quote d c.storageName) ++ " FROM " ++ s.relation,
        (selectColumns f.table f.output).map Column.storageName, orderClause f.table f.order,
        f.page⟩

/-- The statements that a database was asked, those of an open transaction last. -/
def Database.asked (db : Database) : List Statement :=
  db.log.flatten ++ db.pending.getD []

theorem Database.asked_note (db : Database) (st : Statement) :
    (db.note st).asked = db.asked ++ [st] := by
  unfold note asked
  cases db.pending <;> simp

namespace Work

variable {α β : Type} {d : Dialect} {P : Statement → Prop}

/-- Work asks a database only for statements of a kind. -/
def Asks (d : Dialect) (P : Statement → Prop) (w : Work α) : Prop :=
  ∀ db : Database, db.dialect = d → (w.run db).2.dialect = d ∧
    ∃ asked, (w.run db).2.asked = db.asked ++ asked ∧ ∀ st ∈ asked, P st

namespace Asks

variable {w : Work α} {next : α → Work β}

theorem bind (h : Asks d P w) (hnext : ∀ a, Asks d P (next a)) : Asks d P (w >>= next) := by
  intro db hdb
  obtain ⟨hdialect, asked, hasked, hall⟩ := h db hdb
  rw [run_bind]
  generalize w.run db = r at hdialect hasked
  obtain ⟨e | a, after⟩ := r
  · exact ⟨hdialect, asked, hasked, hall⟩
  · obtain ⟨hdialect', asked', hasked', hall'⟩ := hnext a after hdialect
    refine ⟨hdialect', asked ++ asked', ?_, ?_⟩
    · rw [hasked', hasked, List.append_assoc]
    · exact List.forall_mem_append.mpr ⟨hall, hall'⟩

theorem ofExcept (r : Except QueryError α) : Asks d P (Work.ofExcept r) :=
  fun db hdb => ⟨hdb, [], (List.append_nil db.asked).symm, fun _ hst => absurd hst List.not_mem_nil⟩

theorem pure (a : α) : Asks d P (Pure.pure a) :=
  ofExcept (.ok a)

/-- What is done with a result is done only if there is one. -/
theorem ofExcept_bind {r : Except QueryError α} (h : ∀ a, r = .ok a → Asks d P (next a)) :
    Asks d P (Work.ofExcept r >>= next) := by
  cases r with
  | error e => exact ofExcept (.error e)
  | ok a => exact h a rfl

theorem dialect_bind {next : Dialect → Work β} (h : Asks d P (next d)) :
    Asks d P (Work.dialect >>= next) := by
  intro db hdb
  have hrun : (Work.dialect >>= next).run db = (next db.dialect).run db := rfl
  rw [hrun, hdb]
  exact h db hdb

theorem query {f : Fragment} (h : P (f.statement d)) : Asks d P (Work.query f) := by
  intro db hdb
  subst hdb
  have hafter : ∃ queries, ((Work.query f).run db).2 =
      { db.note (f.statement db.dialect) with queries } := by
    cases hqueries : db.queries with
    | nil =>
      exact ⟨(db.note (f.statement db.dialect)).queries, by
        simp [Work.query, step, ExceptT.run, hqueries]⟩
    | cons answer rest => exact ⟨rest, by simp [Work.query, step, ExceptT.run, hqueries]⟩
  obtain ⟨queries, hafter⟩ := hafter
  rw [hafter]
  exact ⟨db.note_dialect _, [f.statement db.dialect], db.asked_note _,
    List.forall_mem_singleton.mpr h⟩

end Asks

end Work

/-! ## Statements of a fetch -/

namespace Source

variable {d : Dialect} {s : Source} {now : Moment} {f : Fetch}

/-- A fetch asks a database for the statements of its questions. -/
theorem asks_fetch (s : Source) (now : Moment) (d : Dialect) (f : Fetch) :
    Work.Asks d (fun st => ∃ ps q, predicates now f.table f.conditions = .ok ps ∧
      s.Poses d f q ∧ st = q.statement d (whereText ps)) (s.fetch now f) := by
  refine .ofExcept_bind fun filter hfilter => ?_
  obtain ⟨ps, hps, rfl⟩ := Except.map_eq_ok_iff.mp hfilter
  refine .bind ?_ fun total => .bind (.ofExcept _) fun _ => .bind ?_ fun aggregates => ?_
  · refine .bind (.query ⟨ps, _, hps, .count, ?_⟩) fun rows => ?_
    · exact (Question.statement_of_all _ _ _).symm
    · cases rows with
      | nil => exact .pure 0
      | cons row _ => exact .bind (.ofExcept _) fun total => .pure _
  · refine .dialect_bind (.ofExcept_bind fun columns hcolumns => ?_)
    split
    · exact .pure []
    · refine .bind (.query ⟨ps, _, hps, .aggregates hcolumns, ?_⟩) fun rows => .pure _
      exact (Question.statement_of_all _ _ _).symm
  · split
    · exact .bind (.pure []) fun rows => .pure _
    · refine .bind (.dialect_bind (.bind (.query ⟨ps, _, hps, .select, ?_⟩) fun rows => ?_))
        fun rows => .pure _
      · rw [Question.statement, Question.tail, selectStatement, List.append_assoc,
          List.append_assoc, List.append_assoc]
      · exact .ofExcept _

variable {q : Question} {ps : List (Column × Predicate)}

/-- What looks like a placeholder before the conditions stands in a name between quotes. -/
theorem Poses.placeholders_head (hq : s.Poses d f q) (hrelation : d.Plain s.relation)
    (hcolumns : ∀ c ∈ f.table.columns, d.Plain c.expression) :
    d.placeholders q.head = q.names.flatMap fun name => d.placeholders (quote d name) := by
  cases hq with
  | count =>
    have hcount : Dialect.Quiet "SELECT COUNT(*) AS total FROM ".toList := by simp
    rw [Dialect.placeholders_clear_append hcount.clear, hrelation, List.flatMap_nil]
  | aggregates h =>
    rw [placeholders_read hrelation, List.flatMap_nil, List.flatMap_eq_nil_iff]
    intro item hitem
    obtain ⟨⟨i, e⟩, hmem, rfl⟩ := List.mem_map.mp hitem
    obtain ⟨column, hcolumn, rfl⟩ := List.mem_map.mp (mem_of_mem_numbered hmem)
    rw [placeholders_item (plain_of_mem_aggregateColumns hcolumns h column hcolumn)]
    exact plain_aggregateName i
  | select =>
    rw [placeholders_read hrelation, List.flatMap_map, List.flatMap_map]
    refine List.flatMap_congr fun c hc => placeholders_item (hcolumns c ?_) _
    exact mem_columns_of_mem_wanted (mem_wanted_of_mem_selectColumns hc)

theorem Poses.order_clear (hq : s.Poses d f q)
    (hcolumns : ∀ c ∈ f.table.columns, d.Plain c.expression) :
    d.Clear q.order.toList ∧ Dialect.Opens q.order.toList := by
  have hempty : d.Clear "".toList ∧ Dialect.Opens "".toList :=
    ⟨Dialect.Quiet.clear (by simp), Dialect.opens_nil⟩
  cases hq with
  | count => exact hempty
  | aggregates => exact hempty
  | select => exact orderClause_clear hcolumns f.order

end Source

def pageValues (p : PageRequest) : List Bound :=
  if p.isPaged then [.raw (.int p.size.toInt64), .raw (.int p.offset.toInt64)] else []

theorem values_pageClause_eq (p : PageRequest) : (pageClause p).values = pageValues p := by
  unfold pageClause pageValues
  split <;> rfl

namespace Question

variable {d : Dialect} {ps : List (Column × Predicate)} {q : Question}

/-- The placeholders of a statement fit its values. The statement asks a question with the text and
the values of the conditions, and behind them with those of the page. -/
structure Aligned (d : Dialect) (ps : List (Column × Predicate)) (filter : String)
    (leading : List Bound) (q : Question) (page : String) (st : Statement) : Prop where
  text_eq : st.text = q.head ++ (filter ++ q.order ++ page)
  values_eq : st.values = leading ++ pageValues q.page
  /-- The page takes placeholders for the values that it hands over behind those of the
  conditions. -/
  page_eq : (spellPage Params.push q.page).run ⟨d, leading⟩ = (page, ⟨d, st.values⟩)
  /-- What looks like a placeholder before the conditions stands in a name between quotes. -/
  head_eq : d.placeholders q.head = q.names.flatMap fun name => d.placeholders (quote d name)
  /-- Behind that there is a placeholder for each value, in order. -/
  placeholders_eq : d.placeholders st.text =
    d.placeholders q.head ++ (List.range' 1 st.values.length).map d.placeholder
  /-- Each placeholder stands for the operand that its clause was built from: with the values in
  their places the text is the one that is spelled with the operands themselves. -/
  tail_eq : ∀ write : Bound → String,
    d.filled write ⟨filter ++ q.order ++ page, st.values⟩ = (q.spellTail (m := Id) write ps).run
  /-- This is so in the whole statement if no name looks like a placeholder. -/
  filled_eq : d.Plain q.head → ∀ write : Bound → String,
    d.filled write st = q.head ++ (q.spellTail (m := Id) write ps).run

/-- To spell a question is to spell its fragment. -/
theorem spell_tail {m : Type → Type} [Monad m] [LawfulMonad m] (operand : Bound → m String)
    (ps : List (Column × Predicate)) (q : Question) :
    (q.tail (whereText ps)).spell operand = q.spellTail operand ps := by
  simp [tail, spellTail, spell_whereText, spell_pageClause, append_behind]

/-- The texts and placeholders behind the head can be told apart. -/
theorem spaced_tail (hplain : ∀ p ∈ ps, d.Plain p.1.expression)
    (horder : d.Clear q.order.toList ∧ Dialect.Opens q.order.toList) :
    Fragment.Spaced d (q.tail (whereText ps)) ∧ Fragment.Opens d (q.tail (whereText ps)) := by
  have hopens : Fragment.Opens d (.text q.order) := by
    intro before
    rw [Fragment.text, Fragment.render, Fragment.render, String.append_empty]
    exact horder.2
  have hboth := (spaced_whereText hplain).append (.text horder.1 .nil) hopens
  exact ⟨hboth.append (spaced_pageClause q.page) (opens_pageClause q.page),
    (opens_whereText.append hopens).append (opens_pageClause q.page)⟩

/-- The statement of a question about plain expressions. -/
theorem aligned_statement (hplain : ∀ p ∈ ps, d.Plain p.1.expression)
    (hhead : d.placeholders q.head = q.names.flatMap fun name => d.placeholders (quote d name))
    (horder : d.Clear q.order.toList ∧ Dialect.Opens q.order.toList) :
    q.Aligned d ps ((whereText ps).render d 0) (whereText ps).values
      ((pageClause q.page).render d (whereText ps).values.length)
      (q.statement d (whereText ps)) := by
  obtain ⟨hspaced, hopens⟩ := spaced_tail hplain horder
  have hvalues : (q.statement d (whereText ps)).values = (q.tail (whereText ps)).values := rfl
  have htext : (q.statement d (whereText ps)).text =
      q.head ++ (q.tail (whereText ps)).render d 0 := rfl
  have htail : (q.tail (whereText ps)).render d 0 = (whereText ps).render d 0 ++ q.order ++
      (pageClause q.page).render d (whereText ps).values.length := by
    simp [tail, Fragment.render_append, Fragment.text, Fragment.render, String.append_assoc]
  have hleading : (q.tail (whereText ps)).values =
      (whereText ps).values ++ pageValues q.page := by
    rw [tail, Fragment.values_append, Fragment.values_append, values_pageClause_eq, Fragment.text,
      Fragment.values, Fragment.values, List.append_nil]
  refine ⟨by rw [htext, htail], by rw [hvalues, hleading], ?_, hhead, ?_, fun write => ?_,
    fun hplain write => ?_⟩
  · rw [← spell_pageClause, Fragment.run_spell_push, hvalues, hleading, values_pageClause_eq]
  · rw [htext, Dialect.placeholders_append (hopens 0), Fragment.placeholders_render hspaced,
      hvalues]
  · have hfilled := Fragment.filled_render Dialect.placeholders_empty hspaced hopens write
    rwa [String.empty_append, String.empty_append, htail, ← Fragment.run_spell_write,
      spell_tail] at hfilled
  · rw [← spell_tail, Fragment.run_spell_write]
    exact Fragment.filled_render hplain hspaced hopens write

end Question

namespace Source

variable {now : Moment} {ps : List (Column × Predicate)}

/-- The columns of predicates are columns of the table. -/
theorem mem_columns_of_predicates {t : Table} {conditions : List RawCondition}
    (h : predicates now t conditions = .ok ps) : ∀ p ∈ ps, p.1 ∈ t.columns := by
  induction conditions generalizing ps with
  | nil =>
    cases h
    exact fun p hp => absurd hp List.not_mem_nil
  | cons condition conditions ih =>
    rw [predicates] at h
    obtain ⟨c, hc, h⟩ := Except.bind_eq_ok_iff.mp h
    obtain ⟨p, -, h⟩ := Except.bind_eq_ok_iff.mp h
    obtain ⟨rest, hrest, h⟩ := Except.bind_eq_ok_iff.mp h
    cases h
    exact List.forall_mem_cons.mpr
      ⟨Table.mem_of_column? (Table.column_eq_ok_iff.mp hc), ih hrest⟩

/-- From a relation and columns whose texts hold no placeholders, a database is asked for statements
whose placeholders fit their values, whatever the conditions, aggregates, order and page. They share
the text of the conditions and its values; those of a page come last. -/
theorem fetch_aligned (s : Source) (f : Fetch) (db : Database)
    (hrelation : db.dialect.Plain s.relation)
    (hcolumns : ∀ c ∈ f.table.columns, db.dialect.Plain c.expression)
    (hps : predicates now f.table f.conditions = .ok ps) :
    ∃ filter leading asked,
      (spellWhere Params.push ps).run ⟨db.dialect, []⟩ = (filter, ⟨db.dialect, leading⟩) ∧
      ((s.fetch now f).run db).2.asked = db.asked ++ asked ∧
      ∀ st ∈ asked, ∃ q page, s.Poses db.dialect f q ∧
        q.Aligned db.dialect ps filter leading page st := by
  obtain ⟨-, asked, hasked, hall⟩ := asks_fetch s now db.dialect f db rfl
  refine ⟨(whereText ps).render db.dialect 0, (whereText ps).values, asked, ?_, hasked,
    fun st hst => ?_⟩
  · rw [← spell_whereText, Fragment.run_spell_push, List.length_nil, List.nil_append]
  · obtain ⟨ps', q, hps', hq, rfl⟩ := hall st hst
    obtain rfl : ps = ps' := Except.ok.inj (hps.symm.trans hps')
    have hplain : ∀ p ∈ ps, db.dialect.Plain p.1.expression :=
      fun p hp => hcolumns p.1 (mem_columns_of_predicates hps p hp)
    exact ⟨q, _, hq, Question.aligned_statement hplain (hq.placeholders_head hrelation hcolumns)
      (hq.order_clear hcolumns)⟩

end Source

end Sql

/-! ## A digest of entries -/

namespace Guestbook

open Sample (clock)
open Sql (Dialect Database Source Params)

/-- The first tens of nice entries are left out, but their stars are counted. -/
def digest : Fetch :=
  ⟨entries, search "nice" 4 5 (.text "7"), ["Id", "Text"], [⟨"Stars", .sum⟩], ⟨3, 10⟩, none⟩

def crowded : Database :=
  { connected with queries := [.ok [[("total", .raw (.int 40))]], .ok [], .ok []] }

def questions : List Sql.Statement :=
  ((Source.fetch ⟨"entries", 10⟩ clock digest).run crowded).2.asked

/-- The count, the sum and the entries take the same four values, and the entries two more. -/
theorem digest_aligned :
    Dialect.postgres.Plain "entries" ∧
    (∀ c ∈ entries.columns, Dialect.postgres.Plain c.expression) ∧
    (∃ ps filter leading, Sql.predicates clock entries digest.conditions = .ok ps ∧
      (Sql.spellWhere Params.push ps).run ⟨.postgres, []⟩ = (filter, ⟨.postgres, leading⟩) ∧
      ∀ st ∈ questions, ∃ q page, Source.Poses ⟨"entries", 10⟩ .postgres digest q ∧
        q.Aligned .postgres ps filter leading page st) ∧
    questions.map Sql.Statement.text =
      ["SELECT COUNT(*) AS total FROM entries" ++
        " WHERE entry_text LIKE $1 ESCAPE '\\' AND stars IN ($2, $3) AND id <> $4",
      "SELECT CAST(SUM(stars) AS BIGINT) AS agg_0 FROM entries" ++
        " WHERE entry_text LIKE $1 ESCAPE '\\' AND stars IN ($2, $3) AND id <> $4",
      "SELECT id AS \"id\", entry_text AS \"entry_text\" FROM entries" ++
        " WHERE entry_text LIKE $1 ESCAPE '\\' AND stars IN ($2, $3) AND id <> $4" ++
        " LIMIT $5 OFFSET $6"] ∧
    (questions.map Sql.Statement.values).getLast? =
      some [.raw (.text "%nice%"), .raw (.int 4), .raw (.int 5), .raw (.text "7"), .raw (.int 10),
        .raw (.int 30)] := by
  have hplain (s : String) (h : Dialect.Quiet s.toList) : Dialect.postgres.Plain s :=
    h.clear.plain
  have hrelation : Dialect.postgres.Plain "entries" := hplain _ (by simp)
  have hcolumns : ∀ c ∈ entries.columns, Dialect.postgres.Plain c.expression := by
    simp only [entries, List.forall_mem_cons]
    refine ⟨hplain "id" ?_, hplain "entry_text" ?_, hplain "stars" ?_, ?_⟩ <;> simp
  obtain ⟨ps, hps⟩ : ∃ ps, Sql.predicates clock entries digest.conditions = .ok ps := ⟨_, rfl⟩
  obtain ⟨filter, leading, asked, hspell, hasked, hall⟩ :=
    Source.fetch_aligned ⟨"entries", 10⟩ digest crowded hrelation hcolumns hps
  refine ⟨hrelation, hcolumns, ⟨ps, filter, leading, hps, hspell, ?_⟩, by decide +kernel, rfl⟩
  have hempty : crowded.asked = [] := rfl
  rw [hempty, List.nil_append] at hasked
  rw [questions, hasked]
  exact hall

end Guestbook

end TableQuery
