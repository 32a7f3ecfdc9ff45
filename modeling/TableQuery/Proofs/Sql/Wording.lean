import TableQuery.Proofs.Run
import TableQuery.Proofs.Sample
import TableQuery.Sql.Source

/-!
# The wording of statements

What a statement says is decided by the columns and operators of the conditions, by how many values
these have, and by whether a value to be equal to, or not, is null. The values themselves are only
handed over. So no value can change the wording, whatever it consists of, and a page changes it only
by being asked for.

## Main definitions

* `Sql.Fragment.wording` — the texts of a fragment, with gaps for its values.
* `RawCondition.SameShape` — conditions that differ only in their values.
* `Sql.Database.wording` — a database without the values that it was handed.
* `Sql.Work.SameWording` — two pieces of work ask a database in the same words.

## Main results

* `Sql.Fragment.render_congr` — the text of a fragment is decided by its wording.
* `Sql.wording_whereClause` — so are the texts of conditions by their shapes.
* `Sql.Work.SameWording.bind` — steps in the same words make work in the same words.
* `Sql.wording_of_shape` — whole fetches ask a database in the same words.
-/

namespace TableQuery

/-- Two conditions differ only in their values. Being equal to null is another question than being
equal to a value, so both ask the same of these. -/
structure RawCondition.SameShape (c c' : RawCondition) : Prop where
  column_eq : c.column = c'.column
  operator_eq : c.operator = c'.operator
  length_eq : c.values.length = c'.values.length
  null_eq : c.operator = Builtin.eq ∨ c.operator = Builtin.ne →
    c.values.head?.map Raw.isNull = c'.values.head?.map Raw.isNull

/-- Results that look the same are continued to results that look the same, if what is done with
them depends only on their look. -/
theorem map_bind_congr {ε α β γ δ : Type} {x y : Except ε α} {f : α → γ}
    {next next' : α → Except ε β} {g : β → δ} (h : x.map f = y.map f)
    (hnext : ∀ a b, f a = f b → (next a).map g = (next' b).map g) :
    (x >>= next).map g = (y >>= next').map g := by
  cases x with
  | error e =>
    cases y with
    | error e' =>
      obtain rfl : e = e' := Except.error.inj h
      rfl
    | ok b => cases h
  | ok a =>
    cases y with
    | error e' => cases h
    | ok b => exact hnext a b (Except.ok.inj h)

/-- Results that look the same look the same to whom sees less of them. -/
theorem map_eq_map_of_look {ε α γ δ : Type} {x y : Except ε α} {f : α → γ} {g : α → δ}
    (h : x.map f = y.map f) (hg : ∀ a b, f a = f b → g a = g b) : x.map g = y.map g := by
  have hbind : (x >>= Except.ok).map g = (y >>= Except.ok).map g :=
    map_bind_congr h fun a b hab => congrArg Except.ok (hg a b hab)
  cases x <;> cases y <;> exact hbind

namespace Sql

/-! ## Texts with gaps -/

/-- The text of a piece; a value leaves a gap. -/
def Part.text? : Part → Option String
  | .text s => some s
  | .value _ => none

namespace Fragment

/-- The texts of a fragment, with gaps for its values. -/
def wording (f : Fragment) : List (Option String) :=
  f.map Part.text?

variable {f g f' g' : Fragment}

@[simp] theorem wording_text (s : String) : wording (.text s) = [some s] := rfl

@[simp] theorem wording_value (v : Bound) : wording (.value v) = [none] := rfl

@[simp] theorem wording_raw (v : Raw) : wording (.raw v) = [none] := rfl

@[simp] theorem wording_append (f g : Fragment) :
    wording (f ++ g) = wording f ++ wording g :=
  List.map_append

theorem render_congr (h : wording f = wording g) (d : Dialect) (before : Nat) :
    render d before f = render d before g := by
  induction f generalizing g before with
  | nil => rw [List.map_eq_nil_iff.mp h.symm]
  | cons p f ih =>
    obtain ⟨q, g, rfl, hpart, hrest⟩ := List.map_eq_cons_iff.mp h.symm
    have ih before : render d before f = render d before g := ih hrest.symm before
    cases p <;> cases q <;> cases hpart <;> rw [render, render, ih]

/-- The wording tells how many values there are. -/
theorem length_values_congr (h : wording f = wording g) :
    (values f).length = (values g).length := by
  induction f generalizing g with
  | nil => rw [List.map_eq_nil_iff.mp h.symm]
  | cons p f ih =>
    obtain ⟨q, g, rfl, hpart, hrest⟩ := List.map_eq_cons_iff.mp h.symm
    have ih : (values f).length = (values g).length := ih hrest.symm
    cases p <;> cases q <;> cases hpart <;> simp [values, ih]

theorem wording_join (separator : String) {fs gs : List Fragment}
    (h : fs.map wording = gs.map wording) :
    wording (join separator fs) = wording (join separator gs) := by
  induction fs generalizing gs with
  | nil => rw [List.map_eq_nil_iff.mp h.symm]
  | cons f fs ih =>
    obtain ⟨g, gs, rfl, hfirst, hrest⟩ := List.map_eq_cons_iff.mp h.symm
    have htail := ih hrest.symm
    cases fs with
    | nil => simpa [join, List.map_eq_nil_iff.mp hrest] using hfirst.symm
    | cons f' fs =>
      obtain ⟨g', gs, rfl, -, -⟩ := List.map_eq_cons_iff.mp hrest
      rw [join_cons_cons, join_cons_cons, wording_append, wording_append, hfirst]
      exact congrArg (wording f ++ some separator :: ·) htail

end Fragment

open Fragment (wording)

/-! ## Conditions -/

namespace Predicate

/-- The wording of a clause of alternatives tells their number and nothing else about them. -/
theorem wording_among (expression : String) (negated : Bool) {vs ws : List Raw}
    (h : vs.length = ws.length) :
    wording (clause expression (.among negated vs)) =
      wording (clause expression (.among negated ws)) := by
  have hgaps : (vs.map Fragment.raw).map wording = (ws.map Fragment.raw).map wording := by
    have hgap : wording ∘ Fragment.raw = fun _ => [none] := rfl
    rw [List.map_map, List.map_map, hgap, List.map_const', List.map_const', h]
  simp only [clause, Fragment.wording_append, Fragment.wording_join ", " hgaps]

/-- Operators that compare with one value say the same about all values, but for what is null. -/
theorem wording_comparison {operator : String} {predicate : Raw → Predicate}
    (h : comparison? operator = some predicate) (expression : String) {v w : Raw}
    (hnull : operator = Builtin.eq ∨ operator = Builtin.ne → v.isNull = w.isNull) :
    wording ((predicate v).clause expression) = wording ((predicate w).clause expression) := by
  unfold comparison? at h
  split_ifs at h with heq hne <;> cases h
  · simp only [equal, hnull (.inl heq)]
    split <;> rfl
  · simp only [notEqual, hnull (.inr hne)]
    split <;> rfl
  all_goals rfl

/-- Conditions of one shape are put in the same words, or cannot be put for the same reason. -/
theorem wording_ofCondition (now : Moment) (column : Column) {c c' : RawCondition}
    (h : c.SameShape c') (expression : String) :
    (ofCondition now column c).map (fun p => wording (p.clause expression)) =
      (ofCondition now column c').map fun p => wording (p.clause expression) := by
  obtain ⟨id, operator, values⟩ := c
  obtain ⟨id', operator', values'⟩ := c'
  obtain ⟨hid, hoperator, hlength, hnull⟩ := h
  dsimp only at hid hoperator hlength hnull
  subst hid hoperator
  unfold ofCondition
  dsimp only
  cases hcomparison : comparison? operator with
  | some predicate =>
    cases values with
    | nil => rw [List.length_eq_zero_iff.mp hlength.symm]
    | cons v vs =>
      have hpos : 0 < values'.length := by
        rw [← hlength]
        exact Nat.succ_pos _
      obtain ⟨w, ws, rfl⟩ := List.exists_cons_of_length_pos hpos
      have hsame := wording_comparison hcomparison expression (v := v) (w := w) fun hop => by
        simpa using hnull hop
      simp only [Except.map, hsame]
  | none =>
    dsimp only
    split
    · have hempty : values.isEmpty = values'.isEmpty := by
        rw [Bool.eq_iff_iff, List.isEmpty_iff_length_eq_zero, List.isEmpty_iff_length_eq_zero,
          hlength]
      rw [hempty]
      split
      · rfl
      · simp only [Except.map, wording_among expression _ hlength]
    · rfl

end Predicate

variable {now : Moment} {t : Table} {cs cs' : List RawCondition}

theorem wording_predicates (h : List.Forall₂ RawCondition.SameShape cs cs') :
    (predicates now t cs).map (List.map fun p => wording (p.2.clause p.1.expression)) =
      (predicates now t cs').map (List.map fun p => wording (p.2.clause p.1.expression)) := by
  induction h with
  | nil => rfl
  | @cons c c' cs cs' hfirst _ ih =>
    rw [predicates, predicates, ← hfirst.column_eq]
    refine map_bind_congr (f := id) rfl fun column _ hcolumn => ?_
    obtain rfl : column = _ := hcolumn
    refine map_bind_congr (Predicate.wording_ofCondition now column hfirst column.expression)
      fun p p' hp => map_bind_congr ih fun ps ps' hps => ?_
    simp only [Except.pure_eq_ok, Except.map, List.map_cons, hp, hps]

theorem wording_whereText {ps ps' : List (Column × Predicate)}
    (h : ps.map (fun p => wording (p.2.clause p.1.expression)) =
      ps'.map fun p => wording (p.2.clause p.1.expression)) :
    wording (whereText ps) = wording (whereText ps') := by
  have hempty : ps.isEmpty = ps'.isEmpty := by
    rw [Bool.eq_iff_iff, List.isEmpty_iff_length_eq_zero, List.isEmpty_iff_length_eq_zero,
      ← List.length_map, h, List.length_map]
  unfold whereText
  rw [hempty]
  split
  · rfl
  · rw [Fragment.wording_append, Fragment.wording_append, Fragment.wording_join " AND "]
    rw [List.map_map, List.map_map]
    exact h

/-- Conditions of one shape are put in the same words, or fail for the same reason. -/
theorem wording_whereClause (h : List.Forall₂ RawCondition.SameShape cs cs') :
    (whereClause now t cs).map wording = (whereClause now t cs').map wording :=
  map_bind_congr (wording_predicates h) fun ps ps' hps => by
    simp only [Except.map, wording_whereText hps]

/-! ## Statements -/

/-- A page changes the words by being asked for. -/
theorem wording_pageClause {p p' : PageRequest} (h : p.isPaged = p'.isPaged) :
    wording (pageClause p) = wording (pageClause p') := by
  unfold pageClause
  rw [h]
  split <;> rfl

theorem wording_selectStatement {filter filter' : Fragment} {p p' : PageRequest}
    (hfilter : wording filter = wording filter') (hp : p.isPaged = p'.isPaged) (d : Dialect)
    (relation : String) (columns : List Column) (order : String) :
    wording (selectStatement d relation columns filter order p) =
      wording (selectStatement d relation columns filter' order p') := by
  simp only [selectStatement, Fragment.wording_append, hfilter, wording_pageClause hp]

def Statement.wording (s : Statement) : Statement :=
  { s with values := [] }

def Database.wording (db : Database) : Database :=
  { db with
    log := db.log.map (List.map Statement.wording)
    pending := db.pending.map (List.map Statement.wording) }

namespace Work

variable {α β γ δ : Type}

/-- Two pieces of work ask databases that have been asked in the same words so far, and that answer
the same, in the same words again, and what comes of them looks the same. -/
def SameWording (look : α → γ) (w w' : Work α) : Prop :=
  ∀ db db' : Database, db.wording = db'.wording →
    (w.run db).1.map look = (w'.run db').1.map look ∧
      (w.run db).2.wording = (w'.run db').2.wording

theorem run_bind (w : Work α) (next : α → Work β) (db : Database) :
    (w >>= next).run db =
      match w.run db with
      | (.ok a, db) => (next a).run db
      | (.error e, db) => (.error e, db) := by
  unfold ExceptT.run
  simp only [Bind.bind, ExceptT.bind, ExceptT.mk, StateT.bind, ExceptT.bindCont]
  rcases w db with ⟨_ | a, db⟩ <;> rfl

namespace SameWording

variable {w w' : Work α} {next next' : α → Work β} {look : α → γ} {look' : β → δ}

/-- Steps in the same words make work in the same words. -/
theorem bind (h : SameWording look w w')
    (hnext : ∀ a b, look a = look b → SameWording look' (next a) (next' b)) :
    SameWording look' (w >>= next) (w' >>= next') := by
  intro db db' hdb
  obtain ⟨hresult, hafter⟩ := h db db' hdb
  rw [run_bind, run_bind]
  generalize w.run db = r at hresult hafter
  generalize w'.run db' = r' at hresult hafter
  obtain ⟨e | a, after⟩ := r <;> obtain ⟨e' | b, after'⟩ := r'
  · obtain rfl : e = e' := Except.error.inj hresult
    exact ⟨rfl, hafter⟩
  · cases hresult
  · cases hresult
  · exact hnext a b (Except.ok.inj hresult) after after' hafter

theorem ofExcept {x y : Except QueryError α} (h : x.map look = y.map look) :
    SameWording look (Work.ofExcept x) (Work.ofExcept y) :=
  fun _ _ hdb => ⟨h, hdb⟩

theorem pure {a b : α} (h : look a = look b) :
    SameWording look (Pure.pure a : Work α) (Pure.pure b) :=
  ofExcept (congrArg Except.ok h)

theorem ofExcept_self (x : Except QueryError α) :
    SameWording id (Work.ofExcept x) (Work.ofExcept x) :=
  ofExcept rfl

theorem pure_self (a : α) : SameWording id (Pure.pure a : Work α) (Pure.pure a) :=
  pure rfl

theorem dialect : SameWording id Work.dialect Work.dialect := by
  intro db db' hdb
  have hdialect : db.wording.dialect = db'.wording.dialect := by rw [hdb]
  exact ⟨congrArg Except.ok hdialect, hdb⟩

/-- Queries in the same words are answered the same. -/
theorem query {f g : Fragment} (h : wording f = wording g) :
    SameWording id (Work.query f) (Work.query g) := by
  intro db db' hdb
  obtain ⟨dialect, queries, executions, log, pending⟩ := db
  obtain ⟨dialect', queries', executions', log', pending'⟩ := db'
  simp only [Database.wording, Database.mk.injEq] at hdb
  obtain ⟨rfl, rfl, rfl, hlog, hpending⟩ := hdb
  have hstatement : (f.statement dialect).wording = (g.statement dialect).wording := by
    simp only [Statement.wording, Fragment.statement, Fragment.render_congr h]
  have hnote : (Database.note ⟨dialect, queries, executions, log, pending⟩
      (f.statement dialect)).wording =
      (Database.note ⟨dialect, queries, executions, log', pending'⟩
        (g.statement dialect)).wording := by
    cases pending <;> cases pending' <;> simp_all [Database.note, Database.wording]
  cases queries with
  | nil => exact ⟨rfl, hnote⟩
  | cons answer rest =>
    exact ⟨rfl, congrArg (fun db : Database => { db with queries := rest }) hnote⟩

end SameWording

end Work

/-! ## Fetches -/

namespace Source

variable {s : Source} {f f' : Fetch} {filter filter' : Fragment}

theorem sameWording_count (s : Source) (h : wording filter = wording filter') :
    Work.SameWording id (s.count filter) (s.count filter') := by
  refine .bind (.query ?_) fun rows rows' hrows => ?_
  · simp only [countStatement, Fragment.wording_append, h]
  · obtain rfl : rows = rows' := hrows
    cases rows with
    | nil => exact .pure rfl
    | cons row rows =>
      refine .bind (.ofExcept_self _) fun total total' htotal => ?_
      obtain rfl : total = total' := htotal
      exact .pure rfl

theorem sameWording_aggregates (s : Source) (htable : f.table = f'.table)
    (haggregates : f.aggregates = f'.aggregates) (h : wording filter = wording filter') :
    Work.SameWording id (s.aggregates f filter) (s.aggregates f' filter') := by
  refine .bind .dialect fun d d' hd => ?_
  obtain rfl : d = d' := hd
  rw [htable, haggregates]
  refine .bind (.ofExcept_self _) fun columns columns' hcolumns => ?_
  obtain rfl : columns = columns' := hcolumns
  split
  · exact .pure rfl
  · refine .bind (.query ?_) fun rows rows' hrows => ?_
    · simp only [aggregateStatement, Fragment.wording_append, h]
    · obtain rfl : rows = rows' := hrows
      exact .pure rfl

theorem sameWording_select (s : Source) (htable : f.table = f'.table)
    (houtput : f.output = f'.output) (horder : f.order = f'.order)
    (hpaged : f.page.isPaged = f'.page.isPaged) (h : wording filter = wording filter') :
    Work.SameWording id (s.select f filter) (s.select f' filter') := by
  refine .bind .dialect fun d d' hd => ?_
  obtain rfl : d = d' := hd
  refine .bind (.query ?_) fun rows rows' hrows => ?_
  · rw [htable, houtput, horder]
    exact wording_selectStatement h hpaged _ _ _ _
  · obtain rfl : rows = rows' := hrows
    rw [htable, houtput]
    exact .ofExcept rfl

end Source

/-- Fetches that ask for the same but for values. -/
structure SameQuestion (f f' : Fetch) : Prop where
  table_eq : f.table = f'.table
  conditions : List.Forall₂ RawCondition.SameShape f.conditions f'.conditions
  output_eq : f.output = f'.output
  aggregates_eq : f.aggregates = f'.aggregates
  isPaged_eq : f.page.isPaged = f'.page.isPaged
  order_eq : f.order = f'.order

/-- So they ask a database in the same words, and answer with the same rows and aggregates. -/
theorem sameWording_fetch (s : Source) {f f' : Fetch} (h : SameQuestion f f') :
    Work.SameWording (fun r => (r.rows, r.aggregates)) (s.fetch now f) (s.fetch now f') := by
  have hwhere : (whereClause now f.table f.conditions).map wording =
      (whereClause now f'.table f'.conditions).map wording := by
    rw [h.table_eq]
    exact wording_whereClause h.conditions
  refine .bind (.ofExcept hwhere) fun filter filter' hfilter => ?_
  refine .bind (s.sameWording_count hfilter) fun total total' htotal => ?_
  obtain rfl : total = total' := htotal
  have hlimit : f.page.checkLimit total s.limit = f'.page.checkLimit total s.limit := by
    simp only [PageRequest.checkLimit, h.isPaged_eq]
  rw [hlimit]
  refine .bind (.ofExcept_self _) fun _ _ _ => ?_
  refine .bind (s.sameWording_aggregates h.table_eq h.aggregates_eq hfilter)
    fun aggregates aggregates' haggregates => ?_
  obtain rfl : aggregates = aggregates' := haggregates
  split
  · exact .bind (.pure_self []) fun rows rows' hrows => by
      obtain rfl : rows = rows' := hrows
      exact .pure rfl
  · refine .bind (s.sameWording_select h.table_eq h.output_eq h.order_eq h.isPaged_eq hfilter)
      fun rows rows' hrows => ?_
    obtain rfl : rows = rows' := hrows
    exact .pure rfl

def Database.texts (db : Database) : List (List String) :=
  db.log.map (List.map Statement.text)

theorem Database.texts_congr {db db' : Database} (h : db.wording = db'.wording) :
    db.texts = db'.texts := by
  have htexts (db : Database) : db.wording.texts = db.texts := by
    have htext : Statement.text ∘ Statement.wording = Statement.text := rfl
    simp only [texts, Database.wording, List.map_map, List.map_comp_map, htext]
  rw [← htexts db, h, htexts]

/-- Conditions of one shape have the same text, whatever their values and however many values were
handed over before, or fail for the same reason; they hand over as many values. Behind them, the
text of a select depends on the page only in whether one is asked for. So fetches that ask for the
same but for values ask a database for statements of the same texts, as long as it answers the
same. -/
theorem wording_of_shape (h : List.Forall₂ RawCondition.SameShape cs cs') :
    (whereClause now t cs).map wording = (whereClause now t cs').map wording ∧
    (∀ d before, (whereClause now t cs).map (Fragment.render d before) =
      (whereClause now t cs').map (Fragment.render d before)) ∧
    (whereClause now t cs).map (fun f => f.values.length) =
      (whereClause now t cs').map (fun f => f.values.length) ∧
    ∀ p p' : PageRequest, p.isPaged = p'.isPaged →
      (∀ d relation columns order filter filter', whereClause now t cs = .ok filter →
        whereClause now t cs' = .ok filter' →
        ((selectStatement d relation columns filter order p).statement d).text =
          ((selectStatement d relation columns filter' order p').statement d).text) ∧
      ∀ (s : Source) output aggregates order (db : Database),
        ((s.fetch now ⟨t, cs, output, aggregates, p, order⟩).run db).2.texts =
          ((s.fetch now ⟨t, cs', output, aggregates, p', order⟩).run db).2.texts := by
  have hwhere : (whereClause now t cs).map wording = (whereClause now t cs').map wording :=
    wording_whereClause h
  refine ⟨hwhere, fun d before => ?_, ?_, fun p p' hpaged => ⟨?_, ?_⟩⟩
  · exact map_eq_map_of_look hwhere fun f g hfg => Fragment.render_congr hfg d before
  · exact map_eq_map_of_look hwhere fun f g hfg => Fragment.length_values_congr hfg
  · intro d relation columns order filter filter' hfilter hfilter'
    rw [hfilter, hfilter'] at hwhere
    have hselect := wording_selectStatement (Except.ok.inj hwhere) hpaged d relation columns order
    exact Fragment.render_congr hselect d 0
  · intro s output aggregates order db
    have hsame : SameQuestion ⟨t, cs, output, aggregates, p, order⟩
        ⟨t, cs', output, aggregates, p', order⟩ :=
      ⟨rfl, h, rfl, rfl, hpaged, rfl⟩
    exact Database.texts_congr (sameWording_fetch s hsame db db rfl).2

end Sql

/-! ## A hostile guest -/

namespace Guestbook

open Sql (whereClause Database)
open Sample (clock)

def entries : Table :=
  ⟨"Entry", "Entry", "",
    [{ (default : Column) with id := "Id", storageName := "id", isKey := true },
      { (default : Column) with id := "Text", storageName := "entry_text" },
      { (default : Column) with id := "Stars", kind := .int, storageName := "stars" }],
    "Id", [], none, none⟩

def search (part : String) (few many : Int64) (id : Raw) : List RawCondition :=
  [⟨"Text", Builtin.contains, [.text part]⟩, ⟨"Stars", Builtin.isIn, [.int few, .int many]⟩,
    ⟨"Id", Builtin.ne, [id]⟩]

def connected : Database :=
  ⟨.postgres, [.ok [[("total", .raw (.int 1))]], .ok [[("id", .raw (.text "7"))]]], [], [], none⟩

/-- What a friendly and a hostile guest ask a database for, on different pages. -/
def asked (conditions : List RawCondition) (page : PageRequest) : List (List String) :=
  ((Sql.Source.fetch ⟨"entries", 10⟩ clock ⟨entries, conditions, ["Id"], [], page, none⟩).run
    connected).2.texts

/-- A text that looks like a statement is searched for as any other. -/
theorem hostile_harmless :
    List.Forall₂ RawCondition.SameShape (search "nice" 4 5 (.text "7"))
      (search "'; DROP TABLE entries; --" 0 1 (.bytes [0x27])) ∧
    (whereClause clock entries (search "nice" 4 5 (.text "7"))).map
      (Sql.Fragment.render .postgres 0) =
        .ok " WHERE entry_text LIKE $1 ESCAPE '\\' AND stars IN ($2, $3) AND id <> $4" ∧
    (whereClause clock entries (search "'; DROP TABLE entries; --" 0 1 (.bytes [0x27]))).map
      (Sql.Fragment.render .postgres 0) =
        .ok " WHERE entry_text LIKE $1 ESCAPE '\\' AND stars IN ($2, $3) AND id <> $4" ∧
    (asked (search "nice" 4 5 (.text "7")) ⟨0, 10⟩).length = 2 ∧
    asked (search "nice" 4 5 (.text "7")) ⟨0, 10⟩ =
      asked (search "'; DROP TABLE entries; --" 0 1 (.bytes [0x27])) ⟨3, 1⟩ := by
  have hshape : List.Forall₂ RawCondition.SameShape (search "nice" 4 5 (.text "7"))
      (search "'; DROP TABLE entries; --" 0 1 (.bytes [0x27])) := by
    refine .cons ⟨rfl, rfl, rfl, fun _ => rfl⟩ (.cons ⟨rfl, rfl, rfl, fun _ => rfl⟩ (.cons ?_ .nil))
    exact ⟨rfl, rfl, rfl, fun _ => rfl⟩
  obtain ⟨-, htext, -, hpages⟩ := @Sql.wording_of_shape clock entries _ _ hshape
  have hfriendly : (whereClause clock entries (search "nice" 4 5 (.text "7"))).map
      (Sql.Fragment.render .postgres 0) =
        .ok " WHERE entry_text LIKE $1 ESCAPE '\\' AND stars IN ($2, $3) AND id <> $4" := by
    rfl
  exact ⟨hshape, hfriendly, (htext .postgres 0).symm.trans hfriendly, rfl,
    (hpages ⟨0, 10⟩ ⟨3, 1⟩ rfl).2 _ _ _ _ _⟩

end Guestbook

end TableQuery
