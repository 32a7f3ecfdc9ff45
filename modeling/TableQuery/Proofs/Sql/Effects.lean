import Mathlib.Data.List.Pairwise
import TableQuery.Proofs.Sql.Transaction
import TableQuery.Sql.Archive

/-!
# What statements do to the rows of templates

The templates and their shares are rows of two relations. What a statement does to them can be told
from its text and its values: changes are made of a few kinds of statements, each of which is
written in one way, and which begin differently. None of them is how a transaction ends.

## Main definitions

* `Sql.Archive.Rows` — the rows of both relations.
* `Sql.Archive.Kind` — the kinds of statements, with how they are written and what they do.
* `Sql.Archive.effect?`, `Sql.Archive.effects?` — what statements do to the rows.

## Main results

* `Sql.Archive.TemplateRow.record_ofRecord` — the row of a record is read as this record.
* `Sql.Archive.effect_of_spells` — a statement does what its kind does.
* `Sql.Archive.effect_insertTemplate` and those beside it — what the statements of changes do.
-/

namespace TableQuery.Sql

def Statement.begins (s : Statement) (head : String) : Bool :=
  head.toList.isPrefixOf s.text.toList

namespace Archive

structure Rows where
  templates : List TemplateRow
  shares : List ShareRow

namespace TemplateRow

def ofRecord (r : TemplateRecord) : TemplateRow :=
  ⟨r.id, r.name, r.table, r.access.code, r.createUser, r.createTime, r.modifyTime, r.body⟩

theorem record_ofRecord (r : TemplateRecord) : (ofRecord r).record r.shareList = .ok r := by
  simp [record, ofRecord]

def revised (row : TemplateRow) (u : TemplateUpdate) : TemplateRow :=
  { row with name := u.name, access := u.access.code, modifyTime := u.modifyTime, body := u.body }

end TemplateRow

/-- Values, eight by eight, as rows of templates. -/
def templateRows : List Bound → List TemplateRow
  | .raw (.text id) :: .raw (.text name) :: .raw (.text table) :: .int32 access ::
      .raw (.text createUser) :: .universal createTime :: .universal modifyTime ::
      .raw (.text body) :: rest =>
    ⟨id, name, table, access, createUser, createTime, modifyTime, body⟩ :: templateRows rest
  | _ => []

/-- Values, two by two, as templates and users. -/
def pairs : List Bound → List ShareRow
  | .raw (.text template) :: .raw (.text user) :: rest => ⟨template, user⟩ :: pairs rest
  | _ => []

def texts : List Bound → List String :=
  List.filterMap fun
    | .raw (.text s) => some s
    | _ => none

/-- The rows of the id that comes last have new values. -/
def assign : List Bound → List TemplateRow → List TemplateRow
  | [.raw (.text name), .int32 access, .universal modifyTime, .raw (.text body), .raw (.text id)],
      rows =>
    rows.map fun row => if row.id = id then { row with name, access, modifyTime, body } else row
  | _, rows => rows

/-- Placeholders up to a closing parenthesis, behind those of so many values. -/
def marks (d : Dialect) (before width : Nat) : String :=
  ", ".intercalate ((List.range width).map fun i => d.placeholder (before + i + 1)) ++ ")"

/-- So many rows of placeholders. -/
def rowsOfMarks (d : Dialect) (width count : Nat) : String :=
  ", ".intercalate ((List.range count).map fun i => "(" ++ marks d (width * i) width)

/-- The statements that changes are made of. -/
inductive Kind where
  | select
  | insertTemplates
  | updateTemplates
  | deleteTemplates
  | deleteTemplatesOfUsers
  | insertShares
  | deleteShares
  | deleteSharesOfAll
  deriving DecidableEq

namespace Kind

def all : List Kind :=
  [select, insertTemplates, updateTemplates, deleteTemplates, deleteTemplatesOfUsers, insertShares,
    deleteShares, deleteSharesOfAll]

def head (d : Dialect) : Kind → String
  | select => "SELECT "
  | insertTemplates =>
    "INSERT INTO " ++ quote d "table_templates" ++ " (" ++ ", ".intercalate
      (["id", "name", "table_id", "access", "create_user", "create_time", "modify_time",
        "body"].map (quote d)) ++ ") VALUES "
  | updateTemplates =>
    "UPDATE " ++ quote d "table_templates" ++ " SET " ++
      quote d "name" ++ " = " ++ d.placeholder 1 ++ ", " ++
      quote d "access" ++ " = " ++ d.placeholder 2 ++ ", " ++
      quote d "modify_time" ++ " = " ++ d.placeholder 3 ++ ", " ++
      quote d "body" ++ " = " ++ d.placeholder 4 ++
      " WHERE " ++ quote d "table_templates" ++ "." ++ quote d "id" ++ " = "
  | deleteTemplates =>
    "DELETE FROM " ++ quote d "table_templates" ++ " WHERE " ++
      quote d "table_templates" ++ "." ++ quote d "id" ++ " = "
  | deleteTemplatesOfUsers =>
    "DELETE FROM " ++ quote d "table_templates" ++ " WHERE " ++
      quote d "table_templates" ++ "." ++ quote d "create_user" ++ " = "
  | insertShares =>
    "INSERT INTO " ++ quote d "table_template_shares" ++ " (" ++ ", ".intercalate
      (["template_id", "user_id"].map (quote d)) ++ ") VALUES "
  | deleteShares =>
    "DELETE FROM " ++ quote d "table_template_shares" ++ " WHERE " ++
      quote d "table_template_shares" ++ "." ++ quote d "template_id" ++ " = "
  | deleteSharesOfAll =>
    "DELETE FROM " ++ quote d "table_template_shares" ++ " WHERE " ++
      quote d "table_template_shares" ++ "." ++ quote d "template_id" ++ " IN ("

/-- What stands behind the head, if so many values are handed over. Only a query may go on in any
way. -/
def tail? (d : Dialect) (count : Nat) : Kind → Option String
  | select => none
  | insertTemplates => some (rowsOfMarks d 8 (count / 8))
  | updateTemplates => some (d.placeholder 5)
  | deleteTemplates | deleteTemplatesOfUsers | deleteShares => some (d.placeholder 1)
  | insertShares => some (rowsOfMarks d 2 (count / 2))
  | deleteSharesOfAll => some (marks d 0 count)

def spells (k : Kind) (d : Dialect) (s : Statement) : Bool :=
  match k.tail? d s.values.length with
  | some tail => s.text == k.head d ++ tail
  | none => s.begins (k.head d)

def act (k : Kind) (values : List Bound) (rows : Rows) : Rows :=
  match k with
  | select => rows
  | insertTemplates => { rows with templates := rows.templates ++ templateRows values }
  | updateTemplates => { rows with templates := assign values rows.templates }
  | deleteTemplates =>
    { rows with templates := rows.templates.filter fun row => row.id ∉ texts values }
  | deleteTemplatesOfUsers =>
    { rows with templates := rows.templates.filter fun row => row.createUser ∉ texts values }
  | insertShares => { rows with shares := rows.shares ++ pairs values }
  | deleteShares | deleteSharesOfAll =>
    { rows with shares := rows.shares.filter fun row => row.template ∉ texts values }

theorem mem_all (k : Kind) : k ∈ all := by
  cases k <;> decide

theorem begins_head {k : Kind} {d : Dialect} {s : Statement} (h : k.spells d s = true) :
    s.begins (k.head d) = true := by
  rw [spells] at h
  split at h
  · next tail _ =>
    rw [beq_iff_eq] at h
    rw [Statement.begins, List.isPrefixOf_iff_prefix, h, String.toList_append]
    exact List.prefix_append _ _
  · exact h

theorem spells_of_tail {k : Kind} {d : Dialect} {values : List Bound} {tail : String}
    (h : k.tail? d values.length = some tail) : k.spells d ⟨k.head d ++ tail, values⟩ = true := by
  simp [spells, h]

end Kind

/-- What a statement does to the rows, as its text and its values tell. -/
def effect? (d : Dialect) (s : Statement) : Option (Rows → Rows) :=
  (Kind.all.find? fun k => k.spells d s).map fun k => k.act s.values

/-- The rows behind statements, if it can be told what these do. -/
def effects? (d : Dialect) (statements : List Statement) (rows : Rows) : Option Rows :=
  statements.foldlM (fun rows s => (effect? d s).map (· rows)) rows

/-- Statements turn rows into `f` of them. -/
def Leaves (d : Dialect) (xs : List Exchange) (f : Rows → Rows) : Prop :=
  ∀ rows, effects? d (xs.map Exchange.statement) rows = some (f rows)

section Effects

variable {d : Dialect} {f g : Rows → Rows} {xs ys : List Exchange}

theorem Leaves.single {x : Exchange} (h : effect? d x.statement = some f) : Leaves d [x] f := by
  intro rows
  simp [effects?, h]

theorem Leaves.append (hxs : Leaves d xs f) (hys : Leaves d ys g) :
    Leaves d (xs ++ ys) (g ∘ f) := by
  intro rows
  have hfirst : effects? d (xs.map Exchange.statement) rows = some (f rows) := hxs rows
  rw [effects?] at hfirst
  rw [List.map_append, effects?, List.foldlM_append, hfirst]
  exact hys (f rows)

/-- Two heads of which none begins with the other. -/
def Apart (head other : String) : Bool :=
  !head.toList.isPrefixOf other.toList && !other.toList.isPrefixOf head.toList

theorem not_begins_of_apart {s : Statement} {head other : String} (h : Apart head other = true)
    (hhead : s.begins head = true) : ¬ s.begins other = true := by
  rw [Apart, Bool.and_eq_true, Bool.not_eq_true', Bool.not_eq_true'] at h
  rw [Statement.begins, List.isPrefixOf_iff_prefix] at hhead ⊢
  intro hother
  rcases List.prefix_or_prefix_of_prefix hhead hother with hprefix | hprefix
  · rw [← List.isPrefixOf_iff_prefix, h.1] at hprefix
    cases hprefix
  · rw [← List.isPrefixOf_iff_prefix, h.2] at hprefix
    cases hprefix

theorem apart_comm (head other : String) : Apart head other = Apart other head :=
  Bool.and_comm ..

/-- Statements of different kinds, and what ends a transaction, begin differently. -/
theorem pairwise_apart (d : Dialect) :
    ("COMMIT" :: Kind.all.map (Kind.head d)).Pairwise
      fun head other => Apart head other = true := by
  cases d <;> decide +kernel

theorem apart_commit (d : Dialect) (k : Kind) : Apart "COMMIT" (k.head d) = true :=
  List.rel_of_pairwise_cons (pairwise_apart d) (List.mem_map_of_mem k.mem_all)

theorem apart_heads (d : Dialect) {k k' : Kind} (h : k ≠ k') :
    Apart (k.head d) (k'.head d) = true := by
  have hheads : Kind.all.Pairwise fun k k' => Apart (k.head d) (k'.head d) = true :=
    List.pairwise_map.mp (List.Pairwise.of_cons (pairwise_apart d))
  have : Std.Symm fun k k' : Kind => Apart (k.head d) (k'.head d) = true :=
    ⟨fun _ _ hkk' => (apart_comm _ _).trans hkk'⟩
  exact hheads.forall k.mem_all k'.mem_all h

theorem effect_of_spells {k : Kind} {s : Statement} (h : k.spells d s = true) :
    effect? d s = some (k.act s.values) := by
  have hfind : Kind.all.find? (fun k' => k'.spells d s) = some k := by
    cases hfind : Kind.all.find? fun k' => k'.spells d s with
    | none => exact absurd h (List.find?_eq_none.mp hfind k k.mem_all)
    | some k' =>
      by_contra hne
      have hspells := List.find?_some hfind
      have happart := apart_heads d fun h => hne (congrArg some h.symm)
      exact not_begins_of_apart happart (Kind.begins_head h) (Kind.begins_head hspells)
  rw [effect?, hfind]
  rfl

/-- What ends a transaction is none of the statements of which it is told what they do. -/
theorem not_isCommit_of_effect {s : Statement} (h : effect? d s = some f) : ¬ s.IsCommit := by
  intro hcommit
  have hbegins : s.begins "COMMIT" = true := by
    rw [Statement.begins, List.isPrefixOf_iff_prefix, hcommit]
  obtain ⟨k, hfind, -⟩ := Option.map_eq_some_iff.mp h
  have hspells := List.find?_some hfind
  exact not_begins_of_apart (apart_commit d k) hbegins (Kind.begins_head hspells)

end Effects

/-! ## The statements of changes -/

theorem values_join (separator : String) (fs : List Fragment) :
    Fragment.values (.join separator fs) = fs.flatMap Fragment.values := by
  induction fs with
  | nil => rfl
  | cons f fs ih =>
    cases fs with
    | nil => simp [Fragment.join]
    | cons f' fs =>
      rw [Fragment.join_cons_cons, Fragment.values_append, Fragment.values, ih]
      rfl

/-- Any values for a template and users are read two by two. -/
theorem pairs_shares (id : String) (users : List String) :
    pairs (users.flatMap fun user => [.text id, .text user]) = users.map (ShareRow.mk id) := by
  induction users with
  | nil => rfl
  | cons user users ih =>
    rw [List.flatMap_cons, List.map_cons, ← ih]
    rfl

theorem texts_map_text (ids : List String) : texts (ids.map Bound.text) = ids := by
  simp [texts, Bound.text, List.filterMap_map, Function.comp_def]

section Statements

variable {d : Dialect}

/-- A fragment that begins with a text makes a statement that begins with it. -/
theorem statement_append (head : String) (f : Fragment) :
    (Fragment.text head ++ f).statement d = ⟨head ++ f.render d 0, f.values⟩ := rfl

/-- Parts that have as many values each, and that look the same behind as many values. -/
theorem render_join {fs : List Fragment} (width : Nat) (look : Nat → String)
    (hwidth : ∀ f ∈ fs, f.values.length = width)
    (hlook : ∀ f ∈ fs, ∀ before, f.render d before = look before) (separator : String)
    (before : Nat) : (Fragment.join separator fs).render d before =
      separator.intercalate ((List.range fs.length).map fun i => look (before + width * i)) := by
  induction fs generalizing before with
  | nil => rfl
  | cons f fs ih =>
    rw [List.forall_mem_cons] at hwidth hlook
    cases fs with
    | nil => simp [Fragment.join, hlook.1]
    | cons f' fs =>
      rw [Fragment.join_cons_cons, Fragment.render_append, Fragment.render, ih hwidth.2 hlook.2,
        hwidth.1, hlook.1, List.length_cons (a := f), List.range_succ_eq_map, List.map_cons,
        List.map_map, String.intercalate_cons_of_ne_nil (by simp)]
      simp [Function.comp_def, Nat.mul_add, Nat.add_assoc, Nat.add_comm width, String.append_assoc]

theorem render_marks (values : List Bound) (before : Nat) :
    Fragment.render d before (.join ", " (values.map .value) ++ .text ")") =
      marks d before values.length := by
  rw [Fragment.render_append, render_join 1 fun k => d.placeholder (k + 1)]
  · simp [marks, Fragment.text, Fragment.render]
  · simp [Fragment.value, Fragment.values]
  · simp [Fragment.value, Fragment.render]

theorem values_marks (values : List Bound) :
    Fragment.values (.join ", " (values.map .value) ++ .text ")") = values := by
  rw [Fragment.values_append, values_join, List.flatMap_map]
  simp [Fragment.text, Fragment.value, Fragment.values]

/-- An insertion hands over the values of its rows, which have as many values each. -/
theorem statement_insert (r : Relation) (columns : List String) {rows : List (List Bound)}
    (width : Nat) (hwidth : ∀ row ∈ rows, row.length = width) :
    (r.insert d columns rows).statement d =
      ⟨"INSERT INTO " ++ quote d r.name ++ " (" ++ ", ".intercalate (columns.map (quote d)) ++
        ") VALUES " ++ rowsOfMarks d width rows.length, rows.flatten⟩ := by
  have hvalues (row : List Bound) : Fragment.values
      (.text "(" ++ .join ", " (row.map .value) ++ .text ")") = row := by
    rw [List.append_assoc, Fragment.values_append, values_marks]
    rfl
  have hrender (row : List Bound) (before : Nat) : Fragment.render d before
      (.text "(" ++ .join ", " (row.map .value) ++ .text ")") =
        "(" ++ marks d before row.length := by
    rw [List.append_assoc, Fragment.render_append, render_marks]
    simp [Fragment.text, Fragment.render, Fragment.values]
  refine (statement_append _ _).trans ?_
  congr 1
  · rw [render_join width fun k => "(" ++ marks d k width]
    · simp [rowsOfMarks]
    · rintro _ hf
      obtain ⟨row, hrow, rfl⟩ := List.mem_map.mp hf
      rw [hvalues, hwidth row hrow]
    · rintro _ hf before
      obtain ⟨row, hrow, rfl⟩ := List.mem_map.mp hf
      rw [hrender, hwidth row hrow]
  · rw [values_join, List.flatMap_map]
    simp only [hvalues, List.flatMap_id']

/-- A deletion on which one condition is put. -/
theorem statement_delete (r : Relation) (column operator : String) (f : Fragment) :
    (r.delete d [.text (r.qualified d column ++ operator) ++ f]).statement d =
      ⟨"DELETE FROM " ++ quote d r.name ++ " WHERE " ++ quote d r.name ++ "." ++ quote d column ++
        operator ++ f.render d 0, f.values⟩ := by
  rw [Relation.delete, Relation.whereAll, Fragment.join, statement_append]
  simp [Relation.qualified, Fragment.text, Fragment.render, Fragment.values, String.append_assoc]

theorem statement_delete_equals (r : Relation) (column : String) (v : Bound) :
    (r.delete d [r.equals d column v]).statement d =
      ⟨"DELETE FROM " ++ quote d r.name ++ " WHERE " ++ quote d r.name ++ "." ++ quote d column ++
        " = " ++ d.placeholder 1, [v]⟩ := by
  rw [Relation.equals, statement_delete]
  simp [Fragment.value, Fragment.render, Fragment.values]

theorem effect_insertTemplate (r : TemplateRecord) :
    effect? d ((templates.insert d templates.columns
      [[.text r.id, .text r.name, .text r.table, .int32 r.access.code, .text r.createUser,
        .universal r.createTime, .universal r.modifyTime, .text r.body]]).statement d) =
      some fun rows => { rows with templates := rows.templates ++ [.ofRecord r] } := by
  have htail : Kind.tail? d 8 .insertTemplates = some (rowsOfMarks d 8 1) := rfl
  rw [statement_insert templates templates.columns 8 (by simp)]
  exact effect_of_spells (k := .insertTemplates) (Kind.spells_of_tail htail)

theorem effect_insertShares (id : String) (users : List String) :
    effect? d ((shares.insert d ["template_id", "user_id"]
      (users.map fun user => [.text id, .text user])).statement d) =
      some fun rows => { rows with shares := rows.shares ++ users.map (ShareRow.mk id) } := by
  have htail : Kind.tail? d (users.map fun user => [Bound.text id, .text user]).flatten.length
      .insertShares = some (rowsOfMarks d 2 users.length) := by
    simp [Kind.tail?, List.length_flatten, Function.comp_def]
  rw [statement_insert shares _ 2 (by simp), ← pairs_shares, List.flatMap_def,
    List.length_map]
  exact effect_of_spells (k := .insertShares) (Kind.spells_of_tail htail)

theorem effect_updateTemplate (id : String) (u : TemplateUpdate) :
    effect? d ((templates.update d
      [("name", .text u.name), ("access", .int32 u.access.code),
        ("modify_time", .universal u.modifyTime), ("body", .text u.body)]
      [templates.equals d "id" (.text id)]).statement d) =
      some fun rows => { rows with
        templates := rows.templates.map fun row =>
          if row.id = id then row.revised u else row } := by
  have hstatement : (templates.update d
      [("name", .text u.name), ("access", .int32 u.access.code),
        ("modify_time", .universal u.modifyTime), ("body", .text u.body)]
      [templates.equals d "id" (.text id)]).statement d =
      ⟨Kind.head d .updateTemplates ++ d.placeholder 5,
        [.text u.name, .int32 u.access.code, .universal u.modifyTime, .text u.body, .text id]⟩ := by
    refine congrArg (Statement.mk · _) ?_
    simp only [Relation.update, Relation.whereAll, Relation.equals, Relation.qualified, templates,
      List.map_cons, List.map_nil, List.cons_append, List.nil_append, Fragment.text,
      Fragment.value, Fragment.join]
    unfold Kind.head
    -- the names are not to be computed
    generalize quote d = name
    simp only [Fragment.render, String.append_assoc, String.append_empty, Nat.reduceAdd]
  rw [hstatement]
  exact effect_of_spells (k := .updateTemplates) (Kind.spells_of_tail rfl)

theorem effect_deleteTemplate (id : String) :
    effect? d ((templates.delete d [templates.equals d "id" (.text id)]).statement d) =
      some fun rows =>
        { rows with templates := rows.templates.filter fun row => row.id ∉ [id] } := by
  rw [statement_delete_equals]
  exact effect_of_spells (k := .deleteTemplates) (Kind.spells_of_tail rfl)

theorem effect_deleteTemplatesOf (user : String) :
    effect? d ((templates.delete d [templates.equals d "create_user" (.text user)]).statement d) =
      some fun rows =>
        { rows with templates := rows.templates.filter fun row => row.createUser ∉ [user] } := by
  rw [statement_delete_equals]
  exact effect_of_spells (k := .deleteTemplatesOfUsers) (Kind.spells_of_tail rfl)

theorem effect_deleteShare (id : String) :
    effect? d ((shares.delete d [shares.equals d "template_id" (.text id)]).statement d) =
      some fun rows =>
        { rows with shares := rows.shares.filter fun row => row.template ∉ [id] } := by
  rw [statement_delete_equals]
  exact effect_of_spells (k := .deleteShares) (Kind.spells_of_tail rfl)

theorem effect_deleteShares (ids : List String) :
    effect? d ((shares.delete d [shares.oneOf d "template_id" ids]).statement d) =
      some fun rows =>
        { rows with shares := rows.shares.filter fun row => row.template ∉ ids } := by
  have hids : ids.map (fun s => Fragment.value (.text s)) = (ids.map Bound.text).map .value := by
    rw [List.map_map]
    rfl
  rw [Relation.oneOf, List.append_assoc, statement_delete, hids, render_marks, values_marks]
  refine (effect_of_spells (k := .deleteSharesOfAll) (Kind.spells_of_tail rfl)).trans ?_
  refine congrArg some (funext fun rows => ?_)
  rw [Kind.act, texts_map_text]

theorem effect_selectTemplates (conditions : List Fragment) (order : List String) :
    effect? d ((templates.select d conditions order).statement d) = some id := by
  rw [Relation.select, List.append_assoc, statement_append, String.append_assoc,
    String.append_assoc, String.append_assoc]
  refine effect_of_spells (k := .select) ?_
  rw [Kind.spells, Kind.tail?, Statement.begins, List.isPrefixOf_iff_prefix, String.toList_append]
  exact List.prefix_append _ _

end Statements

end Archive

end TableQuery.Sql
