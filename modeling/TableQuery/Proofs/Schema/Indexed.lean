import TableQuery.Proofs.Schema.Compiled

/-!
# Columns found by an index

A table is made in one pass over its fields. On the way it is known which columns there are, with an
index of their places by id, which names they have, and which of them is the key. Every column is
checked against these before it is added to them. Tables made in this way are the same as those
whose columns are compared with the columns before them.

## Main definitions

* `Table.position?` — the place of the column of an id.
* `ColumnList` — columns with an index that says where each id is.
* `Collected`, `Collected.add` — what is known of the columns before, and a further column.
* `TableSpec.collect`, `TableSpec.assemble` — tables made in one pass.

## Main results

* `Table.position?_eq_some_iff` — where ids are different, each leads to its place.
* `ColumnList.get?_eq` — the index leads to the columns of the ids.
* `Collected.describes_add` — what is known of the columns after one more.
* `TableSpec.compile_eq_assemble` — tables made in one pass.
-/

namespace TableQuery

/-! ## Places of columns -/

def Table.position? (t : Table) (id : String) : Option Nat :=
  t.columns.findIdx? fun c => c.id == id

theorem Table.column?_eq_bind_position? (t : Table) (id : String) :
    t.column? id = (t.position? id).bind fun place => t.columns[place]? :=
  List.find?_eq_bind_findIdx?_getElem?

/-- Where the ids of columns are different, each leads to its place. -/
theorem Table.position?_eq_some_iff {t : Table} (hn : t.columnIds.Nodup) {id : String}
    {place : Nat} : t.position? id = some place ↔ t.columnIds[place]? = some id := by
  rw [position?, List.findIdx?_eq_some_iff_getElem, columnIds, List.getElem?_map,
    Option.map_eq_some_iff]
  constructor
  · rintro ⟨hlt, hid, -⟩
    exact ⟨t.columns[place], List.getElem?_eq_getElem hlt, by simpa using hid⟩
  · rintro ⟨c, hc, rfl⟩
    obtain ⟨hlt, rfl⟩ := List.getElem?_eq_some_iff.mp hc
    refine ⟨hlt, by simp, fun before hbefore => ?_⟩
    -- A column of the same id further ahead would be the same column.
    have hdifferent := List.pairwise_iff_getElem.mp (List.pairwise_map.mp hn)
    simpa using hdifferent before place (by omega) hlt hbefore

theorem Table.position?_eq_none_iff {t : Table} {id : String} :
    t.position? id = none ↔ id ∉ t.columnIds := by
  simp [position?, columnIds, List.findIdx?_eq_none_iff]

/-! ## Columns with an index -/

/-- Columns in their order, with an index that says at which place the column of an id is. -/
structure ColumnList where
  columns : List Column
  index : Std.HashMap String Nat
  index_eq : ∀ id, index[id]? = columns.findIdx? fun c => c.id == id

namespace ColumnList

def empty : ColumnList := ⟨[], ∅, fun id => by simp⟩

def contains (l : ColumnList) (id : String) : Bool :=
  l.index.contains id

def get? (l : ColumnList) (id : String) : Option Column :=
  l.index[id]?.bind fun place => l.columns[place]?

theorem contains_eq (l : ColumnList) (id : String) :
    l.contains id = l.columns.any fun c => c.id == id := by
  rw [contains, ← Std.HashMap.isSome_getElem?_eq_contains, l.index_eq, List.findIdx?_isSome]

theorem get?_eq (l : ColumnList) (id : String) :
    l.get? id = l.columns.find? fun c => c.id == id := by
  rw [get?, l.index_eq, List.find?_eq_bind_findIdx?_getElem?]

/-- With a further column, whose id must be new, at the end. -/
def push (l : ColumnList) (c : Column) (hnew : l.contains c.id = false) : ColumnList where
  columns := l.columns ++ [c]
  index := l.index.insert c.id l.columns.length
  index_eq id := by
    rw [contains_eq, List.any_eq_false] at hnew
    rw [Std.HashMap.getElem?_insert, List.findIdx?_append, l.index_eq]
    by_cases hid : c.id = id
    · -- The id is new, so it leads to the column behind the others.
      subst hid
      have hnone : l.columns.findIdx? (fun d => d.id == c.id) = none := by
        rw [List.findIdx?_eq_none_iff]
        simpa using hnew
      simp [hnone]
    · simp [hid]

end ColumnList

/-! ## Tables made in one pass -/

/-- What is known of the columns that were made before. -/
structure Collected where
  columns : ColumnList
  names : Std.HashSet String
  /-- The id of the key, if there was one. -/
  key : Option String

namespace Collected

def empty : Collected := ⟨.empty, ∅, none⟩

/-- With a further column, whose id and name must be new, and which must not be a second key. -/
def add (table : String) (s : Collected) (c : Column) : Except SchemaError Collected :=
  if hnew : s.columns.contains c.id = false then
    if s.names.contains c.name then .error (.duplicateColumnName table c.name)
    else
      match c.isKey, s.key with
      | true, some first => .error (.multipleKeyColumns table first c.id)
      | true, none => .ok ⟨s.columns.push c hnew, s.names.insert c.name, some c.id⟩
      | false, key => .ok ⟨s.columns.push c hnew, s.names.insert c.name, key⟩
  else .error (.duplicateColumnId table c.id)

structure Describes (s : Collected) (before : List Column) : Prop where
  columns_eq : s.columns.columns = before
  names_eq : ∀ name, s.names.contains name = before.any fun d => d.name == name
  key_eq : s.key = (before.find? Column.isKey).map Column.id

theorem describes_empty : empty.Describes [] :=
  ⟨rfl, fun name => by simp [empty], rfl⟩

variable {s s' : Collected} {before : List Column} {c : Column} {table : String}

/-- A column is refused for the same reason as behind the columns that are described. -/
theorem add_map_eq (table : String) (c : Column) (h : s.Describes before) :
    (s.add table c).map (fun _ => ()) = TableSpec.checkColumn table before c := by
  have hid := s.columns.contains_eq c.id
  rw [h.columns_eq] at hid
  unfold add TableSpec.checkColumn
  rw [← hid, ← h.names_eq c.name, h.key_eq]
  split
  · next hnew =>
    simp only [hnew, Bool.false_eq_true, if_false]
    split
    · rfl
    · cases before.find? Column.isKey <;> cases c.isKey <;> rfl
  · next hold =>
    rw [Bool.not_eq_false] at hold
    simp [hold, Except.map]

/-- After a further column was added, what is known is what is known with this column. -/
theorem describes_add (h : s.Describes before) (hadd : s.add table c = .ok s') :
    s'.Describes (before ++ [c]) := by
  have hnames (name : String) : (s.names.insert c.name).contains name =
      (before ++ [c]).any fun d => d.name == name := by
    rw [Std.HashSet.contains_insert, h.names_eq, List.any_append, Bool.or_comm]
    simp
  have hkey := h.key_eq
  unfold add at hadd
  split at hadd
  · split at hadd
    · cases hadd
    · split at hadd
      · cases hadd
      · next hiskey hnone =>
        cases hadd
        rw [hnone, eq_comm, Option.map_eq_none_iff] at hkey
        exact ⟨by simp [ColumnList.push, h.columns_eq], hnames, by simp [hkey, hiskey]⟩
      · next key hiskey =>
        cases hadd
        refine ⟨by simp [ColumnList.push, h.columns_eq], hnames, ?_⟩
        rw [List.find?_append]
        simp [hiskey, hkey]
  · cases hadd

end Collected

namespace TableSpec

def collect (v : Vocabulary) (table : String) :
    Collected → List FieldSpec → Except SchemaError Collected
  | s, [] => .ok s
  | s, f :: fields => do
    let c ← f.compile v
    let s ← s.add table c
    collect v table s fields

/-- The table of a description, made in one pass over the fields that are shown. -/
def assemble (s : TableSpec) (v : Vocabulary) : Except SchemaError Table := do
  let found ← collect v s.id .empty s.shown
  match found.key with
  | none => throw (.noKeyColumn s.id)
  | some key =>
    if ((found.columns.get? key).map fun c => c.supports Builtin.eq).getD false then
      return ⟨s.id, s.name, s.description, found.columns.columns, key, [], none, none⟩
    else throw (.keyColumnMustSupportEq s.id key)

/-- What is collected in one pass are the columns, or the same error. -/
theorem collect_map_eq (v : Vocabulary) (table : String) (fields : List FieldSpec) {s : Collected}
    {before : List Column} (h : s.Describes before) :
    (collect v table s fields).map (fun found => found.columns.columns) =
      compileFields v table before fields ∧
    ∀ found, collect v table s fields = .ok found → found.Describes found.columns.columns := by
  induction fields generalizing s before with
  | nil =>
    refine ⟨congrArg Except.ok h.columns_eq, ?_⟩
    intro found hfound
    cases hfound
    exact h.columns_eq ▸ h
  | cons f fields ih =>
    unfold collect compileFields
    cases f.compile v with
    | error err => exact ⟨rfl, fun found hfound => by cases hfound⟩
    | ok c =>
      have hcheck := Collected.add_map_eq table c h
      simp only [Except.ok_bind]
      cases hadd : s.add table c with
      | error err =>
        rw [hadd] at hcheck
        rw [← hcheck]
        exact ⟨rfl, fun found hfound => by cases hfound⟩
      | ok s' =>
        rw [hadd] at hcheck
        rw [← hcheck]
        exact ih (Collected.describes_add h hadd)

/-- Tables can be made in one pass over their fields. -/
theorem compile_eq_assemble (s : TableSpec) (v : Vocabulary) : s.compile v = s.assemble v := by
  obtain ⟨hcolumns, hdescribes⟩ :=
    collect_map_eq v s.id s.shown Collected.describes_empty
  unfold compile assemble
  rw [← shown, ← hcolumns]
  cases hfound : collect v s.id .empty s.shown with
  | error err => rfl
  | ok found =>
    obtain ⟨-, -, hkey⟩ := hdescribes found hfound
    simp only [Except.map, Except.ok_bind, hkey]
    cases hfirst : found.columns.columns.find? Column.isKey with
    | none => rfl
    | some key =>
      -- The ids are different, so the key is found by its id.
      rw [hfound] at hcolumns
      have hnodup := (compileFields_shown_eq_ok_iff.mp hcolumns.symm).2.1
      have hget : found.columns.get? key.id = some key := by
        rw [ColumnList.get?_eq]
        exact (find?_key_eq_some_iff hnodup).mpr ⟨List.mem_of_find?_eq_some hfirst, rfl⟩
      simp [hget]

end TableSpec

end TableQuery
