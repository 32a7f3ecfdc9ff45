import TableQuery.Proofs.Registry.Registered
import TableQuery.Proofs.Sample
import TableQuery.Proofs.Schema.Compiled

/-!
# Keys of registered tables

A description becomes a table only if exactly one of its fields is a key, which holds texts and can
be searched by one value. Registering tables and following links, in any order, keeps the key. What
conditions the key offers is kept as well, unless the key is a linked column itself: such a key
takes over the operators of the column that it is linked to, and these need not search by one value.

## Main definitions

* `Table.KeyedBy` — the only key column of a table.
* `Table.Compiled` — a table that was made of a description.
* `Registry.Step`, `Registry.setUp` — setting up a registry step by step.
* `Registry.lender?` — the column whose operators a linked column takes over.

## Main results

* `TableSpec.keyedBy_of_compile` — the key of a table that was made of a description.
* `Registry.keyed_setUp` — the keys of all tables, whatever the steps were.
* `Billing.linked_key_loses_eq` — a key that can no longer be searched by one value.
-/

namespace TableQuery

/-- The only column of a table that is marked as key, which is the one named as key and holds
texts. -/
structure Table.KeyedBy (t : Table) (key : Column) : Prop where
  filter_isKey : t.columns.filter Column.isKey = [key]
  keyColumn?_eq : t.keyColumn? = some key
  type_eq : key.type = .string

theorem Table.KeyedBy.eq_of_isKey {t : Table} {key c : Column} (h : t.KeyedBy key)
    (hc : c ∈ t.columns) (hiskey : c.isKey = true) : c = key := by
  have hmarked : c ∈ t.columns.filter Column.isKey := List.mem_filter.mpr ⟨hc, hiskey⟩
  rwa [h.filter_isKey, List.mem_singleton] at hmarked

theorem Table.KeyedBy.column?_eq {t : Table} {key : Column} (h : t.KeyedBy key) :
    key.id = t.key ∧ t.column? key.id = some key := by
  have hid := Table.column?_id h.keyColumn?_eq
  exact ⟨hid, hid ▸ h.keyColumn?_eq⟩

/-- A table that was made of a description. Actions and a proposed template may have been added. -/
def Table.Compiled (t : Table) : Prop :=
  ∃ (s : TableSpec) (v : Vocabulary),
    s.compile v = .ok { t with actions := [], actionFilter := none, proposal := none }

/-! ## Tables made of descriptions -/

namespace TableSpec

/-- The key of a table that was made of a description, which can be searched by one value. -/
theorem keyedBy_of_compile {s : TableSpec} {v : Vocabulary} {t : Table}
    (h : s.compile v = .ok t) : ∃ key, t.KeyedBy key ∧ key.supports Builtin.eq = true := by
  obtain ⟨columns, key, hcolumns, hkey, heq, rfl⟩ := compile_eq_ok_iff.mp h
  obtain ⟨hfields, hids, -, hlength⟩ := compileFields_shown_eq_ok_iff.mp hcolumns
  have hmem := List.mem_of_find?_eq_some hkey
  obtain ⟨f, -, hf⟩ := forall₂_exists_left hfields hmem
  refine ⟨key, ⟨Column.filter_isKey_eq hlength hkey, ?_, ?_⟩, heq⟩
  · exact (find?_key_eq_some_iff hids).mpr ⟨hmem, rfl⟩
  · exact FieldSpec.type_of_isKey hf (List.find?_some hkey)

end TableSpec

theorem Table.Compiled.keyedBy {t : Table} (h : t.Compiled) :
    ∃ key, t.KeyedBy key ∧ key.supports Builtin.eq = true := by
  obtain ⟨s, v, h⟩ := h
  obtain ⟨key, hkey, heq⟩ := TableSpec.keyedBy_of_compile h
  exact ⟨key, ⟨hkey.filter_isKey, hkey.keyColumn?_eq, hkey.type_eq⟩, heq⟩

theorem Table.Compiled.nodup_columnIds {t : Table} (h : t.Compiled) : t.columnIds.Nodup := by
  obtain ⟨s, v, h⟩ := h
  obtain ⟨columns, key, hcolumns, -, -, ht⟩ := TableSpec.compile_eq_ok_iff.mp h
  rw [Table.columnIds, show t.columns = columns from congrArg Table.columns ht]
  exact (TableSpec.compileFields_shown_eq_ok_iff.mp hcolumns).2.1

namespace Registry

variable {r r' : Registry} {t t' : Table} {c c' key : Column}

/-! ## Following links -/

/-- The column whose operators a linked column takes over when links are followed, if conditions on
its local column may list values. -/
def lender? (r : Registry) (t : Table) (c : Column) : Option Column := do
  let l ← c.outboundLink?
  let here ← t.column? l.localColumn
  if here.supports Builtin.isIn then (← r.table? l.table).column? l.valueColumn else none

theorem Leads.lender?_eq {l : Link} {here search value : Column} {remote : Table}
    (h : r.Leads t l here remote search value) (hl : c.outboundLink? = some l) :
    r.lender? t c = if here.supports Builtin.isIn then some value else none := by
  simp [lender?, hl, h.here_eq, h.remote_eq, h.value_eq]

theorem filters_of_linkedColumn (h : r.linkedColumn t c = .ok c') :
    c'.filters = ((r.lender? t c).getD c).filters := by
  unfold linkedColumn at h
  split at h
  · next hnone =>
    cases h
    simp [lender?, hnone]
  · next l hlink =>
    split at h
    · cases h
    · next value hvalue =>
      obtain ⟨here, remote, search, hleads, -⟩ := leads_of_followLink hvalue
      simp only [hleads.here_eq, Option.map_some, Option.getD_some] at h
      rw [hleads.lender?_eq hlink]
      split at h
      · next hin =>
        cases h
        simp [hin]
      · next hin =>
        cases h
        simp [hin]

/-- Following links keeps the key. It offers what its lender offers, or what it offered if it has
none. -/
theorem keyedBy_of_linkedTable (h : r.linkedTable t = .ok t') (hkey : t.KeyedBy key) :
    ∃ key', t'.KeyedBy key' ∧ key'.outboundLink? = key.outboundLink? ∧
      key'.supports Builtin.eq = ((r.lender? t key).getD key).supports Builtin.eq := by
  obtain ⟨heq, hcolumns⟩ := eq_of_linkedTable h
  have hfilters : List.Forall₂ (fun c c' => r.linkedColumn t c = .ok c')
      (t.columns.filter Column.isKey) (t'.columns.filter Column.isKey) := by
    refine List.rel_filter (fun c c' hc => ?_) hcolumns
    rw [(eq_of_linkedColumn hc).1]
  rw [hkey.filter_isKey] at hfilters
  obtain ⟨key', rest, hlinked, hrest, hfilter⟩ := List.forall₂_cons_left_iff.mp hfilters
  cases hrest
  obtain ⟨hsame, -⟩ := eq_of_linkedColumn hlinked
  refine ⟨key', ⟨hfilter, ?_, ?_⟩, ?_, ?_⟩
  · obtain ⟨found, hfound, hlinked'⟩ := exists_column?_of_linkedTable h hkey.keyColumn?_eq
    have hname : t'.key = t.key := by rw [heq]
    rw [Table.keyColumn?, hname, hfound]
    exact congrArg some (Except.ok.inj (hlinked'.symm.trans hlinked))
  · rw [hsame]
    exact hkey.type_eq
  · rw [hsame]
    rfl
  · unfold Column.supports
    rw [filters_of_linkedColumn hlinked]

/-- Following links keeps the ids of columns. -/
theorem columnIds_of_linkedTable (h : r.linkedTable t = .ok t') : t'.columnIds = t.columnIds :=
  (forall₂_map_eq (eq_of_linkedTable h).2 fun c c' hc => by
    rw [(eq_of_linkedColumn hc).1]).symm

/-! ## Steps -/

inductive Step where
  | register (t : Table)
  | validateLinks

/-- The registry after a step. It stays as it is if the step fails. -/
def step (r : Registry) : Step → Registry
  | .register t => (r.register t).toOption.getD r
  | .validateLinks => r.validateLinks.toOption.getD r

def setUp (steps : List Step) : Registry :=
  steps.foldl step empty

theorem registered_setUp (steps : List Step) : (setUp steps).Registered := by
  have hrun (r : Registry) (hr : r.Registered) : (steps.foldl Registry.step r).Registered := by
    induction steps generalizing r with
    | nil => exact hr
    | cons s steps ih =>
      apply ih
      cases s with
      | register t =>
        cases h : r.register t with
        | error => simpa [Registry.step, h, Except.toOption] using hr
        | ok r' => simpa [Registry.step, h, Except.toOption] using hr.register h
      | validateLinks =>
        cases h : r.validateLinks with
        | error => simpa [Registry.step, h, Except.toOption] using hr
        | ok r' => simpa [Registry.step, h, Except.toOption] using hr.validateLinks h
  exact hrun empty .empty

theorem exists_of_mem_tables (h : r.validateLinks = .ok r') (ht' : t' ∈ r'.tables) :
    ∃ t ∈ r.tables, r.linkedTable t = .ok t' := by
  obtain ⟨t, ht, hlinked⟩ := forall₂_exists_left (tables_of_validateLinks h) ht'
  exact ⟨t, (list_perm r).subset ht, hlinked⟩

section Tables

variable {p : Table → Prop}
  (hlinked : ∀ {r : Registry} {t t' : Table}, r.linkedTable t = .ok t' → p t → p t')

include hlinked

theorem forall_mem_step (hr : ∀ t ∈ r.tables, p t) {s : Step}
    (hs : ∀ t, s = .register t → p t) : ∀ t ∈ (r.step s).tables, p t := by
  cases s with
  | register t =>
    cases h : r.register t with
    | error => simpa [Registry.step, h, Except.toOption] using hr
    | ok r' =>
      have htables : r'.tables = r.tables ++ [t] := by
        unfold Registry.register at h
        split at h
        · cases h
        split at h
        · cases h
        cases h
        rfl
      simpa [Registry.step, h, Except.toOption, htables, or_imp, forall_and] using
        ⟨hr, hs t rfl⟩
  | validateLinks =>
    cases h : r.validateLinks with
    | error => simpa [Registry.step, h, Except.toOption] using hr
    | ok r' =>
      simp only [Registry.step, h, Except.toOption, Option.getD_some]
      intro t' ht'
      obtain ⟨t, ht, hstep⟩ := exists_of_mem_tables h ht'
      exact hlinked hstep (hr t ht)

theorem forall_mem_foldl_step {steps : List Step} (hr : ∀ t ∈ r.tables, p t)
    (h : ∀ t, .register t ∈ steps → p t) : ∀ t ∈ (steps.foldl Registry.step r).tables, p t := by
  induction steps generalizing r with
  | nil => exact hr
  | cons s steps ih =>
    apply ih
    · apply forall_mem_step hlinked hr
      rintro t rfl
      exact h t List.mem_cons_self
    · intro t ht
      exact h t (List.mem_cons_of_mem _ ht)

theorem forall_mem_setUp {steps : List Step} (h : ∀ t, .register t ∈ steps → p t) :
    ∀ t ∈ (setUp steps).tables, p t :=
  forall_mem_foldl_step hlinked (by simp [empty]) h

end Tables

/-- Every table has a key. It can be searched by one value unless it is linked itself. -/
def Keyed (r : Registry) : Prop :=
  ∀ t ∈ r.tables, ∃ key, t.KeyedBy key ∧
    (key.supports Builtin.eq = true ∨ key.isOutbound = true)

/-- Following links keeps the key of a table, and what it offers if it is stored. -/
theorem exists_keyedBy_of_linkedTable (h : r.linkedTable t = .ok t')
    (ht : ∃ key, t.KeyedBy key ∧ (key.supports Builtin.eq = true ∨ key.isOutbound = true)) :
    ∃ key, t'.KeyedBy key ∧ (key.supports Builtin.eq = true ∨ key.isOutbound = true) := by
  obtain ⟨key, hkey, hor⟩ := ht
  obtain ⟨key', hkey', hlink, hsupports⟩ := keyedBy_of_linkedTable h hkey
  refine ⟨key', hkey', ?_⟩
  have hout : key'.isOutbound = key.isOutbound := by
    rw [Column.isOutbound, hlink, Column.isOutbound]
  rw [hout]
  by_cases hlinked : key.isOutbound = true
  · exact .inr hlinked
  · -- A key that is stored has no lender, so it keeps what it offers.
    have hnone : key.outboundLink? = none := by simpa [Column.isOutbound] using hlinked
    have hlender : r.lender? t key = none := by simp [lender?, hnone]
    rw [hsupports, hlender]
    exact .inl (hor.resolve_right hlinked)

theorem keyed_of_setUp {steps : List Step} (h : ∀ t, .register t ∈ steps → t.Compiled) :
    (setUp steps).Keyed := by
  refine forall_mem_setUp exists_keyedBy_of_linkedTable fun t ht => ?_
  obtain ⟨key, hkey, heq⟩ := (h t ht).keyedBy
  exact ⟨key, hkey, .inl heq⟩

/-- The columns of every table have different ids. -/
theorem nodup_columnIds_of_setUp {steps : List Step}
    (h : ∀ t, .register t ∈ steps → t.Compiled) :
    ∀ t ∈ (setUp steps).tables, t.columnIds.Nodup := by
  refine forall_mem_setUp (fun {r t t'} hstep ht => ?_) fun t ht => (h t ht).nodup_columnIds
  rw [columnIds_of_linkedTable hstep]
  exact ht

/-- Whatever the steps were in which tables made of descriptions were registered and links were
followed, every table has exactly one column marked as key, which is named as key and holds texts.
It can be searched by one value unless it is linked. Following links once more, a key can be
searched by one value afterwards exactly if its lender can, or it could before and has none. -/
theorem keyed_setUp {steps : List Step} (h : ∀ t, .register t ∈ steps → t.Compiled) :
    (∀ t ∈ (setUp steps).tables, ∃ key, t.KeyedBy key ∧
      (key.supports Builtin.eq = true ∨ key.isOutbound = true)) ∧
    ∀ r', (setUp steps).validateLinks = .ok r' → ∀ t' ∈ r'.tables,
      ∃ t ∈ (setUp steps).tables, t.id = t'.id ∧ ∃ key key', t.KeyedBy key ∧ t'.KeyedBy key' ∧
        key'.supports Builtin.eq =
          (((setUp steps).lender? t key).getD key).supports Builtin.eq := by
  have hkeyed := keyed_of_setUp h
  refine ⟨hkeyed, ?_⟩
  intro r' hr' t' ht'
  obtain ⟨t, ht, hlinked⟩ := exists_of_mem_tables hr' ht'
  obtain ⟨key, hkey, -⟩ := hkeyed t ht
  obtain ⟨key', hkey', -, hsupports⟩ := keyedBy_of_linkedTable hlinked hkey
  exact ⟨t, ht, (id_of_linkedTable hlinked).symm, key, key', hkey, hkey', hsupports⟩

end Registry

/-! ## Bills that are named after their customers -/

namespace Billing

open Sample (vocabulary)

/-- Customers are found by their number and by parts of their names. -/
def customerSpec : TableSpec :=
  ⟨"Customer", "Customer", "",
    [{ (default : FieldSpec) with
        id := "No", kind := .string, key := true, filters := some "EQ" },
      { (default : FieldSpec) with id := "Name", kind := .string, filters := some "CTN" }]⟩

/-- The key of a bill is the name of its customer. -/
def billSpec : TableSpec :=
  ⟨"Bill", "Bill", "",
    [{ (default : FieldSpec) with
        id := "Title", kind := .string, key := true, filters := some "EQ"
        link := some "Customer(Payer,No,Name)" },
      { (default : FieldSpec) with id := "Payer", kind := .string, filters := some "IN" }]⟩

def column (id : String) (isKey : Bool) (op : Operator) (link : Option Link) : Column :=
  { (default : Column) with
    id, name := id, kind := .string, type := .string, filters := [op], link, isKey, width := 1
    storageName := id }

def customers : Table :=
  ⟨"Customer", "Customer", "", [column "No" true ⟨Builtin.eq, "equal", .single⟩ none,
    column "Name" false ⟨Builtin.contains, "contains", .single⟩ none], "No", [], none, none⟩

def bills : Table :=
  ⟨"Bill", "Bill", "",
    [column "Title" true ⟨Builtin.eq, "equal", .single⟩ (some ⟨"Customer", "Payer", "No", "Name"⟩),
      column "Payer" false ⟨Builtin.isIn, "in", .multiple⟩ none], "Title", [], none, none⟩

theorem compileFields_eq :
    (TableSpec.compileFields vocabulary customerSpec.id []
        (customerSpec.fields.filter fun f => !f.hidden)).toOption = some customers.columns ∧
      (TableSpec.compileFields vocabulary billSpec.id []
        (billSpec.fields.filter fun f => !f.hidden)).toOption = some bills.columns := by
  decide +kernel

theorem compiled_customers : customers.Compiled := by
  have hfields := Except.toOption_eq_some_iff.mp compileFields_eq.1
  exact ⟨customerSpec, vocabulary, TableSpec.compile_eq_ok_iff.mpr ⟨_, _, hfields, rfl, rfl, rfl⟩⟩

theorem compiled_bills : bills.Compiled := by
  have hfields := Except.toOption_eq_some_iff.mp compileFields_eq.2
  exact ⟨billSpec, vocabulary, TableSpec.compile_eq_ok_iff.mpr ⟨_, _, hfields, rfl, rfl, rfl⟩⟩

def steps : List Registry.Step :=
  [.register bills, .register customers, .validateLinks]

theorem compiled_of_mem_steps {t : Table} (h : .register t ∈ steps) : t.Compiled := by
  simp only [steps, List.mem_cons, Registry.Step.register.injEq, reduceCtorEq, List.not_mem_nil,
    or_false] at h
  rcases h with rfl | rfl
  · exact compiled_bills
  · exact compiled_customers

/-- The bills after links were followed: their key offers what the names of customers offer. -/
def linkedBills : Table :=
  { bills with
    columns := [column "Title" true ⟨Builtin.contains, "contains", .single⟩
        (some ⟨"Customer", "Payer", "No", "Name"⟩),
      column "Payer" false ⟨Builtin.isIn, "in", .multiple⟩ none] }

theorem setUp_steps : Registry.setUp steps = ⟨[linkedBills, customers]⟩ := by
  have hfirst : Registry.empty.step (.register bills) = ⟨[bills]⟩ := rfl
  have hsecond : (⟨[bills]⟩ : Registry).step (.register customers) = ⟨[bills, customers]⟩ := rfl
  have hlinked : (⟨[bills, customers]⟩ : Registry).validateLinks =
      .ok ⟨[linkedBills, customers]⟩ := by
    cbv
  rw [Registry.setUp, steps, List.foldl_cons, List.foldl_cons, List.foldl_cons, List.foldl_nil,
    hfirst, hsecond, Registry.step, hlinked]
  rfl

/-- Bills and customers keep their keys. -/
theorem keys_kept : (∀ t, .register t ∈ steps → t.Compiled) ∧
    (∀ t ∈ [linkedBills, customers], ∃ key, t.KeyedBy key ∧
      (key.supports Builtin.eq = true ∨ key.isOutbound = true)) ∧
    ∀ r', (Registry.setUp steps).validateLinks = .ok r' → ∀ t' ∈ r'.tables,
      ∃ t ∈ (Registry.setUp steps).tables, t.id = t'.id ∧ ∃ key key', t.KeyedBy key ∧
        t'.KeyedBy key' ∧ key'.supports Builtin.eq =
          (((Registry.setUp steps).lender? t key).getD key).supports Builtin.eq := by
  have hcompiled : ∀ t, .register t ∈ steps → t.Compiled := fun t => compiled_of_mem_steps
  obtain ⟨hkeys, hlent⟩ := Registry.keyed_setUp hcompiled
  rw [setUp_steps] at hkeys
  exact ⟨hcompiled, hkeys, hlent⟩

/-- The key of bills can be searched by one value when they are registered, and no longer after
links were followed. -/
theorem linked_key_loses_eq : (∀ t, .register t ∈ steps → t.Compiled) ∧
    (∃ key, bills.keyColumn? = some key ∧ key.supports Builtin.eq = true) ∧
    ∃ t key, (Registry.setUp steps).table? "Bill" = some t ∧ t.keyColumn? = some key ∧
      key.isKey = true ∧ key.supports Builtin.eq = false := by
  refine ⟨fun t => compiled_of_mem_steps, ⟨_, rfl, by decide⟩, linkedBills, _, ?_, rfl, rfl, ?_⟩
  · rw [setUp_steps]
    rfl
  · decide

end Billing

end TableQuery
