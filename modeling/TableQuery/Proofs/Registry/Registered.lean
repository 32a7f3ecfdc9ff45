import TableQuery.Proofs.Lists
import TableQuery.Proofs.Run
import TableQuery.Registry.Links

/-!
# Registered tables

Tables are registered one after the other, and their links are followed in between. The ids of
registered tables are different. After links were followed every link leads to columns that are
there.

## Main definitions

* `Registry.Registered` — the registries that these operations lead to.
* `Registry.Linked` — every link leads to columns that are there.

## Main results

* `Registry.Registered.nodup` — the ids of registered tables are different.
* `Registry.table?_of_validateLinks`, `Registry.column?_of_validateLinks` — the tables and columns
  after links were followed.
* `Registry.linked_of_validateLinks` — then every link leads somewhere.
-/

namespace TableQuery

/-- A column of the table takes its values through the link. -/
def Table.HasLink (t : Table) (l : Link) : Prop :=
  ∃ column c, t.column? column = some c ∧ c.outboundLink? = some l

namespace Registry

/-- The registries that registering tables and following links lead to. -/
inductive Registered : Registry → Prop where
  | empty : Registered empty
  | register {r r' : Registry} {t : Table} (h : Registered r) (hr : r.register t = .ok r') :
      Registered r'
  | validateLinks {r r' : Registry} (h : Registered r) (hr : r.validateLinks = .ok r') :
      Registered r'

variable {r r' : Registry} {t t' : Table}

theorem linkedColumns_eq_mapM (r : Registry) (t : Table) (cs : List Column) :
    r.linkedColumns t cs = cs.mapM (r.linkedColumn t) := by
  induction cs with
  | nil => rfl
  | cons c cs ih => rw [linkedColumns, List.mapM_cons, ih]

theorem linkedTables_eq_mapM (r : Registry) (ts : List Table) :
    r.linkedTables ts = ts.mapM r.linkedTable := by
  induction ts with
  | nil => rfl
  | cons t ts ih => rw [linkedTables, List.mapM_cons, ih]

theorem linkedColumns_eq_ok_iff {cs cs' : List Column} : r.linkedColumns t cs = .ok cs' ↔
    List.Forall₂ (fun c c' => r.linkedColumn t c = .ok c') cs cs' := by
  rw [linkedColumns_eq_mapM, Except.mapM_eq_ok_iff]

theorem linkedTables_eq_ok_iff {ts ts' : List Table} : r.linkedTables ts = .ok ts' ↔
    List.Forall₂ (fun t t' => r.linkedTable t = .ok t') ts ts' := by
  rw [linkedTables_eq_mapM, Except.mapM_eq_ok_iff]

/-- A column whose link was followed has other operators, and is the same otherwise. -/
theorem eq_of_linkedColumn {c c' : Column} (h : r.linkedColumn t c = .ok c') :
    c' = { c with filters := c'.filters } ∧
      ∀ l, c.outboundLink? = some l → ∃ value, r.followLink t l = .ok value := by
  unfold linkedColumn at h
  split at h
  · next hnone =>
    cases h
    exact ⟨rfl, fun l hl => by simp [hnone] at hl⟩
  · next l hsome =>
    split at h
    · cases h
    · next value hvalue =>
      have hfollow : ∀ l', c.outboundLink? = some l' → ∃ value, r.followLink t l' = .ok value := by
        intro l' hl'
        obtain rfl : l = l' := Option.some.inj (hsome.symm.trans hl')
        exact ⟨value, hvalue⟩
      split at h <;> cases h <;> exact ⟨rfl, hfollow⟩

/-- A table whose links were followed has other columns, and is the same otherwise. -/
theorem eq_of_linkedTable (h : r.linkedTable t = .ok t') :
    t' = { t with columns := t'.columns } ∧
      List.Forall₂ (fun c c' => r.linkedColumn t c = .ok c') t.columns t'.columns := by
  obtain ⟨cs, hcs, h⟩ := Except.bind_eq_ok_iff.mp h
  cases h
  exact ⟨rfl, linkedColumns_eq_ok_iff.mp hcs⟩

theorem id_of_linkedTable (h : r.linkedTable t = .ok t') : t'.id = t.id := by
  rw [(eq_of_linkedTable h).1]

theorem tables_of_validateLinks (h : r.validateLinks = .ok r') :
    List.Forall₂ (fun t t' => r.linkedTable t = .ok t') r.list r'.tables := by
  obtain ⟨ts, hts, h⟩ := Except.bind_eq_ok_iff.mp h
  cases h
  exact linkedTables_eq_ok_iff.mp hts

theorem ids_of_forall₂ {ts ts' : List Table}
    (h : List.Forall₂ (fun t t' => r.linkedTable t = .ok t') ts ts') :
    ts'.map Table.id = ts.map Table.id := by
  induction h with
  | nil => rfl
  | cons ht _ ih => rw [List.map_cons, List.map_cons, ih, id_of_linkedTable ht]

theorem list_perm (r : Registry) : r.list.Perm r.tables :=
  List.mergeSort_perm _ _

/-- Tables of different ids are found among all as among those in order. -/
theorem find?_list (hn : (r.tables.map Table.id).Nodup) (id : String) :
    r.list.find? (fun t => t.id == id) = r.table? id :=
  (find?_key_of_perm (list_perm r).symm hn id).symm

/-- The ids of registered tables are different. -/
theorem Registered.nodup (h : r.Registered) : (r.tables.map Table.id).Nodup := by
  induction h with
  | empty => exact List.nodup_nil
  | @register r r' t _ hr ih =>
    unfold Registry.register at hr
    split at hr
    · cases hr
    · next hnew =>
      split at hr
      · cases hr
      · cases hr
        rw [List.map_append, List.map_singleton]
        refine List.Nodup.append ih (List.nodup_singleton _) ?_
        rw [List.disjoint_singleton]
        intro hmem
        obtain ⟨u, hu, hid⟩ := List.mem_map.mp hmem
        exact hnew (List.find?_isSome.mpr ⟨u, hu, by simpa using hid⟩)
  | @validateLinks r r' _ hr ih =>
    rw [ids_of_forall₂ (tables_of_validateLinks hr)]
    exact ((list_perm r).map Table.id).nodup_iff.mpr ih

/-- The tables after links were followed are those before, with their links followed. -/
theorem table?_of_validateLinks (hn : r.Registered) (h : r.validateLinks = .ok r') {id : String}
    (ht : r'.table? id = some t') : ∃ t, r.table? id = some t ∧ r.linkedTable t = .ok t' := by
  obtain ⟨t, hfound, hlinked⟩ := forall₂_find?_left (p := fun t => t.id == id)
    (tables_of_validateLinks h) (fun t t' h => by rw [id_of_linkedTable h]) ht
  rw [find?_list hn.nodup] at hfound
  exact ⟨t, hfound, hlinked⟩

theorem exists_of_validateLinks (hn : r.Registered) (h : r.validateLinks = .ok r') {id : String}
    (ht : r.table? id = some t) : ∃ t', r'.table? id = some t' ∧ r.linkedTable t = .ok t' := by
  rw [← find?_list hn.nodup] at ht
  exact forall₂_find?_right (tables_of_validateLinks h)
    (fun t t' h => by rw [id_of_linkedTable h]) ht

theorem column?_of_linkedTable (h : r.linkedTable t = .ok t') {id : String} {c' : Column}
    (hc : t'.column? id = some c') :
    ∃ c, t.column? id = some c ∧ r.linkedColumn t c = .ok c' :=
  forall₂_find?_left (eq_of_linkedTable h).2
    (fun c c' h => by rw [(eq_of_linkedColumn h).1]) hc

theorem exists_column?_of_linkedTable (h : r.linkedTable t = .ok t') {id : String} {c : Column}
    (hc : t.column? id = some c) : ∃ c', t'.column? id = some c' ∧ r.linkedColumn t c = .ok c' :=
  forall₂_find?_right (eq_of_linkedTable h).2
    (fun c c' h => by rw [(eq_of_linkedColumn h).1]) hc

theorem column?_of_validateLinks (hn : r.Registered) (h : r.validateLinks = .ok r')
    {table column : String} {c' : Column} (ht' : r'.table? table = some t')
    (hc' : t'.column? column = some c') :
    ∃ t c, r.table? table = some t ∧ t.column? column = some c ∧ r.linkedTable t = .ok t' ∧
      r.linkedColumn t c = .ok c' := by
  obtain ⟨t, ht, hlinked⟩ := table?_of_validateLinks hn h ht'
  obtain ⟨c, hc, hcolumn⟩ := column?_of_linkedTable hlinked hc'
  exact ⟨t, c, ht, hc, hlinked, hcolumn⟩

/-- Where a link leads: to columns of both tables that are there. -/
structure Leads (r : Registry) (t : Table) (l : Link) (here : Column) (remote : Table)
    (search value : Column) : Prop where
  here_eq : t.column? l.localColumn = some here
  remote_eq : r.table? l.table = some remote
  search_eq : remote.column? l.searchColumn = some search
  value_eq : remote.column? l.valueColumn = some value

theorem elim_eq_ok_iff {α : Type} {o : Option α} {reason : String} {a : α} :
    o.elim (throw reason : Except String α) pure = .ok a ↔ o = some a := by
  cases o <;> simp

/-- A link that can be followed leads to columns that are there, and the column searched in offers
one of the operators for lookups. -/
theorem leads_of_followLink {l : Link} {value : Column} (h : r.followLink t l = .ok value) :
    ∃ here remote search, r.Leads t l here remote search value ∧
      (search.supports Builtin.eq || search.supports Builtin.isIn) = true := by
  unfold followLink at h
  split at h
  · cases h
  · next hlocal =>
    simp only [Except.bind_eq_ok_iff, elim_eq_ok_iff] at h
    obtain ⟨remote, hremote, search, hsearch, h⟩ := h
    split at h
    · cases h
    · next hsupports =>
      rw [elim_eq_ok_iff] at h
      have hhas : t.hasColumn l.localColumn = true := by
        simpa using hlocal
      obtain ⟨here, hhere⟩ := Option.isSome_iff_exists.mp hhas
      refine ⟨here, remote, search, ⟨hhere, hremote, hsearch, h⟩, ?_⟩
      cases heq : search.supports Builtin.eq <;> simp_all

/-- A link leads to the same columns after links were followed. -/
theorem Leads.validateLinks (hn : r.Registered) (h : r.validateLinks = .ok r')
    (hlinked : r.linkedTable t = .ok t') {l : Link} {here : Column} {remote : Table}
    {search value : Column} (hleads : r.Leads t l here remote search value) :
    ∃ here' remote' search' value', r'.Leads t' l here' remote' search' value' := by
  obtain ⟨here', hhere, -⟩ := exists_column?_of_linkedTable hlinked hleads.here_eq
  obtain ⟨remote', hremote, hother⟩ := exists_of_validateLinks hn h hleads.remote_eq
  obtain ⟨search', hsearch, -⟩ := exists_column?_of_linkedTable hother hleads.search_eq
  obtain ⟨value', hvalue, -⟩ := exists_column?_of_linkedTable hother hleads.value_eq
  exact ⟨here', remote', search', value', hhere, hremote, hsearch, hvalue⟩

/-- A link that a table has after links were followed was followed then. -/
theorem leads_of_validateLinks (hn : r.Registered) (h : r.validateLinks = .ok r') {id : String}
    (ht : r'.table? id = some t') {l : Link} (hl : t'.HasLink l) :
    ∃ t here remote search value, r.linkedTable t = .ok t' ∧
      r.Leads t l here remote search value ∧
      (search.supports Builtin.eq || search.supports Builtin.isIn) = true := by
  obtain ⟨column, c', hc', hl⟩ := hl
  obtain ⟨t, c, -, -, htable, hcolumn⟩ := column?_of_validateLinks hn h ht hc'
  obtain ⟨heq, hfollow⟩ := eq_of_linkedColumn hcolumn
  rw [heq] at hl
  obtain ⟨value, hvalue⟩ := hfollow l hl
  obtain ⟨here, remote, search, hleads, hsupports⟩ := leads_of_followLink hvalue
  exact ⟨t, here, remote, search, value, htable, hleads, hsupports⟩

/-- Every link of every table leads to columns that are there. -/
def Linked (r : Registry) : Prop :=
  ∀ id t, r.table? id = some t → ∀ l, t.HasLink l → ∃ here remote search value,
    r.Leads t l here remote search value

/-- After links were followed every link leads to columns that are there. -/
theorem linked_of_validateLinks (hn : r.Registered) (h : r.validateLinks = .ok r') :
    r'.Linked := by
  intro id t' ht' l hl
  obtain ⟨t, here, remote, search, value, htable, hleads, -⟩ := leads_of_validateLinks hn h ht' hl
  exact hleads.validateLinks hn h htable

end Registry

end TableQuery
