import TableQuery.Proofs.Registry.Settled
import TableQuery.Proofs.Schema.Indexed

/-!
# Links followed in place

Links are followed in a registry that is changed on the way. Table by table and column by column it
is noted which operators are taken over, and nothing is written before the last link was looked at.
So a link that leads nowhere leaves the registry as it was, whatever was noted until then. If every
link can be followed, then the noted operators are written, and nothing else changes.

## Main definitions

* `Registry.Change` — calls that change a registry and may fail.
* `Registry.takeovers`, `Registry.relinked`, `Registry.store` — noting what is taken over, and
  writing it.
* `Registry.relink` — all links followed in place.
* `Registry.Followable`, `Registry.lentTable` — links that can be followed, and what becomes of
  their tables.
* `Registry.Distinct` — registries whose tables, and whose columns in a table, have different ids.

## Main results

* `Registry.validateLinks_eq_ok_iff`, `Registry.validateLinks_eq_error_iff` — when links can be
  followed, and what follows them.
* `Registry.relinked_run` — noting changes nothing.
* `Registry.takeOver_eq`, `Registry.store_run` — writing what was noted.
* `Registry.relink_run` — following links in place is following them, or changes nothing.
-/

namespace TableQuery

namespace Registry

variable {r r' : Registry} {t t' : Table} {c c' : Column} {l : Link}

/-! ## Links that can be followed -/

/-- A link that leads to columns that are there, and the column searched in can be searched. -/
def Followable (r : Registry) (t : Table) (l : Link) : Prop :=
  ∃ here remote search value, r.Leads t l here remote search value ∧
    (search.supports Builtin.eq || search.supports Builtin.isIn) = true

def AllFollowable (r : Registry) : Prop :=
  ∀ t ∈ r.tables, ∀ c ∈ t.columns, ∀ l, c.outboundLink? = some l → r.Followable t l

def lentColumn (r : Registry) (t : Table) (c : Column) : Column :=
  match r.lender? t c with
  | some value => { c with filters := value.filters }
  | none => c

def lentTable (r : Registry) (t : Table) : Table :=
  { t with columns := t.columns.map (r.lentColumn t) }

@[simp] theorem lentTable_id (r : Registry) (t : Table) : (r.lentTable t).id = t.id := rfl

theorem lentColumn_eq (r : Registry) (t : Table) (c : Column) :
    r.lentColumn t c = { c with filters := ((r.lender? t c).getD c).filters } := by
  unfold lentColumn
  cases r.lender? t c <;> rfl

theorem followable_iff : r.Followable t l ↔ ∃ value, r.followLink t l = .ok value := by
  simp only [followLink_eq_ok_iff, Followable]
  constructor
  · rintro ⟨here, remote, search, value, h⟩
    exact ⟨value, here, remote, search, h⟩
  · rintro ⟨value, here, remote, search, h⟩
    exact ⟨here, remote, search, value, h⟩

theorem linkedColumn_eq_ok_iff : r.linkedColumn t c = .ok c' ↔
    (∀ l, c.outboundLink? = some l → r.Followable t l) ∧ c' = r.lentColumn t c := by
  constructor
  · intro h
    obtain ⟨hsame, hfollow⟩ := eq_of_linkedColumn h
    refine ⟨fun l hl => followable_iff.mpr (hfollow l hl), ?_⟩
    rw [hsame, lentColumn_eq, filters_of_linkedColumn h]
  · rintro ⟨hfollow, rfl⟩
    have hok : ∃ c', r.linkedColumn t c = .ok c' := by
      unfold linkedColumn
      cases hl : c.outboundLink? with
      | none => exact ⟨c, rfl⟩
      | some l =>
        obtain ⟨value, hvalue⟩ := followable_iff.mp (hfollow l hl)
        simp only [hvalue]
        split <;> exact ⟨_, rfl⟩
    obtain ⟨c', hc'⟩ := hok
    rw [hc', (eq_of_linkedColumn hc').1, lentColumn_eq, filters_of_linkedColumn hc']

theorem linkedColumn_eq_error_iff {err : SchemaError} : r.linkedColumn t c = .error err ↔
    ∃ l reason, c.outboundLink? = some l ∧ r.followLink t l = .error reason ∧
      err = .invalidLink t.id c.id l.display reason := by
  unfold linkedColumn
  cases c.outboundLink? with
  | none => simp
  | some l =>
    cases hfollow : r.followLink t l with
    | error reason => simp [hfollow, eq_comm]
    | ok value =>
      simp only [Option.some.injEq]
      grind

/-- The table of followed links has the operators that were lent to its columns. -/
theorem linkedTable_eq_ok_iff : r.linkedTable t = .ok t' ↔
    (∀ c ∈ t.columns, ∀ l, c.outboundLink? = some l → r.Followable t l) ∧ t' = r.lentTable t := by
  constructor
  · intro h
    obtain ⟨hsame, hcolumns⟩ := eq_of_linkedTable h
    simp only [linkedColumn_eq_ok_iff] at hcolumns
    refine ⟨fun c hc => ?_, ?_⟩
    · obtain ⟨c', -, hfollow, -⟩ := forall₂_exists_right hcolumns hc
      exact hfollow
    · have hmap := forall₂_map_eq (f := r.lentColumn t) (g := id) hcolumns fun c c' h => h.2.symm
      rw [hsame, lentTable, hmap, List.map_id]
  · rintro ⟨hfollow, rfl⟩
    have hcolumns : r.linkedColumns t t.columns = .ok (t.columns.map (r.lentColumn t)) := by
      rw [linkedColumns_eq_ok_iff, List.forall₂_map_right_iff, List.forall₂_same]
      intro c hc
      exact linkedColumn_eq_ok_iff.mpr ⟨hfollow c hc, rfl⟩
    rw [linkedTable, hcolumns]
    rfl

/-- Links are followed exactly if all of them can be. -/
theorem validateLinks_eq_ok_iff :
    r.validateLinks = .ok r' ↔ r.AllFollowable ∧ r' = ⟨r.list.map r.lentTable⟩ := by
  have hmem (t : Table) : t ∈ r.list ↔ t ∈ r.tables := (list_perm r).mem_iff
  constructor
  · intro h
    have htables := tables_of_validateLinks h
    simp only [linkedTable_eq_ok_iff] at htables
    refine ⟨fun t ht => ?_, ?_⟩
    · obtain ⟨t', -, hfollow, -⟩ := forall₂_exists_right htables ((hmem t).mpr ht)
      exact hfollow
    · have hmap := forall₂_map_eq (f := r.lentTable) (g := id) htables fun t t' h => h.2.symm
      rw [hmap, List.map_id]
  · rintro ⟨hfollow, rfl⟩
    have htables : r.linkedTables r.list = .ok (r.list.map r.lentTable) := by
      rw [linkedTables_eq_ok_iff, List.forall₂_map_right_iff, List.forall₂_same]
      intro t ht
      exact linkedTable_eq_ok_iff.mpr ⟨hfollow t ((hmem t).mp ht), rfl⟩
    rw [validateLinks, htables]
    rfl

theorem linkedTable_eq_error_iff {err : SchemaError} :
    r.linkedTable t = .error err ↔ FirstFailure (r.linkedColumn t) t.columns err := by
  rw [linkedTable, linkedColumns_eq_mapM, ← Except.mapM_eq_error_iff, Except.bind_eq_error_iff]
  simp

/-- The error is that of the first link that cannot be followed, table by table in the order of
their ids, and column by column. -/
theorem validateLinks_eq_error_iff {err : SchemaError} :
    r.validateLinks = .error err ↔ FirstFailure r.linkedTable r.list err := by
  rw [validateLinks, linkedTables_eq_mapM, ← Except.mapM_eq_error_iff, Except.bind_eq_error_iff]
  simp

/-- A registry that cannot follow all links names one of them that it cannot follow. -/
theorem exists_of_validateLinks_eq_error {err : SchemaError} (h : r.validateLinks = .error err) :
    ∃ t ∈ r.tables, ∃ c ∈ t.columns, ∃ l reason, c.outboundLink? = some l ∧
      ¬r.Followable t l ∧ r.followLink t l = .error reason ∧
      err = .invalidLink t.id c.id l.display reason := by
  obtain ⟨before, t, after, hlist, -, ht⟩ := validateLinks_eq_error_iff.mp h
  obtain ⟨first, c, rest, hcolumns, -, hc⟩ := linkedTable_eq_error_iff.mp ht
  obtain ⟨l, reason, hl, hreason, herr⟩ := linkedColumn_eq_error_iff.mp hc
  refine ⟨t, (list_perm r).subset (by simp [hlist]), c, by simp [hcolumns], l, reason, hl, ?_,
    hreason, herr⟩
  rw [followable_iff]
  rintro ⟨value, hvalue⟩
  rw [hreason] at hvalue
  cases hvalue

/-! ## Calls that change a registry -/

/-- A call that changes a registry. Where it fails, the registry stays as it was changed until
then. -/
abbrev Change := EStateM SchemaError Registry

def kept {α : Type} (x : Except SchemaError α) (r : Registry) :
    EStateM.Result SchemaError Registry α :=
  match x with
  | .ok a => .ok a r
  | .error err => .error err r

def setFilters (t : Table) (id : String) (filters : List Operator) : Table :=
  match t.position? id with
  | some place => { t with columns := t.columns.modify place fun c => { c with filters } }
  | none => t

def takeOver (t : Table) (taken : List (String × List Operator)) : Table :=
  taken.foldl (fun t p => setFilters t p.1 p.2) t

def put (r : Registry) (t : Table) : Registry :=
  if (r.table? t.id).isSome then ⟨r.tables.map fun u => if u.id = t.id then t else u⟩
  else ⟨r.tables ++ [t]⟩

/-- The operators that a column takes over, if its local column is searched by lists of values. -/
def takeover (t : Table) (c : Column) : Change (Option (String × List Operator)) := do
  match c.outboundLink? with
  | none => return none
  | some l =>
    match (← get).followLink t l with
    | .error reason => throw (.invalidLink t.id c.id l.display reason)
    | .ok value =>
      if ((t.column? l.localColumn).map fun k => k.supports Builtin.isIn).getD false then
        return some (c.id, value.filters)
      else return none

def takeovers (t : Table) : List Column → Change (List (String × List Operator))
  | [] => return []
  | c :: cs => do
    let first ← takeover t c
    let rest ← takeovers t cs
    return first.toList ++ rest

/-- The tables of these ids that take over operators, as they are to become. -/
def relinked : List String → Change (List Table)
  | [] => return []
  | id :: ids => do
    match (← get).table? id with
    | none => relinked ids
    | some t =>
      let taken ← takeovers t t.columns
      let rest ← relinked ids
      return if taken.isEmpty then rest else takeOver t taken :: rest

def store : List Table → Change Unit
  | [] => return
  | t :: ts => do
    modify fun r => r.put t
    store ts

/-- All links followed, in the order of the ids of tables, and then the tables written that take
over operators. -/
def relink : Change Unit := do
  store (← relinked ((← get).list.map Table.id))

/-! ## Noting what is taken over -/

theorem run_pure {α : Type} (a : α) : (pure a : Change α).run r = kept (.ok a) r := rfl

theorem run_get_bind {α : Type} (next : Registry → Change α) :
    (get >>= next).run r = (next r).run r := rfl

/-- A call that leaves the registry as it is, before another that leaves it as it is. -/
theorem run_bind_kept {α β : Type} {x : Change α} {next : α → Change β} {a : Except SchemaError α}
    {f : α → Except SchemaError β} (hx : x.run r = kept a r)
    (hnext : ∀ b, (next b).run r = kept (f b) r) : (x >>= next).run r = kept (a >>= f) r := by
  change EStateM.bind x next r = _
  unfold EStateM.bind
  rw [show x r = kept a r from hx]
  cases a with
  | error err => rfl
  | ok b => exact hnext b

def taken? (r : Registry) (t : Table) (c : Column) : Option (String × List Operator) :=
  (r.lender? t c).map fun value => (c.id, value.filters)

/-- Looking at a column changes nothing, and notes what it takes over. -/
theorem takeover_run : (takeover t c).run r =
    kept ((r.linkedColumn t c).map fun _ => r.taken? t c) r := by
  unfold takeover linkedColumn
  cases hl : c.outboundLink? with
  | none =>
    have hnone : r.taken? t c = none := by simp [taken?, lender?, hl]
    rw [hnone]
    rfl
  | some l =>
    rw [run_get_bind]
    cases hfollow : r.followLink t l with
    | error reason =>
      simp only [hfollow]
      rfl
    | ok value =>
      obtain ⟨here, remote, search, hleads, -⟩ := leads_of_followLink hfollow
      simp only [hfollow, hleads.here_eq, Option.map_some, Option.getD_some, taken?,
        hleads.lender?_eq hl]
      split <;> rfl

/-- Looking at columns changes nothing, and notes what they take over. -/
theorem takeovers_run {cs : List Column} : (takeovers t cs).run r =
    kept ((r.linkedColumns t cs).map fun _ => cs.filterMap (r.taken? t)) r := by
  induction cs with
  | nil => rfl
  | cons c cs ih =>
    unfold takeovers linkedColumns
    rw [run_bind_kept takeover_run fun first => run_bind_kept ih fun rest => run_pure _,
      List.filterMap_cons]
    cases r.linkedColumn t c with
    | error err => rfl
    | ok c' =>
      cases r.linkedColumns t cs with
      | error err => rfl
      | ok cs' => cases r.taken? t c <;> rfl

/-! ## Writing what was noted -/

theorem setFilters_eq {before after : List Column} {filters : List Operator}
    (hnew : c.id ∉ before.map Column.id) :
    setFilters { t with columns := before ++ c :: after } c.id filters =
      { t with columns := before ++ { c with filters } :: after } := by
  have hposition : Table.position? { t with columns := before ++ c :: after } c.id =
      some before.length := by
    have hnone : before.findIdx? (fun d => d.id == c.id) = none := by
      rw [List.findIdx?_eq_none_iff]
      grind
    simp [Table.position?, List.findIdx?_append, hnone, List.findIdx?_cons]
  unfold setFilters
  rw [hposition]
  simp [List.modify_eq_take_cons_drop]

/-- What the columns behind others take over is written one by one, where ids are different. -/
theorem takeOver_append (before after : List Column)
    (hn : ((before ++ after).map Column.id).Nodup) :
    takeOver { t with columns := before ++ after } (after.filterMap (r.taken? t)) =
      { t with columns := before ++ after.map (r.lentColumn t) } := by
  induction after generalizing before with
  | nil => rfl
  | cons c after ih =>
    cases hlender : r.lender? t c with
    | none =>
      have hcolumn : r.lentColumn t c = c := by rw [lentColumn, hlender]
      have htaken : r.taken? t c = none := by rw [taken?, hlender, Option.map_none]
      have hrest := ih (before ++ [c]) (by simpa using hn)
      rw [List.filterMap_cons_none htaken, List.map_cons, hcolumn]
      simpa using hrest
    | some value =>
      have hcolumn : r.lentColumn t c = { c with filters := value.filters } := by
        rw [lentColumn, hlender]
      have htaken : r.taken? t c = some (c.id, value.filters) := by
        rw [taken?, hlender, Option.map_some]
      have hnew : c.id ∉ before.map Column.id := by
        rw [List.map_append, List.map_cons, List.nodup_append] at hn
        grind
      have hrest := ih (before ++ [{ c with filters := value.filters }]) (by simpa using hn)
      rw [List.filterMap_cons_some htaken, List.map_cons, hcolumn]
      unfold takeOver at hrest ⊢
      rw [List.foldl_cons, setFilters_eq hnew]
      simpa using hrest

theorem takeOver_eq (hn : t.columnIds.Nodup) :
    takeOver t (t.columns.filterMap (r.taken? t)) = r.lentTable t :=
  takeOver_append [] t.columns hn

def borrows (r : Registry) (t : Table) : Bool :=
  t.columns.any fun c => (r.lender? t c).isSome

theorem isEmpty_taken (r : Registry) (t : Table) :
    (t.columns.filterMap (r.taken? t)).isEmpty = !r.borrows t := by
  rw [Bool.eq_iff_iff, List.isEmpty_iff, List.filterMap_eq_nil_iff, Bool.not_eq_true', borrows,
    List.any_eq_false]
  simp [taken?]

theorem lentTable_eq_self (h : r.borrows t = false) : r.lentTable t = t := by
  have hsame : ∀ c ∈ t.columns, r.lentColumn t c = id c := by
    intro c hc
    have hnone : r.lender? t c = none := by simpa using List.any_eq_false.mp h c hc
    rw [lentColumn, hnone, id]
  rw [lentTable, List.map_congr_left hsame, List.map_id]

/-- Tables with different ids, whose columns have different ids. -/
structure Distinct (r : Registry) : Prop where
  ids : (r.tables.map Table.id).Nodup
  columnIds : ∀ t ∈ r.tables, t.columnIds.Nodup

theorem relinked_run {ts : List Table} (hr : r.Distinct) (hts : ∀ t ∈ ts, t ∈ r.tables) :
    (relinked (ts.map Table.id)).run r =
      kept ((r.linkedTables ts).map fun _ => (ts.filter r.borrows).map r.lentTable) r := by
  induction ts with
  | nil => rfl
  | cons t ts ih =>
    rw [List.forall_mem_cons] at hts
    have htable : r.table? t.id = some t := (find?_key_eq_some_iff hr.ids).mpr ⟨hts.1, rfl⟩
    rw [List.map_cons, relinked, run_get_bind]
    simp only [htable]
    rw [run_bind_kept takeovers_run fun taken => run_bind_kept (ih hts.2) fun rest => run_pure _]
    rw [linkedTables, linkedTable]
    cases r.linkedColumns t t.columns with
    | error err => rfl
    | ok columns =>
      cases r.linkedTables ts with
      | error err => rfl
      | ok rest =>
        simp only [Except.map, Except.ok_bind, Except.pure_eq_ok, isEmpty_taken,
          takeOver_eq (hr.columnIds t hts.1)]
        cases h : r.borrows t <;> simp [h]

theorem isSome_table?_iff {id : String} :
    (r.table? id).isSome = true ↔ id ∈ r.tables.map Table.id := by
  simp [table?]

theorem store_run {us : List Table} (hn : (us.map Table.id).Nodup)
    (hus : ∀ u ∈ us, u.id ∈ r.tables.map Table.id) : (store us).run r =
      .ok () ⟨r.tables.map fun t => (us.find? fun u => u.id == t.id).getD t⟩ := by
  induction us generalizing r with
  | nil => simp [store]
  | cons u us ih =>
    rw [List.map_cons, List.nodup_cons] at hn
    rw [List.forall_mem_cons] at hus
    have hput : r.put u = ⟨r.tables.map fun t => if t.id = u.id then u else t⟩ := by
      rw [put, if_pos (isSome_table?_iff.mpr hus.1)]
    have hids : (r.put u).tables.map Table.id = r.tables.map Table.id := by
      rw [hput, List.map_map]
      refine List.map_congr_left fun t _ => ?_
      rw [Function.comp_apply]
      split
      · next hid => exact hid.symm
      · rfl
    have hrest := ih (r := r.put u) hn.2 (by rw [hids]; exact hus.2)
    have hstore : (store (u :: us)).run r = (store us).run (r.put u) := rfl
    have htables : (r.put u).tables.map (fun t => (us.find? fun w => w.id == t.id).getD t) =
        r.tables.map fun t => ((u :: us).find? fun w => w.id == t.id).getD t := by
      rw [hput, List.map_map]
      refine List.map_congr_left fun t _ => ?_
      rw [Function.comp_apply, List.find?_cons]
      by_cases hid : t.id = u.id
      · -- What was written is not written again.
        have hnone : us.find? (fun w => w.id == u.id) = none := by
          rw [List.find?_eq_none]
          intro w hw heq
          exact hn.1 (List.mem_map.mpr ⟨w, hw, by simpa using heq⟩)
        simp [hid, hnone]
      · have hother : (u.id == t.id) = false := by simpa using Ne.symm hid
        simp [hid, hother]
    rw [hstore, hrest, htables]

theorem map_id_lentTable (r : Registry) (ts : List Table) :
    (ts.map r.lentTable).map Table.id = ts.map Table.id := by
  rw [List.map_map]
  rfl

theorem nodup_list (hr : r.Distinct) : (r.list.map Table.id).Nodup :=
  ((list_perm r).map Table.id).nodup_iff.mpr hr.ids

/-- Every table is written as it is to become, or it takes over nothing and stays as it is. -/
theorem getD_find?_lentTable (hr : r.Distinct) (ht : t ∈ r.tables) :
    (((r.list.filter r.borrows).map r.lentTable).find? fun u => u.id == t.id).getD t =
      r.lentTable t := by
  have hlist : t ∈ r.list := (list_perm r).mem_iff.mpr ht
  by_cases hborrows : r.borrows t = true
  · have hnodup : (((r.list.filter r.borrows).map r.lentTable).map Table.id).Nodup := by
      rw [map_id_lentTable]
      exact (nodup_list hr).sublist (List.filter_sublist.map Table.id)
    have hwritten : r.lentTable t ∈ (r.list.filter r.borrows).map r.lentTable :=
      List.mem_map_of_mem (List.mem_filter.mpr ⟨hlist, hborrows⟩)
    have hfound : ((r.list.filter r.borrows).map r.lentTable).find? (fun u => u.id == t.id) =
        some (r.lentTable t) := (find?_key_eq_some_iff hnodup).mpr ⟨hwritten, rfl⟩
    rw [hfound, Option.getD_some]
  · have hmissing : ((r.list.filter r.borrows).map r.lentTable).find?
        (fun u => u.id == t.id) = none := by
      rw [List.find?_eq_none]
      intro u hu heq
      obtain ⟨w, hw, rfl⟩ := List.mem_map.mp hu
      obtain ⟨hwlist, hwborrows⟩ := List.mem_filter.mp hw
      have hid : w.id = t.id := by simpa using heq
      exact hborrows (List.inj_on_of_nodup_map (nodup_list hr) hwlist hlist hid ▸ hwborrows)
    rw [hmissing, Option.getD_none, lentTable_eq_self (by simpa using hborrows)]

/-- Following links in place fails with the same error and changes nothing, or the tables have the
operators afterwards that were lent to them. -/
theorem relink_run (hr : r.Distinct) : relink.run r =
    match r.validateLinks with
    | .ok _ => .ok () ⟨r.tables.map r.lentTable⟩
    | .error err => .error err r := by
  have hmem (t : Table) (ht : t ∈ r.list) : t ∈ r.tables := (list_perm r).subset ht
  have hrelinked : relinked (r.list.map Table.id) r = _ := relinked_run hr hmem
  unfold relink
  rw [run_get_bind]
  change EStateM.bind _ store r = _
  rw [EStateM.bind, hrelinked, validateLinks]
  cases r.linkedTables r.list with
  | error err => rfl
  | ok ts =>
    have hstore : (store ((r.list.filter r.borrows).map r.lentTable)).run r = _ := store_run
      (by
        rw [map_id_lentTable]
        exact (nodup_list hr).sublist (List.filter_sublist.map Table.id))
      (by
        intro u hu
        obtain ⟨t, ht, rfl⟩ := List.mem_map.mp hu
        exact List.mem_map.mpr ⟨t, hmem t (List.mem_of_mem_filter ht), rfl⟩)
    rw [List.map_congr_left fun t ht => getD_find?_lentTable hr ht] at hstore
    exact hstore

end Registry

end TableQuery
