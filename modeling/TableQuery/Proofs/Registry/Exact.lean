import TableQuery.Proofs.Registry.InPlace

/-!
# What following links changes

Following the links of a registry succeeds exactly if each of them leads to columns that are there,
and the column searched in can be searched. Otherwise the registry is not changed. If it succeeds,
then a linked column whose local column is searched by lists of values has the operators of the
column whose values it takes, as these were before, and nothing else is different.

## Main definitions

* `Registry.OnlyLends` — a table of which nothing changes but operators that are lent to columns.

## Main results

* `Registry.onlyLends_lentTable` — what becomes of a table.
* `Registry.distinct_setUp` — the tables and columns of registries that were set up are found.
* `Registry.validateLinks_exact` — when links can be followed, and what changes then.
-/

namespace TableQuery

namespace Registry

variable {r r' : Registry} {t t' : Table}

/-- A table of which nothing changes but operators: a linked column takes over those of the column
whose values it takes if its local column is searched by lists of values, and no other column
changes. -/
structure OnlyLends (r : Registry) (t t' : Table) : Prop where
  eq : t' = { t with columns := t'.columns }
  length_eq : t'.columns.length = t.columns.length
  columnIds_eq : t'.columnIds = t.columnIds
  position?_eq : ∀ id, t'.position? id = t.position? id
  takes : ∀ (place : Nat) (c : Column) (l : Link) (here : Column) (remote : Table) (value : Column),
    t.columns[place]? = some c → c.outboundLink? = some l →
    t.column? l.localColumn = some here → here.supports Builtin.isIn = true →
    r.table? l.table = some remote → remote.column? l.valueColumn = some value →
    t'.columns[place]? = some { c with filters := value.filters }
  keeps : ∀ (place : Nat) (c : Column), t.columns[place]? = some c →
    (∀ l here, c.outboundLink? = some l → t.column? l.localColumn = some here →
      here.supports Builtin.isIn = false) →
    t'.columns[place]? = some c

theorem columnIds_lentTable (r : Registry) (t : Table) :
    (r.lentTable t).columnIds = t.columnIds := by
  rw [Table.columnIds, lentTable, List.map_map]
  refine List.map_congr_left fun c _ => ?_
  rw [Function.comp_apply, lentColumn_eq]

theorem position?_lentTable (r : Registry) (t : Table) (id : String) :
    (r.lentTable t).position? id = t.position? id := by
  have hsame : ((fun c : Column => c.id == id) ∘ r.lentColumn t) = fun c => c.id == id := by
    funext c
    rw [Function.comp_apply, lentColumn_eq]
  rw [Table.position?, lentTable, List.findIdx?_map, hsame, Table.position?]

/-- Of a table nothing changes but the operators that are lent to its columns. -/
theorem onlyLends_lentTable (r : Registry) (t : Table) : r.OnlyLends t (r.lentTable t) := by
  refine ⟨rfl, List.length_map _, columnIds_lentTable r t, position?_lentTable r t, ?_, ?_⟩
  · intro place c l here remote value hc hl hhere hin hremote hvalue
    have hlender := lender?_eq_some_iff.mpr ⟨l, here, remote, hl, hhere, hin, hremote, hvalue⟩
    rw [lentTable, List.getElem?_map, hc, Option.map_some, lentColumn, hlender]
  · intro place c hc hkept
    have hnone : r.lender? t c = none := by
      cases hlender : r.lender? t c with
      | none => rfl
      | some value =>
        obtain ⟨l, here, -, hl, hhere, hin, -⟩ := lender?_eq_some_iff.mp hlender
        exact absurd hin (Bool.eq_false_iff.mp (hkept l here hl hhere))
    rw [lentTable, List.getElem?_map, hc, Option.map_some, lentColumn, hnone]

/-- Tables are found by the same ids after links were followed. -/
theorem table?_map_lentTable (r : Registry) (ts : List Table) (id : String) :
    (⟨ts.map r.lentTable⟩ : Registry).table? id =
      ((⟨ts⟩ : Registry).table? id).map r.lentTable := by
  rw [table?, List.find?_map]
  rfl

/-- Whatever the steps were in which a registry was set up, its tables have different ids, and so
have the columns of each table. -/
theorem distinct_setUp {steps : List Step} (h : ∀ t, .register t ∈ steps → t.Compiled) :
    (setUp steps).Distinct :=
  ⟨(registered_setUp steps).nodup, nodup_columnIds_of_setUp h⟩

/-- Links are followed exactly if each of them can be. If one cannot, following links in place
names such a link and leaves the registry as it was, even though operators may have been noted for
other columns before. If all can, then every table is found by its id as it was before, but for the
operators that are lent to its columns. -/
theorem validateLinks_exact (hr : r.Distinct) :
    ((∃ r', r.validateLinks = .ok r') ↔ r.AllFollowable) ∧
    (∀ err, r.validateLinks = .error err → relink.run r = .error err r ∧
      ∃ t ∈ r.tables, ∃ c ∈ t.columns, ∃ l reason, c.outboundLink? = some l ∧ ¬r.Followable t l ∧
        err = .invalidLink t.id c.id l.display reason) ∧
    ∀ r', r.validateLinks = .ok r' → ∃ last, relink.run r = .ok () last ∧
      List.Forall₂ r.OnlyLends r.tables last.tables ∧
      (∀ id, last.table? id = (r.table? id).map r.lentTable) ∧
      ∀ id, r'.table? id = last.table? id := by
  have hrun := relink_run hr
  refine ⟨?_, fun err herr => ?_, fun r' hr' => ?_⟩
  · simp only [validateLinks_eq_ok_iff]
    constructor
    · rintro ⟨r', hfollow, -⟩
      exact hfollow
    · intro hfollow
      exact ⟨_, hfollow, rfl⟩
  · rw [herr] at hrun
    obtain ⟨t, ht, c, hc, l, reason, hl, hnot, -, heq⟩ := exists_of_validateLinks_eq_error herr
    exact ⟨hrun, t, ht, c, hc, l, reason, hl, hnot, heq⟩
  · rw [hr'] at hrun
    obtain ⟨-, rfl⟩ := validateLinks_eq_ok_iff.mp hr'
    refine ⟨_, hrun, ?_, table?_map_lentTable r r.tables, fun id => ?_⟩
    · rw [List.forall₂_map_right_iff, List.forall₂_same]
      exact fun t _ => onlyLends_lentTable r t
    · rw [table?_map_lentTable, table?_map_lentTable]
      exact congrArg (Option.map r.lentTable) (find?_list hr.ids id)

end Registry

namespace Storeroom

/-- Groups, materials and items with links between them take over operators. Items alone do not,
since there are no materials to which their links lead. -/
theorem links_followed_exactly :
    (registry equal startsWith).Distinct ∧ (registry equal startsWith).AllFollowable ∧
    (∃ last, Registry.relink.run (registry equal startsWith) = .ok () last ∧
      List.Forall₂ (registry equal startsWith).OnlyLends (registry equal startsWith).tables
        last.tables) ∧
    ∃ err, Registry.relink.run ⟨[items equal]⟩ = .error err ⟨[items equal]⟩ := by
  have hdistinct : (registry equal startsWith).Distinct := ⟨by decide, by decide⟩
  have halone : (⟨[items equal]⟩ : Registry).Distinct := ⟨by decide, by decide⟩
  obtain ⟨hiff, -, hfollowed⟩ := Registry.validateLinks_exact hdistinct
  have hok := validateLinks_registry equal startsWith
  obtain ⟨last, hlast, hlends, -⟩ := hfollowed _ hok
  refine ⟨hdistinct, hiff.mp ⟨_, hok⟩, ⟨last, hlast, hlends⟩, ?_⟩
  obtain ⟨-, hrefused, -⟩ := Registry.validateLinks_exact halone
  have herror : (⟨[items equal]⟩ : Registry).validateLinks =
      .error (.invalidLink "Stock" "GrpName" "Material(Mat,Id,GrpName)"
        "remote table not found") := by
    cbv
  exact ⟨_, (hrefused _ herror).1⟩

end Storeroom

end TableQuery
