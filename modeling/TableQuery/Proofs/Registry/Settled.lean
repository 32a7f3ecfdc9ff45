import Mathlib.Tactic.SplitIfs
import TableQuery.Proofs.Registry.Keys

/-!
# Settled links

Links are followed as the tables were before. A linked column takes over what the column offered
whose values it takes, and that column may itself take over other operators at the same time. Then
the two differ afterwards, and following links once more changes the registry again. Operators
travel along a chain of links by one link at a time: after as many passes as the longest chain is
long, they are settled.

## Main definitions

* `Registry.SettledAt`, `Registry.Settled` — following a link, or all of them, changes nothing.
* `Registry.passes` — the registry after its links were followed several times.
* `Registry.Descends` — a rank of columns that falls along links.

## Main results

* `Registry.validateLinks_eq_self_iff` — which registries stay as they are.
* `Registry.keeps_of_passes` — the columns whose operators are settled after some passes.
* `Registry.fixed_iff_settled` — when passes have settled the links.
* `Storeroom.group_not_settled` — links that one pass does not settle.
-/

namespace TableQuery

namespace Registry

variable {r r' last : Registry} {t t' : Table} {c c' : Column} {l : Link}

/-! ## Links that stay as they are -/

theorem lender?_eq_some_iff {value : Column} : r.lender? t c = some value ↔ ∃ l here remote,
    c.outboundLink? = some l ∧ t.column? l.localColumn = some here ∧
      here.supports Builtin.isIn = true ∧ r.table? l.table = some remote ∧
      remote.column? l.valueColumn = some value := by
  simp only [lender?, Option.bind_eq_bind, Option.bind_eq_some_iff]
  constructor
  · rintro ⟨l, hl, here, hhere, h⟩
    split at h
    · next hin =>
      obtain ⟨remote, hremote, hvalue⟩ := Option.bind_eq_some_iff.mp h
      exact ⟨l, here, remote, hl, hhere, hin, hremote, hvalue⟩
    · cases h
  · rintro ⟨l, here, remote, hl, hhere, hin, hremote, hvalue⟩
    exact ⟨l, hl, here, hhere, by simp [hin, hremote, hvalue]⟩

theorem followLink_eq_ok_iff {value : Column} :
    r.followLink t l = .ok value ↔ ∃ here remote search, r.Leads t l here remote search value ∧
      (search.supports Builtin.eq || search.supports Builtin.isIn) = true := by
  constructor
  · exact leads_of_followLink
  · rintro ⟨here, remote, search, hleads, hsupports⟩
    have hhas : t.hasColumn l.localColumn = true := by
      rw [Table.hasColumn, hleads.here_eq]
      rfl
    have hsearchable : (!search.supports Builtin.eq && !search.supports Builtin.isIn) = false := by
      grind
    simp only [followLink, hhas, Bool.not_true, Bool.false_eq_true, if_false, hleads.remote_eq,
      Option.elim_some, Except.pure_eq_ok, Except.ok_bind, hleads.search_eq, hsearchable,
      hleads.value_eq]

/-- Following the link of a column changes nothing: it leads to columns that are there, the one
searched in can be searched, and the column offers what the one offers whose values it takes, if
conditions on its local column may list values. -/
def SettledAt (r : Registry) (t : Table) (c : Column) (l : Link) : Prop :=
  ∃ here remote search value, r.Leads t l here remote search value ∧
    (search.supports Builtin.eq || search.supports Builtin.isIn) = true ∧
    (here.supports Builtin.isIn = true → c.filters = value.filters)

def Settled (r : Registry) : Prop :=
  ∀ t ∈ r.tables, ∀ c ∈ t.columns, ∀ l, c.outboundLink? = some l → r.SettledAt t c l

theorem linkedColumn_eq_self_iff :
    r.linkedColumn t c = .ok c ↔ ∀ l, c.outboundLink? = some l → r.SettledAt t c l := by
  constructor
  · intro h l hl
    obtain ⟨value, hvalue⟩ := (eq_of_linkedColumn h).2 l hl
    obtain ⟨here, remote, search, hleads, hsupports⟩ := followLink_eq_ok_iff.mp hvalue
    refine ⟨here, remote, search, value, hleads, hsupports, fun hin => ?_⟩
    simpa [hleads.lender?_eq hl, hin] using filters_of_linkedColumn h
  · intro h
    unfold linkedColumn
    cases hl : c.outboundLink? with
    | none => rfl
    | some l =>
      obtain ⟨here, remote, search, value, hleads, hsupports, hfilters⟩ := h l hl
      have hfollow := followLink_eq_ok_iff.mpr ⟨here, remote, search, hleads, hsupports⟩
      by_cases hin : here.supports Builtin.isIn = true
      · simp [hfollow, hleads.here_eq, hin, ← hfilters hin]
      · simp [hfollow, hleads.here_eq, hin]

theorem linkedColumns_eq_self_iff {cs : List Column} :
    r.linkedColumns t cs = .ok cs ↔ ∀ c ∈ cs, r.linkedColumn t c = .ok c := by
  rw [linkedColumns_eq_ok_iff, List.forall₂_same]

theorem linkedTable_eq_self_iff :
    r.linkedTable t = .ok t ↔ ∀ c ∈ t.columns, r.linkedColumn t c = .ok c := by
  constructor
  · intro h
    exact List.forall₂_same.mp (eq_of_linkedTable h).2
  · intro h
    rw [linkedTable, linkedColumns_eq_self_iff.mpr h]
    rfl

theorem linkedTables_eq_self_iff {ts : List Table} :
    r.linkedTables ts = .ok ts ↔ ∀ t ∈ ts, r.linkedTable t = .ok t := by
  rw [linkedTables_eq_ok_iff, List.forall₂_same]

/-- Following links leaves the tables in order of their ids. -/
theorem list_eq_tables (h : r.validateLinks = .ok r') : r'.list = r'.tables := by
  have hids : r'.tables.map Table.id = r.list.map Table.id :=
    ids_of_forall₂ (tables_of_validateLinks h)
  have hsorted : (r.list.map Table.id).Pairwise (· ≤ ·) := by
    rw [List.pairwise_map]
    refine (List.pairwise_mergeSort ?_ ?_ r.tables).imp fun hle => of_decide_eq_true hle
    · intro a b c hab hbc
      exact decide_eq_true ((of_decide_eq_true hab).trans (of_decide_eq_true hbc))
    · intro a b
      simpa using le_total a.id b.id
  rw [← hids, List.pairwise_map] at hsorted
  exact List.mergeSort_of_pairwise (hsorted.imp fun hle => decide_eq_true hle)

/-- Registries whose tables are in order stay as they are if their links are settled. -/
theorem validateLinks_eq_self_iff (h : r.list = r.tables) :
    r.validateLinks = .ok r ↔ r.Settled := by
  have htables : r.validateLinks = .ok r ↔ r.linkedTables r.tables = .ok r.tables := by
    rw [validateLinks, h, Except.bind_eq_ok_iff]
    constructor
    · rintro ⟨ts, hts, heq⟩
      cases heq
      exact hts
    · intro hts
      exact ⟨r.tables, hts, rfl⟩
  simp only [htables, linkedTables_eq_self_iff, linkedTable_eq_self_iff, linkedColumn_eq_self_iff,
    Settled]

/-! ## One pass -/

/-- The columns of tables after links were followed. -/
theorem exists_of_mem_columns (h : r.validateLinks = .ok r') (ht' : t' ∈ r'.tables) {c' : Column}
    (hc' : c' ∈ t'.columns) : ∃ t ∈ r.tables, ∃ c ∈ t.columns, r.linkedTable t = .ok t' ∧
      r.linkedColumn t c = .ok c' := by
  obtain ⟨t, ht, hlinked⟩ := exists_of_mem_tables h ht'
  obtain ⟨c, hc, hcolumn⟩ := forall₂_exists_left (eq_of_linkedTable hlinked).2 hc'
  exact ⟨t, ht, c, hc, hlinked, hcolumn⟩

/-- A column offers in both registries the same. -/
def Keeps (r r' : Registry) (table column : String) : Prop :=
  ∀ t c t' c', r.table? table = some t → t.column? column = some c →
    r'.table? table = some t' → t'.column? column = some c' → c'.filters = c.filters

theorem supports_eq_of_filters (h : c'.filters = c.filters) (operator : String) :
    c'.supports operator = c.supports operator := by
  rw [Column.supports, Column.supports, h]

/-- A stored column keeps what it offers. -/
theorem keeps_of_stored (hn : r.Registered) (h : r.validateLinks = .ok r') {table column : String}
    (hstored : ∀ t c, r.table? table = some t → t.column? column = some c →
      c.outboundLink? = none) : Keeps r r' table column := by
  intro t c t' c' ht hc ht' hc'
  obtain ⟨t₀, c₀, ht₀, hc₀, -, hcolumn⟩ := column?_of_validateLinks hn h ht' hc'
  obtain rfl : t₀ = t := Option.some.inj (ht₀.symm.trans ht)
  obtain rfl : c₀ = c := Option.some.inj (hc₀.symm.trans hc)
  rw [filters_of_linkedColumn hcolumn, lender?, hstored t₀ c₀ ht hc]
  rfl

/-- A linked column offers after a pass what the column offers that it takes its operators from, if
the columns that its link leads to kept in the pass what they offered. -/
theorem filters_eq_of_keeps (hn : r.Registered) (h : r.validateLinks = .ok r')
    (ht : r.table? t.id = some t) (hlinked : r.linkedTable t = .ok t')
    (hcolumn : r.linkedColumn t c = .ok c')
    (hkeeps : ∀ l, c.outboundLink? = some l →
      Keeps r r' t.id l.localColumn ∧ Keeps r r' l.table l.valueColumn)
    {value' : Column} (hlender : r'.lender? t' c' = some value') : c'.filters = value'.filters := by
  have ht' : r'.table? t.id = some t' := by
    obtain ⟨t'', ht'', hlinked'⟩ := exists_of_validateLinks hn h ht
    obtain rfl := Except.ok.inj (hlinked'.symm.trans hlinked)
    exact ht''
  obtain ⟨l, here', remote', hl, hhere', hin, hremote', hvalue'⟩ := lender?_eq_some_iff.mp hlender
  rw [(eq_of_linkedColumn hcolumn).1] at hl
  obtain ⟨hkeepsHere, hkeepsValue⟩ := hkeeps l hl
  obtain ⟨here, hhere, -⟩ := column?_of_linkedTable hlinked hhere'
  obtain ⟨remote, hremote, hother⟩ := table?_of_validateLinks hn h hremote'
  obtain ⟨value, hvalue, -⟩ := column?_of_linkedTable hother hvalue'
  rw [supports_eq_of_filters (hkeepsHere t here t' here' ht hhere ht' hhere')] at hin
  -- The column took its operators from the same column in this pass.
  have hfirst : r.lender? t c = some value :=
    lender?_eq_some_iff.mpr ⟨l, here, remote, hl, hhere, hin, hremote, hvalue⟩
  rw [filters_of_linkedColumn hcolumn, hfirst, Option.getD_some]
  exact (hkeepsValue remote value remote' value' hremote hvalue hremote' hvalue').symm

/-- A column keeps in a second pass what it offers if the columns that its link leads to kept in the
first pass what they offered. -/
theorem keeps_second (hn : r.Registered) (h : r.validateLinks = .ok r')
    (h' : r'.validateLinks = .ok last) {table column : String}
    (hbelow : ∀ t c l, r.table? table = some t → t.column? column = some c →
      c.outboundLink? = some l →
        Keeps r r' table l.localColumn ∧ Keeps r r' l.table l.valueColumn) :
    Keeps r' last table column := by
  intro t₁ c₁ t₂ c₂ ht₁ hc₁ ht₂ hc₂
  have hn' : r'.Registered := .validateLinks hn h
  obtain ⟨t, c, ht, hc, hlinked, hcolumn⟩ := column?_of_validateLinks hn h ht₁ hc₁
  obtain ⟨t₁', c₁', ht₁', hc₁', -, hcolumn'⟩ := column?_of_validateLinks hn' h' ht₂ hc₂
  obtain rfl : t₁' = t₁ := Option.some.inj (ht₁'.symm.trans ht₁)
  obtain rfl : c₁' = c₁ := Option.some.inj (hc₁'.symm.trans hc₁)
  rw [filters_of_linkedColumn hcolumn']
  cases hlender : r'.lender? t₁' c₁' with
  | none => rfl
  | some value₁ =>
    obtain rfl := table?_id ht
    exact (filters_eq_of_keeps hn h ht hlinked hcolumn (fun l hl => hbelow t c l ht hc hl)
      hlender).symm

/-- The links are settled after a pass in which the columns that links lead to kept what they
offered. -/
theorem settled_of_keeps (hn : r.Registered) (h : r.validateLinks = .ok r')
    (hkeeps : ∀ t ∈ r.tables, ∀ c ∈ t.columns, ∀ l, c.outboundLink? = some l →
      Keeps r r' t.id l.localColumn ∧ Keeps r r' l.table l.searchColumn ∧
        Keeps r r' l.table l.valueColumn) : r'.Settled := by
  intro t' ht' c' hc' l hl
  obtain ⟨t, ht, c, hc, hlinked, hcolumn⟩ := exists_of_mem_columns h ht' hc'
  obtain ⟨heq, hfollow⟩ := eq_of_linkedColumn hcolumn
  have hlink : c.outboundLink? = some l := by
    rw [heq] at hl
    exact hl
  have htable : r.table? t.id = some t := (find?_key_eq_some_iff hn.nodup).mpr ⟨ht, rfl⟩
  obtain ⟨hkeepsHere, hkeepsSearch, hkeepsValue⟩ := hkeeps t ht c hc l hlink
  obtain ⟨value, hvalue⟩ := hfollow l hlink
  obtain ⟨here, remote, search, hleads, hsupports⟩ := leads_of_followLink hvalue
  obtain ⟨here', remote', search', value', hleads'⟩ := hleads.validateLinks hn h hlinked
  have hsearch := hkeepsSearch remote search remote' search' hleads.remote_eq hleads.search_eq
    hleads'.remote_eq hleads'.search_eq
  refine ⟨here', remote', search', value', hleads', ?_, ?_⟩
  · rwa [supports_eq_of_filters hsearch, supports_eq_of_filters hsearch]
  · intro hin
    refine filters_eq_of_keeps hn h htable hlinked hcolumn (fun l' hl' => ?_)
      (lender?_eq_some_iff.mpr ⟨l, here', remote', hl, hleads'.here_eq, hin, hleads'.remote_eq,
        hleads'.value_eq⟩)
    obtain rfl := Option.some.inj (hlink.symm.trans hl')
    exact ⟨hkeepsHere, hkeepsValue⟩

/-! ## Several passes -/

/-- The registry after its links were followed several times. -/
def passes (r : Registry) : Nat → Except SchemaError Registry
  | 0 => .ok r
  | n + 1 => do (← r.passes n).validateLinks

theorem passes_succ_eq_ok_iff {n : Nat} :
    r.passes (n + 1) = .ok r' ↔ ∃ s, r.passes n = .ok s ∧ s.validateLinks = .ok r' :=
  Except.bind_eq_ok_iff

theorem Registered.passes {n : Nat} (hn : r.Registered) (h : r.passes n = .ok r') :
    r'.Registered := by
  induction n generalizing r' with
  | zero =>
    cases h
    exact hn
  | succ n ih =>
    obtain ⟨s, hs, h⟩ := passes_succ_eq_ok_iff.mp h
    exact .validateLinks (ih hs) h

/-- A rank of columns falls along links: a linked column has a greater rank than its local column
and than the columns there that are searched and whose values are taken. -/
def Descends (r : Registry) (rank : String → String → Nat) : Prop :=
  ∀ t ∈ r.tables, ∀ c ∈ t.columns, ∀ l, c.outboundLink? = some l →
    rank t.id l.localColumn < rank t.id c.id ∧
      rank l.table l.searchColumn < rank t.id c.id ∧ rank l.table l.valueColumn < rank t.id c.id

variable {rank : String → String → Nat}

/-- Following links keeps the links. -/
theorem Descends.validateLinks (hd : r.Descends rank) (h : r.validateLinks = .ok r') :
    r'.Descends rank := by
  intro t' ht' c' hc' l hl
  obtain ⟨t, ht, c, hc, hlinked, hcolumn⟩ := exists_of_mem_columns h ht' hc'
  rw [(eq_of_linkedColumn hcolumn).1] at hl ⊢
  rw [id_of_linkedTable hlinked]
  exact hd t ht c hc l hl

theorem Descends.passes {n : Nat} (hd : r.Descends rank) (h : r.passes n = .ok r') :
    r'.Descends rank := by
  induction n generalizing r' with
  | zero =>
    cases h
    exact hd
  | succ n ih =>
    obtain ⟨s, hs, h⟩ := passes_succ_eq_ok_iff.mp h
    exact (ih hs).validateLinks h

/-- After some passes a further one leaves what columns up to this rank offer. -/
theorem keeps_of_passes {n : Nat} (hn : r.Registered) (hd : r.Descends rank)
    (hp : r.passes n = .ok r') (h : r'.validateLinks = .ok last) {table column : String}
    (hrank : rank table column ≤ n) : Keeps r' last table column := by
  induction n generalizing r' last table column with
  | zero =>
    cases hp
    refine keeps_of_stored hn h fun t c ht hc => ?_
    cases hl : c.outboundLink? with
    | none => rfl
    | some l =>
      have hfall := hd t (List.mem_of_find?_eq_some ht) c (Table.mem_of_column? hc) l hl
      rw [table?_id ht, Table.column?_id hc] at hfall
      omega
  | succ n ih =>
    obtain ⟨s, hs, hp⟩ := passes_succ_eq_ok_iff.mp hp
    refine keeps_second (hn.passes hs) hp h fun t c l ht hc hl => ?_
    have hfall := (hd.passes hs) t (List.mem_of_find?_eq_some ht) c (Table.mem_of_column? hc) l hl
    rw [table?_id ht, Table.column?_id hc] at hfall
    exact ⟨ih hs hp (by omega), ih hs hp (by omega)⟩

/-- Following links once more leaves the registry as it is exactly if in it every linked column
whose local column may be asked for a list offers what the column offers whose values it takes, and
every column that a link searches in can be searched. This is so after at least as many passes as
the longest chain of links is long; after a single pass, if links lead to stored columns only. -/
theorem fixed_iff_settled {n : Nat} (hn : r.Registered) (h : r.passes (n + 1) = .ok r') :
    (r'.validateLinks = .ok r' ↔ r'.Settled) ∧
    ∀ rank, r.Descends rank → (∀ table column, rank table column ≤ n + 1) → r'.Settled := by
  obtain ⟨s, hs, h⟩ := passes_succ_eq_ok_iff.mp h
  refine ⟨validateLinks_eq_self_iff (list_eq_tables h), fun rank hd hle => ?_⟩
  refine settled_of_keeps (hn.passes hs) h fun t ht c hc l hl => ?_
  have hfall := (hd.passes hs) t ht c hc l hl
  have hbound := hle t.id c.id
  exact ⟨keeps_of_passes hn hd hs h (by omega), keeps_of_passes hn hd hs h (by omega),
    keeps_of_passes hn hd hs h (by omega)⟩

end Registry

def Column.ofOperators (id : String) (isKey : Bool) (filters : List Operator) (link : Option Link) :
    Column :=
  { (default : Column) with
    id, name := id, kind := .string, type := .string, filters, link, isKey, width := 1
    storageName := id }

/-! ## The groups of the materials of a storeroom -/

namespace Storeroom

def equal : Operator := ⟨Builtin.eq, "equal", .single⟩

def isIn : Operator := ⟨Builtin.isIn, "in", .multiple⟩

def contains : Operator := ⟨Builtin.contains, "contains", .single⟩

def startsWith : Operator := ⟨Builtin.startsWith, "starts with", .single⟩

def groups : Table :=
  ⟨"Group", "Group", "",
    [.ofOperators "Id" true [equal, isIn] none, .ofOperators "Name" false [contains] none],
    "Id", [], none, none⟩

def materials (op : Operator) : Table :=
  ⟨"Material", "Material", "",
    [.ofOperators "Id" true [equal, isIn] none, .ofOperators "Grp" false [isIn] none,
      .ofOperators "GrpName" false [op] (some ⟨"Group", "Grp", "Id", "Name"⟩)], "Id", [],
    none, none⟩

/-- Items show what their materials show, and compare it by some operator. -/
def items (op : Operator) : Table :=
  ⟨"Stock", "Stock", "",
    [.ofOperators "Id" true [equal, isIn] none, .ofOperators "Mat" false [isIn] none,
      .ofOperators "GrpName" false [op] (some ⟨"Material", "Mat", "Id", "GrpName"⟩)], "Id", [],
    none, none⟩

def registry (material item : Operator) : Registry :=
  ⟨[groups, materials material, items item]⟩

theorem registered (material item : Operator) : (registry material item).Registered := by
  have hfirst : Registry.empty.register groups = .ok ⟨[groups]⟩ := rfl
  have hsecond : (⟨[groups]⟩ : Registry).register (materials material) =
      .ok ⟨[groups, materials material]⟩ := rfl
  have hthird : (⟨[groups, materials material]⟩ : Registry).register (items item) =
      .ok (registry material item) := rfl
  exact .register (.register (.register .empty hfirst) hsecond) hthird

/-- Materials take over what groups offer, and items what materials offered. -/
theorem validateLinks_registry (material item : Operator) :
    (registry material item).validateLinks = .ok (registry contains material) := by
  cbv

/-- The rank of a column is the length of its chain of links. -/
def rank (table column : String) : Nat :=
  if column = "GrpName" then if table = "Stock" then 2 else 1 else 0

theorem descends (material item : Operator) : (registry material item).Descends rank := by
  intro t ht c hc l hl
  simp only [registry, List.mem_cons, List.not_mem_nil, or_false] at ht
  rcases ht with rfl | rfl | rfl
  · simp only [groups, List.mem_cons, List.not_mem_nil, or_false] at hc
    rcases hc with rfl | rfl <;> cases hl
  · simp only [materials, List.mem_cons, List.not_mem_nil, or_false] at hc
    rcases hc with rfl | rfl | rfl
    · cases hl
    · cases hl
    · obtain rfl := Option.some.inj hl
      simp [rank, materials, Column.ofOperators]
  · simp only [items, List.mem_cons, List.not_mem_nil, or_false] at hc
    rcases hc with rfl | rfl | rfl
    · cases hl
    · cases hl
    · obtain rfl := Option.some.inj hl
      simp [rank, items, Column.ofOperators]

/-- Two passes bring the operators on names of groups to items. -/
theorem settled_twice : (registry equal startsWith).Registered ∧
    (registry equal startsWith).passes 2 = .ok (registry contains contains) ∧
    (registry equal startsWith).Descends rank ∧ (∀ table column, rank table column ≤ 2) ∧
    (registry contains contains).Settled ∧
    (registry contains contains).validateLinks = .ok (registry contains contains) := by
  have hpasses : (registry equal startsWith).passes 2 = .ok (registry contains contains) := by
    refine Registry.passes_succ_eq_ok_iff.mpr ⟨registry contains equal, ?_, ?_⟩
    · exact validateLinks_registry equal startsWith
    · exact validateLinks_registry contains equal
  have hbound : ∀ table column, rank table column ≤ 2 := by
    intro table column
    unfold rank
    split_ifs <;> omega
  obtain ⟨hfixed, hsettled⟩ :=
    Registry.fixed_iff_settled (n := 1) (registered equal startsWith) hpasses
  have hsettled := hsettled rank (descends equal startsWith) hbound
  exact ⟨registered equal startsWith, hpasses, descends equal startsWith, hbound, hsettled,
    hfixed.mpr hsettled⟩

/-- After one pass items offer on names of groups what materials offered before, which is not what
they offer now. A second pass succeeds and changes the registry. -/
theorem group_not_settled : (registry equal startsWith).Registered ∧
    (registry equal startsWith).validateLinks = .ok (registry contains equal) ∧
    (∃ t ∈ (registry contains equal).tables, ∃ c ∈ t.columns, ∃ l here remote search value,
      c.outboundLink? = some l ∧ (registry contains equal).Leads t l here remote search value ∧
      here.supports Builtin.isIn = true ∧ c.filters = [equal] ∧ value.filters = [contains]) ∧
    (registry contains equal).validateLinks = .ok (registry contains contains) ∧
    registry contains contains ≠ registry contains equal := by
  refine ⟨registered equal startsWith, validateLinks_registry equal startsWith, ?_,
    validateLinks_registry contains equal, fun heq => ?_⟩
  · have hitem : items equal ∈ (registry contains equal).tables := by simp [registry]
    exact ⟨_, hitem, _, List.mem_of_getElem? (i := 2) rfl, _, _, _, _, _, rfl,
      ⟨rfl, rfl, rfl, rfl⟩, by decide, rfl, rfl⟩
  · have hops := congrArg (fun r => r.tables.map fun t => t.columns.map Column.filters) heq
    revert hops
    decide

end Storeroom

end TableQuery
