import TableQuery.Proofs.Operator.Catalog
import TableQuery.Proofs.Text.Blank

/-!
# Declarations of filters

A declaration such as `SSTR | builtin.ISN` names nodes of a catalog between bars. What it resolves
to does not depend on how this is written: the operators that the nodes stand for, each once and in
order of their ids. Sets hold operators that are nodes themselves, so that a set may be replaced by
its members, and so that of several operators with one id any may be kept.

## Main definitions

* `Declaration.Mentions`, `Declaration.Names` — the parts of a declaration and their full ids.
* `Catalog.Denotes` — the operators that a declaration stands for.
* `Catalog.Canonical` — these operators, each once and in order.
* `Catalog.Spells` — a declaration names the members of sets that another one names.

## Main results

* `Declaration.mem_declared_iff` — how declarations are cut into parts.
* `Catalog.exists_error_iff` — which declarations fail.
* `Catalog.Coherent.canonical` — what others resolve to.
* `Catalog.Canonical.eq_iff` — this depends on what they denote, and on nothing else.
* `Catalog.Coherent.resolveFilters_congr` — sets and their members make no difference.
* `Catalog.filters_canonical` — all of this, whatever was registered.
-/

namespace TableQuery

open TableQuery.Text (IsPiece IsTrimmed isBlank)

namespace Declaration

/-- A declaration mentions a part: between bars or the ends it stands with blanks around it, and it
is neither empty nor blank at its ends. -/
structure Mentions (declaration part : String) : Prop where
  ne_empty : part ≠ ""
  isTrimmed : IsTrimmed part.toList
  stands : ∃ lead trail, (∀ c ∈ lead, isBlank c = true) ∧ (∀ c ∈ trail, isBlank c = true) ∧
    IsPiece '|' declaration.toList (lead ++ part.toList ++ trail)

/-- A declaration names the full ids of its parts. -/
def Names (declaration id : String) : Prop :=
  ∃ part, Mentions declaration part ∧ qualify part = id

theorem mem_declared_iff {declaration part : String} :
    part ∈ declared declaration ↔ Mentions declaration part := by
  simp only [declared, List.mem_map, List.mem_filter]
  constructor
  · rintro ⟨s, ⟨⟨piece, hpiece, rfl⟩, hne⟩, rfl⟩
    obtain ⟨lead, trail, heq, hlead, htrail⟩ := Text.exists_eq_append_trim piece
    refine ⟨by simpa using hne, ?_, lead, trail, hlead, htrail, ?_⟩
    · simpa using Text.isTrimmed_trim piece
    · rw [String.toList_ofList, ← heq]
      exact Text.isPiece_of_mem hpiece
  · rintro ⟨hne, htrimmed, lead, trail, hlead, htrail, hpiece⟩
    have htrim : Text.trim (lead ++ part.toList ++ trail) = part.toList :=
      Text.trim_eq_iff.mpr ⟨htrimmed, lead, trail, rfl, hlead, htrail⟩
    refine ⟨part.toList, ⟨⟨_, Text.mem_splitAtChar_iff.mpr hpiece, htrim⟩, ?_⟩,
      String.ofList_toList⟩
    simpa using hne

theorem names_iff {declaration id : String} :
    Names declaration id ↔ ∃ part ∈ declared declaration, qualify part = id := by
  simp only [Names, mem_declared_iff]

end Declaration

namespace Catalog

open Declaration (Names names_iff)

variable {c : Catalog} {d d' declaration id : String} {ops ops' : List Operator} {err : SchemaError}

/-- A declaration denotes an operator if it names a node that stands for it. -/
def Denotes (c : Catalog) (declaration : String) (op : Operator) : Prop :=
  ∃ id n, Names declaration id ∧ c.find id = .ok n ∧ op ∈ n.operators

/-- The operators of a declaration in their canonical form. -/
structure Canonical (c : Catalog) (declaration : String) (ops : List Operator) : Prop where
  increasing : ops.Pairwise fun a b => a.id < b.id
  mem_iff : ∀ op, op ∈ ops ↔ c.Denotes declaration op

/-- Two declarations differ in sets that the first names and the second replaces by their
members. -/
structure Spells (c : Catalog) (sets members : String) : Prop where
  named : ∀ id, Names sets id → Names members id ∨
    ∃ s, c.find id = .ok (.set s) ∧ ∀ op ∈ s.operators, Names members op.id
  added : ∀ id, Names members id → Names sets id ∨
    ∃ setId s, Names sets setId ∧ c.find setId = .ok (.set s) ∧ ∃ op ∈ s.operators, op.id = id

/-! ## Look-ups -/

theorem find_eq_error_iff : c.find id = .error err ↔
    err = .nodeNotExist id ∧ ∀ n, c.find id ≠ .ok n := by
  unfold find
  cases c.nodes.lookup id <;> simp [eq_comm]

theorem mem_iff_of_expand {ids : List String} (h : c.expand ids = .ok ops) (op : Operator) :
    op ∈ ops ↔ ∃ id ∈ ids, ∃ n, c.find (qualify id) = .ok n ∧ op ∈ n.operators := by
  obtain ⟨nodes, hnodes, rfl⟩ := exists_of_expand h
  rw [List.mem_flatMap]
  constructor
  · rintro ⟨n, hn, hop⟩
    obtain ⟨id, hid, hfind⟩ := forall₂_exists_left hnodes hn
    exact ⟨id, hid, n, hfind, hop⟩
  · rintro ⟨id, hid, n, hfind, hop⟩
    obtain ⟨n', hn', hfind'⟩ := forall₂_exists_right hnodes hid
    obtain rfl := Except.ok.inj (hfind.symm.trans hfind')
    exact ⟨n, hn', hop⟩

theorem expand_eq_error_iff {ids : List String} :
    c.expand ids = .error err ↔ FirstFailure (fun id => c.find (qualify id)) ids err := by
  rw [← Except.mapM_eq_error_iff, expand, Except.bind_eq_error_iff]
  simp

/-! ## Declarations resolved -/

theorem resolveFilters_eq_ok_iff : c.resolveFilters declaration = .ok ops ↔
    ∃ all, c.expand (declared declaration) = .ok all ∧
      ops = sortByKey Operator.id (firstByKey Operator.id all) := by
  rw [resolveFilters, Except.bind_eq_ok_iff]
  refine exists_congr fun all => and_congr_right fun _ => ?_
  rw [Except.pure_eq_ok, Except.ok.injEq, eq_comm]

theorem resolveFilters_eq_error_iff : c.resolveFilters declaration = .error err ↔
    c.expand (declared declaration) = .error err := by
  rw [resolveFilters, Except.bind_eq_error_iff]
  simp

theorem exists_error_iff : (∃ err, c.resolveFilters declaration = .error err) ↔
    ∃ id, Names declaration id ∧ c.find id = .error (.nodeNotExist id) := by
  simp only [resolveFilters_eq_error_iff, names_iff]
  constructor
  · rintro ⟨err, h⟩
    obtain ⟨before, part, after, hsplit, -, hfind⟩ := expand_eq_error_iff.mp h
    obtain ⟨rfl, -⟩ := find_eq_error_iff.mp hfind
    exact ⟨qualify part, ⟨part, by simp [hsplit], rfl⟩, hfind⟩
  · rintro ⟨_, ⟨part, hpart, rfl⟩, hfind⟩
    cases hexpand : c.expand (declared declaration) with
    | error err => exact ⟨err, rfl⟩
    | ok all =>
      obtain ⟨nodes, hnodes, -⟩ := exists_of_expand hexpand
      obtain ⟨n, -, hn⟩ := forall₂_exists_right hnodes hpart
      cases hfind.symm.trans hn

/-- In a coherent catalog it does not matter which of several operators with one id is kept: they
are the same. -/
theorem Coherent.mem_firstByKey_iff (hc : c.Coherent) {ids : List String}
    (h : c.expand ids = .ok ops) {op : Operator} :
    op ∈ firstByKey Operator.id ops ↔ op ∈ ops := by
  refine ⟨mem_of_mem_firstByKey, fun hop => ?_⟩
  obtain ⟨first, hfirst, hid⟩ := exists_mem_firstByKey Operator.id hop
  have hsame := hc.find_of_expand h first (mem_of_mem_firstByKey hfirst)
  rw [hid, hc.find_of_expand h op hop] at hsame
  cases hsame
  exact hfirst

/-- What a declaration resolves to is sorted, and it is what the declaration denotes. -/
theorem Coherent.canonical (hc : c.Coherent) (h : c.resolveFilters declaration = .ok ops) :
    c.Canonical declaration ops := by
  obtain ⟨all, hall, rfl⟩ := resolveFilters_eq_ok_iff.mp h
  refine ⟨pairwise_sortByKey (nodup_firstByKey _ _), fun op => ?_⟩
  rw [(sortByKey_perm _ _).mem_iff, hc.mem_firstByKey_iff hall, mem_iff_of_expand hall]
  simp only [Denotes, names_iff]
  constructor
  · rintro ⟨part, hpart, n, hfind, hop⟩
    exact ⟨qualify part, n, ⟨part, hpart, rfl⟩, hfind, hop⟩
  · rintro ⟨_, n, ⟨part, hpart, rfl⟩, hfind, hop⟩
    exact ⟨part, hpart, n, hfind, hop⟩

theorem Canonical.eq_iff (h : c.Canonical d ops) (h' : c.Canonical d' ops') :
    ops = ops' ↔ ∀ op, c.Denotes d op ↔ c.Denotes d' op := by
  constructor
  · rintro rfl op
    rw [← h.mem_iff, ← h'.mem_iff]
  · intro hsame
    have hnodup {ops : List Operator} (hops : ops.Pairwise fun a b => a.id < b.id) : ops.Nodup :=
      hops.imp fun hlt => ne_of_apply_ne Operator.id hlt.ne
    have hperm : ops.Perm ops' := by
      apply (List.perm_ext_iff_of_nodup (hnodup h.increasing) (hnodup h'.increasing)).mpr
      intro op
      rw [h.mem_iff, h'.mem_iff, hsame]
    exact eq_of_increasing h.increasing h'.increasing hperm

/-! ## Sets and their members -/

theorem Coherent.find_member (hc : c.Coherent) {s : OperatorSet} (h : c.find id = .ok (.set s))
    {op : Operator} (hop : op ∈ s.operators) : c.find op.id = .ok (.operator op) :=
  (hc.operators _ (mem_nodes_of_find h)).2 op hop

theorem Coherent.denotes_iff (hc : c.Coherent) (h : c.Spells d d') (op : Operator) :
    c.Denotes d op ↔ c.Denotes d' op := by
  constructor
  · rintro ⟨id, n, hid, hfind, hop⟩
    rcases h.named id hid with hid' | ⟨s, hs, hmembers⟩
    · exact ⟨id, n, hid', hfind, hop⟩
    · obtain rfl := Except.ok.inj (hs.symm.trans hfind)
      exact ⟨op.id, .operator op, hmembers op hop, hc.find_member hs hop,
        List.mem_singleton_self op⟩
  · rintro ⟨id, n, hid, hfind, hop⟩
    rcases h.added id hid with hid' | ⟨setId, s, hset, hs, member, hmember, rfl⟩
    · exact ⟨id, n, hid', hfind, hop⟩
    · obtain rfl := Except.ok.inj ((hc.find_member hs hmember).symm.trans hfind)
      obtain rfl := List.mem_singleton.mp hop
      exact ⟨setId, .set s, hset, hs, hmember⟩

theorem Coherent.exists_error_congr (hc : c.Coherent) (h : c.Spells d d') :
    (∃ err, c.resolveFilters d = .error err) ↔ ∃ err, c.resolveFilters d' = .error err := by
  rw [exists_error_iff, exists_error_iff]
  constructor
  · rintro ⟨id, hid, hfind⟩
    rcases h.named id hid with hid' | ⟨s, hs, -⟩
    · exact ⟨id, hid', hfind⟩
    · cases hs.symm.trans hfind
  · rintro ⟨id, hid, hfind⟩
    rcases h.added id hid with hid' | ⟨setId, s, -, hs, member, hmember, rfl⟩
    · exact ⟨id, hid', hfind⟩
    · cases (hc.find_member hs hmember).symm.trans hfind

/-- Declarations that differ in sets and their members resolve to the same operators or both
fail. -/
theorem Coherent.resolveFilters_congr (hc : c.Coherent) (h : c.Spells d d') :
    (c.resolveFilters d).toOption = (c.resolveFilters d').toOption := by
  have herror := hc.exists_error_congr h
  cases hops : c.resolveFilters d with
  | error err =>
    obtain ⟨err', herr⟩ := herror.mp ⟨err, hops⟩
    rw [herr]
    rfl
  | ok ops =>
    cases hops' : c.resolveFilters d' with
    | error err' =>
      obtain ⟨err, herr⟩ := herror.mpr ⟨err', hops'⟩
      cases hops.symm.trans herr
    | ok ops' =>
      rw [((hc.canonical hops).eq_iff (hc.canonical hops')).mpr (hc.denotes_iff h)]

/-- Whatever operators and sets were registered: a declaration fails exactly if one of its parts
names no node; what it resolves to is strictly sorted by ids and holds exactly the operators that
the named nodes stand for; it is the same for two declarations exactly if they denote the same
operators; and so it is if one says with sets what the other says with their members. -/
theorem filters_canonical (h : c.Built) :
    (∀ d, (∃ err, c.resolveFilters d = .error err) ↔
      ∃ id, Names d id ∧ c.find id = .error (.nodeNotExist id)) ∧
    (∀ d ops, c.resolveFilters d = .ok ops → c.Canonical d ops) ∧
    (∀ d d' ops ops', c.resolveFilters d = .ok ops → c.resolveFilters d' = .ok ops' →
      (ops = ops' ↔ ∀ op, c.Denotes d op ↔ c.Denotes d' op)) ∧
    ∀ d d', c.Spells d d' → (c.resolveFilters d).toOption = (c.resolveFilters d').toOption := by
  have hc := h.coherent
  refine ⟨fun d => exists_error_iff, fun d ops hops => hc.canonical hops, ?_,
    fun d d' hsame => hc.resolveFilters_congr hsame⟩
  intro d d' ops ops' hops hops'
  exact (hc.canonical hops).eq_iff (hc.canonical hops')

end Catalog

/-! ## Filters of places -/

namespace Survey

/-- Places that are near, and a set with a set of the library in it. -/
def catalog : Catalog :=
  CatalogCall.afterAll .empty
    [.install, .register ⟨"geo.NEAR", "near", .single⟩,
      .registerSet "geo.SGEO" "filters of places" ["geo.NEAR", "SNULLABLE", "ISN"]]

def members : List Operator :=
  [⟨"geo.NEAR", "near", .single⟩, ⟨Builtin.isNull, "is null", .none⟩,
    ⟨Builtin.isNotNull, "is not null", .none⟩]

def sets : String := "EQ | geo.SGEO"

def spelled : String := " geo.NEAR||\tISNN|EQ|builtin.ISN  |builtin.EQ|"

/-- What is found of the set, of what it stands for, and of what nobody registered. -/
theorem lookups :
    (catalog.find "geo.SGEO").toOption =
      some (.set ⟨"geo.SGEO", "filters of places", members⟩) ∧
    (catalog.expand (declared sets)).toOption =
      some (⟨Builtin.eq, "equal", .single⟩ :: members) ∧
    (catalog.find "geo.FAR").toOption = none := by
  decide +kernel

/-- The set is replaced by its members, in another order and with more bars and blanks. -/
theorem spells : catalog.Spells sets spelled := by
  have hsets : (declared sets).map qualify = [Builtin.eq, "geo.SGEO"] := by decide +kernel
  have hspelled : (declared spelled).map qualify =
      ["geo.NEAR", Builtin.isNotNull, Builtin.eq, Builtin.isNull, Builtin.eq] := by
    decide +kernel
  have hfind := Except.toOption_eq_some_iff.mp lookups.1
  constructor
  · intro id hid
    rw [Declaration.names_iff, ← List.mem_map, hsets] at hid
    simp only [Declaration.names_iff, ← List.mem_map, hspelled]
    rcases List.mem_cons.mp hid with rfl | hid
    · exact .inl (by decide)
    · obtain rfl := List.mem_singleton.mp hid
      exact .inr ⟨_, hfind, by decide⟩
  · intro id hid
    rw [Declaration.names_iff, ← List.mem_map, hspelled] at hid
    simp only [Declaration.names_iff, ← List.mem_map, hsets]
    by_cases heq : id = Builtin.eq
    · exact .inl (heq ▸ List.mem_cons_self)
    · refine .inr ⟨"geo.SGEO", _, by decide, hfind, ?_⟩
      revert heq
      revert id
      decide

/-- The set and its members make the same filters, and what is unknown makes none. -/
theorem places_filtered :
    catalog.Built ∧ catalog.Spells sets spelled ∧
    (∃ ops, catalog.resolveFilters sets = .ok ops ∧ catalog.resolveFilters spelled = .ok ops ∧
      ops.map Operator.id = [Builtin.eq, Builtin.isNull, Builtin.isNotNull, "geo.NEAR"]) ∧
    ∃ err, catalog.resolveFilters "EQ|geo.FAR" = .error err := by
  have hbuilt : catalog.Built := Catalog.Built.empty.afterAll _
  obtain ⟨hfails, -, -, hsame⟩ := Catalog.filters_canonical hbuilt
  have hall := Except.toOption_eq_some_iff.mp lookups.2.1
  have hops : catalog.resolveFilters sets = .ok [⟨Builtin.eq, "equal", .single⟩,
      ⟨Builtin.isNull, "is null", .none⟩, ⟨Builtin.isNotNull, "is not null", .none⟩,
      ⟨"geo.NEAR", "near", .single⟩] := by
    refine Catalog.resolveFilters_eq_ok_iff.mpr ⟨_, hall, ?_⟩
    refine eq_of_increasing (by decide +kernel) (pairwise_sortByKey (by decide +kernel)) ?_
    exact .trans (by decide +kernel) (sortByKey_perm _ _).symm
  refine ⟨hbuilt, spells, ⟨_, hops, ?_, rfl⟩,
    (hfails _).mpr ⟨"geo.FAR", ?_, Catalog.find_eq_error_iff.mpr ⟨rfl, fun n hn => ?_⟩⟩⟩
  · rw [← Except.toOption_eq_some_iff, ← hsame sets spelled spells, hops]
    rfl
  · rw [Declaration.names_iff]
    decide +kernel
  · have hnone := lookups.2.2
    rw [hn] at hnone
    cases hnone

end Survey

end TableQuery
