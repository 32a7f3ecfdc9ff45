import Mathlib.Data.List.Induction
import Mathlib.Logic.Relation
import TableQuery.Operator.Builtin
import TableQuery.Proofs.Lists
import TableQuery.Proofs.Run
import TableQuery.Proofs.Text.Split

/-!
# Catalogs stay coherent

Operators and sets are registered by the library and by others, in any order. Nodes and the names
that are taken are kept apart, and sets hold operators that are nodes themselves. Every call adds
nodes that agree with this, or nothing.

## Main definitions

* `IsQualified` — an id is a namespace and a name.
* `Catalog.Adds` — what insertions do.
* `Catalog.Coherent` — the invariant of all catalogs.
* `Catalog.Extends` — what was known stays known.
* `Catalog.Grows` — nodes that agree with a catalog are added to it.
* `Catalog.Settled` — the library has nothing to add.
* `CatalogCall` — a call on a catalog.

## Main results

* `Catalog.Coherent.adds` — a node that agrees with a catalog keeps it coherent.
* `CatalogCall.grows_after` — calls add nothing else.
* `Catalog.settled_installBuiltins` — the library adds all that it can at once.
* `Catalog.coherent_of_calls` — what holds after all calls.
-/

namespace TableQuery

/-- An id is a namespace and a name, both words, with a point between them. -/
def IsQualified (id : String) : Prop :=
  ∃ space name, id.toList = space ++ '.' :: name ∧ Text.isWord space = true ∧
    Text.isWord name = true

theorem isOperatorId_iff {id : String} : isOperatorId id = true ↔ IsQualified id := by
  unfold isOperatorId Text.splitAtChar
  constructor
  · intro h
    split at h
    · next space name hpieces =>
      rw [Bool.and_eq_true] at h
      rcases Text.splitWhere_cases (· == '.') id.toList with hone | ⟨piece, c, rest, hid, hc, hcut⟩
      · simp [hone] at hpieces
      · obtain ⟨rfl, hrest⟩ := List.cons.inj (hcut.symm.trans hpieces)
        obtain rfl : c = '.' := by simpa using hc
        rcases Text.splitWhere_cases (· == '.') rest with hone | ⟨_, _, _, _, _, hmore⟩
        · obtain ⟨rfl, -⟩ := List.cons.inj (hone.symm.trans hrest)
          exact ⟨piece, rest, hid, h⟩
        · have hnil := (List.cons.inj (hmore.symm.trans hrest)).2
          exact absurd hnil (Text.splitWhere_ne_nil _ _)
    · cases h
  · rintro ⟨space, name, hid, hspace, hname⟩
    rw [hid, Text.splitWhere_append_cons (Text.ne_point_of_isWord hspace) (by simp),
      Text.splitWhere_of_forall (Text.ne_point_of_isWord hname)]
    simp [hspace, hname]

/-- A node is one of the library itself: an operator of it, or a set of it with all members. -/
def OperatorNode.IsBuiltin : OperatorNode → Prop
  | operator op => op ∈ Builtin.operators
  | set s => (s.id, s.name, s.operators.map Operator.id) ∈ Builtin.sets

/-- The members of a set of the library are different ids of its namespace, which are written in
full and are not the ids of sets. -/
theorem Builtin.members_of_sets : ∀ s ∈ sets, s.2.2.Nodup ∧ ∀ m ∈ s.2.2, qualify m = m ∧
    namespaceOf m = builtinNamespace ∧ ∀ other ∈ sets, other.1 ≠ m := by
  decide +kernel

namespace Catalog

variable {c d : Catalog} {node : OperatorNode}

/-! ## Look-ups and insertions -/

theorem find_eq_ok_iff {id : String} {n : OperatorNode} :
    c.find id = .ok n ↔ c.nodes.lookup id = some n := by
  unfold find
  cases c.nodes.lookup id <;> simp

theorem mem_nodes_of_find {id : String} {n : OperatorNode} (h : c.find id = .ok n) :
    (id, n) ∈ c.nodes := by
  obtain ⟨before, after, hsplit, -⟩ := List.lookup_eq_some_iff.mp (find_eq_ok_iff.mp h)
  rw [hsplit]
  simp

/-- Ids stand for operators of nodes that are found under them. -/
theorem exists_of_expand {ids : List String} {ops : List Operator} (h : c.expand ids = .ok ops) :
    ∃ nodes, List.Forall₂ (fun id n => c.find (qualify id) = .ok n) ids nodes ∧
      ops = nodes.flatMap OperatorNode.operators := by
  obtain ⟨nodes, hnodes, h⟩ := Except.bind_eq_ok_iff.mp h
  cases h
  exact ⟨nodes, Except.mapM_eq_ok_iff.mp hnodes, rfl⟩

/-- A further node is kept under its id, and its name is taken. Both were free before. -/
structure Adds (c : Catalog) (node : OperatorNode) (d : Catalog) : Prop where
  nodes_eq : d.nodes = c.nodes ++ [(node.id, node)]
  names_eq : d.names = node.name :: c.names
  isOperatorId_id : isOperatorId node.id = true
  id_free : c.nodes.lookup node.id = none
  name_free : node.name ∉ c.names

/-- What insertions do, and when they are made: under the namespace of the library it makes them
itself. -/
theorem insert_eq_ok_iff {internal : Bool} :
    c.insert node internal = .ok d ↔
      c.Adds node d ∧ (internal = false → namespaceOf node.id ≠ builtinNamespace) := by
  unfold insert
  constructor
  · intro h
    repeat' split at h
    all_goals cases h
    next hid hspace hnode hname =>
      exact ⟨⟨rfl, rfl, by simpa using hid, by rwa [Option.not_isSome_iff_eq_none] at hnode,
        by simpa using hname⟩, fun hinternal hown => hspace ⟨hown, hinternal⟩⟩
  · rintro ⟨h, hspace⟩
    rw [if_neg (by simp [h.isOperatorId_id]), if_neg (fun hown => hspace hown.2 hown.1),
      if_neg (by simp [h.id_free]), if_neg (by simpa using h.name_free), ← h.nodes_eq, ← h.names_eq]

/-! ## What holds of catalogs -/

/-- The nodes of a catalog agree with each other and with the names that are taken. -/
structure Coherent (c : Catalog) : Prop where
  /-- Nodes are kept under their own ids, which are a namespace and a name. -/
  keyed : ∀ p ∈ c.nodes, p.1 = p.2.id ∧ IsQualified p.1
  ids_nodup : (c.nodes.map Prod.fst).Nodup
  /-- The names that are taken are those of the nodes. -/
  mem_names_iff : ∀ name, name ∈ c.names ↔ ∃ p ∈ c.nodes, p.2.name = name
  names_nodup : (c.nodes.map fun p => p.2.name).Nodup
  /-- The operators that a node stands for are different, and each is known under its own id. -/
  operators : ∀ p ∈ c.nodes, (p.2.operators.map Operator.id).Nodup ∧
    ∀ op ∈ p.2.operators, c.find op.id = .ok (.operator op)
  own : ∀ p ∈ c.nodes, namespaceOf p.1 = builtinNamespace → p.2.IsBuiltin

/-- What is known in a catalog is known in another one. -/
def Extends (c d : Catalog) : Prop :=
  ∀ id n, c.find id = .ok n → d.find id = .ok n

/-- A node agrees with a catalog: it stands for different operators, if it is a set for known ones,
and under the namespace of the library it is one of the library. -/
structure Admits (c : Catalog) (node : OperatorNode) : Prop where
  nodup : (node.operators.map Operator.id).Nodup
  members : ∀ s, node = .set s → ∀ op ∈ s.operators, c.find op.id = .ok (.operator op)
  own : namespaceOf node.id = builtinNamespace → node.IsBuiltin

/-- Nodes that agree with a catalog are added to it, one by one. -/
def Grows : Catalog → Catalog → Prop :=
  Relation.ReflTransGen fun c d => ∃ node, c.Admits node ∧ c.Adds node d

/-- A further node is found under its id, and nothing else changes. -/
theorem Adds.find_eq (h : c.Adds node d) (id : String) :
    d.find id = if id = node.id then .ok node else c.find id := by
  unfold find
  rw [h.nodes_eq, List.lookup_append]
  by_cases hid : id = node.id
  · simp [hid, h.id_free]
  · have hne : (id == node.id) = false := by simpa using hid
    simp [hid, hne, List.lookup_cons]

theorem Adds.extends (h : c.Adds node d) : c.Extends d := by
  intro id n hn
  rw [h.find_eq, if_neg ?_]
  · exact hn
  · rintro rfl
    rw [find_eq_ok_iff, h.id_free] at hn
    cases hn

theorem Grows.extends (h : c.Grows d) : c.Extends d := by
  induction h with
  | refl => exact fun _ _ hn => hn
  | tail _ hadd ih =>
    obtain ⟨node, -, hadd⟩ := hadd
    exact fun id n hn => hadd.extends id n (ih id n hn)

/-- A node that agrees with a catalog keeps it coherent. -/
theorem Coherent.adds (hc : c.Coherent) (hnode : c.Admits node) (h : c.Adds node d) :
    d.Coherent := by
  have hmem {p : String × OperatorNode} : p ∈ d.nodes ↔ p ∈ c.nodes ∨ p = (node.id, node) := by
    rw [h.nodes_eq, List.mem_append, List.mem_singleton]
  have hforall {P : String × OperatorNode → Prop} (hold : ∀ p ∈ c.nodes, P p)
      (hnew : P (node.id, node)) : ∀ p ∈ d.nodes, P p := by
    intro p hp
    rcases hmem.mp hp with hp | rfl
    · exact hold p hp
    · exact hnew
  exact {
    keyed := hforall hc.keyed ⟨rfl, isOperatorId_iff.mp h.isOperatorId_id⟩
    ids_nodup := by
      rw [h.nodes_eq, List.map_append, List.map_singleton]
      refine hc.ids_nodup.append (List.nodup_singleton _) (List.disjoint_singleton.mpr ?_)
      intro hid
      obtain ⟨p, hp, hid⟩ := List.mem_map.mp hid
      simpa [hid] using List.lookup_eq_none_iff.mp h.id_free p hp
    mem_names_iff := by
      intro name
      rw [h.names_eq, List.mem_cons, hc.mem_names_iff]
      constructor
      · rintro (rfl | ⟨p, hp, hname⟩)
        · exact ⟨_, hmem.mpr (.inr rfl), rfl⟩
        · exact ⟨p, hmem.mpr (.inl hp), hname⟩
      · rintro ⟨p, hp, rfl⟩
        rcases hmem.mp hp with hp | rfl
        · exact .inr ⟨p, hp, rfl⟩
        · exact .inl rfl
    names_nodup := by
      rw [h.nodes_eq, List.map_append, List.map_singleton]
      refine hc.names_nodup.append (List.nodup_singleton _) (List.disjoint_singleton.mpr ?_)
      intro hname
      obtain ⟨p, hp, hname⟩ := List.mem_map.mp hname
      exact h.name_free ((hc.mem_names_iff _).mpr ⟨p, hp, hname⟩)
    operators := by
      refine hforall (fun p hp => ?_) ⟨hnode.nodup, ?_⟩
      · obtain ⟨hnodup, hfind⟩ := hc.operators p hp
        exact ⟨hnodup, fun op hop => h.extends _ _ (hfind op hop)⟩
      · -- An operator is found as the node itself, members of a set as before.
        cases node with
        | operator op =>
          intro op' hop
          obtain rfl := List.mem_singleton.mp hop
          rw [h.find_eq, if_pos (by rfl)]
        | set s => exact fun op hop => h.extends _ _ (hnode.members s rfl op hop)
    own := hforall hc.own hnode.own }

theorem Coherent.grows (hc : c.Coherent) (h : c.Grows d) : d.Coherent := by
  induction h with
  | refl => exact hc
  | tail _ hadd ih =>
    obtain ⟨node, hnode, hadd⟩ := hadd
    exact ih.adds hnode hadd

theorem coherent_empty : empty.Coherent := by
  constructor <;> simp [empty]

/-! ## What calls add -/

/-- Ids stand for operators that are known under their own ids. -/
theorem Coherent.find_of_expand {ids : List String} {ops : List Operator} (hc : c.Coherent)
    (h : c.expand ids = .ok ops) : ∀ op ∈ ops, c.find op.id = .ok (.operator op) := by
  obtain ⟨nodes, hnodes, rfl⟩ := exists_of_expand h
  intro op hop
  obtain ⟨n, hn, hop⟩ := List.mem_flatMap.mp hop
  obtain ⟨id, -, hfind⟩ := forall₂_exists_left hnodes hn
  exact (hc.operators _ (mem_nodes_of_find hfind)).2 op hop

/-- A set that is built has the id and name that it is given, and each member once. -/
theorem buildSet_eq_ok_iff {id name : String} {members : List String} {s : OperatorSet} :
    c.buildSet id name members = .ok s ↔
      ∃ ops, c.expand members = .ok ops ∧ s = ⟨id, name, firstByKey Operator.id ops⟩ := by
  rw [buildSet, Except.bind_eq_ok_iff]
  refine exists_congr fun ops => and_congr_right fun _ => ?_
  rw [Except.pure_eq_ok, Except.ok.injEq, eq_comm]

/-- Nodes with the ids of members of the library's sets are operators. -/
theorem Coherent.ids_of_member {s : String × String × List String} {m : String}
    {n : OperatorNode} (hc : c.Coherent) (hs : s ∈ Builtin.sets) (hm : m ∈ s.2.2)
    (h : c.find (qualify m) = .ok n) : n.operators.map Operator.id = [m] := by
  obtain ⟨hqualify, hspace, hother⟩ := (Builtin.members_of_sets s hs).2 m hm
  rw [hqualify] at h
  have hmem := mem_nodes_of_find h
  have hkey : m = n.id := (hc.keyed _ hmem).1
  have hown := hc.own _ hmem hspace
  cases n with
  | operator op => simp [OperatorNode.operators, hkey, OperatorNode.id]
  | set other => exact absurd hkey.symm (hother _ hown)

/-- A set of the library has all members that it should have. -/
theorem Coherent.ids_of_buildSet {id name : String} {members : List String} {s : OperatorSet}
    (hc : c.Coherent) (hs : (id, name, members) ∈ Builtin.sets)
    (h : c.buildSet id name members = .ok s) : s.operators.map Operator.id = members := by
  obtain ⟨ops, hops, rfl⟩ := buildSet_eq_ok_iff.mp h
  obtain ⟨nodes, hnodes, rfl⟩ := exists_of_expand hops
  have hids : members.map (fun m => [m]) = nodes.map fun n => n.operators.map Operator.id :=
    forall₂_map_eq ((List.forall₂_and_left _ _).mpr ⟨fun m hm => hm, hnodes⟩)
      fun m n hfound => (hc.ids_of_member hs hfound.1 hfound.2).symm
  have hflat : (nodes.flatMap OperatorNode.operators).map Operator.id = members := by
    rw [List.map_flatMap, List.flatMap_def, ← hids, ← List.flatMap_def, List.flatMap_singleton']
  show (firstByKey Operator.id (nodes.flatMap OperatorNode.operators)).map Operator.id = members
  rw [firstByKey_eq_self, hflat]
  rw [hflat]
  exact (Builtin.members_of_sets _ hs).1

/-! ## What the library adds -/

theorem admits_operator {op : Operator}
    (h : namespaceOf op.id = builtinNamespace → op ∈ Builtin.operators) :
    c.Admits (.operator op) where
  nodup := List.nodup_singleton _
  members s hs := by cases hs
  own := h

theorem Coherent.admits_set {id name : String} {members : List String} {s : OperatorSet}
    (hc : c.Coherent) (h : c.buildSet id name members = .ok s)
    (hown : namespaceOf id = builtinNamespace → (id, name, members) ∈ Builtin.sets) :
    c.Admits (.set s) := by
  obtain ⟨ops, hops, rfl⟩ := buildSet_eq_ok_iff.mp h
  refine ⟨nodup_firstByKey _ _, fun s' hs' => ?_, fun hspace => ?_⟩
  · cases hs'
    exact fun op hop => hc.find_of_expand hops op (mem_of_mem_firstByKey hop)
  · have hs := hown hspace
    rw [OperatorNode.IsBuiltin, hc.ids_of_buildSet hs h]
    exact hs

def Refuses (c : Catalog) (node : OperatorNode) : Prop :=
  ∀ d, ¬c.Adds node d

/-- A set of the library cannot be added: not all members are known, or its id or name is taken. -/
def RefusesSet (c : Catalog) (s : String × String × List String) : Prop :=
  ∀ built, c.buildSet s.1 s.2.1 s.2.2 = .ok built → c.Refuses (.set built)

theorem refuses_of_insert {internal : Bool} {err : SchemaError}
    (h : c.insert node internal = .error err)
    (hspace : internal = false → namespaceOf node.id ≠ builtinNamespace) : c.Refuses node := by
  intro d hadd
  rw [insert_eq_ok_iff.mpr ⟨hadd, hspace⟩] at h
  cases h

/-- The library adds an operator unless it is refused. -/
theorem installOperator_cases (c : Catalog) (op : Operator) :
    c.installOperator op = c ∧ c.Refuses (.operator op) ∨
      c.Adds (.operator op) (c.installOperator op) := by
  unfold installOperator
  cases h : c.insert (.operator op) true with
  | error err => exact .inl ⟨rfl, refuses_of_insert h nofun⟩
  | ok d => exact .inr (insert_eq_ok_iff.mp h).1

theorem installSet_cases (c : Catalog) (s : String × String × List String) :
    c.installSet s.1 s.2.1 s.2.2 = c ∧ c.RefusesSet s ∨
      ∃ built, c.buildSet s.1 s.2.1 s.2.2 = .ok built ∧
        c.Adds (.set built) (c.installSet s.1 s.2.1 s.2.2) := by
  unfold installSet RefusesSet
  cases hbuilt : c.buildSet s.1 s.2.1 s.2.2 with
  | error err => exact .inl ⟨rfl, fun built h => by cases h⟩
  | ok built =>
    rw [Except.ok_bind]
    cases h : c.insert (.set built) true with
    | error err =>
      refine .inl ⟨rfl, fun built' hbuilt' => ?_⟩
      cases hbuilt'
      exact refuses_of_insert h nofun
    | ok d => exact .inr ⟨built, rfl, (insert_eq_ok_iff.mp h).1⟩

/-- Steps that only add what agrees with a catalog add nothing else when they are taken one after
the other. -/
theorem Coherent.grows_foldl {α : Type} {f : Catalog → α → Catalog} {as : List α}
    (hf : ∀ a ∈ as, ∀ c : Catalog, c.Coherent → c.Grows (f c a)) (hc : c.Coherent) :
    c.Grows (as.foldl f c) := by
  induction as generalizing c with
  | nil => exact .refl
  | cons a as ih =>
    rw [List.forall_mem_cons] at hf
    have hfirst := hf.1 c hc
    exact hfirst.trans (ih hf.2 (hc.grows hfirst))

theorem installBuiltins_eq_foldl (c : Catalog) : c.installBuiltins =
    Builtin.sets.foldl (fun c s => c.installSet s.1 s.2.1 s.2.2)
      (Builtin.operators.foldl installOperator c) := by
  unfold installBuiltins
  rfl

theorem Coherent.grows_installBuiltins (hc : c.Coherent) : c.Grows c.installBuiltins := by
  have hops : c.Grows (Builtin.operators.foldl installOperator c) := by
    refine hc.grows_foldl fun op hop c _ => ?_
    rcases c.installOperator_cases op with ⟨hsame, -⟩ | hadd
    · rw [hsame]
      exact .refl
    · exact .single ⟨_, admits_operator fun _ => hop, hadd⟩
  rw [installBuiltins_eq_foldl]
  refine hops.trans ((hc.grows hops).grows_foldl fun s hs c hc => ?_)
  rcases c.installSet_cases s with ⟨hsame, -⟩ | ⟨built, hbuilt, hadd⟩
  · show c.Grows (c.installSet s.1 s.2.1 s.2.2)
    rw [hsame]
    exact .refl
  · exact .single ⟨_, hc.admits_set hbuilt fun _ => hs, hadd⟩

theorem coherent_builtin : builtin.Coherent :=
  coherent_empty.grows coherent_empty.grows_installBuiltins

/-! ## The library adds once -/

/-- The library has nothing to add to a catalog. -/
structure Settled (c : Catalog) : Prop where
  operators : ∀ op ∈ Builtin.operators, c.Refuses (.operator op)
  sets : ∀ s ∈ Builtin.sets, c.RefusesSet s

/-- An id or name that is taken stays taken. -/
theorem Refuses.adds {other : OperatorNode} (h : c.Refuses other) (hadd : c.Adds node d) :
    d.Refuses other := by
  intro e hother
  refine h ⟨c.nodes ++ [(other.id, other)], other.name :: c.names⟩
    ⟨rfl, rfl, hother.isOperatorId_id, ?_, fun hname => hother.name_free ?_⟩
  · have hfree := hother.id_free
    rw [hadd.nodes_eq, List.lookup_append, Option.or_eq_none_iff] at hfree
    exact hfree.1
  · rw [hadd.names_eq]
    exact List.mem_cons_of_mem _ hname

theorem Adds.refuses {other : OperatorNode} (h : c.Adds node d) (hid : other.id = node.id) :
    d.Refuses other := by
  intro e hother
  have hfree := hother.id_free
  rw [h.nodes_eq, List.lookup_append, hid] at hfree
  simp at hfree

/-- The members of a set decide what it becomes. -/
theorem buildSet_congr {id name : String} {members : List String}
    (h : ∀ m ∈ members, c.find (qualify m) = d.find (qualify m)) :
    c.buildSet id name members = d.buildSet id name members := by
  have hnodes : members.mapM (fun m => c.find (qualify m)) =
      members.mapM fun m => d.find (qualify m) := by
    induction members with
    | nil => rfl
    | cons m members ih =>
      rw [List.forall_mem_cons] at h
      rw [List.mapM_cons, List.mapM_cons, h.1, ih h.2]
  rw [buildSet, buildSet, expand, expand, hnodes]

/-- A set that cannot be added now cannot be added later, if no member of it is added. -/
theorem RefusesSet.adds {s : String × String × List String} (h : c.RefusesSet s)
    (hadd : c.Adds node d) (hother : ∀ m ∈ s.2.2, qualify m ≠ node.id) : d.RefusesSet s := by
  intro built hbuilt
  refine (h built ?_).adds hadd
  rw [← hbuilt]
  refine buildSet_congr fun m hm => ?_
  rw [hadd.find_eq, if_neg (hother m hm)]

/-- What others add does not make room for the library. -/
theorem Settled.adds (h : c.Settled) (hadd : c.Adds node d)
    (hspace : namespaceOf node.id ≠ builtinNamespace) : d.Settled where
  operators op hop := (h.operators op hop).adds hadd
  sets s hs := by
    refine (h.sets s hs).adds hadd fun m hm hid => hspace ?_
    obtain ⟨hqualify, hown, -⟩ := (Builtin.members_of_sets s hs).2 m hm
    rw [← hid, hqualify]
    exact hown

theorem foldl_eq_self {α σ : Type} {f : σ → α → σ} {as : List α} {s : σ}
    (h : ∀ a ∈ as, f s a = s) : as.foldl f s = s := by
  induction as with
  | nil => rfl
  | cons a as ih =>
    rw [List.forall_mem_cons] at h
    rw [List.foldl_cons, h.1, ih h.2]

/-- What holds of each item after its own step and is kept by the steps of others holds in the
end. -/
theorem forall_foldl {α σ : Type} {f : σ → α → σ} {P : α → σ → Prop} {as : List α}
    (hown : ∀ a ∈ as, ∀ s, P a (f s a)) (hkeep : ∀ a ∈ as, ∀ b ∈ as, ∀ s, P a s → P a (f s b))
    (s : σ) : ∀ a ∈ as, P a (as.foldl f s) := by
  induction as using List.reverseRecOn with
  | nil => nofun
  | append_singleton as b ih =>
    intro a ha
    rw [List.foldl_append, List.foldl_cons, List.foldl_nil]
    rcases List.mem_append.mp ha with ha | ha
    · refine hkeep a (List.mem_append_left _ ha) b (by simp) _ (ih ?_ ?_ a ha)
      · exact fun a ha => hown a (List.mem_append_left _ ha)
      · exact fun a ha b hb => hkeep a (List.mem_append_left _ ha) b (List.mem_append_left _ hb)
    · obtain rfl := List.mem_singleton.mp ha
      exact hown a (by simp) _

theorem Refuses.installOperator (h : c.Refuses node) (op : Operator) :
    (c.installOperator op).Refuses node := by
  rcases c.installOperator_cases op with ⟨hsame, -⟩ | hadd
  · rwa [hsame]
  · exact h.adds hadd

theorem Refuses.installSet (h : c.Refuses node) (s : String × String × List String) :
    (c.installSet s.1 s.2.1 s.2.2).Refuses node := by
  rcases c.installSet_cases s with ⟨hsame, -⟩ | ⟨built, -, hadd⟩
  · rwa [hsame]
  · exact h.adds hadd

theorem RefusesSet.installSet {s other : String × String × List String} (h : c.RefusesSet s)
    (hs : s ∈ Builtin.sets) (hother : other ∈ Builtin.sets) :
    (c.installSet other.1 other.2.1 other.2.2).RefusesSet s := by
  rcases c.installSet_cases other with ⟨hsame, -⟩ | ⟨built, hbuilt, hadd⟩
  · rwa [hsame]
  · obtain ⟨ops, -, rfl⟩ := buildSet_eq_ok_iff.mp hbuilt
    refine h.adds hadd fun m hm => ?_
    obtain ⟨hqualify, -, hne⟩ := (Builtin.members_of_sets s hs).2 m hm
    rw [hqualify]
    exact (hne other hother).symm

/-- After the library has added an operator it does not add it again. -/
theorem refuses_installOperator (c : Catalog) (op : Operator) :
    (c.installOperator op).Refuses (.operator op) := by
  rcases c.installOperator_cases op with ⟨hsame, hrefuses⟩ | hadd
  · rwa [hsame]
  · exact hadd.refuses rfl

theorem refusesSet_installSet (c : Catalog) (s : String × String × List String) :
    (c.installSet s.1 s.2.1 s.2.2).RefusesSet s := by
  rcases c.installSet_cases s with ⟨hsame, hrefuses⟩ | ⟨built, hbuilt, hadd⟩
  · rwa [hsame]
  · intro again hagain
    obtain ⟨ops, -, rfl⟩ := buildSet_eq_ok_iff.mp hbuilt
    obtain ⟨ops', -, rfl⟩ := buildSet_eq_ok_iff.mp hagain
    exact hadd.refuses rfl

/-- After the library has added its operators and sets it has nothing to add, whatever was there
before. -/
theorem settled_installBuiltins (c : Catalog) : c.installBuiltins.Settled := by
  have hops : ∀ op ∈ Builtin.operators,
      (Builtin.operators.foldl installOperator c).Refuses (.operator op) :=
    forall_foldl (P := fun op c => c.Refuses (.operator op))
      (fun op _ c => c.refuses_installOperator op)
      (fun _ _ other _ _ h => h.installOperator other) c
  rw [installBuiltins_eq_foldl]
  generalize Builtin.operators.foldl installOperator c = c at hops
  have hsets : ∀ s ∈ Builtin.sets,
      (Builtin.sets.foldl (fun c s => c.installSet s.1 s.2.1 s.2.2) c).RefusesSet s :=
    forall_foldl (P := fun s c => c.RefusesSet s)
      (fun s _ c => c.refusesSet_installSet s) (fun _ hs _ hother _ h => h.installSet hs hother) c
  refine ⟨fun op hop => ?_, hsets⟩
  generalize Builtin.sets = sets
  exact List.foldlRecOn (motive := (Refuses · (.operator op))) sets _ (hops op hop)
    fun _ h s _ => h.installSet s

theorem Settled.installBuiltins_eq (h : c.Settled) : c.installBuiltins = c := by
  have hops : Builtin.operators.foldl installOperator c = c :=
    foldl_eq_self fun op hop => by
      rcases c.installOperator_cases op with ⟨hsame, -⟩ | hadd
      · exact hsame
      · exact absurd hadd (h.operators op hop _)
  have hsets : Builtin.sets.foldl (fun c s => c.installSet s.1 s.2.1 s.2.2) c = c :=
    foldl_eq_self fun s hs => by
      rcases c.installSet_cases s with ⟨hsame, -⟩ | ⟨built, hbuilt, hadd⟩
      · exact hsame
      · exact absurd hadd (h.sets s hs built hbuilt _)
  rw [installBuiltins_eq_foldl]
  generalize Builtin.operators.foldl installOperator c = c' at hops
  rw [hops]
  exact hsets

end Catalog

/-! ## Calls -/

inductive CatalogCall where
  | register (op : Operator)
  | registerSet (id name : String) (members : List String)
  | install

namespace CatalogCall

variable {c d : Catalog}

/-- The catalog that a call leads to, if it is not refused. -/
def result (c : Catalog) : CatalogCall → Except SchemaError Catalog
  | register op => c.register op
  | registerSet id name members => (c.registerSet id name members).map Prod.fst
  | install => .ok c.installBuiltins

/-- The catalog after a call. It stays as it is if the call is refused. -/
def after (c : Catalog) (call : CatalogCall) : Catalog :=
  (call.result c).toOption.getD c

theorem after_of_error {call : CatalogCall} {err : SchemaError}
    (h : call.result c = .error err) : call.after c = c := by
  rw [after, h]
  rfl

theorem after_of_ok {call : CatalogCall} (h : call.result c = .ok d) : call.after c = d := by
  rw [after, h]
  rfl

theorem after_install : install.after c = c.installBuiltins := rfl

/-- What a call of others adds, if it adds anything: a node that agrees with the catalog, under a
namespace that is not the library's. -/
theorem after_cases (hc : c.Coherent) (call : CatalogCall) :
    call.after c = c ∨ call = install ∨ ∃ node, c.Admits node ∧ c.Adds node (call.after c) ∧
      namespaceOf node.id ≠ builtinNamespace := by
  cases hresult : call.result c with
  | error err => exact .inl (after_of_error hresult)
  | ok d =>
    rw [after_of_ok hresult]
    cases call with
    | install => exact .inr (.inl rfl)
    | register op =>
      obtain ⟨hadd, hspace⟩ := Catalog.insert_eq_ok_iff.mp hresult
      have hother := hspace rfl
      exact .inr (.inr ⟨_, Catalog.admits_operator fun hown => absurd hown hother, hadd, hother⟩)
    | registerSet id name members =>
      obtain ⟨⟨d', s⟩, hset, rfl⟩ := Except.map_eq_ok_iff.mp hresult
      obtain ⟨built, hbuilt, hset⟩ := Except.bind_eq_ok_iff.mp hset
      obtain ⟨d', hinsert, hset⟩ := Except.bind_eq_ok_iff.mp hset
      cases hset
      obtain ⟨hadd, hspace⟩ := Catalog.insert_eq_ok_iff.mp hinsert
      have hother := hspace rfl
      have hid : namespaceOf id = namespaceOf (OperatorNode.set s).id := by
        obtain ⟨ops, -, rfl⟩ := Catalog.buildSet_eq_ok_iff.mp hbuilt
        rfl
      exact .inr (.inr ⟨_, hc.admits_set hbuilt fun hown => absurd (hid ▸ hown) hother, hadd,
        hother⟩)

/-- Calls add nodes that agree with the catalog, and nothing else. -/
theorem grows_after (hc : c.Coherent) (call : CatalogCall) : c.Grows (call.after c) := by
  rcases after_cases hc call with hsame | hinstall | ⟨node, hnode, hadd, -⟩
  · rw [hsame]
    exact .refl
  · rw [hinstall, after_install]
    exact hc.grows_installBuiltins
  · exact .single ⟨node, hnode, hadd⟩

/-- A call leaves the library nothing to add if it had nothing to add before, or if it was the
library that added. -/
theorem settled_after (hc : c.Coherent) (call : CatalogCall) (h : c.Settled ∨ call = install) :
    (call.after c).Settled := by
  by_cases hinstall : call = install
  · rw [hinstall, after_install]
    exact c.settled_installBuiltins
  · have hsettled := h.resolve_right hinstall
    rcases after_cases hc call with hsame | hself | ⟨node, -, hadd, hspace⟩
    · rwa [hsame]
    · exact absurd hself hinstall
    · exact hsettled.adds hadd hspace

def afterAll (c : Catalog) (calls : List CatalogCall) : Catalog :=
  calls.foldl after c

theorem grows_afterAll (hc : c.Coherent) (calls : List CatalogCall) : c.Grows (afterAll c calls) :=
  hc.grows_foldl fun call _ _ hc => grows_after hc call

theorem settled_afterAll (hc : c.Coherent) {calls : List CatalogCall}
    (h : c.Settled ∨ install ∈ calls) : (afterAll c calls).Settled := by
  induction calls generalizing c with
  | nil => exact h.resolve_right nofun
  | cons call calls ih =>
    refine ih (hc.grows (grows_after hc call)) ?_
    rw [List.mem_cons] at h
    rcases h with h | rfl | h
    · exact .inl (settled_after hc call (.inl h))
    · exact .inl (settled_after hc _ (.inr rfl))
    · exact .inr h

end CatalogCall

open CatalogCall (afterAll) in
/-- Whatever operators and sets are registered by the library and others, in any order, beginning
without anything or with what the library adds: nodes, names, sets and what belongs to the library
agree; what is known stays known; a call that is refused changes nothing; and the library adds
nothing after it has added once. -/
theorem Catalog.coherent_of_calls {start : Catalog} (h : start = .empty ∨ start = .builtin)
    (calls : List CatalogCall) :
    (afterAll start calls).Coherent ∧
    (∀ more, (afterAll start calls).Extends (afterAll start (calls ++ more))) ∧
    (∀ call err, CatalogCall.result (afterAll start calls) call = .error err →
      CatalogCall.after (afterAll start calls) call = afterAll start calls) ∧
    (start = .builtin ∨ .install ∈ calls →
      (afterAll start calls).installBuiltins = afterAll start calls) := by
  have hstart : start.Coherent := by
    rcases h with rfl | rfl
    · exact coherent_empty
    · exact coherent_builtin
  have hc := hstart.grows (CatalogCall.grows_afterAll hstart calls)
  refine ⟨hc, fun more => ?_, fun _ _ => CatalogCall.after_of_error, fun hinstalled => ?_⟩
  · rw [afterAll, afterAll, List.foldl_append]
    exact (CatalogCall.grows_afterAll hc more).extends
  · refine (CatalogCall.settled_afterAll hstart (hinstalled.imp_left ?_)).installBuiltins_eq
    rintro rfl
    exact settled_installBuiltins .empty

/-! ## A name that is taken before the library adds its own -/

namespace Atlas

/-- Places that are the same take the name of an operator of the library, which is added later. -/
def calls : List CatalogCall :=
  [.register ⟨"geo.SAME", "equal", .single⟩, .install,
    .registerSet "geo.SGEO" "filters of places" ["geo.SAME", "SNULLABLE", "ISN"],
    .register ⟨"builtin.EQ", "equals", .multiple⟩]

/-- Then the library lacks this operator and the sets that it belongs to for ever. -/
theorem equal_is_taken :
    (CatalogCall.afterAll .empty calls).Coherent ∧
    (CatalogCall.afterAll .empty calls).installBuiltins = CatalogCall.afterAll .empty calls ∧
    ((CatalogCall.afterAll .empty calls).find "builtin.EQ").toOption = none ∧
    ((CatalogCall.afterAll .empty calls).find "builtin.SINT").toOption = none ∧
    ((CatalogCall.afterAll .empty calls).find "geo.SGEO").toOption =
      some (.set ⟨"geo.SGEO", "filters of places", [⟨"geo.SAME", "equal", .single⟩,
        ⟨Builtin.isNull, "is null", .none⟩, ⟨Builtin.isNotNull, "is not null", .none⟩]⟩) := by
  obtain ⟨hcoherent, -, -, hinstall⟩ := Catalog.coherent_of_calls (.inl rfl) calls
  have hinstalled : .install ∈ calls := by simp [calls]
  exact ⟨hcoherent, hinstall (.inr hinstalled), by decide +kernel⟩

end Atlas

end TableQuery
