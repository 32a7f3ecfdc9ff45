import TableQuery.Proofs.Operator.Coherence
import TableQuery.Proofs.Schema.Compiled

/-!
# Operators of the library itself

A catalog that was built by the operations on catalogs holds no other operators under the
namespace of the library than those of the library. What a column offers under that namespace is
then one of them, with its number of values.

## Main definitions

* `Catalog.Built` — the catalogs that the operations lead to.
* `Catalog.Sound`, `Column.Sound` — only the library's own operators are under its namespace.

## Main results

* `Catalog.Built.coherent`, `Catalog.Built.sound` — such catalogs are coherent, hence sound.
* `TableSpec.sound_of_compile` — so are the columns of tables.
-/

namespace TableQuery

/-- An operator is one of the library itself if it is under the namespace of the library. -/
def Operator.Sound (op : Operator) : Prop :=
  namespaceOf op.id = builtinNamespace → op ∈ Builtin.operators

namespace Catalog

/-- The catalogs that the operations lead to. -/
inductive Built : Catalog → Prop where
  | empty : Built empty
  | installBuiltins {c : Catalog} (h : Built c) : Built c.installBuiltins
  | register {c d : Catalog} {op : Operator} (h : Built c) (hd : c.register op = .ok d) : Built d
  | registerSet {c d : Catalog} {s : OperatorSet} {id name : String} {members : List String}
      (h : Built c) (hd : c.registerSet id name members = .ok (d, s)) : Built d

theorem built_builtin : builtin.Built := by
  unfold builtin
  exact .installBuiltins .empty

def Sound (c : Catalog) : Prop :=
  ∀ p ∈ c.nodes, ∀ op ∈ p.2.operators, op.Sound

variable {c : Catalog}

theorem Built.coherent (h : c.Built) : c.Coherent := by
  have hcall {c d : Catalog} (call : CatalogCall) (hc : c.Coherent) (hd : call.result c = .ok d) :
      d.Coherent :=
    CatalogCall.after_of_ok hd ▸ hc.grows (CatalogCall.grows_after hc call)
  induction h with
  | empty => exact coherent_empty
  | installBuiltins _ ih => exact ih.grows ih.grows_installBuiltins
  | @register _ _ op _ hd ih => exact hcall (.register op) ih hd
  | @registerSet _ _ _ id name members _ hd ih =>
    exact hcall (.registerSet id name members) ih (Except.map_eq_ok_iff.mpr ⟨_, hd, rfl⟩)

theorem Built.after (h : c.Built) (call : CatalogCall) : (call.after c).Built := by
  cases hresult : call.result c with
  | error err =>
    rw [CatalogCall.after_of_error hresult]
    exact h
  | ok d =>
    rw [CatalogCall.after_of_ok hresult]
    cases call with
    | register op => exact h.register hresult
    | registerSet id name members =>
      obtain ⟨⟨_, s⟩, hset, rfl⟩ := Except.map_eq_ok_iff.mp hresult
      exact h.registerSet hset
    | install =>
      cases hresult
      exact h.installBuiltins

theorem Built.afterAll (h : c.Built) (calls : List CatalogCall) :
    (CatalogCall.afterAll c calls).Built := by
  induction calls generalizing c with
  | nil => exact h
  | cons call calls ih => exact ih (h.after call)

/-- An operator that a node stands for is a node itself, and under the namespace of the library
this is one of the library. -/
theorem Coherent.sound (hc : c.Coherent) : c.Sound := by
  intro p hp op hop hspace
  have hmem := mem_nodes_of_find ((hc.operators p hp).2 op hop)
  exact hc.own _ hmem hspace

theorem Built.sound (h : c.Built) : c.Sound := h.coherent.sound

theorem Sound.expand {ids : List String} {ops : List Operator} (hc : c.Sound)
    (h : c.expand ids = .ok ops) : ∀ op ∈ ops, op.Sound := by
  obtain ⟨nodes, hnodes, rfl⟩ := exists_of_expand h
  intro op hop
  obtain ⟨n, hn, hop⟩ := List.mem_flatMap.mp hop
  obtain ⟨id, -, hfind⟩ := forall₂_exists_left hnodes hn
  exact hc _ (mem_nodes_of_find hfind) op hop

theorem Sound.resolveFilters {declaration : String} {ops : List Operator} (hc : c.Sound)
    (h : c.resolveFilters declaration = .ok ops) : ∀ op ∈ ops, op.Sound := by
  unfold Catalog.resolveFilters at h
  obtain ⟨all, hall, h⟩ := Except.bind_eq_ok_iff.mp h
  cases h
  intro op hop
  exact hc.expand hall op (mem_of_mem_firstByKey (mem_of_mem_sortByKey hop))

end Catalog

/-- What a column offers under the namespace of the library is an operator of the library. -/
def Column.Sound (c : Column) : Prop :=
  ∀ op ∈ c.filters, op.Sound

theorem FieldSpec.sound_of_compile {f : FieldSpec} {v : Vocabulary} {c : Column}
    (hv : v.operators.Sound) (h : f.compile v = .ok c) : c.Sound := by
  have hfilters := (makes_of_compile h).filters_eq
  unfold FieldSpec.columnFilters at hfilters
  split at hfilters
  · intro op hop
    rw [← Except.ok.inj hfilters] at hop
    cases hop
  · exact hv.resolveFilters hfilters

/-- The columns of a table offer only the library's own operators under its namespace. -/
theorem TableSpec.sound_of_compile {s : TableSpec} {v : Vocabulary} {t : Table}
    (hv : v.operators.Built) (h : s.compile v = .ok t) : ∀ c ∈ t.columns, c.Sound := by
  obtain ⟨columns, key, hcolumns, -, -, rfl⟩ := compile_eq_ok_iff.mp h
  obtain ⟨hmade, -⟩ := compileFields_shown_eq_ok_iff.mp hcolumns
  intro c hc
  obtain ⟨f, -, hf⟩ := forall₂_exists_left hmade hc
  exact FieldSpec.sound_of_compile hv.sound hf

end TableQuery
