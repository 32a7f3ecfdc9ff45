import TableQuery.Proofs.Driver.Memory
import TableQuery.Proofs.Query.Groups
import TableQuery.Query.Find

/-!
# Conditions apart

The conditions of a template are those on columns of its table, which become conditions on raw
values, and those on linked columns, which stay as they are.

## Main definitions

* `Table.linkOf?`, `Table.linkedConditions` — the conditions on linked columns, with their links.
* `Table.Stores` — a column is not filled from another table.
* `Memory.Meets` — a condition of a template holds on a row.

## Main results

* `Table.linked_of_split` — which conditions are linked.
* `Table.linkOf?_of_mem_members` — which of them are in a group.
* `Table.accepts_direct_iff` — the raw conditions hold where the conditions do.
-/

namespace TableQuery

/-- A condition of a template holds on a row: the raw values that its values stand for do what
the operator says. -/
def Memory.Meets (m : Memory) (now : Moment) (t : Table) (row : StoredRow) (column : String)
    (condition : Condition) : Prop :=
  ∃ c, t.column? column = some c ∧ ∃ values, Table.nativeValues c condition.values = .ok values ∧
    m.evaluate now c condition.operator ((row.get? c).getD .null) values = .ok true

namespace Table

/-- The link that answers a condition, if it is on a column of another table. -/
def linkOf? (t : Table) (condition : Condition) : Option Link :=
  (t.column? condition.column).bind Column.outboundLink?

/-- The column of a name is not filled from another table. -/
def Stores (t : Table) (column : String) : Prop :=
  ∀ c, t.column? column = some c → c.outboundLink? = none

def linkedConditions (t : Table) (conditions : List Condition) : List (Link × Condition) :=
  conditions.filterMap fun condition => (t.linkOf? condition).map fun link => (link, condition)

variable {t : Table} {conditions : List Condition} {direct : List RawCondition}
  {linked : List (Link × Condition)}

/-- How the conditions are taken apart, from the first one on. -/
theorem split_cons_eq_ok_iff {condition : Condition} :
    t.split (condition :: conditions) = .ok (direct, linked) ↔
      ∃ c direct' linked', t.column? condition.column = some c ∧
        t.split conditions = .ok (direct', linked') ∧
        ((∃ link, c.outboundLink? = some link ∧ direct = direct' ∧
            linked = (link, condition) :: linked') ∨
          (c.outboundLink? = none ∧ ∃ values, nativeValues c condition.values = .ok values ∧
            direct = ⟨c.id, condition.operator, values⟩ :: direct' ∧ linked = linked')) := by
  simp only [split, Except.bind_eq_ok_iff, column_eq_ok_iff]
  constructor
  · rintro ⟨c, hc, h⟩
    split at h
    · next link hlink =>
      simp only [Except.bind_eq_ok_iff, Prod.exists, Except.pure_eq_ok, Except.ok.injEq,
        Prod.mk.injEq] at h
      obtain ⟨direct', linked', hs, rfl, rfl⟩ := h
      exact ⟨c, _, linked', hc, hs, .inl ⟨link, hlink, rfl, rfl⟩⟩
    · next hlink =>
      simp only [Except.bind_eq_ok_iff, Prod.exists, Except.pure_eq_ok, Except.ok.injEq,
        Prod.mk.injEq] at h
      obtain ⟨values, hv, direct', linked', hs, rfl, rfl⟩ := h
      exact ⟨c, direct', _, hc, hs, .inr ⟨hlink, values, hv, rfl, rfl⟩⟩
  · rintro ⟨c, direct', linked', hc, hs, ⟨link, hlink, rfl, rfl⟩ | ⟨hlink, values, hv, rfl, rfl⟩⟩
    · exact ⟨c, hc, by simp [hlink, hs]⟩
    · exact ⟨c, hc, by simp [hlink, hs, hv]⟩

/-- The linked conditions are those on columns with links. -/
theorem linked_of_split (h : t.split conditions = .ok (direct, linked)) :
    linked = t.linkedConditions conditions := by
  induction conditions generalizing direct linked with
  | nil =>
    simp only [split, Except.ok.injEq, Prod.mk.injEq] at h
    exact h.2.symm
  | cons condition conditions ih =>
    obtain ⟨c, direct', linked', hc, hs, h⟩ := split_cons_eq_ok_iff.mp h
    have hrest := ih hs
    rcases h with ⟨link, hlink, -, rfl⟩ | ⟨hlink, values, -, -, rfl⟩
    · simp [linkedConditions, linkOf?, hc, hlink, hrest]
    · simp [linkedConditions, linkOf?, hc, hlink, hrest]

theorem mem_linkedConditions_iff {link : Link} {condition : Condition} :
    (link, condition) ∈ t.linkedConditions conditions ↔
      condition ∈ conditions ∧ t.linkOf? condition = some link := by
  simp [linkedConditions]

theorem linkOf?_of_mem_members {g : LinkGroup}
    (hg : g ∈ LinkGroup.collect (t.linkedConditions conditions)) {condition : Condition}
    (hm : condition ∈ g.members) :
    condition ∈ conditions ∧ ∃ l, t.linkOf? condition = some l ∧ g.link.sameLookup l = true := by
  rw [(LinkGroup.eq_led_of_mem hg).1] at hm
  obtain ⟨⟨l, condition⟩, hp, rfl⟩ := List.mem_map.mp hm
  obtain ⟨hp, hsame⟩ := List.mem_filter.mp hp
  obtain ⟨hc, hl⟩ := mem_linkedConditions_iff.mp hp
  exact ⟨hc, l, hl, hsame⟩

theorem exists_mem_members {g : LinkGroup}
    (hg : g ∈ LinkGroup.collect (t.linkedConditions conditions)) :
    ∃ condition ∈ g.members, t.linkOf? condition = some g.link := by
  obtain ⟨heq, hlink⟩ := LinkGroup.eq_led_of_mem hg
  obtain ⟨⟨l, condition⟩, hp, rfl⟩ := List.mem_map.mp hlink
  refine ⟨condition, ?_, (mem_linkedConditions_iff.mp hp).2⟩
  rw [heq]
  exact List.mem_map_of_mem (List.mem_filter.mpr ⟨hp, Link.sameLookup_refl _⟩)

theorem stored_of_split (h : t.split conditions = .ok (direct, linked)) {raw : RawCondition}
    (hraw : raw ∈ direct) : ∃ c, t.column? raw.column = some c ∧ c.outboundLink? = none := by
  induction conditions generalizing direct linked with
  | nil =>
    cases h
    cases hraw
  | cons condition conditions ih =>
    obtain ⟨c, direct', linked', hc, hs, h⟩ := split_cons_eq_ok_iff.mp h
    rcases h with ⟨_, _, rfl, _⟩ | ⟨hlink, values, _, rfl, _⟩
    · exact ih hs hraw
    · rcases List.mem_cons.mp hraw with rfl | hraw
      · exact ⟨c, by rw [column?_id hc, hc], hlink⟩
      · exact ih hs hraw

/-- The raw conditions hold on a row where the conditions of the table itself do. -/
theorem accepts_direct_iff {m : Memory} {now : Moment} {row : StoredRow}
    (h : t.split conditions = .ok (direct, linked)) :
    (∀ raw ∈ direct, m.Accepts now t row raw) ↔
      ∀ condition ∈ conditions, t.linkOf? condition = none →
        m.Meets now t row condition.column condition := by
  induction conditions generalizing direct linked with
  | nil =>
    simp only [split, Except.ok.injEq, Prod.mk.injEq] at h
    simp [← h.1]
  | cons condition conditions ih =>
    obtain ⟨c, direct', linked', hc, hs, h⟩ := split_cons_eq_ok_iff.mp h
    have hrest := ih hs
    rcases h with ⟨link, hlink, rfl, -⟩ | ⟨hlink, values, hv, rfl, -⟩
    · simp [linkOf?, hc, hlink, hrest]
    · have hid := column?_id hc
      have hfirst : m.Accepts now t row ⟨c.id, condition.operator, values⟩ ↔
          m.Meets now t row condition.column condition := by
        simp [Memory.Accepts, Memory.Meets, hid, hc, hv]
      rw [List.forall_mem_cons, hfirst, hrest, List.forall_mem_cons]
      simp [linkOf?, hc, hlink]

end Table

end TableQuery
