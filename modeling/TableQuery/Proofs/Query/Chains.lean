import Mathlib.Data.List.Perm.Subperm
import Mathlib.Data.Nat.Find
import TableQuery.Proofs.Query.Groups
import TableQuery.Proofs.Query.Lookup
import TableQuery.Proofs.Registry.Registered

/-!
# Chains of questions

A question about one column that is linked in its turn becomes a question to the next table, with
the same operators and values. The questions that follow each other so form a chain.

## Main definitions

* `Template.OnColumn` — a question about one column.
* `Template.onward?`, `Template.after` — the next question of a chain, and a later one.
* `Registry.Sends` — a question that a link of a registered table sends.
* `Template.Ends`, `Template.Returns` — a chain ends, or comes to a column a second time.

## Main results

* `Template.ends_iff_not_returns` — a chain ends if it never comes to a column a second time.
* `Template.after_columnCount` — then it has at most as many questions as there are columns.
-/

namespace TableQuery

theorem Table.hasLink_of_linkOf? {t : Table} {condition : Condition} {l : Link}
    (h : t.linkOf? condition = some l) : t.HasLink l := by
  obtain ⟨c, hc, hl⟩ := Option.bind_eq_some_iff.mp h
  exact ⟨_, c, hc, hl⟩

namespace Template

/-- All conditions are on one column, and there are some. -/
def OnColumn (template : Template) (column : String) : Prop :=
  template.body.filter ≠ [] ∧ ∀ condition ∈ template.body.filter, condition.column = column

/-- The question to the next table that the first condition of a question becomes with all that
are on its column. -/
def onward? (r : Registry) (template : Template) : Option Template := do
  let t ← r.table? template.table
  let first ← template.body.filter.head?
  let l ← t.linkOf? first
  if t.validate template matches .ok () then
    some (LinkGroup.template ⟨l, template.body.filter⟩)
  else none

/-- A later question of the chain that begins with a question. -/
def after (r : Registry) (template : Template) : Nat → Option Template
  | 0 => some template
  | n + 1 => (after r template n).bind (onward? r)

def place (template : Template) : String × Option String :=
  (template.table, template.body.filter.head?.map Condition.column)

def asked (template : Template) : List (String × List Value) :=
  template.body.filter.map fun condition => (condition.operator, condition.values)

/-- The chain comes to an end. -/
def Ends (r : Registry) (template : Template) : Prop :=
  ∃ n, template.after r n = none

/-- Two questions of the chain are about the same column. -/
def Returns (r : Registry) (template : Template) : Prop :=
  ∃ i j a b, i < j ∧ template.after r i = some a ∧ template.after r j = some b ∧ a.place = b.place

end Template

/-- A question that a link of a registered table sends: it is about one column, and asks for the
columns of the link. -/
def Registry.Sends (r : Registry) (template : Template) : Prop :=
  ∃ id t l, r.table? id = some t ∧ t.HasLink l ∧ template.table = l.table ∧
    template.body.output = l.output ∧ ∃ there, template.OnColumn there

variable {r : Registry} {template next : Template} {t : Table}

namespace Template

theorem onward?_eq_some_iff :
    template.onward? r = some next ↔ ∃ t first l, r.table? template.table = some t ∧
      template.body.filter.head? = some first ∧ t.linkOf? first = some l ∧
      t.validate template = .ok () ∧ next = LinkGroup.template ⟨l, template.body.filter⟩ := by
  simp only [onward?, Option.bind_eq_bind, Option.bind_eq_some_iff]
  constructor
  · rintro ⟨t, ht, first, hfirst, l, hl, h⟩
    split at h
    · next hv => exact ⟨t, first, l, ht, hfirst, hl, by simpa using hv, (Option.some.inj h).symm⟩
    · cases h
  · rintro ⟨t, first, l, ht, hfirst, hl, hv, rfl⟩
    exact ⟨t, ht, first, hfirst, l, hl, by simp [hv]⟩

/-- Along a chain the operators and values stay the same. -/
theorem asked_of_onward? (h : template.onward? r = some next) : next.asked = template.asked := by
  obtain ⟨-, -, l, -, -, -, -, rfl⟩ := onward?_eq_some_iff.mp h
  simp [asked, LinkGroup.template, temporary]

/-- A question about one column is given by the column and what is asked about it. -/
theorem OnColumn.filter_eq {column : String} (h : template.OnColumn column) :
    template.body.filter = template.asked.map fun p => ⟨column, p.1, p.2⟩ := by
  rw [asked, List.map_map]
  refine (List.map_id _).symm.trans (List.map_congr_left fun condition hc => ?_)
  simp [← h.2 condition hc]

theorem OnColumn.place_eq {column : String} (h : template.OnColumn column) :
    template.place = (template.table, some column) := by
  obtain ⟨hne, hall⟩ := h
  cases hf : template.body.filter with
  | nil => exact absurd hf hne
  | cons first rest => simp [place, hf, hall first (by simp [hf])]

end Template

theorem LinkGroup.onColumn_template {g : LinkGroup} (h : g.members ≠ []) :
    g.template.OnColumn g.link.valueColumn := by
  constructor
  · exact fun hnil => h (List.map_eq_nil_iff.mp hnil)
  · intro condition hc
    obtain ⟨m, -, rfl⟩ := List.mem_map.mp hc
    rfl

namespace Registry

theorem Sends.onColumn (h : r.Sends template) : ∃ column, template.OnColumn column := by
  obtain ⟨-, -, -, -, -, -, -, h⟩ := h
  exact h

/-- A link sends the next question of a chain. -/
theorem sends_of_onward? (h : template.onward? r = some next) : r.Sends next := by
  obtain ⟨t, first, l, ht, hfirst, hl, -, rfl⟩ := Template.onward?_eq_some_iff.mp h
  refine ⟨_, t, l, ht, Table.hasLink_of_linkOf? hl, rfl, rfl, _,
    LinkGroup.onColumn_template fun hnil => ?_⟩
  have hnil : template.body.filter = [] := hnil
  rw [hnil] at hfirst
  cases hfirst

/-- The question of a group is sent by a link of the table. -/
theorem sends_of_mem_linkedConditions {id : String} (ht : r.table? id = some t)
    {conditions : List Condition} {g : LinkGroup}
    (hg : g ∈ LinkGroup.collect (t.linkedConditions conditions)) : r.Sends g.template := by
  obtain ⟨m, -, hlink⟩ := Table.exists_mem_members hg
  exact ⟨id, t, _, ht, Table.hasLink_of_linkOf? hlink, rfl, rfl, _,
    LinkGroup.onColumn_template (LinkGroup.members_ne_nil hg)⟩

/-- The columns that a link asks for are there, so that only conditions can be refused. -/
theorem Sends.validate_iff (hs : r.Sends template) (hr : r.Linked)
    (ht : r.table? template.table = some t) :
    t.validate template = .ok () ↔ t.validateFilter template.body.filter = .ok () := by
  obtain ⟨id, sender, l, hsender, hl, htable, houtput, -⟩ := hs
  obtain ⟨here, remote, search, value, hleads⟩ := hr id sender hsender l hl
  rw [htable, hleads.remote_eq] at ht
  obtain rfl := Option.some.inj ht
  have hplain : ∀ d : Column, d.supportsAggregate .none = true := fun d => by
    simp [Column.supportsAggregate]
  have hsearch := Table.column_eq_ok_iff.mpr hleads.search_eq
  have hvalue := Table.column_eq_ok_iff.mpr hleads.value_eq
  have hout : remote.validateOutput [] template.body.output = .ok () := by
    rw [houtput, Link.output]
    split
    · simp [Table.validateOutput, OutputColumn.plain, hsearch, hplain]
    · next hne => simp [Table.validateOutput, OutputColumn.plain, hsearch, hvalue, hplain, hne]
  have hne : template.body.output ≠ [] := by
    rw [houtput, Link.output]
    split <;> simp
  rw [Table.validate_eq_ok_iff]
  exact and_iff_left ⟨hne, hout⟩

/-- Questions that links send about the same column lead to the same next question. -/
theorem Sends.onward?_eq {a b : Template} (ha : r.Sends a) (hb : r.Sends b) (hr : r.Linked)
    (hplace : a.place = b.place) (hasked : a.asked = b.asked) : a.onward? r = b.onward? r := by
  obtain ⟨c, hac⟩ := ha.onColumn
  obtain ⟨d, hbd⟩ := hb.onColumn
  rw [hac.place_eq, hbd.place_eq] at hplace
  obtain ⟨htable, hcd⟩ := Prod.mk.inj hplace
  obtain rfl := Option.some.inj hcd
  have hfilter : a.body.filter = b.body.filter := by
    rw [hac.filter_eq, hbd.filter_eq, hasked]
  ext next
  rw [Template.onward?_eq_some_iff, Template.onward?_eq_some_iff, htable, hfilter]
  refine exists_congr fun t => exists_congr fun first => exists_congr fun l => ?_
  refine and_congr_right fun ht => ?_
  rw [ha.validate_iff hr (htable ▸ ht), hb.validate_iff hr ht, hfilter]

def places (r : Registry) : List (String × Option String) :=
  r.tables.flatMap fun t => t.columns.map fun c => (t.id, some c.id)

theorem length_places (r : Registry) :
    r.places.length = (r.tables.flatMap Table.columns).length := by
  simp [places, List.length_flatMap]

end Registry

namespace Template

theorem after_add (m n : Nat) :
    template.after r (m + n) = (template.after r m).bind fun s => s.after r n := by
  induction n with
  | zero => simp [after]
  | succ n ih =>
    rw [← Nat.add_assoc, after, ih]
    cases template.after r m <;> rfl

theorem after_eq_none_of_le {m n : Nat} (h : template.after r m = none) (hmn : m ≤ n) :
    template.after r n = none := by
  obtain ⟨k, rfl⟩ := Nat.exists_eq_add_of_le hmn
  rw [after_add, h]
  rfl

/-- Every question of a chain is sent by a link and asks the same. -/
theorem sends_of_after (hs : r.Sends template) {n : Nat} {s : Template}
    (h : template.after r n = some s) : r.Sends s ∧ s.asked = template.asked := by
  induction n generalizing s with
  | zero =>
    obtain rfl := Option.some.inj h
    exact ⟨hs, rfl⟩
  | succ n ih =>
    obtain ⟨before, hbefore, hnext⟩ := Option.bind_eq_some_iff.mp h
    exact ⟨Registry.sends_of_onward? hnext, (asked_of_onward? hnext).trans (ih hbefore).2⟩

/-- A question that goes on is about a column of a table. -/
theorem place_mem_places (h : template.onward? r = some next) :
    template.place ∈ r.places := by
  obtain ⟨t, first, l, ht, hfirst, hl, -, -⟩ := onward?_eq_some_iff.mp h
  obtain ⟨c, hc, -⟩ := Option.bind_eq_some_iff.mp hl
  refine List.mem_flatMap.mpr ⟨t, List.mem_of_find?_eq_some ht, List.mem_map.mpr ⟨c, ?_, ?_⟩⟩
  · exact Table.mem_of_column? hc
  · rw [place, hfirst, Registry.table?_id ht, Option.map_some, Table.column?_id hc]

/-- A chain that comes to a column a second time goes on as it did the first time. -/
theorem not_ends_of_returns (hs : r.Sends template) (hr : r.Linked) (h : template.Returns r) :
    ¬template.Ends r := by
  obtain ⟨i, j, a, b, hij, ha, hb, hplace⟩ := h
  intro hends
  obtain ⟨hsa, haa⟩ := sends_of_after hs ha
  obtain ⟨hsb, hab⟩ := sends_of_after hs hb
  have hsame : template.after r (i + 1) = template.after r (j + 1) := by
    rw [after, after, ha, hb, Option.bind_some, Option.bind_some]
    exact hsa.onward?_eq hsb hr hplace (haa.trans hab.symm)
  -- The first end is behind the second visit, and the same end is behind the first visit.
  classical
  obtain ⟨hend, hfirst⟩ := And.intro (Nat.find_spec hends) fun m => Nat.find_min hends (m := m)
  generalize Nat.find hends = n at hend hfirst
  have hjn : j + 1 ≤ n := by
    by_contra hlt
    have := after_eq_none_of_le hend (Nat.le_of_not_lt hlt)
    rw [hb] at this
    cases this
  obtain ⟨k, rfl⟩ := Nat.exists_eq_add_of_le hjn
  refine hfirst (i + 1 + k) (by omega) ?_
  rw [after_add, hsame, ← after_add]
  exact hend

/-- A chain that never comes to a column a second time has at most as many questions that go on as
there are columns. -/
theorem after_columnCount (h : ¬template.Returns r) :
    template.after r ((r.tables.flatMap Table.columns).length + 1) = none := by
  by_contra hsome
  have hchain : ∀ i < r.places.length + 1, ∃ s, template.after r i = some s ∧
      s.place ∈ r.places := by
    intro i hi
    rw [← Registry.length_places] at hsome
    cases hs' : template.after r (i + 1) with
    | none => exact absurd (after_eq_none_of_le hs' hi) hsome
    | some next =>
      obtain ⟨s, hsi, hnext⟩ := Option.bind_eq_some_iff.mp hs'
      exact ⟨s, hsi, place_mem_places hnext⟩
  choose! s hsi hplace using hchain
  have hnodup : ((List.range (r.places.length + 1)).map fun i => (s i).place).Nodup := by
    refine List.Nodup.map_on ?_ List.nodup_range
    intro i hi j hj hij
    have hi := List.mem_range.mp hi
    have hj := List.mem_range.mp hj
    rcases Nat.lt_trichotomy i j with hlt | heq | hlt
    · exact absurd ⟨i, j, s i, s j, hlt, hsi i hi, hsi j hj, hij⟩ h
    · exact heq
    · exact absurd ⟨j, i, s j, s i, hlt, hsi j hj, hsi i hi, hij.symm⟩ h
  have hsub : ((List.range (r.places.length + 1)).map fun i => (s i).place) ⊆ r.places := by
    intro p hp
    obtain ⟨i, hi, rfl⟩ := List.mem_map.mp hp
    exact hplace i (List.mem_range.mp hi)
  have hle := (List.subperm_of_subset hnodup hsub).length_le
  rw [List.length_map, List.length_range] at hle
  omega

/-- A chain ends if it never comes to a column a second time. -/
theorem ends_iff_not_returns (hs : r.Sends template) (hr : r.Linked) :
    template.Ends r ↔ ¬template.Returns r := by
  constructor
  · exact fun h hreturns => not_ends_of_returns hs hr hreturns h
  · exact fun h => ⟨_, after_columnCount h⟩

end Template

end TableQuery
