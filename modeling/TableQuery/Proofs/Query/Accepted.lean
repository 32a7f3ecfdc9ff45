import TableQuery.Proofs.Query.Chains
import TableQuery.Proofs.Query.Offered
import TableQuery.Proofs.Registry.Settled

/-!
# Questions that the other table accepts

A condition on a linked column is checked against that column first. It is then asked of another
table, which checks it against the column whose values the link takes. The two agree about
operators where the linked column took these over from the other one, for which its local column
must list values. They need not agree about types, which following links does not compare.

## Main results

* `Registry.validate_template_iff` — which questions of groups the other table accepts.
* `Workshop.asked_in_vain` — conditions that their own columns accept and the other table does not.
-/

namespace TableQuery

/-- A column accepts what another one accepts exactly if they have the same type, or if there is
nothing to accept. -/
theorem Column.accepts_all_iff {c d : Column} {values : List Value}
    (h : ∀ value ∈ values, c.accepts value = true) :
    (∀ value ∈ values, d.accepts value = true) ↔ values = [] ∨ d.type = c.type := by
  constructor
  · intro hd
    cases values with
    | nil => exact .inl rfl
    | cons value values =>
      have hc := accepts_iff.mp (h value List.mem_cons_self)
      have hd := accepts_iff.mp (hd value List.mem_cons_self)
      exact .inr (hd.trans hc.symm)
  · rintro (rfl | htype) value hv
    · cases hv
    · rw [accepts_iff, htype]
      exact accepts_iff.mp (h value hv)

namespace Registry

variable {before r : Registry} {t remote : Table} {template : Template} {g : LinkGroup}

/-- The other table accepts the question of a group if the column whose values are taken offers what
the conditions of the group ask for. -/
theorem validate_template_iff_validateCondition (hr : r.Linked) {id : String}
    (ht : r.table? id = some t) {conditions : List Condition}
    (hg : g ∈ LinkGroup.collect (t.linkedConditions conditions))
    (hremote : r.table? g.link.table = some remote) :
    remote.validate g.template = .ok () ↔ ∀ m ∈ g.members,
      remote.validateCondition ⟨g.link.valueColumn, m.operator, m.values⟩ = .ok () := by
  rw [(sends_of_mem_linkedConditions ht hg).validate_iff hr hremote, Table.validateFilter_eq_ok_iff]
  exact List.forall_mem_map

/-- After links were followed a linked column offers what the column offers whose values it takes,
if its local column may be asked for a list and both kept what they offered. -/
theorem filters_eq_of_leads (hn : before.Registered) (hlinks : before.validateLinks = .ok r)
    {id : String} (ht : r.table? id = some t) {column : String} {c : Column}
    (hc : t.column? column = some c) {l : Link} (hl : c.outboundLink? = some l)
    {here search value : Column} (hleads : r.Leads t l here remote search value)
    (hin : here.supports Builtin.isIn = true) (hkeepsHere : Keeps before r t.id l.localColumn)
    (hkeepsValue : Keeps before r l.table l.valueColumn) : c.filters = value.filters := by
  obtain ⟨t₀, c₀, ht₀, -, hlinked, hcolumn⟩ := column?_of_validateLinks hn hlinks ht hc
  have hid := id_of_linkedTable hlinked
  refine filters_eq_of_keeps hn hlinks ((table?_id ht₀).symm ▸ ht₀) hlinked hcolumn
    (fun l' hl' => ?_) (lender?_eq_some_iff.mpr ⟨l, here, remote, hl, hleads.here_eq, hin,
      hleads.remote_eq, hleads.value_eq⟩)
  rw [(eq_of_linkedColumn hcolumn).1] at hl
  obtain rfl := Option.some.inj (Eq.trans hl.symm hl')
  exact ⟨hid ▸ hkeepsHere, hkeepsValue⟩

/-- The question that conditions on linked columns become is accepted by the other table exactly if
the column there whose values are taken offers their operators, for as many values, and has the type
of the columns that the conditions are on. So it is if the types agree, the local column of the link
may be asked for a list, and it and the column there kept what they offered when links were
followed, as stored columns do. -/
theorem validate_template_iff (hn : before.Registered) (hlinks : before.validateLinks = .ok r)
    (ht : r.table? template.table = some t) (hv : t.validate template = .ok ())
    (hg : g ∈ LinkGroup.collect (t.linkedConditions template.body.filter))
    (hone : ∀ m ∈ g.members, ∀ l, t.linkOf? m = some l → l.valueColumn = g.link.valueColumn) :
    ∃ here remote search value, r.Leads t g.link here remote search value ∧
      (remote.validate g.template = .ok () ↔ ∀ m ∈ g.members, ∀ c, t.column? m.column = some c →
        (∃ op, value.filter? m.operator = some op ∧ op.arity.accepts m.values.length = true) ∧
          (m.values = [] ∨ value.type = c.type)) ∧
      (here.supports Builtin.isIn = true → Keeps before r t.id g.link.localColumn →
        Keeps before r g.link.table g.link.valueColumn →
        (∀ m ∈ g.members, ∀ c, t.column? m.column = some c →
          m.values = [] ∨ value.type = c.type) →
        remote.validate g.template = .ok ()) := by
  have hr := linked_of_validateLinks hn hlinks
  obtain ⟨m₀, -, hm₀⟩ := Table.exists_mem_members hg
  obtain ⟨here, remote, search, value, hleads⟩ := hr _ t ht _ (Table.hasLink_of_linkOf? hm₀)
  have haccepted {m : Condition} (hm : m ∈ g.members) : ∃ c op, t.column? m.column = some c ∧
      c.filter? m.operator = some op ∧ op.arity.accepts m.values.length = true ∧
      ∀ v ∈ m.values, c.accepts v = true :=
    Table.validateCondition_eq_ok_iff.mp (Table.validateFilter_eq_ok_iff.mp
      (Table.validate_eq_ok_iff.mp hv).1 m (Table.linkOf?_of_mem_members hg hm).1)
  have hiff : remote.validate g.template = .ok () ↔
      ∀ m ∈ g.members, ∀ c, t.column? m.column = some c →
        (∃ op, value.filter? m.operator = some op ∧ op.arity.accepts m.values.length = true) ∧
          (m.values = [] ∨ value.type = c.type) := by
    rw [validate_template_iff_validateCondition hr ht hg hleads.remote_eq]
    refine forall₂_congr fun m hm => ?_
    obtain ⟨c, op, hc, -, -, hvalues⟩ := haccepted hm
    rw [Table.validateCondition_eq_ok_iff]
    simp only [hleads.value_eq, hc, Option.some.injEq, forall_eq',
      ← Column.accepts_all_iff hvalues]
    constructor
    · rintro ⟨value', op', rfl, hop', hcount', hvalues'⟩
      exact ⟨⟨op', hop', hcount'⟩, hvalues'⟩
    · rintro ⟨⟨op', hop', hcount'⟩, hvalues'⟩
      exact ⟨value, op', rfl, hop', hcount', hvalues'⟩
  refine ⟨here, remote, search, value, hleads, hiff, fun hin hkeepsHere hkeepsValue htypes => ?_⟩
  refine hiff.mpr fun m hm c hc => ⟨?_, htypes m hm c hc⟩
  -- The link of the condition takes the values of the link of the group, so both offer the same.
  obtain ⟨c', op, hc', hop, hcount, -⟩ := haccepted hm
  obtain rfl := Option.some.inj (hc.symm.trans hc')
  obtain ⟨-, l, hl, hsame⟩ := Table.linkOf?_of_mem_members hg hm
  obtain ⟨htable, hlocal, hsearch⟩ := Link.sameLookup_iff.mp hsame
  have hvalue := hone m hm l hl
  obtain rfl : g.link = l := by
    cases hlink : g.link
    cases l
    simp_all
  have houtbound : c.outboundLink? = some g.link := by
    simpa [Table.linkOf?, hc] using hl
  have hfilters := filters_eq_of_leads hn hlinks ht hc houtbound hleads hin hkeepsHere hkeepsValue
  refine ⟨op, ?_, hcount⟩
  rw [Column.filter?, ← hfilters]
  exact hop

end Registry

/-! ## Jobs and their tools -/

namespace Workshop

def equal : Operator := ⟨Builtin.eq, "equal", .single⟩

def isIn : Operator := ⟨Builtin.isIn, "in", .multiple⟩

def contains : Operator := ⟨Builtin.contains, "contains", .single⟩

def tools : Table :=
  ⟨"Tool", "Tool", "", [.ofOperators "Code" true [equal, isIn] none,
    .ofOperators "Name" false [equal] none,
    { Column.ofOperators "No" false [equal] none with kind := .int, type := .int }], "Code", [],
    none, none⟩

/-- Jobs show the name of their tool, which they cannot list, and the number and the name of a spare
one. The number is shown as a text. -/
def jobs (number name : Operator) : Table :=
  ⟨"Job", "Job", "", [.ofOperators "Id" true [equal, isIn] none,
    .ofOperators "Tool" false [equal] none, .ofOperators "Spare" false [isIn] none,
    .ofOperators "ToolName" false [contains] (some ⟨"Tool", "Tool", "Code", "Name"⟩),
    .ofOperators "SpareNo" false [number] (some ⟨"Tool", "Spare", "Code", "No"⟩),
    .ofOperators "SpareName" false [name] (some ⟨"Tool", "Spare", "Code", "Name"⟩)], "Id", [],
    none, none⟩

def registry : Registry := ⟨[tools, jobs contains contains]⟩

def followed : Registry := ⟨[jobs equal equal, tools]⟩

theorem registered : registry.Registered := by
  have hfirst : Registry.empty.register tools = .ok ⟨[tools]⟩ := rfl
  have hsecond : (⟨[tools]⟩ : Registry).register (jobs contains contains) = .ok registry :=
    rfl
  exact .register (.register .empty hfirst) hsecond

theorem validateLinks_registry : registry.validateLinks = .ok followed := by
  cbv

def question (condition : Condition) : Template :=
  .temporary "Job" ⟨[condition], [.plain "Id"]⟩ .all

def named : Condition := ⟨"SpareName", Builtin.eq, [.string "Bolt"]⟩

/-- The name of a spare tool may be asked for as tools offer it, since jobs list their spares. -/
theorem named_accepted : registry.Registered ∧ registry.validateLinks = .ok followed ∧
    (jobs equal equal).validate (question named) = .ok () ∧
    tools.validate (LinkGroup.mk ⟨"Tool", "Spare", "Code", "Name"⟩ [named]).template =
      .ok () := by
  have hv : (jobs equal equal).validate (question named) = .ok () := by cbv
  have hg : LinkGroup.mk ⟨"Tool", "Spare", "Code", "Name"⟩ [named] ∈
      LinkGroup.collect ((jobs equal equal).linkedConditions (question named).body.filter) :=
    List.mem_singleton.mpr rfl
  have hone : ∀ m ∈ [named], ∀ l, (jobs equal equal).linkOf? m = some l →
      l.valueColumn = "Name" := by
    intro m hm l hl
    obtain rfl := List.mem_singleton.mp hm
    obtain rfl := Option.some.inj hl
    rfl
  obtain ⟨here, remote, search, value, hleads, -, haccepted⟩ :=
    Registry.validate_template_iff (r := followed) registered validateLinks_registry
      (t := jobs equal equal) rfl hv hg hone
  obtain rfl := Option.some.inj hleads.here_eq
  obtain rfl := Option.some.inj hleads.remote_eq
  obtain rfl := Option.some.inj hleads.value_eq
  refine ⟨registered, validateLinks_registry, hv, haccepted rfl ?_ ?_ fun m hm c hc => .inr ?_⟩
  · refine Registry.keeps_of_stored registered validateLinks_registry fun t c ht hc => ?_
    obtain rfl := Option.some.inj ht
    obtain rfl := Option.some.inj hc
    rfl
  · refine Registry.keeps_of_stored registered validateLinks_registry fun t c ht hc => ?_
    obtain rfl := Option.some.inj ht
    obtain rfl := Option.some.inj hc
    rfl
  · obtain rfl := List.mem_singleton.mp hm
    obtain rfl := Option.some.inj hc
    rfl

/-- Jobs accept a part of the name of their tool and a text as the number of a spare one. Tools
accept neither: they do not look for parts of names, and their numbers are not texts. -/
theorem asked_in_vain : registry.Registered ∧ registry.validateLinks = .ok followed ∧
    (jobs equal equal).validate
      (question ⟨"ToolName", Builtin.contains, [.string "ol"]⟩) = .ok () ∧
    (∃ g, LinkGroup.collect ((jobs equal equal).linkedConditions
        [⟨"ToolName", Builtin.contains, [.string "ol"]⟩]) = [g] ∧
      tools.validate g.template = .error (.operatorNotSupported "Name" Builtin.contains)) ∧
    (jobs equal equal).validate
      (question ⟨"SpareNo", Builtin.eq, [.string "7"]⟩) = .ok () ∧
    ∃ g, LinkGroup.collect ((jobs equal equal).linkedConditions
        [⟨"SpareNo", Builtin.eq, [.string "7"]⟩]) = [g] ∧
      tools.validate g.template =
        .error (.invalidConditionValueType "No" .int (Value.string "7").typeName) := by
  exact ⟨registered, validateLinks_registry, by cbv, ⟨_, rfl, by cbv⟩, by cbv, _, rfl, by cbv⟩

end Workshop

end TableQuery
