import TableQuery.Proofs.Query.Circular
import TableQuery.Proofs.Query.Offered
import TableQuery.Proofs.Sample

/-!
# Which runs end

The questions to other tables that a run asks begin chains. A run ends if none of these chains
comes to a column a second time. If one does and the run comes to it, the run goes on for ever:
that tables and columns are there, which is all that following links checks, does not prevent it.

## Main results

* `Engine.circular_iff_returns` — which runs end.
* `Staff.led_followed_for_ever` — a run over links that were followed goes on for ever.
-/

namespace TableQuery

namespace Engine

variable {e : Engine} {now : Moment} {session : Session} {find find' : Template → Run TableRows}
  {t : Table} {template : Template}

/-! ### Lookups -/

/-- A lookup asks the other table about the column searched in. -/
theorem lookup_congr {l : Link} {rows : List TableRow}
    (h : ∀ operator values page,
      find (l.template operator values page) = find' (l.template operator values page)) :
    e.lookup find l rows = e.lookup find' l rows := by
  have heach (search : Column) (found : Findings) :
      lookupEach find l search found rows = lookupEach find' l search found rows := by
    induction rows generalizing found with
    | nil => rfl
    | cons row rows ih =>
      simp only [lookupEach, h, ih]
  simp only [lookup, lookupAll, heach, h]

theorem exists_of_circular_lookupAll {l : Link} {search : Column} {rows : List TableRow}
    (h : (lookupAll find l search rows).Circular) :
    ∃ operator values page, (find (l.template operator values page)).Circular := by
  simp only [lookupAll, Run.liftM_eq_ofExcept, Run.circular_bind_iff, Run.not_circular_ofExcept,
    false_or] at h
  obtain ⟨keys, -, h⟩ := h
  split at h
  · exact absurd h (Run.not_circular_pure _)
  · exact ⟨_, _, _, by simpa using h⟩

theorem exists_of_circular_lookupEach {l : Link} {search : Column} {found : Findings}
    {rows : List TableRow} (h : (lookupEach find l search found rows).Circular) :
    ∃ operator values page, (find (l.template operator values page)).Circular := by
  induction rows generalizing found with
  | nil => exact absurd h (Run.not_circular_pure _)
  | cons row rows ih =>
    unfold lookupEach at h
    split at h
    · exact ih h
    · simp only [Run.liftM_eq_ofExcept, Run.circular_bind_iff, Run.not_circular_ofExcept,
        false_or] at h
      obtain ⟨key, -, h | ⟨answer, -, h⟩⟩ := h
      · exact ⟨_, _, _, h⟩
      · split at h
        · exact ih h
        · exact ih h

/-- A lookup goes on for ever if one of its questions does. -/
theorem exists_of_circular_lookup {l : Link} {rows : List TableRow}
    (h : (e.lookup find l rows).Circular) :
    ∃ operator values page, (find (l.template operator values page)).Circular := by
  simp only [lookup, Run.liftM_eq_ofExcept, Run.circular_bind_iff, Run.not_circular_ofExcept,
    false_or] at h
  obtain ⟨remote, -, search, -, value, -, h⟩ := h
  split at h
  · exact exists_of_circular_lookupAll h
  · split at h
    · exact exists_of_circular_lookupEach h
    · simp [Run.Circular, Run.stop] at h

theorem outbound_congr {rows : List TableRow}
    (h : ∀ l, t.HasLink l → ∀ operator values page,
      find (l.template operator values page) = find' (l.template operator values page)) :
    e.outbound find t rows = e.outbound find' t rows := by
  have hfill (linked : List (Column × Link)) (hlinked : ∀ p ∈ linked, t.HasLink p.2)
      (rows : List TableRow) :
      e.fillColumns find linked rows = e.fillColumns find' linked rows := by
    induction linked generalizing rows with
    | nil => rfl
    | cons p linked ih =>
      rw [List.forall_mem_cons] at hlinked
      simp only [fillColumns, lookup_congr (h p.2 hlinked.1), ih hlinked.2]
  cases rows with
  | nil => rfl
  | cons row rows => exact hfill _ (fun p hp => hasLink_of_mem_linkedColumns hp) _

theorem exists_of_circular_outbound {rows : List TableRow} (h : (e.outbound find t rows).Circular) :
    ∃ l, t.HasLink l ∧ ∃ operator values page,
      (find (l.template operator values page)).Circular := by
  have hfill (linked : List (Column × Link)) (hlinked : ∀ p ∈ linked, t.HasLink p.2)
      (rows : List TableRow) (h : (e.fillColumns find linked rows).Circular) :
      ∃ l, t.HasLink l ∧ ∃ operator values page,
        (find (l.template operator values page)).Circular := by
    induction linked generalizing rows with
    | nil => exact absurd h (Run.not_circular_pure _)
    | cons p linked ih =>
      rw [List.forall_mem_cons] at hlinked
      rw [fillColumns, Run.circular_bind_iff] at h
      obtain h | ⟨found, -, h⟩ := h
      · exact ⟨p.2, hlinked.1, exists_of_circular_lookup h⟩
      · exact ih hlinked.2 _ h
  cases rows with
  | nil => exact absurd h (Run.not_circular_pure _)
  | cons row rows => exact hfill _ (fun p hp => hasLink_of_mem_linkedColumns hp) _ h

/-! ### Runs -/

/-- A run goes on for ever if its groups are answered for ever or a lookup of a link is. -/
theorem exists_of_circular_findOnce (h : (e.findOnce now session find false template).Circular)
    {direct : List RawCondition} {linked : List (Link × Condition)}
    (ht : e.registry.table? template.table = some t)
    (hs : t.split template.body.filter = .ok (direct, linked)) :
    (e.inbound find t (LinkGroup.collect linked)).Circular ∨
      ∃ l, t.HasLink l ∧ ∃ operator values page,
        (find (l.template operator values page)).Circular := by
  obtain ⟨t', direct', linked', ht', -, hs', h⟩ := inbound_or_filled_of_circular h
  obtain rfl : t' = t := Option.some.inj (ht'.symm.trans ht)
  obtain ⟨rfl, rfl⟩ := Prod.mk.inj (Except.ok.inj (hs'.symm.trans hs))
  obtain h | ⟨rows, h⟩ := h
  · exact .inl h
  · exact .inr (exists_of_circular_outbound h)

/-- A run asks nothing but the questions of its groups and of the lookups of links. -/
theorem findOnce_false_congr {direct : List RawCondition} {linked : List (Link × Condition)}
    (ht : e.registry.table? template.table = some t)
    (hs : t.split template.body.filter = .ok (direct, linked))
    (hgroups : ∀ g ∈ LinkGroup.collect linked, find g.template = find' g.template)
    (hlookups : ∀ l, t.HasLink l → ∀ operator values page,
      find (l.template operator values page) = find' (l.template operator values page)) :
    e.findOnce now session find false template = e.findOnce now session find' false template := by
  refine findOnce_congr fun t' direct' linked' ht' _ hs' => ?_
  obtain rfl : t' = t := Option.some.inj (ht'.symm.trans ht)
  obtain ⟨rfl, rfl⟩ := Prod.mk.inj (Except.ok.inj (hs'.symm.trans hs))
  exact ⟨inbound_congr hgroups, fun rows => outbound_congr hlookups⟩

theorem exists_member_of_mem_collect {linked : List (Link × Condition)}
    {direct : List RawCondition} (hs : t.split template.body.filter = .ok (direct, linked))
    {g : LinkGroup} (hg : g ∈ LinkGroup.collect linked) :
    ∃ m ∈ g.members, t.linkOf? m = some g.link := by
  rw [Table.linked_of_split hs] at hg
  exact Table.exists_mem_members hg

theorem mem_filter_of_mem_members {linked : List (Link × Condition)} {direct : List RawCondition}
    (hs : t.split template.body.filter = .ok (direct, linked)) {g : LinkGroup}
    (hg : g ∈ LinkGroup.collect linked) {m : Condition} (hm : m ∈ g.members) :
    m ∈ template.body.filter := by
  rw [Table.linked_of_split hs] at hg
  exact (Table.linkOf?_of_mem_members hg hm).1

theorem sends_of_mem_collect {linked : List (Link × Condition)} {direct : List RawCondition}
    (ht : e.registry.table? template.table = some t)
    (hs : t.split template.body.filter = .ok (direct, linked)) {g : LinkGroup}
    (hg : g ∈ LinkGroup.collect linked) : e.registry.Sends g.template := by
  rw [Table.linked_of_split hs] at hg
  exact Registry.sends_of_mem_linkedConditions ht hg

theorem sends_lookup (ht : e.registry.table? template.table = some t) {l : Link}
    (hl : t.HasLink l) (operator : String) (values : List Value) (page : PageRequest) :
    e.registry.Sends (l.template operator values page) := by
  refine ⟨_, t, l, ht, hl, rfl, rfl, l.searchColumn, ?_, ?_⟩
  · simp [Link.template, Template.temporary]
  · simp [Link.template, Template.temporary, Condition.of]

/-- A question of a chain that never comes to a column a second time is answered. -/
theorem findSimple_of_not_returns (hr : e.registry.Linked) (hs : e.registry.Sends template)
    (h : ¬template.Returns e.registry) {depth : Nat} (hd : e.columnCount < depth) :
    e.findSimple now session depth template =
        e.findSimple now session (e.columnCount + 1) template ∧
      ¬(e.findSimple now session depth template).Circular :=
  findSimple_of_after hr hs (Template.after_columnCount h) hd

/-- A question is answered for ever if its chain comes to a column a second time. -/
theorem circular_findSimple_iff (hr : e.registry.Linked) (hs : e.registry.Sends template)
    {depth : Nat} (hd : e.columnCount < depth) :
    (e.findSimple now session depth template).Circular ↔ template.Returns e.registry := by
  constructor
  · intro h
    by_contra hnot
    exact (findSimple_of_not_returns hr hs hnot hd).2 h
  · intro h
    exact circular_findSimple hr hs (Template.not_ends_of_returns hs hr h) depth

/-- The chain of a group whose conditions are on one column does not come back to this column,
unless it comes to the column of its first question again. -/
theorem place_ne_of_not_returns (hr : e.registry.Linked) {direct : List RawCondition}
    {linked : List (Link × Condition)} (ht : e.registry.table? template.table = some t)
    (hv : t.validate template = .ok ()) (hs : t.split template.body.filter = .ok (direct, linked))
    {g : LinkGroup} (hg : g ∈ LinkGroup.collect linked) {column : String}
    (hcolumn : ∀ m ∈ g.members, m.column = column) (h : ¬g.template.Returns e.registry) {i : Nat}
    {s : Template} (hi : g.template.after e.registry i = some s) :
    s.place ≠ (template.table, some column) := by
  intro hplace
  obtain ⟨hsends, hasked⟩ := Template.sends_of_after (sends_of_mem_collect ht hs hg) hi
  obtain ⟨there, hthere⟩ := hsends.onColumn
  rw [hthere.place_eq] at hplace
  obtain ⟨htable, hthere'⟩ := Prod.mk.inj hplace
  obtain rfl := Option.some.inj hthere'
  have hfilter : s.body.filter = g.members := by
    rw [hthere.filter_eq, hasked]
    simp only [Template.asked, LinkGroup.template, Template.temporary, List.map_map]
    refine (List.map_congr_left fun m hm => ?_).trans (List.map_id _)
    simp [← hcolumn m hm]
  have hmember {m : Condition} (hm : m ∈ g.members) :
      m ∈ template.body.filter ∧ t.linkOf? m = some g.link := by
    obtain ⟨m', hm', hlink⟩ := exists_member_of_mem_collect hs hg
    refine ⟨mem_filter_of_mem_members hs hg hm, ?_⟩
    rw [← hlink, Table.linkOf?, Table.linkOf?, hcolumn m hm, hcolumn m' hm']
  have hvalid : t.validateFilter s.body.filter = .ok () := by
    rw [hfilter, Table.validateFilter_eq_ok_iff]
    intro m hm
    exact Table.validateFilter_eq_ok_iff.mp (Table.validate_eq_ok_iff.mp hv).1 m (hmember hm).1
  obtain ⟨first, rest, hfirst⟩ := List.exists_cons_of_ne_nil (LinkGroup.members_ne_nil hg)
  have honward : s.onward? e.registry = some g.template := by
    have ht' : e.registry.table? s.table = some t := htable ▸ ht
    refine Template.onward?_eq_some_iff.mpr ⟨t, first, g.link, ht', ?_, ?_, ?_, ?_⟩
    · rw [hfilter, hfirst]
      rfl
    · exact (hmember (by simp [hfirst])).2
    · exact (hsends.validate_iff hr ht').mpr hvalid
    · rw [hfilter]
  refine h ⟨0, i + 1, g.template, g.template, Nat.succ_pos i, rfl, ?_, rfl⟩
  rw [Template.after, hi]
  exact honward

/-- Over links that were followed, a run that asks other tables about its linked conditions goes on
for ever exactly if it comes to a group whose chain of questions comes to a column a second time.
If no chain does, neither of groups nor of lookups of links, the run ends and does not depend on
how far links may be followed. Such a chain has at most as many questions that go on as there are
columns, and it does not come back to the column of the conditions that it answers. -/
theorem circular_iff_returns {before : Registry} (hn : before.Registered)
    (hlinks : before.validateLinks = .ok e.registry) {direct : List RawCondition}
    {linked : List (Link × Condition)} (ht : e.registry.table? template.table = some t)
    (hv : t.validate template = .ok ()) (hs : t.split template.body.filter = .ok (direct, linked))
    (now : Moment) (session : Session) :
    (∀ depth, e.columnCount < depth →
      ((e.inbound (e.findSimple now session depth) t (LinkGroup.collect linked)).Circular ↔
        ∃ first g rest found, LinkGroup.collect linked = first ++ g :: rest ∧
          (e.inbound (e.findSimple now session depth) t first).result = .ok (some found) ∧
          g.template.Returns e.registry)) ∧
    ((∀ g ∈ LinkGroup.collect linked, ¬g.template.Returns e.registry) →
      (∀ l, t.HasLink l → ∀ operator values page,
        ¬(l.template operator values page).Returns e.registry) →
      ¬(e.find now session template).Circular ∧ ∀ depth, e.columnCount < depth →
        e.findOnce now session (e.findSimple now session depth) false template =
          e.find now session template) ∧
    ∀ g ∈ LinkGroup.collect linked, ¬g.template.Returns e.registry →
      g.template.after e.registry (e.columnCount + 1) = none ∧
      ∀ column, (∀ m ∈ g.members, m.column = column) → ∀ i s,
        g.template.after e.registry i = some s → s.place ≠ (template.table, some column) := by
  have hr := Registry.linked_of_validateLinks hn hlinks
  have hsends {g : LinkGroup} (hg : g ∈ LinkGroup.collect linked) :
      e.registry.Sends g.template :=
    sends_of_mem_collect ht hs hg
  refine ⟨fun depth hd => ?_, fun hgroups hlookups => ⟨?_, fun depth hd => ?_⟩,
    fun g hg h => ⟨Template.after_columnCount h, fun column hcolumn i s hi => ?_⟩⟩
  · rw [circular_inbound_iff]
    refine exists_congr fun first => exists_congr fun g => exists_congr fun rest =>
      exists_congr fun found => and_congr_right fun hsplit => and_congr_right fun _ => ?_
    have hg : g ∈ LinkGroup.collect linked := by simp [hsplit]
    obtain ⟨m, -, hlink⟩ := exists_member_of_mem_collect hs hg
    obtain ⟨here, remote, search, value, hleads⟩ :=
      hr _ t ht g.link (Table.hasLink_of_linkOf? hlink)
    rw [circular_inboundCondition_iff, circular_findSimple_iff hr (hsends hg) hd]
    simp [hleads.remote_eq, hleads.here_eq]
  · intro h
    rcases exists_of_circular_findOnce h ht hs with h | ⟨l, hl, operator, values, page, h⟩
    · obtain ⟨first, g, rest, found, hsplit, -, h⟩ := circular_inbound_iff.mp h
      have hg : g ∈ LinkGroup.collect linked := by simp [hsplit]
      have hfind := (circular_inboundCondition_iff.mp h).2.2
      exact hgroups g hg ((circular_findSimple_iff hr (hsends hg) (Nat.lt_succ_self _)).mp hfind)
    · exact hlookups l hl operator values page ((circular_findSimple_iff hr
        (sends_lookup ht hl operator values page) (Nat.lt_succ_self _)).mp h)
  · refine findOnce_false_congr ht hs (fun g hg => ?_) fun l hl operator values page => ?_
    · exact (findSimple_of_not_returns hr (hsends hg) (hgroups g hg) hd).1
    · exact (findSimple_of_not_returns hr (sends_lookup ht hl operator values page)
        (hlookups l hl operator values page) hd).1
  · exact place_ne_of_not_returns hr ht hv hs hg hcolumn h hi

end Engine

/-! ## Employees and teams -/

namespace Staff

open Sample (clock visitor)

def employees : Table :=
  ⟨"Employee", "Employee", "", [.ofTexts "Id" true none, .ofTexts "Team" false none,
    .ofTexts "Lead" false (some ⟨"Team", "Team", "Id", "Lead"⟩),
    .ofTexts "Badge" false (some ⟨"Team", "Team", "Id", "Badge"⟩),
    .ofTexts "Color" false (some ⟨"Team", "Team", "Id", "Paint"⟩)], "Id", [], none, none⟩

/-- Teams show the lead of their head, who shows that of a team, and the color of their head as
their badge. -/
def teams : Table :=
  ⟨"Team", "Team", "", [.ofTexts "Id" true none, .ofTexts "Head" false none,
    .ofTexts "Lead" false (some ⟨"Employee", "Head", "Id", "Lead"⟩),
    .ofTexts "Badge" false (some ⟨"Employee", "Head", "Id", "Color"⟩),
    .ofTexts "Paint" false none], "Id", [], none, none⟩

/-- Two employees, each the head of the other's team. -/
def memory (table : String) : Memory where
  rows :=
    if table = "Team" then
      [.keyed [("Id", .text "u1"), ("Head", .text "t2"), ("Paint", .text "d1")],
        .keyed [("Id", .text "u2"), ("Head", .text "t1"), ("Paint", .text "d2")]]
    else
      [.keyed [("Id", .text "t1"), ("Team", .text "u1")],
        .keyed [("Id", .text "t2"), ("Team", .text "u2")]]
  limit := 100000
  operators := []

def registry : Registry := ⟨[employees, teams]⟩

def engine : Engine where
  registry
  options := .empty
  drivers := [("Employee", (memory "Employee").driver), ("Team", (memory "Team").driver)]

def question (filter : List Condition) : Template :=
  .temporary "Employee" ⟨filter, [.plain "Id"]⟩ .all

def led : Condition := ⟨"Lead", Builtin.eq, [.string "x"]⟩

def badged : Condition := ⟨"Badge", Builtin.eq, [.string "d2"]⟩

def colored : Condition := ⟨"Color", Builtin.eq, [.string "d1"]⟩

theorem registered : registry.Registered := by
  have hfirst : Registry.empty.register employees = .ok ⟨[employees]⟩ := rfl
  have hsecond : (⟨[employees]⟩ : Registry).register teams = .ok registry := by rfl
  exact .register (.register .empty hfirst) hsecond

theorem validateLinks_registry : registry.validateLinks = .ok registry := by
  cbv

/-- The links of employees search in keys, which are not linked. -/
theorem lookup_not_returns {l : Link} (hl : employees.HasLink l) (operator : String)
    (values : List Value) (page : PageRequest) :
    ¬(l.template operator values page).Returns registry := by
  have hr := Registry.linked_of_validateLinks registered validateLinks_registry
  have ht : engine.registry.table? (question []).table = some employees := rfl
  have hsends : registry.Sends (l.template operator values page) :=
    Engine.sends_lookup ht hl operator values page
  refine (Template.ends_iff_not_returns hsends hr).mp ⟨1, ?_⟩
  obtain ⟨column, c, hc, hl⟩ := hl
  have hmem := Table.mem_of_column? hc
  simp only [employees, List.mem_cons, List.not_mem_nil, or_false] at hmem
  rcases hmem with rfl | rfl | rfl | rfl | rfl
  · cases hl
  · cases hl
  all_goals
    obtain rfl := Option.some.inj hl
    rfl

/-- Employees by their badge: their team is asked for its badge, its head for a color and the team
of the head for its paint, and the run ends. -/
theorem badged_ends : registry.Registered ∧ registry.validateLinks = .ok engine.registry ∧
    employees.validate (question [badged]) = .ok () ∧
    ¬(engine.find clock visitor (question [badged])).Circular := by
  have hr := Registry.linked_of_validateLinks registered validateLinks_registry
  have ht : engine.registry.table? (question [badged]).table = some employees := rfl
  have hv : employees.validate (question [badged]) = .ok () := by cbv
  have hs : employees.split (question [badged]).body.filter =
      .ok ([], [(⟨"Team", "Team", "Id", "Badge"⟩, badged)]) := rfl
  refine ⟨registered, validateLinks_registry, hv, ((Engine.circular_iff_returns registered
    validateLinks_registry ht hv hs clock visitor).2.1 ?_ fun l hl => lookup_not_returns hl).1⟩
  intro g hg
  have hsends := Engine.sends_of_mem_collect ht hs hg
  obtain rfl : g = ⟨⟨"Team", "Team", "Id", "Badge"⟩, [badged]⟩ := List.mem_singleton.mp hg
  exact (Template.ends_iff_not_returns hsends hr).mp ⟨3, by cbv⟩

/-- The lead of an employee is that of the team, which is that of its head: links that were followed
lead in a circle, and a run that asks for a lead goes on for ever, however far links may be
followed. And where a badge and a color are asked for, the team is asked for its badge, and its head
is asked for the color that the run asks for already. -/
theorem led_followed_for_ever : registry.Registered ∧
    registry.validateLinks = .ok engine.registry ∧
    employees.validate (question [led]) = .ok () ∧
    (∀ depth, (engine.findOnce clock visitor (engine.findSimple clock visitor depth) false
      (question [led])).Circular) ∧
    employees.validate (question [badged, colored]) = .ok () ∧
    ∃ g s, LinkGroup.collect (employees.linkedConditions [badged, colored]) = [g] ∧
      g.template.after registry 1 = some s ∧ s.place = ("Employee", some colored.column) := by
  have hr := Registry.linked_of_validateLinks registered validateLinks_registry
  have ht : engine.registry.table? (question [led]).table = some employees := rfl
  have hv : employees.validate (question [led]) = .ok () := by cbv
  have hs : employees.split (question [led]).body.filter =
      .ok ([], [(⟨"Team", "Team", "Id", "Lead"⟩, led)]) := rfl
  have hg : LinkGroup.mk ⟨"Team", "Team", "Id", "Lead"⟩ [led] ∈
      LinkGroup.collect [(⟨"Team", "Team", "Id", "Lead"⟩, led)] := List.mem_singleton.mpr rfl
  have hsends := Engine.sends_of_mem_collect ht hs hg
  have hreturns : (LinkGroup.mk ⟨"Team", "Team", "Id", "Lead"⟩ [led]).template.Returns registry :=
    ⟨0, 2, _, _, by decide, rfl, by rfl, by rfl⟩
  refine ⟨registered, validateLinks_registry, hv, fun depth => ?_, by cbv, _, _, rfl, by rfl, rfl⟩
  refine Engine.circular_findOnce_of_inbound ht hv hs (Engine.circular_inbound_iff.mpr ?_)
  refine ⟨[], _, [], [], rfl, rfl, Engine.circular_inboundCondition_iff.mpr
    ⟨⟨teams, rfl⟩, ⟨_, rfl⟩, ?_⟩⟩
  exact Engine.circular_findSimple hr hsends (Template.not_ends_of_returns hsends hr hreturns) depth

end Staff

end TableQuery
