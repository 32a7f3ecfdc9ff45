import TableQuery.Proofs.Query.Groups
import TableQuery.Proofs.Query.Inbound
import TableQuery.Proofs.Query.Lookup
import TableQuery.Proofs.Sample
import TableQuery.Registry.Links

/-!
# Conditions on linked columns as joins

A condition on a linked column means a join: some row of the other table belongs to the local row,
and the conditions hold there. The join is answered by a question to the other table and a list of
local values; here the rows that match are compared with the rows that the join keeps.

All conditions of a group are asked on the value column of the group's first link, so the join is
the one that the links name where the links of a group agree on their value columns.

## Main definitions

* `Engine.Served` — every table is held in memory.
* `Engine.Belongs` — a row of another table belongs to a local row.
* `Engine.Joins` — a local row is kept by the join, given the columns on which conditions are
  looked at.
* `Link.leaderAmong` — the link by which a linked condition is answered.

## Main results

* `Engine.matched_rows_eq_join` — the rows that match are those of a join.
-/

namespace TableQuery

/-- The first link with the lookup of a link among linked conditions. -/
def Link.leaderAmong (linked : List (Link × Condition)) (l : Link) : Link :=
  ((linked.map Prod.fst).find? fun k => k.sameLookup l).getD l

namespace Engine

/-- Every table is held in memory. -/
def Served (e : Engine) (memory : String → Memory) : Prop :=
  ∀ t ∈ e.registry.tables, e.drivers.lookup t.id = some (memory t.id).driver

/-- A row of another table belongs to a local row: what it shows in the column searched in is,
as a raw value of the local column, the local value. -/
def Belongs (e : Engine) (t remote : Table) (l : Link) (row stored : StoredRow) : Prop :=
  ∃ here search v key, t.column? l.localColumn = some here ∧
    remote.column? l.searchColumn = some search ∧ stored.shown? e.options search = some v ∧
    here.rawOf v = .ok key ∧ ((row.get? here).getD .null).compare? key = some .eq

/-- Linked conditions keep a local row: for each of them some row belongs to it on which all
conditions of the same lookup hold, each on the column that is given for its link. -/
def JoinsLinked (e : Engine) (memory : String → Memory) (now : Moment) (t : Table)
    (linked : List (Link × Condition)) (columnFor : Link → String) (row : StoredRow) : Prop :=
  ∀ p ∈ linked, ∃ remote stored,
    e.registry.table? p.1.table = some remote ∧ stored ∈ (memory remote.id).rows ∧
      e.Belongs t remote p.1 row stored ∧
      ∀ q ∈ linked, p.1.sameLookup q.1 = true →
        (memory remote.id).Meets now remote stored (columnFor q.1) q.2

/-- A local row is kept by the join that conditions mean: those on the table itself hold, and the
linked ones keep it. -/
def Joins (e : Engine) (memory : String → Memory) (now : Moment) (t : Table)
    (conditions : List Condition) (columnFor : Link → String) (row : StoredRow) : Prop :=
  (∀ condition ∈ conditions, t.linkOf? condition = none →
      (memory t.id).Meets now t row condition.column condition) ∧
    e.JoinsLinked memory now t (t.linkedConditions conditions) columnFor row

end Engine

/-! ## The leaders of groups -/

namespace Link

theorem find?_of_mem_leaders {l : Link} {ls : List Link} (h : l ∈ leaders ls) :
    ls.find? (fun k => k.sameLookup l) = some l := by
  induction ls with
  | nil => cases h
  | cons k ls ih =>
    rcases List.mem_cons.mp h with rfl | h
    · simp
    · obtain ⟨hl, hk⟩ := List.mem_filter.mp h
      have hkl : k.sameLookup l = false := by simpa using hk
      simp [hkl, ih hl]

theorem leaderAmong_congr {linked : List (Link × Condition)} {a b : Link}
    (hab : a.sameLookup b = true) (ha : ∃ k ∈ linked.map Prod.fst, k.sameLookup a = true) :
    leaderAmong linked a = leaderAmong linked b := by
  have hsame : (fun k : Link => k.sameLookup a) = fun k => k.sameLookup b := by
    funext k
    rw [Bool.eq_iff_iff]
    exact ⟨fun h => sameLookup_trans h hab, fun h => sameLookup_trans h (sameLookup_symm hab)⟩
  obtain ⟨k, hk, hka⟩ := ha
  unfold leaderAmong
  rw [← hsame]
  cases hf : (linked.map Prod.fst).find? fun k => k.sameLookup a with
  | none => exact absurd hka (by simpa using List.find?_eq_none.mp hf k hk)
  | some j => rfl

theorem exists_leaderAmong {linked : List (Link × Condition)} {q : Link × Condition}
    (hq : q ∈ linked) : ∃ p ∈ linked, p.1 = leaderAmong linked q.1 ∧ p.1.sameLookup q.1 = true := by
  unfold leaderAmong
  cases hf : (linked.map Prod.fst).find? fun k => k.sameLookup q.1 with
  | none =>
    have hself := List.find?_eq_none.mp hf q.1 (List.mem_map_of_mem hq)
    simp at hself
  | some k =>
    obtain ⟨p, hp, rfl⟩ := List.mem_map.mp (List.mem_of_find?_eq_some hf)
    have hlookup := List.find?_some hf
    exact ⟨p, hp, rfl, by simpa using hlookup⟩

/-- A group answers the conditions of its lookup by its own link. -/
theorem leaderAmong_of_mem {linked : List (Link × Condition)} {g : LinkGroup}
    (hg : g ∈ LinkGroup.collect linked) {l : Link} (hl : g.link.sameLookup l = true) :
    leaderAmong linked l = g.link := by
  rw [LinkGroup.collect_eq] at hg
  obtain ⟨k, hk, rfl⟩ := List.mem_map.mp hg
  have hfind := find?_of_mem_leaders hk
  rw [← leaderAmong_congr hl ⟨k, mem_of_mem_leaders hk, sameLookup_refl k⟩]
  unfold leaderAmong
  rw [show (LinkGroup.led linked k).link = k from rfl, hfind]
  rfl

end Link

/-! ## A group as a join -/

section Group

variable {e : Engine} {memory : String → Memory} {now : Moment} {session : Session}
  {find : Template → Run TableRows} {t remote : Table} {g : LinkGroup} {found : TableRows}

/-- The question of a group has conditions on stored columns only. -/
theorem LinkGroup.linkOf?_template (hstored : remote.Stores g.link.valueColumn) :
    ∀ condition ∈ g.template.body.filter, remote.linkOf? condition = none := by
  intro condition hc
  obtain ⟨m, -, rfl⟩ := List.mem_map.mp hc
  unfold Table.linkOf?
  cases hcol : remote.column? g.link.valueColumn with
  | none => simp
  | some c => simpa [hcol] using hstored c hcol

theorem LinkGroup.searchColumn_mem (g : LinkGroup) :
    g.link.searchColumn ∈ g.template.outputIds :=
  g.link.mem_output.1

theorem LinkGroup.meets_template_iff {m : Memory} {stored : StoredRow} :
    (∀ condition ∈ g.template.body.filter,
        m.Meets now remote stored condition.column condition) ↔
      ∀ member ∈ g.members, m.Meets now remote stored g.link.valueColumn member := by
  simp only [template, Template.temporary, List.forall_mem_map]
  rfl

/-- The typed rows of a table show values of the type of a column in it. -/
def Memory.Typed (m : Memory) (options : OptionLists) (c : Column) : Prop :=
  ∀ row v, StoredRow.typed row ∈ m.rows → (StoredRow.typed row).shown? options c = some v →
    v.type? = some c.type

theorem Memory.type?_of_shown? {m : Memory} {options : OptionLists} {c : Column}
    (ht : m.Typed options c) {stored : StoredRow} {v : Value} (hs : stored ∈ m.rows)
    (hv : stored.shown? options c = some v) : v.type? = some c.type := by
  cases stored with
  | typed row => exact ht row v hs hv
  | keyed values | record fields =>
    simp only [StoredRow.shown?, Option.bind_eq_some_iff] at hv
    obtain ⟨raw, -, hraw⟩ := hv
    cases htyped : c.typed options raw with
    | error err => simp [htyped, Except.toOption] at hraw
    | ok w =>
      obtain rfl : w = v := by simpa [htyped, Except.toOption] using hraw
      exact Column.type?_of_typed htyped

/-- What the question of a group finds: the rows on which its conditions hold, with what they
show in the column searched in. -/
theorem Engine.found_of_group (hr : e.registry.table? g.link.table = some remote)
    (hd : e.drivers.lookup remote.id = some (memory remote.id).driver)
    (hsearch : remote.Stores g.link.searchColumn) (hvalue : remote.Stores g.link.valueColumn)
    (h : (e.findOnce now session find true g.template).result = .ok found) :
    ∃ keep search, remote.column? g.link.searchColumn = some search ∧
      (∀ stored, keep stored = true ↔
        ∀ member ∈ g.members, (memory remote.id).Meets now remote stored g.link.valueColumn
          member) ∧
      List.Forall₂ (fun stored row =>
          row.value? g.link.searchColumn = stored.shown? e.options search)
        ((memory remote.id).rows.filter keep) found.rows := by
  have hr' : e.registry.table? g.template.table = some remote := hr
  obtain ⟨keep, hkeep, hids, hfound⟩ :=
    shown_of_direct hr' hd (LinkGroup.linkOf?_template hvalue) rfl h
  obtain ⟨search, hs⟩ := hids _ g.searchColumn_mem
  refine ⟨keep, search, hs, fun stored => (hkeep stored).trans LinkGroup.meets_template_iff, ?_⟩
  rw [PageRequest.window_of_not_isPaged rfl] at hfound
  exact hfound.imp fun stored row hrow => hrow.1 _ g.searchColumn_mem search hs (hsearch search hs)

/-- The condition that a group stands for holds on the local rows to which a row that satisfies the
group belongs. -/
theorem Engine.accepts_inboundCondition_iff {m : Memory} {row : StoredRow}
    {condition : RawCondition} (hr : e.registry.table? g.link.table = some remote)
    (hd : e.drivers.lookup remote.id = some (memory remote.id).driver)
    (hsearch : remote.Stores g.link.searchColumn) (hvalue : remote.Stores g.link.valueColumn)
    (htyped : ∀ search, remote.column? g.link.searchColumn = some search →
      (memory remote.id).Typed e.options search)
    (h : (e.inboundCondition (e.findOnce now session find true) t g).result =
      .ok (some condition)) :
    m.Accepts now t row condition ↔ ∃ stored ∈ (memory remote.id).rows,
      e.Belongs t remote g.link row stored ∧
        ∀ member ∈ g.members, (memory remote.id).Meets now remote stored g.link.valueColumn
          member := by
  obtain ⟨remote', here, found, raws, hr', hhere, hfound, -, hkeys, rfl⟩ :=
    inboundCondition_eq_some_iff.mp h
  obtain rfl : remote' = remote := Option.some.inj (hr'.symm.trans hr)
  obtain ⟨keep, search, hs, hkeep, hrows⟩ := found_of_group hr hd hsearch hvalue hfound
  have hshown : ∀ shown ∈ found.rows, ∀ v, shown.value? g.link.searchColumn = some v →
      v.type? = some search.type := by
    intro shown hf v hv
    obtain ⟨stored, hstored, heq⟩ := forall₂_exists_left hrows hf
    exact Memory.type?_of_shown? (htyped _ hs) (List.mem_filter.mp hstored).1 (heq ▸ hv)
  have hcoherent : LinkGroup.Coherent g.link here found.rows := fun a ha b hb v w hv hw hvw =>
    here.rawOf_eq_of_display ((hshown a ha v hv).trans (hshown b hb w hw).symm) hvw
  have hhere' : t.column? here.id = some here := by rw [Table.column?_id hhere, hhere]
  have haccepts : m.Accepts now t row ⟨here.id, Builtin.isIn, raws⟩ ↔
      ∃ raw ∈ raws, ((row.get? here).getD .null).compare? raw = some .eq := by
    simp [Memory.Accepts, hhere', Memory.evaluate_isIn, Memory.isAmong]
  rw [haccepts]
  constructor
  · rintro ⟨raw, hraw, hcompare⟩
    obtain ⟨shown, hf, v, hv, hkey⟩ := (LinkGroup.mem_keys_iff hcoherent hkeys raw).mp hraw
    obtain ⟨stored, hstored, heq⟩ := forall₂_exists_left hrows hf
    obtain ⟨hmem, hkept⟩ := List.mem_filter.mp hstored
    exact ⟨stored, hmem, ⟨here, search, v, raw, hhere, hs, heq ▸ hv, hkey, hcompare⟩,
      (hkeep stored).mp hkept⟩
  · rintro ⟨stored, hmem, ⟨here', search', v, raw, hh, hs', hv, hkey, hcompare⟩, hmeets⟩
    obtain rfl : here' = here := Option.some.inj (hh.symm.trans hhere)
    obtain rfl : search' = search := Option.some.inj (hs'.symm.trans hs)
    have hstored := List.mem_filter.mpr ⟨hmem, (hkeep stored).mpr hmeets⟩
    obtain ⟨shown, hf, heq⟩ := forall₂_exists_right hrows hstored
    exact ⟨raw, (LinkGroup.mem_keys_iff hcoherent hkeys raw).mpr ⟨shown, hf, v, heq ▸ hv, hkey⟩,
      hcompare⟩

/-- A group that finds nothing is satisfied by no row. -/
theorem Engine.not_meets_of_inboundCondition_eq_none
    (hr : e.registry.table? g.link.table = some remote)
    (hd : e.drivers.lookup remote.id = some (memory remote.id).driver)
    (hsearch : remote.Stores g.link.searchColumn) (hvalue : remote.Stores g.link.valueColumn)
    (h : (e.inboundCondition (e.findOnce now session find true) t g).result = .ok none)
    {stored : StoredRow} (hstored : stored ∈ (memory remote.id).rows) :
    ¬ ∀ member ∈ g.members, (memory remote.id).Meets now remote stored g.link.valueColumn
        member := by
  obtain ⟨remote', here, found, hr', -, hfound, hempty⟩ := inboundCondition_eq_none_iff.mp h
  obtain rfl : remote' = remote := Option.some.inj (hr'.symm.trans hr)
  obtain ⟨keep, search, -, hkeep, hrows⟩ := found_of_group hr hd hsearch hvalue hfound
  rw [hempty, List.forall₂_nil_right_iff, List.filter_eq_nil_iff] at hrows
  intro hmeets
  exact hrows stored hstored ((hkeep stored).mpr hmeets)

end Group

/-! ## All groups as joins -/

section Join

variable {e : Engine} {memory : String → Memory} {now : Moment} {session : Session}
  {find : Template → Run TableRows} {t : Table} {conditions : List Condition}
  {linked : List (Link × Condition)}

/-- The links of conditions lead to stored columns of tables in memory whose rows show values of
the columns' types. -/
def Engine.Joinable (e : Engine) (memory : String → Memory) (linked : List (Link × Condition)) :
    Prop :=
  ∀ p ∈ linked, ∀ remote, e.registry.table? p.1.table = some remote →
    remote.Stores p.1.searchColumn ∧ remote.Stores p.1.valueColumn ∧
      ∀ search, remote.column? p.1.searchColumn = some search →
        (memory remote.id).Typed e.options search

theorem Engine.Joinable.of_group {g : LinkGroup} {remote : Table} (hj : e.Joinable memory linked)
    (hg : g ∈ LinkGroup.collect linked) (hr : e.registry.table? g.link.table = some remote) :
    remote.Stores g.link.searchColumn ∧ remote.Stores g.link.valueColumn ∧
      ∀ search, remote.column? g.link.searchColumn = some search →
        (memory remote.id).Typed e.options search := by
  obtain ⟨leader, hleader, hlink⟩ := List.mem_map.mp (LinkGroup.eq_led_of_mem hg).2
  rw [← hlink] at hr ⊢
  exact hj leader hleader remote hr

theorem Engine.Belongs.of_sameLookup {remote : Table} {a b : Link} {row stored : StoredRow}
    (hab : a.sameLookup b = true) (h : e.Belongs t remote a row stored) :
    e.Belongs t remote b row stored := by
  obtain ⟨-, hlocal, hsearch⟩ := Link.sameLookup_iff.mp hab
  unfold Engine.Belongs at h ⊢
  rwa [hlocal, hsearch] at h

theorem Engine.Served.lookup {id : String} {remote : Table} (hserved : e.Served memory)
    (hr : e.registry.table? id = some remote) :
    e.drivers.lookup remote.id = some (memory remote.id).driver :=
  hserved remote (List.mem_of_find?_eq_some hr)

/-- A row of another table satisfies a group if each linked condition of its lookup holds on the
value column of the leader. -/
theorem LinkGroup.members_iff {g : LinkGroup} (hg : g ∈ collect linked)
    {p : Link × Condition} (hp : g.link.sameLookup p.1 = true) {P : String → Condition → Prop} :
    (∀ member ∈ g.members, P g.link.valueColumn member) ↔
      ∀ q ∈ linked, p.1.sameLookup q.1 = true →
        P (Link.leaderAmong linked q.1).valueColumn q.2 := by
  have hmembers : g.members = (linked.filter fun q => g.link.sameLookup q.1).map Prod.snd :=
    congrArg LinkGroup.members (eq_led_of_mem hg).1
  rw [hmembers]
  simp only [List.forall_mem_map, List.mem_filter, and_imp]
  constructor
  · intro h q hq hpq
    have hgq := Link.sameLookup_trans hp hpq
    rw [Link.leaderAmong_of_mem hg hgq]
    exact h q hq hgq
  · intro h q hq hgq
    have hpq := Link.sameLookup_trans (Link.sameLookup_symm hp) hgq
    have hq' := h q hq hpq
    rwa [Link.leaderAmong_of_mem hg hgq] at hq'

/-- A row of another table belongs to a row and satisfies a group if there is such a row for each
linked condition of the lookup of the group. -/
theorem Engine.belongs_group_iff {g : LinkGroup} {remote : Table} {row : StoredRow}
    (hg : g ∈ LinkGroup.collect linked) (hr : e.registry.table? g.link.table = some remote) :
    (∃ stored ∈ (memory remote.id).rows, e.Belongs t remote g.link row stored ∧
      ∀ member ∈ g.members, (memory remote.id).Meets now remote stored g.link.valueColumn
        member) ↔
      ∀ p ∈ linked, g.link.sameLookup p.1 = true →
        ∃ remote stored, e.registry.table? p.1.table = some remote ∧
          stored ∈ (memory remote.id).rows ∧ e.Belongs t remote p.1 row stored ∧
          ∀ q ∈ linked, p.1.sameLookup q.1 = true →
            (memory remote.id).Meets now remote stored
              (Link.leaderAmong linked q.1).valueColumn q.2 := by
  constructor
  · rintro ⟨stored, hstored, hbelongs, hmeets⟩ p hp hgp
    have htable := (Link.sameLookup_iff.mp hgp).1
    exact ⟨remote, stored, htable ▸ hr, hstored, hbelongs.of_sameLookup hgp,
      (LinkGroup.members_iff hg hgp).mp hmeets⟩
  · intro hall
    obtain ⟨leader, hleader, hlink⟩ := List.mem_map.mp (LinkGroup.eq_led_of_mem hg).2
    have hself : g.link.sameLookup leader.1 = true := by rw [hlink]; exact Link.sameLookup_refl _
    obtain ⟨remote', stored, hr', hstored, hbelongs, hmeets⟩ := hall leader hleader hself
    rw [hlink] at hr' hbelongs
    obtain rfl : remote' = remote := Option.some.inj (hr'.symm.trans hr)
    exact ⟨stored, hstored, hbelongs, (LinkGroup.members_iff hg hself).mpr hmeets⟩

/-- Together, the conditions on local columns that groups stand for hold on the rows that the join
keeps. -/
theorem Engine.accepts_inbound_iff {m : Memory} {row : StoredRow} {translated : List RawCondition}
    (hserved : e.Served memory) (hj : e.Joinable memory linked)
    (h : (e.inbound (e.findOnce now session find true) t (LinkGroup.collect linked)).result =
      .ok (some translated)) :
    (∀ condition ∈ translated, m.Accepts now t row condition) ↔
      e.JoinsLinked memory now t linked
        (fun l => (Link.leaderAmong linked l).valueColumn) row := by
  have hgroups := inbound_eq_some_iff.mp h
  -- One condition on a local column is one group, and one group is all conditions of its lookup.
  have hone : ∀ g ∈ LinkGroup.collect linked, ∀ condition,
      (e.inboundCondition (e.findOnce now session find true) t g).result = .ok (some condition) →
      (m.Accepts now t row condition ↔ ∀ p ∈ linked, g.link.sameLookup p.1 = true →
        ∃ remote stored, e.registry.table? p.1.table = some remote ∧
          stored ∈ (memory remote.id).rows ∧ e.Belongs t remote p.1 row stored ∧
          ∀ q ∈ linked, p.1.sameLookup q.1 = true →
            (memory remote.id).Meets now remote stored
              (Link.leaderAmong linked q.1).valueColumn q.2) := by
    intro g hg condition hcondition
    obtain ⟨remote, -, -, -, hr, -⟩ := inboundCondition_eq_some_iff.mp hcondition
    obtain ⟨hsearch, hvalue, htyped⟩ := hj.of_group hg hr
    rw [accepts_inboundCondition_iff hr (hserved.lookup hr) hsearch hvalue htyped hcondition]
    exact belongs_group_iff hg hr
  constructor
  · intro hall p hp
    obtain ⟨l, hl, hlp, -⟩ := LinkGroup.exists_led hp
    obtain ⟨condition, hmem, hcondition⟩ := forall₂_exists_right hgroups hl
    exact (hone _ hl condition hcondition).mp (hall condition hmem) p hp hlp
  · intro hall condition hmem
    obtain ⟨g, hg, hcondition⟩ := forall₂_exists_left hgroups hmem
    exact (hone g hg condition hcondition).mpr fun p hp _ => hall p hp

/-- Where the groups find nothing, the join keeps no row. -/
theorem Engine.not_join_of_inbound_eq_none {row : StoredRow} (hserved : e.Served memory)
    (hj : e.Joinable memory linked)
    (h : (e.inbound (e.findOnce now session find true) t (LinkGroup.collect linked)).result =
      .ok none) :
    ¬ e.JoinsLinked memory now t linked
        (fun l => (Link.leaderAmong linked l).valueColumn) row := by
  obtain ⟨g, hg, hnone⟩ := exists_of_inbound_eq_none h
  obtain ⟨remote, -, -, hr, -⟩ := inboundCondition_eq_none_iff.mp hnone
  obtain ⟨hsearch, hvalue, -⟩ := hj.of_group hg hr
  intro hall
  obtain ⟨stored, hstored, -, hmeets⟩ := (belongs_group_iff hg hr).mpr fun p hp _ => hall p hp
  exact not_meets_of_inboundCondition_eq_none hr (hserved.lookup hr) hsearch hvalue hnone hstored
    hmeets

theorem Engine.joinsLinked_congr {f g : Link → String} {row : StoredRow}
    (hfg : ∀ q ∈ linked, f q.1 = g q.1) :
    e.JoinsLinked memory now t linked f row ↔ e.JoinsLinked memory now t linked g row := by
  have hmeets {remote : Table} {stored : StoredRow} {p : Link × Condition} :
      (∀ q ∈ linked, p.1.sameLookup q.1 = true →
          (memory remote.id).Meets now remote stored (f q.1) q.2) ↔
        ∀ q ∈ linked, p.1.sameLookup q.1 = true →
          (memory remote.id).Meets now remote stored (g q.1) q.2 :=
    forall₂_congr fun q hq => by rw [hfg q hq]
  simp only [JoinsLinked, hmeets]

/-- The answer counts and shows the rows on which all conditions hold, the linked ones on the value
columns of the leaders of their groups. -/
theorem Engine.exists_joined_of_findRows {template : Template} {answer : TableRows}
    (hserved : e.Served memory) (ht : e.registry.table? template.table = some t)
    (hj : e.Joinable memory (t.linkedConditions template.body.filter))
    (h : (e.findRows now session template).result = .ok answer) :
    ∃ keep : StoredRow → Bool,
      (∀ row, keep row = true ↔ e.Joins memory now t template.body.filter (fun l =>
        (Link.leaderAmong (t.linkedConditions template.body.filter) l).valueColumn) row) ∧
      answer.page.totalResults = UInt64.ofNat ((memory t.id).rows.filter keep).length ∧
      ∃ output shown,
        t.rows e.options output (template.page.window
          (Memory.sorted t template.order ((memory t.id).rows.filter keep))) = .ok shown ∧
        answer.rows.map TableRow.id = shown.map TableRow.id := by
  obtain ⟨t', direct, linked, ht', hv, hs, h⟩ := findOnce_eq_ok_iff.mp h
  obtain rfl : t' = t := Option.some.inj (ht'.symm.trans ht)
  obtain rfl := Table.linked_of_split hs
  have hdirect : ∀ row, (∀ raw ∈ direct, (memory t'.id).Accepts now t' row raw) ↔ _ := fun row =>
    Table.accepts_direct_iff hs
  rcases h with ⟨hi, rfl⟩ | ⟨translated, d, fetched, hi, hd, hf, ha⟩
  · refine ⟨fun _ => false, fun row => ?_, ?_, [], [], ?_, rfl⟩
    · simp only [Bool.false_eq_true, false_iff]
      exact fun hjoin => not_join_of_inbound_eq_none hserved hj hi hjoin.2
    · simp [TableRows.empty, PageInfo.zero]
    · rw [List.filter_false, (Memory.sorted_perm t' template.order []).eq_nil]
      simp [PageRequest.window, Table.rows]
  · obtain rfl : (memory t'.id).driver = d :=
      Option.some.inj ((hserved.lookup ht).symm.trans (driver_eq_ok_iff.mp hd))
    obtain ⟨matched, aggregates, hm, -, -, rfl⟩ :=
      Memory.fetch_eq_ok_iff.mp (Memory.ask_eq_ok_iff.mp hf)
    obtain ⟨-, rfl⟩ := Memory.matching_eq_ok_iff.mp hm
    obtain ⟨shown, hshown, hids, hpage⟩ := map_id_of_answer ha
    refine ⟨_, fun row => ?_, ?_, _, shown, hshown, hids⟩
    · refine Memory.keeps_iff.trans (List.forall_mem_append.trans ?_)
      exact and_congr (hdirect row) (accepts_inbound_iff hserved hj hi)
    · rw [hpage]
      simp only [PageRequest.info, (Memory.sorted_perm _ _ _).length_eq]

/-- The rows of a table in memory that match the conditions of a template are the rows that a join
keeps, in which every linked condition is looked at on the value column of the first link with its
lookup. Where links with the same lookup agree on their value columns, it is the join that the
links name. The answer counts these rows and shows a page of them. -/
theorem Engine.matched_rows_eq_join {template : Template} {answer : TableRows}
    (hserved : e.Served memory) (ht : e.registry.table? template.table = some t)
    (hj : e.Joinable memory (t.linkedConditions template.body.filter))
    (h : (e.findRows now session template).result = .ok answer) :
    ∃ keep : StoredRow → Bool,
      (∀ row, keep row = true ↔ e.Joins memory now t template.body.filter (fun l =>
        (Link.leaderAmong (t.linkedConditions template.body.filter) l).valueColumn) row) ∧
      ((∀ p ∈ t.linkedConditions template.body.filter,
          ∀ q ∈ t.linkedConditions template.body.filter,
            p.1.sameLookup q.1 = true → p.1.valueColumn = q.1.valueColumn) →
        ∀ row, keep row = true ↔
          e.Joins memory now t template.body.filter Link.valueColumn row) ∧
      answer.page.totalResults = UInt64.ofNat ((memory t.id).rows.filter keep).length ∧
      ∃ output shown,
        t.rows e.options output (template.page.window
          (Memory.sorted t template.order ((memory t.id).rows.filter keep))) = .ok shown ∧
        answer.rows.map TableRow.id = shown.map TableRow.id := by
  obtain ⟨keep, hkeep, hcount, hrows⟩ := exists_joined_of_findRows hserved ht hj h
  refine ⟨keep, hkeep, fun hagree row => ?_, hcount, hrows⟩
  rw [hkeep row]
  exact and_congr_right fun _ => joinsLinked_congr fun q hq => by
    obtain ⟨p, hp, hpq, hlookup⟩ := Link.exists_leaderAmong hq
    rw [← hpq]
    exact hagree p hp q hq hlookup

end Join

/-! ## A stock of materials -/

namespace Stock

open Sample (clock visitor)

def materials : Table :=
  ⟨"Material", "Material", "", [.ofTexts "Code" true none, .ofTexts "Name" false none,
    .ofTexts "Grp" false none], "Code", [], none, none⟩

def items : Table :=
  ⟨"Stock", "Stock", "", [.ofTexts "Id" true none, .ofTexts "Mat" false none,
    .ofTexts "MatName" false (some ⟨"Material", "Mat", "Code", "Name"⟩),
    .ofTexts "MatGrp" false (some ⟨"Material", "Mat", "Code", "Grp"⟩)], "Id", [], none, none⟩

/-- A bolt of group A, and a nut of group B, and an item of each. -/
def memory (table : String) : Memory where
  rows :=
    if table = "Material" then
      [.keyed [("Code", .text "M1"), ("Name", .text "Bolt"), ("Grp", .text "A")],
        .keyed [("Code", .text "M2"), ("Name", .text "Nut"), ("Grp", .text "B")]]
    else
      [.keyed [("Id", .text "S1"), ("Mat", .text "M1")],
        .keyed [("Id", .text "S2"), ("Mat", .text "M2")]]
  limit := 100000
  operators := []

def engine : Engine where
  registry := ⟨[materials, items]⟩
  options := .empty
  drivers := [("Material", (memory "Material").driver), ("Stock", (memory "Stock").driver)]

def question (filter : List Condition) : Template :=
  .temporary "Stock" ⟨filter, [.plain "Id"]⟩ .all

def named : Condition := ⟨"MatName", Builtin.eq, [.string "Bolt"]⟩

def grouped : Condition := ⟨"MatGrp", Builtin.eq, [.string "A"]⟩

theorem served : engine.Served memory := by
  intro t ht
  simp only [engine, List.mem_cons, List.not_mem_nil, or_false] at ht
  rcases ht with rfl | rfl <;> rfl

theorem joinable (filter : List Condition) :
    engine.Joinable memory (items.linkedConditions filter) := by
  intro p hp remote hr
  obtain ⟨condition, -, hcondition⟩ := List.mem_filterMap.mp hp
  obtain ⟨link, hlink, rfl⟩ := Option.map_eq_some_iff.mp hcondition
  obtain ⟨c, hc, hlink⟩ := Option.bind_eq_some_iff.mp hlink
  have hmaterial : engine.registry.table? "Material" = some materials := rfl
  have hmem := Table.mem_of_column? hc
  simp only [items, List.mem_cons, List.not_mem_nil, or_false] at hmem
  rcases hmem with rfl | rfl | rfl | rfl
  · cases hlink
  · cases hlink
  all_goals
    obtain rfl := Option.some.inj hlink
    obtain rfl := Option.some.inj (hmaterial.symm.trans hr)
    refine ⟨?_, ?_, ?_⟩
    · intro c hc
      obtain rfl := Option.some.inj hc
      rfl
    · intro c hc
      obtain rfl := Option.some.inj hc
      rfl
    · intro search _ row v hrow
      simp [memory, materials] at hrow

/-- The items of materials with a name are those that the join keeps, here the item of the bolt. -/
theorem matched_named : ∃ answer,
    (engine.findRows clock visitor (question [named])).result = .ok answer ∧
      answer.rows.map TableRow.id = ["S1"] ∧
      ∃ keep : StoredRow → Bool,
        (∀ row, keep row = true ↔
          engine.Joins memory clock items [named] Link.valueColumn row) ∧
        answer.page.totalResults = UInt64.ofNat ((memory "Stock").rows.filter keep).length := by
  have hids : ((engine.findRows clock visitor (question [named])).result.map fun answer =>
      answer.rows.map TableRow.id) = .ok ["S1"] := by
    cbv
  obtain ⟨answer, h, hids⟩ := Except.map_eq_ok_iff.mp hids
  have hlinked : items.linkedConditions [named] =
      [(⟨"Material", "Mat", "Code", "Name"⟩, named)] := rfl
  obtain ⟨keep, -, hkeep, hcount, -⟩ :=
    Engine.matched_rows_eq_join served (t := items) rfl (joinable [named]) h
  exact ⟨answer, h, hids, keep, hkeep (by simp [question, Template.temporary, hlinked]), hcount⟩

/-- The bolt has the name and the group that are asked for, and still its item is not found: the
group is looked for among the names. -/
theorem named_and_grouped_not_found :
    engine.registry.validateLinks = .ok engine.registry ∧
      ((engine.findRows clock visitor (question [named, grouped])).result.map fun answer =>
        (answer.rows.map TableRow.id, answer.page.totalResults)) = .ok ([], 0) ∧
      ∃ row ∈ (memory "Stock").rows,
        engine.Joins memory clock items [named, grouped] Link.valueColumn row := by
  refine ⟨?_, ?_, .keyed [("Id", .text "S1"), ("Mat", .text "M1")], ?_, ?_, ?_⟩
  · cbv
  · cbv
  · simp [memory]
  · intro condition hc
    simp only [List.mem_cons, List.not_mem_nil, or_false] at hc
    rcases hc with rfl | rfl <;> intro hlink <;> cases hlink
  · have hlinked : items.linkedConditions [named, grouped] =
        [(⟨"Material", "Mat", "Code", "Name"⟩, named),
          (⟨"Material", "Mat", "Code", "Grp"⟩, grouped)] := rfl
    have hbolt : ∀ p ∈ items.linkedConditions [named, grouped],
        engine.registry.table? p.1.table = some materials ∧
        engine.Belongs items materials p.1 (.keyed [("Id", .text "S1"), ("Mat", .text "M1")])
          (.keyed [("Code", .text "M1"), ("Name", .text "Bolt"), ("Grp", .text "A")]) ∧
        (memory materials.id).Meets clock materials
          (.keyed [("Code", .text "M1"), ("Name", .text "Bolt"), ("Grp", .text "A")])
          p.1.valueColumn p.2 := by
      rw [hlinked]
      simp only [List.forall_mem_cons]
      exact ⟨⟨rfl, ⟨_, _, .string "M1", .text "M1", rfl, rfl, by cbv, by cbv, by cbv⟩, _, rfl, _,
          rfl, by cbv⟩,
        ⟨rfl, ⟨_, _, .string "M1", .text "M1", rfl, rfl, by cbv, by cbv, by cbv⟩, _, rfl, _, rfl,
          by cbv⟩, by simp⟩
    intro p hp
    obtain ⟨hmaterial, hbelongs, -⟩ := hbolt p hp
    exact ⟨materials, _, hmaterial, by simp [memory, materials], hbelongs,
      fun q hq _ => (hbolt q hq).2.2⟩

end Stock

end TableQuery
