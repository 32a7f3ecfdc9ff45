import TableQuery.Proofs.Query.Calls
import TableQuery.Proofs.Registry.Settled
import TableQuery.Proofs.Sample

/-!
# Questions without joins

Drivers know nothing of links: they are to be asked about stored columns only. A condition on a
linked column becomes one on the local column of its link, and this may be linked in its turn. Then
the driver is asked for values that its rows do not have.

## Main definitions

* `Fetch.JoinFree` — a driver is asked about stored columns only.
* `Table.Flat` — the links of a table begin at stored columns.

## Main results

* `Engine.fetch_of_findRows` — what drivers are asked about.
* `Library.room_asked_as_stored` — a driver that is asked about a linked column.
-/

namespace TableQuery

/-- Conditions and aggregates name stored columns. -/
def Fetch.JoinFree (f : Fetch) : Prop :=
  ∀ column ∈ f.conditions.map RawCondition.column ++ f.aggregates.map AggregateColumn.column,
    ∃ c, f.table.column? column = some c ∧ c.outboundLink? = none

/-- The local columns of links are stored, and linked columns have no aggregates. -/
def Table.Flat (t : Table) : Prop :=
  (∀ l, t.HasLink l → t.Stores l.localColumn) ∧
    ∀ c ∈ t.columns, c.isOutbound = true → c.aggregates = []

namespace Engine

variable {e : Engine} {now : Moment} {session : Session} {template source : Template} {f : Fetch}

theorem requestedAggregates_output (l : Link) : requestedAggregates l.output = [] := by
  unfold Link.output
  split <;> rfl

/-- The aggregates that a driver is asked for are offered by their columns. -/
theorem Asks.supportsAggregate (h : e.Asks template f) {a : AggregateColumn}
    (ha : a ∈ f.aggregates) : a.aggregate ≠ .none ∧ (∃ o ∈ template.body.output,
      o.column = a.column ∧ o.aggregate = a.aggregate) ∧
      ∃ c, f.table.column? a.column = some c ∧ c.supportsAggregate a.aggregate = true := by
  rw [h.aggregates_eq] at ha
  obtain ⟨o, ho, rfl⟩ := List.mem_map.mp ha
  obtain ⟨ho, hnone⟩ := List.mem_filter.mp ho
  have hout := (Table.validate_eq_ok_iff.mp h.valid).2.2
  exact ⟨by simpa using hnone, ⟨o, ho, rfl, rfl⟩, Table.columns_of_validateOutput hout ho⟩

theorem Asks.joinFree (h : e.Asks template f) (hflat : f.table.Flat) : f.JoinFree := by
  intro column hcolumn
  rcases List.mem_append.mp hcolumn with hcolumn | hcolumn
  · obtain ⟨condition, hc, rfl⟩ := List.mem_map.mp hcolumn
    obtain ⟨c, hc, hstored | ⟨-, l, hl, hlocal⟩⟩ := h.conditions condition hc
    · exact ⟨c, hc, hstored⟩
    · refine ⟨c, hc, hflat.1 l hl c ?_⟩
      rw [hlocal, Table.column?_id hc, hc]
  · obtain ⟨a, ha, rfl⟩ := List.mem_map.mp hcolumn
    obtain ⟨hnone, -, c, hc, hsupports⟩ := h.supportsAggregate ha
    refine ⟨c, hc, ?_⟩
    cases hl : c.outboundLink? with
    | none => rfl
    | some l =>
      have hempty := hflat.2 c (Table.mem_of_column? hc) (by simp [Column.isOutbound, hl])
      simp [Column.supportsAggregate, hempty, hnone] at hsupports

/-- Whatever drivers answer: the driver of a registered table is asked with conditions on stored
columns, and with lists of values for the local columns of links; and for aggregates that the
template asks for, if the table is that of the template. So where links begin at stored columns and
linked columns have no aggregates, it is asked about stored columns only. -/
theorem fetch_of_findRows (h : .fetch f ∈ (e.findRows now session template).calls) :
    e.registry.table? f.table.id = some f.table ∧
    (∀ condition ∈ f.conditions, ∃ c, f.table.column? condition.column = some c ∧
      (c.outboundLink? = none ∨
        condition.operator = Builtin.isIn ∧ ∃ l, f.table.HasLink l ∧ l.localColumn = c.id)) ∧
    (∀ a ∈ f.aggregates, f.table.id = template.table ∧
      (∃ o ∈ template.body.output, o.visible = true ∧ o.column = a.column ∧
        o.aggregate = a.aggregate) ∧
      ∃ c, f.table.column? a.column = some c ∧ c.supportsAggregate a.aggregate = true) ∧
    (f.table.Flat → f.JoinFree) := by
  obtain ⟨f', source, heq, hsource, hasks⟩ := makes_find e now session template.onlyVisible _ h
  obtain rfl := Call.fetch.inj heq
  have hid : f.table.id = source.table := Registry.table?_id hasks.table_eq
  refine ⟨hid ▸ hasks.table_eq, hasks.conditions, fun a ha => ?_, hasks.joinFree⟩
  obtain ⟨-, ⟨o, ho, hcolumn, haggregate⟩, hoffered⟩ := hasks.supportsAggregate ha
  rcases hsource with rfl | hsends
  · obtain ⟨ho, hvisible⟩ := List.mem_filter.mp ho
    exact ⟨hid, ⟨o, ho, hvisible, hcolumn, haggregate⟩, hoffered⟩
  · -- Questions of links ask for no aggregates.
    obtain ⟨-, -, l, -, -, -, houtput, -⟩ := hsends
    rw [hasks.aggregates_eq, houtput, requestedAggregates_output] at ha
    cases ha

end Engine

/-! ## The books of a library -/

namespace Library

open Sample (clock visitor)

def column (id : String) (isKey : Bool) (link : Option Link) : Column :=
  .ofOperators id isKey [⟨Builtin.eq, "equal", .single⟩] link

def rooms : Table :=
  ⟨"Room", "Room", "", [column "Id" true none, column "Name" false none], "Id", [], none, none⟩

def shelves : Table :=
  ⟨"Shelf", "Shelf", "", [column "Id" true none, column "Room" false none,
    column "RoomName" false (some ⟨"Room", "Room", "Id", "Name"⟩)], "Id", [], none, none⟩

/-- Books show the room of their shelf and the name of this room. -/
def books : Table :=
  ⟨"Book", "Book", "", [column "Id" true none, column "Shelf" false none,
    column "Room" false (some ⟨"Shelf", "Shelf", "Id", "Room"⟩),
    column "RoomName" false (some ⟨"Room", "Room", "Id", "Name"⟩)], "Id", [], none, none⟩

def memory (table : String) : Memory where
  rows :=
    if table = "Room" then [.keyed [("Id", .text "r1"), ("Name", .text "Attic")]]
    else if table = "Shelf" then [.keyed [("Id", .text "s1"), ("Room", .text "r1")]]
    else [.keyed [("Id", .text "b1"), ("Shelf", .text "s1")]]
  limit := 100000
  operators := []

def registry : Registry := ⟨[books, rooms, shelves]⟩

def engine : Engine where
  registry
  options := .empty
  drivers := [("Book", (memory "Book").driver), ("Room", (memory "Room").driver),
    ("Shelf", (memory "Shelf").driver)]

theorem registered : registry.Registered := by
  have hfirst : Registry.empty.register books = .ok ⟨[books]⟩ := rfl
  have hsecond : (⟨[books]⟩ : Registry).register rooms = .ok ⟨[books, rooms]⟩ := rfl
  have hthird : (⟨[books, rooms]⟩ : Registry).register shelves = .ok registry := rfl
  exact .register (.register (.register .empty hfirst) hsecond) hthird

theorem validateLinks_registry : registry.validateLinks = .ok registry := by
  cbv

def inAttic (table : String) : Template :=
  .temporary table ⟨[⟨"RoomName", Builtin.eq, [.string "Attic"]⟩], [.plain "Id"]⟩ .all

theorem flat_shelves : shelves.Flat := by
  constructor
  · rintro l ⟨column, c, hc, hl⟩ here hhere
    have hmem := Table.mem_of_column? hc
    simp only [shelves, List.mem_cons, List.not_mem_nil, or_false] at hmem
    rcases hmem with rfl | rfl | rfl
    · cases hl
    · cases hl
    · obtain rfl := Option.some.inj hl
      obtain rfl := Option.some.inj hhere
      rfl
  · decide

/-- What is in the attic is asked for by its room. -/
theorem asked_by_room {t : Table} (ht : t = shelves ∨ t = books) :
    .fetch (t.fetchFor (inAttic t.id).onlyVisible [⟨"Room", Builtin.isIn, [.text "r1"]⟩]) ∈
      (engine.findRows clock visitor (inAttic t.id)).calls := by
  have hcalls : (engine.findRows clock visitor (inAttic t.id)).calls =
      [.fetch (rooms.fetchFor
          (LinkGroup.mk ⟨"Room", "Room", "Id", "Name"⟩ (inAttic t.id).body.filter).template
          [⟨"Name", Builtin.eq, [.text "Attic"]⟩]),
        .fetch (t.fetchFor (inAttic t.id).onlyVisible
          [⟨"Room", Builtin.isIn, [.text "r1"]⟩])] := by
    rcases ht with rfl | rfl <;> cbv
  simp [hcalls]

/-- The shelves in the attic are asked for by their room, which is stored. -/
theorem room_of_shelf_is_stored : ∃ f,
    .fetch f ∈ (engine.findRows clock visitor (inAttic "Shelf")).calls ∧ f.table.id = "Shelf" ∧
      f.conditions.map RawCondition.column = ["Room"] ∧ f.table.Flat ∧ f.JoinFree := by
  have hmem := asked_by_room (.inl rfl)
  exact ⟨_, hmem, rfl, rfl, flat_shelves, (Engine.fetch_of_findRows hmem).2.2.2 flat_shelves⟩

/-- The books in the attic are asked for by their room as if it were stored with them, which it is
not. So none is found. -/
theorem room_asked_as_stored : registry.Registered ∧
    registry.validateLinks = .ok engine.registry ∧
    books.validate (inAttic "Book") = .ok () ∧
    (∃ f, .fetch f ∈ (engine.findRows clock visitor (inAttic "Book")).calls ∧ f.table = books ∧
      f.conditions.map RawCondition.column = ["Room"] ∧
      (books.column? "Room").map Column.isOutbound = some true ∧ ¬f.JoinFree) ∧
    (engine.findRows clock visitor (inAttic "Book")).result.map
      (fun answer => answer.rows.map TableRow.id) = .ok [] := by
  refine ⟨registered, validateLinks_registry, by cbv,
    ⟨_, asked_by_room (.inr rfl), rfl, rfl, rfl, fun hfree => ?_⟩, by cbv⟩
  obtain ⟨c, hc, hstored⟩ := hfree "Room" List.mem_cons_self
  obtain rfl := Option.some.inj hc
  cases hstored

end Library

end TableQuery
