import TableQuery.Proofs.Query.Chains
import TableQuery.Proofs.Query.Offered
import TableQuery.Proofs.Value.Display

/-!
# Lookups that are answered

A lookup asks another table for the rows with given values in one column. Where this column is
stored there and the driver of that table answers, the lookup is answered exactly if the values
stand for raw values of the column.

## Main definitions

* `Engine.Provides` — a driver answers, and what it answers can be shown.
* `Engine.ProvidesLookups` — the table that a link leads to answers lookups.

## Main results

* `Registry.supports_of_validateLinks` — a stored column that is searched offers an operator for
  lookups.
* `Engine.provides_of_memory` — what is provided from memory.
* `Engine.exists_findOnce_iff_of_lookup` — which lookups are answered.
-/

namespace TableQuery

namespace Column

theorem type?_of_retyped {c : Column} {v w : Value} (h : c.retyped v = .ok w) :
    w.type? = some c.type := by
  unfold retyped at h
  split at h
  · next htype =>
    cases h
    exact htype
  · unfold entered at h
    dsimp only at h
    split at h
    · next hentered =>
      cases h
      exact ColumnType.type?_of_entered? hentered
    · cases h

theorem rawOf_eq_ok_iff {c : Column} {v : Value} {raw : Raw} :
    c.rawOf v = .ok raw ↔ ∃ key, c.retyped v = .ok key ∧ c.native key = .ok raw :=
  Except.bind_eq_ok_iff

/-- The operators for lookups take one value and several values. -/
theorem arity_of_filter? {c : Column} (hsound : c.Sound) {operator : String} {op : Operator}
    (h : c.filter? operator = some op) :
    (operator = Builtin.eq → op.arity = .single) ∧
      (operator = Builtin.isIn → op.arity = .multiple) := by
  have hid : op.id = operator := by simpa using List.find?_some h
  have hmem : namespaceOf op.id = builtinNamespace → op ∈ Builtin.operators :=
    hsound op (List.mem_of_find?_eq_some h)
  have harity : ∀ op ∈ Builtin.operators, (op.id = Builtin.eq → op.arity = .single) ∧
      (op.id = Builtin.isIn → op.arity = .multiple) := by
    decide
  constructor
  · intro heq
    have hspace : namespaceOf op.id = builtinNamespace := by
      rw [hid, heq]
      decide
    exact (harity op (hmem hspace)).1 (hid.trans heq)
  · intro hin
    have hspace : namespaceOf op.id = builtinNamespace := by
      rw [hid, hin]
      decide
    exact (harity op (hmem hspace)).2 (hid.trans hin)

end Column

namespace Table

variable {t : Table}

theorem exists_nativeValues_iff {c : Column} {values : List Value} :
    (∃ raws, nativeValues c values = .ok raws) ↔
      ∀ value ∈ values, ∃ raw, c.native value = .ok raw := by
  induction values with
  | nil => simp [nativeValues]
  | cons value values ih =>
    rw [List.forall_mem_cons, ← ih]
    simp only [nativeValues, Except.bind_eq_ok_iff, Except.pure_eq_ok, Except.ok.injEq]
    constructor
    · rintro ⟨-, raw, hraw, rest, hrest, -⟩
      exact ⟨⟨raw, hraw⟩, rest, hrest⟩
    · rintro ⟨⟨raw, hraw⟩, rest, hrest⟩
      exact ⟨raw :: rest, raw, hraw, rest, hrest, rfl⟩

end Table

/-! ## Columns that are searched -/

namespace Registry

variable {r r' : Registry} {t remote : Table}

/-- A stored column in which a link searches offers one of the operators for lookups, also after
links were followed. -/
theorem supports_of_validateLinks (hn : r.Registered) (h : r.validateLinks = .ok r') {id : String}
    (ht : r'.table? id = some t) {l : Link} (hl : t.HasLink l)
    (hremote : r'.table? l.table = some remote) {search : Column}
    (hsearch : remote.column? l.searchColumn = some search)
    (hstored : search.outboundLink? = none) :
    (search.supports Builtin.eq || search.supports Builtin.isIn) = true := by
  obtain ⟨t₀, here, remote₀, search₀, value, -, hleads, hsupports⟩ :=
    leads_of_validateLinks hn h ht hl
  obtain ⟨remote₁, search₁, hremote₁, hsearch₁, -, hlinked⟩ :=
    column?_of_validateLinks hn h hremote hsearch
  obtain rfl : remote₁ = remote₀ := Option.some.inj (hremote₁.symm.trans hleads.remote_eq)
  obtain rfl : search₁ = search₀ := Option.some.inj (hsearch₁.symm.trans hleads.search_eq)
  -- Nothing is taken over by a column that is stored.
  have hnone : search₁.outboundLink? = none := by
    rw [(eq_of_linkedColumn hlinked).1] at hstored
    exact hstored
  rw [linkedColumn, hnone] at hlinked
  cases hlinked
  exact hsupports

end Registry

/-! ## Lookups -/

namespace Engine

variable {e : Engine} {now : Moment} {session : Session} {find : Template → Run TableRows}
  {t : Table}

/-- A driver answers what it is asked for, and the rows and aggregates that it answers with can be
shown. -/
def Provides (e : Engine) (now : Moment) (session : Session) (f : Fetch) : Prop :=
  ∃ d fetched rows aggregates, e.driver f.table.id = .ok d ∧
    d.fetch now session f = .fetched fetched ∧
    f.table.rows e.options f.output fetched.rows = .ok rows ∧
    f.table.aggregates e.options fetched.aggregates = .ok aggregates

/-- What a driver answered was provided if it could be shown. -/
theorem provides_of_answer {simple : Bool} {f : Fetch} {requested : List String} {d : Driver}
    {fetched : Fetched} {answer : TableRows} (hd : e.driver f.table.id = .ok d)
    (hf : (d.ask now session f).result = .ok fetched)
    (ha : (e.answer session find simple f requested fetched).result = .ok answer) :
    e.Provides now session f := by
  obtain ⟨rows, -, aggregates, -, hrows, -, haggregates, -⟩ := answer_eq_ok_iff.mp ha
  exact ⟨d, fetched, rows, aggregates, hd, Driver.ask_eq_ok_iff.mp hf, hrows, haggregates⟩

/-- Rows in memory are provided if the conditions can be looked at, there are not too many rows,
and every row can be shown. -/
theorem provides_of_memory {m : Memory} {f : Fetch}
    (hd : e.drivers.lookup f.table.id = some m.driver) (haggregates : f.aggregates = [])
    (hholds : ∀ row ∈ m.rows, ∃ b, m.holds now f.table row f.conditions = .ok b)
    (hlimit : ∀ n ≤ m.rows.length, f.page.checkLimit (UInt64.ofNat n) m.limit = .ok ())
    (hrows : ∀ row ∈ m.rows, ∃ shown, f.table.row e.options row f.output = .ok shown) :
    e.Provides now session f := by
  set matched := m.rows.filter (m.keeps now f.table f.conditions)
  have hperm := Memory.sorted_perm f.table f.order matched
  have hlength : (Memory.sorted f.table f.order matched).length ≤ m.rows.length := by
    rw [hperm.length_eq]
    exact List.length_filter_le _ _
  have hfetch : m.fetch now f = .ok ⟨f.page.window (Memory.sorted f.table f.order matched), [],
      f.page.info (UInt64.ofNat (Memory.sorted f.table f.order matched).length)⟩ :=
    Memory.fetch_eq_ok_iff.mpr ⟨matched, [], Memory.matching_eq_ok_iff.mpr ⟨hholds, rfl⟩,
      by rw [haggregates]; rfl, hlimit _ hlength, rfl⟩
  have hshown : ∀ row ∈ f.page.window (Memory.sorted f.table f.order matched),
      ∃ shown, f.table.row e.options row f.output = .ok shown := by
    intro row hrow
    have hmem : row ∈ matched := hperm.subset (List.mem_of_mem_take (List.mem_of_mem_drop hrow))
    exact hrows row (List.mem_filter.mp hmem).1
  obtain ⟨rows, hall⟩ : ∃ rows, f.table.rows e.options f.output
      (f.page.window (Memory.sorted f.table f.order matched)) = .ok rows := by
    simp only [Table.rows_eq_ok_iff]
    exact exists_forall₂ hshown
  have hreply : m.driver.fetch now session f = .ofExcept (m.fetch now f) := rfl
  rw [hfetch] at hreply
  exact ⟨m.driver, _, rows, [], driver_eq_ok_iff.mpr hd, hreply, hall, rfl⟩

/-- A simple run without linked conditions is answered if the template fits the table and the
driver provides what it is asked for. -/
theorem exists_findOnce_iff_of_direct {template : Template} {direct : List RawCondition}
    (ht : e.registry.table? template.table = some t)
    (hs : t.split template.body.filter = .ok (direct, [])) :
    (∃ answer, (e.findOnce now session find true template).result = .ok answer) ↔
      t.validate template = .ok () ∧ e.Provides now session (t.fetchFor template direct) := by
  simp only [findOnce_eq_ok_iff]
  constructor
  · rintro ⟨answer, t', direct', linked', ht', hv, hs', h⟩
    obtain rfl : t' = t := Option.some.inj (ht'.symm.trans ht)
    obtain ⟨rfl, rfl⟩ := Prod.mk.inj (Except.ok.inj (hs'.symm.trans hs))
    rcases h with ⟨hi, -⟩ | ⟨translated, d, fetched, hi, hd, hf, ha⟩
    · cases hi
    · cases hi
      rw [List.append_nil] at hf ha
      exact ⟨hv, provides_of_answer hd hf ha⟩
  · rintro ⟨hv, d, fetched, rows, aggregates, hd, hf, hrows, haggregates⟩
    have hanswer : (e.answer session find true (t.fetchFor template direct) template.outputIds
        fetched).result =
        .ok ⟨rows.map fun row => row.onlyCells template.outputIds, aggregates, fetched.page⟩ :=
      answer_simple_eq_ok_iff.mpr ⟨rows, aggregates, hrows, haggregates, rfl⟩
    have hask : (d.ask now session (t.fetchFor template direct)).result = .ok fetched :=
      Driver.ask_eq_ok_iff.mpr hf
    rw [← List.append_nil direct] at hanswer hask
    exact ⟨_, t, direct, [], ht, hv, hs, .inr ⟨[], d, fetched, rfl, hd, hask, hanswer⟩⟩

/-- A lookup in a stored column with an operator that the column offers is answered exactly if the
values stand for raw values, provided that the driver answers then. -/
theorem exists_findOnce_iff_of_lookup {id : String} {l : Link} {remote : Table} {search : Column}
    {operator : String} {op : Operator} {values : List Value} {page : PageRequest}
    (hr : e.registry.Linked) (ht : e.registry.table? id = some t) (hl : t.HasLink l)
    (hremote : e.registry.table? l.table = some remote)
    (hsearch : remote.column? l.searchColumn = some search)
    (hstored : search.outboundLink? = none) (hqualified : qualify operator = operator)
    (hop : search.filter? operator = some op) (hcount : op.arity.accepts values.length = true)
    (htype : ∀ value ∈ values, value.type? = some search.type)
    (hprovides : ∀ raws, Table.nativeValues search values = .ok raws →
      e.Provides now session
        (remote.fetchFor (l.template operator values page) [⟨search.id, operator, raws⟩])) :
    (∃ answer, (e.findOnce now session find true (l.template operator values page)).result =
        .ok answer) ↔
      ∀ value ∈ values, ∃ raw, search.native value = .ok raw := by
  have hfilter : (l.template operator values page).body.filter =
      [⟨l.searchColumn, operator, values⟩] := by
    rw [Link.filter_template, hqualified]
  rw [← Table.exists_nativeValues_iff]
  constructor
  · rintro ⟨answer, h⟩
    obtain ⟨remote', direct, linked, hremote', -, hs, -⟩ := findOnce_eq_ok_iff.mp h
    obtain rfl : remote' = remote := Option.some.inj (hremote'.symm.trans hremote)
    obtain ⟨raws, hraws, -⟩ := (Table.split_lookup_eq_ok_iff hsearch hstored).mp hs
    exact ⟨raws, hraws⟩
  · rintro ⟨raws, hraws⟩
    have hsends : e.registry.Sends (l.template operator values page) :=
      ⟨id, t, l, ht, hl, rfl, rfl, l.searchColumn, by simp [hfilter], by simp [hfilter]⟩
    have hsplit : remote.split (l.template operator values page).body.filter =
        .ok ([⟨search.id, operator, raws⟩], []) :=
      (Table.split_lookup_eq_ok_iff hsearch hstored).mpr ⟨raws, hraws, by rw [hqualified], rfl⟩
    refine (exists_findOnce_iff_of_direct hremote hsplit).mpr
      ⟨(hsends.validate_iff hr hremote).mpr ?_, hprovides raws hraws⟩
    have hcondition : remote.validateCondition ⟨l.searchColumn, operator, values⟩ = .ok () :=
      Table.validateCondition_eq_ok_iff.mpr ⟨search, op, hsearch, hop, hcount, fun value hv =>
        Column.accepts_iff.mpr (by rw [htype value hv, Option.getD_some])⟩
    rw [hfilter, Table.validateFilter, hcondition]
    rfl

end Engine

end TableQuery
