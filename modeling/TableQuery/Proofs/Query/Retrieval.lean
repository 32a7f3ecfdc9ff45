import TableQuery.Proofs.Cell.Recovered
import TableQuery.Proofs.Query.Alone
import TableQuery.Proofs.Query.Answered
import TableQuery.Proofs.Query.Shape
import TableQuery.Proofs.Sample

/-!
# Rows that are found by their ids

The id of a row is the text of its key. To find the row again, this text is read as a raw value and
the keys of all rows are compared with it.

## Main definitions

* `Template.forId` — the question for the row of an id.
* `Memory.keys` — the keys of rows.
* `Engine.Retrieved` — how a row of an answer is found again.

## Main results

* `Engine.findRow_eq_ok_iff` — what is found for an id.
* `Engine.retrieved_of_findRows` — which rows of an answer are found by their ids.
* `Mint.greatest_not_found` — a number that is shown but cannot be read.
-/

namespace TableQuery

def Template.forId (template : Template) (key : Column) (id : String) : Template :=
  { template with
    body := { template.body with filter := [.of key.id Builtin.eq [.string id]] }
    page := .all }

theorem filter_firstOfEach_append (ss : List String) (s : String) :
    (firstOfEach (ss ++ [s])).filter (· != s) = (firstOfEach ss).filter (· != s) := by
  induction ss with
  | nil => simp [firstOfEach]
  | cons first ss ih =>
    rw [List.cons_append, firstOfEach, firstOfEach, List.filter_cons, List.filter_cons,
      List.filter_comm, ih, List.filter_comm]

theorem firstOfEach_append_of_mem {ss : List String} {s : String} (h : s ∈ ss) :
    firstOfEach (ss ++ [s]) = firstOfEach ss := by
  induction ss with
  | nil => cases h
  | cons first ss ih =>
    rw [List.cons_append, firstOfEach, firstOfEach]
    rcases List.mem_cons.mp h with rfl | h
    · rw [filter_firstOfEach_append]
    · rw [ih h]

/-- A condition on the key does not add to the columns that are fetched. -/
theorem Table.fetchColumns_key {t : Table} (output : List String) (operator : String)
    (values : List Raw) :
    t.fetchColumns output [⟨t.key, operator, values⟩] = t.fetchColumns output [] := by
  rw [fetchColumns, fetchColumns, List.map_singleton, List.map_nil, List.append_nil,
    firstOfEach_append_of_mem (by simp)]

namespace Memory

variable {m : Memory} {now : Moment} {t : Table} {key : Column} {arg : Raw}

def keys (m : Memory) (key : Column) : List Raw :=
  m.rows.filterMap fun row => row.get? key

def equals (m : Memory) (key : Column) (arg : Raw) : List StoredRow :=
  m.rows.filter fun row => ((row.get? key).getD .null).compare? arg == some .eq

theorem matching_eq (hkey : t.column? key.id = some key) :
    m.matching now t [⟨key.id, Builtin.eq, [arg]⟩] m.rows = .ok (m.equals key arg) := by
  have hholds (row : StoredRow) : m.holds now t row [⟨key.id, Builtin.eq, [arg]⟩] =
      .ok (((row.get? key).getD .null).compare? arg == some .eq) := by
    simp only [holds, Table.column_eq_ok_iff.mpr hkey, Except.ok_bind, evaluate_eq]
    cases ((row.get? key).getD .null).compare? arg == some .eq <;> rfl
  rw [matching_eq_ok_iff]
  refine ⟨fun row _ => ⟨_, hholds row⟩, List.filter_congr fun row _ => ?_⟩
  exact (keeps_of_holds (hholds row)).symm

/-- Where one key is equal to the value, its row is. -/
theorem equals_eq_singleton {stored : StoredRow} {raw : Raw} (hmem : stored ∈ m.rows)
    (hget : stored.get? key = some raw)
    (hkeys : ∀ row ∈ m.rows, ∃ raw, row.get? key = some raw)
    (hdiff : (m.rows.map fun row => row.get? key).Nodup)
    (h : ∀ other ∈ m.keys key, other.compare? arg = some .eq ↔ other = raw) :
    m.equals key arg = [stored] := by
  have hother : ∀ row ∈ m.rows,
      ((row.get? key).getD .null).compare? arg = some .eq ↔ row = stored := by
    intro row hrow
    obtain ⟨other, hother⟩ := hkeys row hrow
    rw [hother, Option.getD_some, h other (List.mem_filterMap.mpr ⟨row, hrow, hother⟩)]
    constructor
    · rintro rfl
      exact List.inj_on_of_nodup_map hdiff hrow hmem (hother.trans hget.symm)
    · rintro rfl
      exact Option.some.inj (hother.symm.trans hget)
  have hall : ∀ row ∈ m.equals key arg, row = stored := by
    intro row hrow
    obtain ⟨hrow, heq⟩ := List.mem_filter.mp hrow
    exact (hother row hrow).mp (beq_iff_eq.mp heq)
  have hstored : stored ∈ m.equals key arg :=
    List.mem_filter.mpr ⟨hmem, beq_iff_eq.mpr ((hother stored hmem).mpr rfl)⟩
  have hnodup : (m.equals key arg).Nodup := (List.Nodup.of_map _ hdiff).filter _
  have hreplicate := List.eq_replicate_of_mem hall
  rw [hreplicate, List.nodup_replicate] at hnodup
  rw [hreplicate, Nat.le_antisymm hnodup (List.length_pos_of_mem hstored)]
  rfl

theorem mem_equals_of_fetch {f : Fetch} {fetched : Fetched} {stored : StoredRow}
    (hkey : t.column? key.id = some key) (ht : f.table = t)
    (hconditions : f.conditions = [⟨key.id, Builtin.eq, [arg]⟩])
    (h : m.fetch now f = .ok fetched) (hstored : stored ∈ fetched.rows) :
    stored ∈ m.equals key arg := by
  obtain ⟨matched, aggregates, hmatched, -, -, rfl⟩ := fetch_eq_ok_iff.mp h
  rw [ht, hconditions, matching_eq hkey] at hmatched
  obtain rfl := Except.ok.inj hmatched
  exact (sorted_perm _ _ _).subset (List.mem_of_mem_take (List.mem_of_mem_drop hstored))

/-- Where only one row is equal, all rows are this row. -/
theorem fetch_eq_ok_iff_of_singleton {f : Fetch} {fetched : Fetched} {stored : StoredRow}
    (hkey : t.column? key.id = some key) (ht : f.table = t)
    (hconditions : f.conditions = [⟨key.id, Builtin.eq, [arg]⟩]) (hpage : f.page = .all)
    (h : m.equals key arg = [stored]) :
    m.fetch now f = .ok fetched ↔ ∃ aggregates, 0 < m.limit ∧
      f.aggregates.mapM (aggregate t [stored]) = .ok aggregates ∧
      fetched = ⟨[stored], aggregates, PageRequest.all.info 1⟩ := by
  have hsorted : sorted t f.order [stored] = [stored] :=
    List.perm_singleton.mp (sorted_perm _ _ _)
  have hlimit : PageRequest.all.checkLimit 1 m.limit = .ok () ↔ 0 < m.limit := by
    have hone : m.limit < 1 ↔ ¬ 0 < m.limit := by
      rw [UInt64.lt_iff_toNat_lt, UInt64.lt_iff_toNat_lt, UInt64.toNat_one, UInt64.toNat_zero]
      omega
    have hnot : PageRequest.all.isPaged = false := by decide
    simp only [PageRequest.checkLimit, hnot, hone]
    by_cases hpositive : 0 < m.limit <;> simp [hpositive]
  have hwindow : PageRequest.all.window [stored] = [stored] :=
    PageRequest.window_of_not_isPaged (by decide) _
  have hone : UInt64.ofNat [stored].length = 1 := rfl
  simp only [fetch_eq_ok_iff, ht, hconditions, hpage, matching_eq hkey, h, Except.ok.injEq]
  constructor
  · rintro ⟨-, aggregates, rfl, haggregates, hpositive, rfl⟩
    rw [hsorted] at haggregates hpositive
    rw [hsorted, hwindow, hone]
    exact ⟨aggregates, hlimit.mp hpositive, haggregates, rfl⟩
  · rintro ⟨aggregates, hpositive, haggregates, rfl⟩
    refine ⟨_, aggregates, rfl, ?_⟩
    rw [hsorted, hwindow, hone]
    exact ⟨haggregates, hlimit.mpr hpositive, rfl⟩

end Memory

namespace Engine

variable {e : Engine} {now : Moment} {session : Session} {t : Table} {template : Template}
  {m : Memory} {key : Column} {id : String} {answer : TableRows} {row : TableRow}

/-- What is found for an id is the first row of an answer. -/
theorem findRow_eq_ok_iff (ht : e.registry.table? template.table = some t)
    (hkey : t.keyColumn? = some key) :
    (e.findRow now session template id).result = .ok row ↔ ∃ answer,
      (e.findRows now session (template.forId key id)).result = .ok answer ∧
      answer.rows.head? = some row := by
  simp only [findRow, Run.liftM_eq_ofExcept, Run.result_bind_eq_ok_iff,
    Run.result_ofExcept_eq_ok_iff, Registry.find_eq_ok_iff]
  constructor
  · rintro ⟨t', ht', h⟩
    obtain rfl := Option.some.inj (ht.symm.trans ht')
    rw [hkey] at h
    obtain ⟨answer, hanswer, h⟩ := Run.result_bind_eq_ok_iff.mp h
    refine ⟨answer, hanswer, ?_⟩
    split at h
    · next first rest hrows =>
      cases h
      rw [hrows]
      rfl
    · cases h
  · rintro ⟨answer, hanswer, hfirst⟩
    refine ⟨t, ht, ?_⟩
    rw [hkey]
    refine Run.result_bind_eq_ok_iff.mpr ⟨answer, hanswer, ?_⟩
    obtain ⟨rest, hrows⟩ := List.head?_eq_some_iff.mp hfirst
    rw [hrows]
    rfl

/-- It stops where the question for the row does. -/
theorem findRow_eq_error (ht : e.registry.table? template.table = some t)
    (hkey : t.keyColumn? = some key) {s : Stop}
    (h : (e.findRows now session (template.forId key id)).result = .error s) :
    (e.findRow now session template id).result = .error s := by
  simp only [findRow, Run.liftM_eq_ofExcept]
  rw [Run.bind_ofExcept_ok _ (Registry.find_eq_ok_iff.mpr ht), hkey]
  exact Run.result_bind_eq_error_iff.mpr (.inl h)

theorem validate_forId (hvalid : t.validate template.onlyVisible = .ok ())
    (hkey : t.KeyedBy key) (hsupports : key.supports Builtin.eq = true) (hsound : key.Sound)
    (id : String) : t.validate (template.forId key id).onlyVisible = .ok () := by
  obtain ⟨-, hne, houtput⟩ := Table.validate_eq_ok_iff.mp hvalid
  rw [Column.supports_eq_isSome_filter?, Option.isSome_iff_exists] at hsupports
  obtain ⟨op, hop⟩ := hsupports
  have hcondition : t.validateCondition ⟨key.id, Builtin.eq, [.string id]⟩ = .ok () := by
    refine Table.validateCondition_eq_ok_iff.mpr ⟨key, op, hkey.column?_eq.2, hop, ?_, ?_⟩
    · rw [(Column.arity_of_filter? hsound hop).1 rfl]
      rfl
    · intro value hvalue
      rw [List.mem_singleton.mp hvalue, Column.accepts_iff, hkey.type_eq]
      rfl
  refine Table.validate_eq_ok_iff.mpr ⟨?_, hne, houtput⟩
  exact Table.validateFilter_eq_ok_iff.mpr fun condition hmem =>
    List.mem_singleton.mp hmem ▸ hcondition

/-- What the driver is asked for to find the row of an id. -/
def fetchForId (t : Table) (template : Template) (key : Column) (arg : Raw) : Fetch :=
  t.fetchFor { template.onlyVisible with page := .all } [⟨key.id, Builtin.eq, [arg]⟩]

theorem split_forId_eq (hkey : t.column? key.id = some key) (hlink : key.outboundLink? = none) :
    t.split (template.forId key id).onlyVisible.body.filter =
      (key.native (.string id)).map fun arg => ([⟨key.id, Builtin.eq, [arg]⟩], []) := by
  have hfilter : (template.forId key id).onlyVisible.body.filter =
      [⟨key.id, Builtin.eq, [.string id]⟩] := rfl
  rw [hfilter, Table.split, Table.column_eq_ok_iff.mpr hkey, Except.ok_bind, hlink]
  cases h : key.native (.string id) with
  | ok arg => simp [Table.nativeValues, h, Table.split, Except.map]
  | error err => simp [Table.nativeValues, h, bind, Except.bind, Except.map]

/-- The rows whose keys are equal to the id are answered. -/
theorem findRows_forId_eq_ok_iff (ht : e.registry.table? template.table = some t)
    (hd : e.drivers.lookup t.id = some m.driver) (hkey : t.column? key.id = some key)
    (hlink : key.outboundLink? = none)
    (hvalid : t.validate (template.forId key id).onlyVisible = .ok ()) :
    (e.findRows now session (template.forId key id)).result = .ok answer ↔
      ∃ arg fetched, key.native (.string id) = .ok arg ∧
        m.fetch now (fetchForId t template key arg) = .ok fetched ∧
        (e.answer session (e.findSimple now session (e.columnCount + 1)) false
          (fetchForId t template key arg) template.onlyVisible.outputIds fetched).result =
          .ok answer := by
  rw [findRows, find, findOnce_eq_ok_iff]
  constructor
  · rintro ⟨t', direct, linked, ht', -, hs, h⟩
    obtain rfl := Option.some.inj (ht.symm.trans ht')
    rw [split_forId_eq hkey hlink] at hs
    obtain ⟨arg, harg, hs⟩ := Except.map_eq_ok_iff.mp hs
    obtain ⟨rfl, rfl⟩ := Prod.mk.inj hs
    rcases h with ⟨hi, -⟩ | ⟨translated, d, fetched, hi, hd', hask, hanswer⟩
    · cases hi
    · cases hi
      obtain rfl : m.driver = d := Option.some.inj (hd.symm.trans (driver_eq_ok_iff.mp hd'))
      exact ⟨arg, fetched, harg, Memory.ask_eq_ok_iff.mp hask, hanswer⟩
  · rintro ⟨arg, fetched, harg, hfetch, hanswer⟩
    have hs : t.split (template.forId key id).onlyVisible.body.filter =
        .ok ([⟨key.id, Builtin.eq, [arg]⟩], []) := by
      rw [split_forId_eq hkey hlink, harg]
      rfl
    exact ⟨t, _, _, ht, hvalid, hs, .inr ⟨[], m.driver, fetched, rfl, driver_eq_ok_iff.mpr hd,
      Memory.ask_eq_ok_iff.mpr hfetch, hanswer⟩⟩

/-- An id that cannot be read is not asked for. -/
theorem findRow_eq_error_of_native (ht : e.registry.table? template.table = some t)
    (hkey : t.KeyedBy key) (hlink : key.outboundLink? = none)
    (hvalid : t.validate (template.forId key id).onlyVisible = .ok ()) {err : QueryError}
    (h : key.native (.string id) = .error err) :
    (e.findRow now session template id).result = .error (.error err) := by
  refine findRow_eq_error ht hkey.keyColumn?_eq ?_
  have hs : t.split (template.forId key id).onlyVisible.body.filter = .error err := by
    rw [split_forId_eq hkey.column?_eq.2 hlink, h]
    rfl
  have hfind : e.registry.find (template.forId key id).onlyVisible.table = .ok t :=
    Registry.find_eq_ok_iff.mpr ht
  simp only [findRows, find, findOnce, Run.liftM_eq_ofExcept]
  rw [Run.bind_ofExcept_ok _ hfind, Run.bind_ofExcept_ok _ hvalid, hs]
  rfl

/-- A row that is found has a key that is equal to the id. -/
theorem exists_equal_of_findRow (ht : e.registry.table? template.table = some t)
    (hd : e.drivers.lookup t.id = some m.driver) (hkey : t.KeyedBy key)
    (hlink : key.outboundLink? = none)
    (hvalid : t.validate (template.forId key id).onlyVisible = .ok ())
    (htyped : ∀ stored ∈ m.rows, ∀ r, stored ≠ .typed r)
    (h : (e.findRow now session template id).result = .ok row) :
    ∃ arg stored raw, key.native (.string id) = .ok arg ∧ stored ∈ m.rows ∧
      stored.get? key = some raw ∧ raw.compare? arg = some .eq ∧
      key.typed e.options raw = .ok (.string row.id) := by
  obtain ⟨answer, hanswer, hfirst⟩ := (findRow_eq_ok_iff ht hkey.keyColumn?_eq).mp h
  obtain ⟨arg, fetched, harg, hfetch, hanswer⟩ :=
    (findRows_forId_eq_ok_iff ht hd hkey.column?_eq.2 hlink hvalid).mp hanswer
  obtain ⟨stored, hstored, own, full, hown, hfilled, hoffers⟩ :=
    exists_own_of_answer hanswer (List.mem_of_mem_head? hfirst)
  obtain ⟨hmem, heq⟩ := List.mem_filter.mp (Memory.mem_equals_of_fetch hkey.column?_eq.2 rfl rfl
    hfetch hstored)
  obtain ⟨raw, hraw, hshown⟩ := Table.id_of_own hkey hlink (htyped stored hmem)
    (Table.key_mem_fetchColumns _ _) hown hfilled hoffers
  rw [hraw, Option.getD_some, beq_iff_eq] at heq
  exact ⟨arg, stored, raw, harg, hmem, hraw, heq, hshown⟩

/-- Where the only key that is equal to an id is that of a stored row, what is found is what becomes
of this row alone. -/
theorem findRow_iff_answersAlone {stored : StoredRow} {arg : Raw}
    (ht : e.registry.table? template.table = some t) (hd : e.drivers.lookup t.id = some m.driver)
    (hkey : t.KeyedBy key) (hlink : key.outboundLink? = none)
    (hvalid : t.validate (template.forId key id).onlyVisible = .ok ())
    (harg : key.native (.string id) = .ok arg) (hequals : m.equals key arg = [stored]) :
    (e.findRow now session template id).result = .ok row ↔
      0 < m.limit ∧ e.AnswersAlone now session t template.onlyVisible stored row := by
  have hfetch {fetched : Fetched} : m.fetch now (fetchForId t template key arg) = .ok fetched ↔
      ∃ aggregates, 0 < m.limit ∧ (fetchForId t template key arg).aggregates.mapM
        (Memory.aggregate t [stored]) = .ok aggregates ∧
        fetched = ⟨[stored], aggregates, PageRequest.all.info 1⟩ :=
    Memory.fetch_eq_ok_iff_of_singleton hkey.column?_eq.2 rfl rfl rfl hequals
  have houtput : (fetchForId t template key arg).output =
      t.fetchColumns template.onlyVisible.outputIds [] := by
    rw [← Table.fetchColumns_key _ Builtin.eq [arg], ← hkey.column?_eq.1]
    rfl
  rw [findRow_eq_ok_iff ht hkey.keyColumn?_eq]
  simp only [findRows_forId_eq_ok_iff ht hd hkey.column?_eq.2 hlink hvalid]
  constructor
  · rintro ⟨answer, ⟨arg', fetched, harg', hfetched, hanswer⟩, hfirst⟩
    obtain rfl := Except.ok.inj (harg.symm.trans harg')
    obtain ⟨raws, hpositive, hraws, rfl⟩ := hfetch.mp hfetched
    obtain ⟨rows, fulls, results, final, hrows, hfulls, hresults, hfinal, rfl⟩ :=
      answer_eq_ok_iff.mp hanswer
    -- One row stays one row in all steps.
    obtain ⟨own, rest, hown, hrest, rfl⟩ :=
      List.forall₂_cons_left_iff.mp (Table.rows_eq_ok_iff.mp hrows)
    cases hrest
    obtain ⟨full, rest, -, hrest, rfl⟩ := List.forall₂_cons_left_iff.mp (filledIn_outbound hfulls)
    cases hrest
    have hoffers := Run.result_ofExcept_eq_ok_iff.mp hfinal
    obtain ⟨shown, rest, -, hrest, rfl⟩ :=
      List.forall₂_cons_left_iff.mp (Table.sameCells_of_withOffers hoffers)
    cases hrest
    cases hfirst
    exact ⟨hpositive, ⟨own, full, houtput ▸ hown, hfulls, hoffers⟩, raws, results, hraws, hresults⟩
  · rintro ⟨hpositive, ⟨own, full, hown, hfull, hoffers⟩, raws, results, hraws, hresults⟩
    have hrows : t.rows e.options (fetchForId t template key arg).output [stored] = .ok [own] :=
      Table.rows_eq_ok_iff.mpr (.cons (houtput ▸ hown) .nil)
    refine ⟨⟨[row], results, PageRequest.all.info 1⟩, ⟨arg, _, harg,
      hfetch.mpr ⟨raws, hpositive, hraws, rfl⟩, ?_⟩, rfl⟩
    exact answer_eq_ok_iff.mpr ⟨[own], [full], results, [row], hrows, hfull, hresults,
      Run.result_ofExcept_eq_ok_iff.mpr hoffers, rfl⟩

/-- The rows of an answer are what becomes of the rows that the driver found. -/
theorem exists_fetched_of_findRows (ht : e.registry.table? template.table = some t)
    (hd : e.drivers.lookup t.id = some m.driver)
    (h : (e.findRows now session template).result = .ok answer) (hrow : row ∈ answer.rows) :
    t.validate template.onlyVisible = .ok () ∧ ∃ conditions fetched,
      m.fetch now (t.fetchFor template.onlyVisible conditions) = .ok fetched ∧
      (e.answer session (e.findSimple now session (e.columnCount + 1)) false
        (t.fetchFor template.onlyVisible conditions) template.onlyVisible.outputIds
        fetched).result = .ok answer := by
  obtain ⟨t', ht', hvalid, hrun⟩ := find_eq_ok_iff.mp h
  obtain rfl := Option.some.inj (ht.symm.trans ht')
  rcases hrun with ⟨-, rfl⟩ | ⟨conditions, d, fetched, -, hd', hf, hanswer⟩
  · cases hrow
  · obtain rfl : m.driver = d := Option.some.inj (hd.symm.trans (driver_eq_ok_iff.mp hd'))
    have hfetch := Memory.ask_eq_ok_iff.mp (Driver.ask_eq_ok_iff.mpr hf)
    exact ⟨hvalid, conditions, fetched, hfetch, hanswer⟩

/-- How a row of an answer is found again by its id, which is the text that the key of a stored row
is shown by. -/
structure Retrieved (e : Engine) (now : Moment) (session : Session) (t : Table)
    (template : Template) (m : Memory) (key : Column) (row : TableRow) (stored : StoredRow)
    (raw : Raw) : Prop where
  mem_rows : stored ∈ m.rows
  get?_eq : stored.get? key = some raw
  typed_eq : key.typed e.options raw = .ok (.string row.id)
  /-- If the id cannot be read, nothing is found. -/
  unread : ∀ err, key.native (.string row.id) = .error err →
    (e.findRow now session template row.id).result = .error (.error err)
  /-- If it can be read, what is found has a key that is equal to what was read. -/
  equal : ∀ found, (e.findRow now session template row.id).result = .ok found →
    ∃ arg other otherKey, key.native (.string row.id) = .ok arg ∧ other ∈ m.rows ∧
      other.get? key = some otherKey ∧ otherKey.compare? arg = some .eq ∧
      key.typed e.options otherKey = .ok (.string found.id)
  /-- If the key is recovered, what is found is what becomes of the stored row alone. -/
  found_iff : key.Recovers (m.keys key) raw row.id → ∀ found,
    (e.findRow now session template row.id).result = .ok found ↔
      0 < m.limit ∧ e.AnswersAlone now session t template.onlyVisible stored found
  /-- Its id is the same. -/
  id_eq : ∀ found, e.AnswersAlone now session t template.onlyVisible stored found →
    found.id = row.id
  /-- It is the same row if only stored columns are shown and no numbers of entries of option lists
  are summed. -/
  alone : (∀ id ∈ template.onlyVisible.outputIds, t.Stores id) →
    (∀ a ∈ requestedAggregates template.onlyVisible.body.output, ∀ c,
      t.column? a.column = some c → c.type ≠ .choice) →
    e.AnswersAlone now session t template.onlyVisible stored row
  /-- Through a reversible format the key is recovered if it is kept apart. -/
  recovers_iff : key.Reversible →
    (key.Recovers (m.keys key) raw row.id ↔ key.Separates (m.keys key) raw)

theorem retrieved_of_findRows {steps : List Registry.Step}
    (hsteps : ∀ u, .register u ∈ steps → u.Compiled) (hr : e.registry = Registry.setUp steps)
    (ht : e.registry.table? template.table = some t) (hd : e.drivers.lookup t.id = some m.driver)
    (hkey : t.keyColumn? = some key) (hlink : key.outboundLink? = none) (hsound : key.Sound)
    (hkeys : ∀ stored ∈ m.rows, ∃ raw, stored.get? key = some raw ∧ raw.kind? = some key.kind)
    (hdiff : (m.rows.map fun stored => stored.get? key).Nodup)
    (h : (e.findRows now session template).result = .ok answer) (hrow : row ∈ answer.rows) :
    ∃ stored raw, e.Retrieved now session t template m key row stored raw := by
  obtain ⟨key', hkeyed, hsupports⟩ :=
    Registry.keyed_of_setUp hsteps t (hr ▸ List.mem_of_find?_eq_some ht)
  obtain rfl := Option.some.inj (hkey.symm.trans hkeyed.keyColumn?_eq)
  have hsupports := hsupports.resolve_right (by simp [Column.isOutbound, hlink])
  have htyped : ∀ stored ∈ m.rows, ∀ r, stored ≠ .typed r := by
    rintro - hmem r rfl
    obtain ⟨raw, hraw, -⟩ := hkeys _ hmem
    cases hraw
  obtain ⟨hvalid, conditions, fetched, hfetch, hanswer⟩ := exists_fetched_of_findRows ht hd h hrow
  obtain ⟨stored, hstored, own, full, hown, hfilled, hoffers⟩ := exists_own_of_answer hanswer hrow
  have hmem := Memory.mem_rows_of_fetch hfetch hstored
  obtain ⟨raw, hraw, hshown⟩ := Table.id_of_own hkeyed hlink (htyped stored hmem)
    (Table.key_mem_fetchColumns _ _) hown hfilled hoffers
  have hvalid' := validate_forId hvalid hkeyed hsupports hsound row.id
  have hrawmem : raw ∈ m.keys key := List.mem_filterMap.mpr ⟨stored, hmem, hraw⟩
  refine ⟨stored, raw, hmem, hraw, hshown, ?unread, ?equal, ?found_iff, ?id_eq, ?alone,
    ?recovers_iff⟩
  case unread => exact fun err => findRow_eq_error_of_native ht hkeyed hlink hvalid'
  case equal =>
    exact fun found => exists_equal_of_findRow ht hd hkeyed hlink hvalid' htyped
  case found_iff =>
    rintro ⟨arg, harg, hequal⟩ found
    have hexists : ∀ row ∈ m.rows, ∃ raw, row.get? key = some raw := by
      intro row hrow
      obtain ⟨raw, hraw, -⟩ := hkeys row hrow
      exact ⟨raw, hraw⟩
    exact findRow_iff_answersAlone ht hd hkeyed hlink hvalid' harg
      (Memory.equals_eq_singleton hmem hraw hexists hdiff hequal)
  case id_eq =>
    intro found hfound
    obtain ⟨raw', hraw', hshown'⟩ := hfound.typed_eq hkeyed hlink (htyped _ hmem)
    obtain rfl := Option.some.inj (hraw.symm.trans hraw')
    exact Value.string.inj (Except.ok.inj (hshown'.symm.trans hshown))
  case alone =>
    intro hstores hchoice
    obtain ⟨matched, raws, hmatched, hraws, -, rfl⟩ := Memory.fetch_eq_ok_iff.mp hfetch
    obtain ⟨-, -, results, -, -, -, hresults, -, -⟩ := answer_eq_ok_iff.mp hanswer
    exact ⟨answersAlone_of_own hkeyed hlink (htyped _ hmem) hown hfilled hoffers hstores,
      exists_aggregates_alone hchoice hraws hresults
        (List.mem_of_mem_take (List.mem_of_mem_drop hstored))⟩
  case recovers_iff =>
    intro hreversible
    refine Column.recovers_iff hkeyed.type_eq hreversible ?_ hrawmem hshown
    intro other hother
    obtain ⟨row, hrow, hget⟩ := List.mem_filterMap.mp hother
    obtain ⟨raw', hraw', hkind⟩ := hkeys row hrow
    obtain rfl := Option.some.inj (hget.symm.trans hraw')
    exact hkind

end Engine

/-! ## The numbers of coins -/

namespace Mint

open Sample (clock visitor vocabulary)

def spec : TableSpec :=
  ⟨"Coin", "Coin", "", [{ (default : FieldSpec) with
    id := "No", kind := .uint, valueType := some "STRING", key := true, filters := some "EQ" }]⟩

def number : Column :=
  { (default : Column) with
    id := "No", name := "No", kind := .uint, type := .string, format := some "%d"
    filters := [⟨Builtin.eq, "equal", .single⟩], isKey := true, width := 1, storageName := "No" }

def coins : Table :=
  ⟨"Coin", "Coin", "", [number], "No", [], none, none⟩

def steps : List Registry.Step := [.register coins]

theorem compiled_of_mem_steps {t : Table} (h : .register t ∈ steps) : t.Compiled := by
  have hfields : (TableSpec.compileFields vocabulary spec.id []
      (spec.fields.filter fun f => !f.hidden)).toOption = some coins.columns := by
    decide +kernel
  obtain rfl : t = coins := by simpa [steps] using h
  exact ⟨spec, vocabulary, TableSpec.compile_eq_ok_iff.mpr
    ⟨_, _, Except.toOption_eq_some_iff.mp hfields, rfl, rfl, rfl⟩⟩

/-- A coin with a small number and one with the greatest. -/
def memory : Memory where
  rows := [.keyed [("No", .uint 7)], .keyed [("No", .uint 18446744073709551615)]]
  limit := 100
  operators := []

def engine : Engine := ⟨Registry.setUp steps, .empty, [("Coin", memory.driver)]⟩

def numbers : Template :=
  .temporary "Coin" ⟨[], [.plain "No"]⟩ .all

theorem reversible : number.Reversible :=
  Column.reversible_of_defaultFormat rfl (by decide)

theorem kind_of_keys : ∀ stored ∈ memory.rows, ∃ raw, stored.get? number = some raw ∧
    raw.kind? = some number.kind := by
  simp [memory, StoredRow.get?, number, List.lookup, Raw.kind?]

theorem nodup_keys : (memory.rows.map fun stored => stored.get? number).Nodup := by
  simp [memory, StoredRow.get?, number, List.lookup]

theorem sound : number.Sound := by
  intro op hop _
  have hall : ∀ op ∈ number.filters, op ∈ Builtin.operators := by decide
  exact hall op hop

theorem ids_shown : ((engine.findRows clock visitor numbers).result.toOption.map fun answer =>
    answer.rows.map TableRow.id) = some ["7", "18446744073709551615"] := by
  decide +kernel

theorem exists_shown {id : String} (h : id ∈ ["7", "18446744073709551615"]) : ∃ answer,
    (engine.findRows clock visitor numbers).result = .ok answer ∧
      ∃ row ∈ answer.rows, row.id = id := by
  obtain ⟨answer, hanswer, hids⟩ := Option.map_eq_some_iff.mp ids_shown
  rw [← hids] at h
  obtain ⟨row, hrow, hid⟩ := List.mem_map.mp h
  exact ⟨answer, Except.toOption_eq_some_iff.mp hanswer, row, hrow, hid⟩

/-- The small number has a double of its own. -/
theorem separates_seven : number.Separates (memory.keys number) (.uint 7) := by
  have hkeys : memory.keys number = [.uint 7, .uint 18446744073709551615] := rfl
  have hother : ((18446744073709551615 : UInt64).toFloat == (7 : UInt64).toFloat) = false := by
    decide +kernel
  refine ⟨by decide, fun w hw heq => ?_⟩
  rw [hkeys] at hw
  simp only [List.mem_cons, Raw.uint.injEq, List.not_mem_nil, or_false] at hw
  rcases hw with rfl | rfl
  · rfl
  · rw [hother] at heq
    cases heq

theorem number_of_seven {stored : StoredRow} {raw : Raw} (hmem : stored ∈ memory.rows)
    (hget : stored.get? number = some raw)
    (htext : number.typed .empty raw = .ok (.string "7")) : raw = .uint 7 := by
  have hother : number.written (.uint 18446744073709551615) ≠ "7" := by
    decide +kernel
  simp only [memory, List.mem_cons, List.not_mem_nil, or_false] at hmem
  rcases hmem with rfl | rfl
  · exact (Option.some.inj hget).symm
  · obtain rfl := Option.some.inj hget
    rw [Column.typed_of_argument? rfl rfl] at htext
    exact absurd (Value.string.inj (Except.ok.inj htext)) hother

/-- The coin with the small number is found by it, as it was shown. -/
theorem seven_found : ∃ answer row stored raw,
    (engine.findRows clock visitor numbers).result = .ok answer ∧ row ∈ answer.rows ∧
      row.id = "7" ∧
      engine.Retrieved clock visitor coins numbers memory number row stored raw ∧
      (engine.findRow clock visitor numbers "7").result = .ok row := by
  obtain ⟨answer, hanswer, row, hrow, hid⟩ := exists_shown (List.mem_cons_self (a := "7"))
  obtain ⟨stored, raw, h⟩ := Engine.retrieved_of_findRows (fun _ => compiled_of_mem_steps) rfl
    (t := coins) (m := memory) rfl rfl rfl rfl sound kind_of_keys nodup_keys hanswer hrow
  have htext := h.typed_eq
  rw [hid] at htext
  obtain rfl := number_of_seven h.mem_rows h.get?_eq htext
  refine ⟨answer, row, stored, _, hanswer, hrow, hid, h, ?_⟩
  rw [← hid]
  refine (h.found_iff ((h.recovers_iff reversible).mpr separates_seven) row).mpr
    ⟨by decide, h.alone ?_ ?_⟩
  · intro id hid c hc
    obtain rfl := List.mem_singleton.mp hid
    obtain rfl := Option.some.inj hc
    rfl
  · intro a ha
    cases ha

/-- The greatest number is shown, too, but it cannot be read. -/
theorem greatest_not_found : (∀ t, .register t ∈ steps → t.Compiled) ∧
    (∀ stored ∈ memory.rows, ∃ raw, stored.get? number = some raw ∧
      raw.kind? = some number.kind) ∧
    (memory.rows.map fun stored => stored.get? number).Nodup ∧
    (∃ answer, (engine.findRows clock visitor numbers).result = .ok answer ∧
      ∃ row ∈ answer.rows, row.id = "18446744073709551615") ∧
    (engine.findRow clock visitor numbers "18446744073709551615").result =
      .error (.error (.failedParseValue "No" "18446744073709551615")) := by
  refine ⟨fun _ => compiled_of_mem_steps, kind_of_keys, nodup_keys, exists_shown (by simp), ?_⟩
  have hverb : ValueFormat.verbs "%d".toList = [⟨false, false, false, none, none, 'd'⟩] := by cbv
  have hnative := Column.native_whole (a := .uint 18446744073709551615) (c := number) rfl (.inr rfl)
    rfl hverb rfl rfl
  have hwritten : number.written (.uint 18446744073709551615) = "18446744073709551615" := by
    decide +kernel
  rw [if_neg (by decide), hwritten] at hnative
  exact Engine.findRow_eq_error_of_native (t := coins) rfl ⟨rfl, rfl, rfl⟩ rfl
    (Engine.validate_forId rfl ⟨rfl, rfl, rfl⟩ rfl sound _) hnative

end Mint

end TableQuery
