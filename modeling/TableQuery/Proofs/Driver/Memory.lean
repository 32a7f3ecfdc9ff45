import TableQuery.Driver.Memory
import TableQuery.Proofs.Run

/-!
# Rows that conditions hold on

Conditions are looked at one after the other and rows one after the other. The rows that match
are those on which every condition holds.

## Main definitions

* `Memory.Accepts`, `Memory.keeps` — a condition holds on a row, and all conditions do.

## Main results

* `Memory.matching_eq_ok_iff` — the matching rows are a filter of all rows.
* `Memory.sorted_perm` — sorting keeps the rows.
* `Memory.fetch_eq_ok_iff` — what a fetch answers.
* `Memory.rows_eq_of_fetch` — fetches of other columns answer the same rows.
-/

namespace TableQuery

theorem insertFromEnd_perm {α : Type} (less : α → α → Bool) (a : α) (as : List α) :
    (insertFromEnd less a as).Perm (a :: as) := by
  induction as with
  | nil => exact .refl _
  | cons b as ih =>
    unfold insertFromEnd
    split
    · exact (ih.cons b).trans (.swap a b as)
    · exact .refl _

theorem sortStably_perm {α : Type} (less : α → α → Bool) (as : List α) :
    (sortStably less as).Perm as := by
  have hfold (sorted : List α) :
      (as.foldl (fun sorted a => insertFromEnd less a sorted) sorted).Perm (as ++ sorted) := by
    induction as generalizing sorted with
    | nil => exact .refl _
    | cons a as ih =>
      refine (ih _).trans (((insertFromEnd_perm less a sorted).append_left as).trans ?_)
      exact List.perm_middle
  have h := hfold []
  rw [List.append_nil] at h
  exact (List.reverse_perm _).trans h

/-- Null is in no order with values that are there. -/
theorem Raw.compare?_eq_none {a b : Raw} (ha : a.isNull = true) (hb : b.isNull = false) :
    a.compare? b = none := by
  cases a <;> cases b <;> simp_all [isNull, compare?]

namespace Memory

variable {m : Memory} {now : Moment} {t : Table}

theorem evaluate_isIn (m : Memory) (now : Moment) (c : Column) (value : Raw)
    (args : List Raw) : m.evaluate now c Builtin.isIn value args = .ok (isAmong value args) := by
  have hc : comparison? Builtin.isIn = none := by decide
  have hl : m.listOperator? now Builtin.isIn = some isAmong := by simp [listOperator?]
  unfold evaluate
  rw [hc, hl]

theorem evaluate_eq (m : Memory) (now : Moment) (c : Column) (value arg : Raw) :
    m.evaluate now c Builtin.eq value [arg] = .ok (value.compare? arg == some .eq) := by
  simp [evaluate, comparison?]

def Accepts (m : Memory) (now : Moment) (t : Table) (row : StoredRow) (condition : RawCondition) :
    Prop :=
  ∃ c, t.column? condition.column = some c ∧
    m.evaluate now c condition.operator ((row.get? c).getD .null) condition.values = .ok true

theorem holds_eq_true_iff {row : StoredRow} {conditions : List RawCondition} :
    m.holds now t row conditions = .ok true ↔
      ∀ condition ∈ conditions, m.Accepts now t row condition := by
  induction conditions with
  | nil => simp [holds]
  | cons condition conditions ih =>
    simp only [holds, Except.bind_eq_ok_iff, Table.column_eq_ok_iff, List.forall_mem_cons, Accepts]
    constructor
    · rintro ⟨c, hc, holds, he, h⟩
      cases holds with
      | false => simp at h
      | true => exact ⟨⟨c, hc, he⟩, ih.mp (by simpa using h)⟩
    · rintro ⟨⟨c, hc, he⟩, h⟩
      exact ⟨c, hc, true, he, by simpa using ih.mpr h⟩

theorem exists_holds {row : StoredRow} {conditions : List RawCondition}
    (h : ∀ condition ∈ conditions, ∃ c, t.column? condition.column = some c ∧
      ∃ b, m.evaluate now c condition.operator ((row.get? c).getD .null) condition.values =
        .ok b) :
    ∃ b, m.holds now t row conditions = .ok b := by
  induction conditions with
  | nil => exact ⟨true, rfl⟩
  | cons condition conditions ih =>
    rw [List.forall_mem_cons] at h
    obtain ⟨⟨c, hc, b, he⟩, hrest⟩ := h
    obtain ⟨b', hb'⟩ := ih hrest
    simp only [holds, Table.column_eq_ok_iff.mpr hc, Except.ok_bind, he]
    cases b with
    | false => exact ⟨false, rfl⟩
    | true => exact ⟨b', by simpa using hb'⟩

/-- All conditions hold on a row, and looking at them does not fail. -/
def keeps (m : Memory) (now : Moment) (t : Table) (conditions : List RawCondition)
    (row : StoredRow) : Bool :=
  m.holds now t row conditions matches .ok true

theorem keeps_of_holds {conditions : List RawCondition} {row : StoredRow} {b : Bool}
    (h : m.holds now t row conditions = .ok b) : m.keeps now t conditions row = b := by
  cases b <;> simp [keeps, h]

theorem keeps_iff {conditions : List RawCondition} {row : StoredRow} :
    m.keeps now t conditions row = true ↔
      ∀ condition ∈ conditions, m.Accepts now t row condition := by
  rw [← holds_eq_true_iff]
  unfold keeps
  split
  · next h => simp [h]
  · next h => simpa using h

theorem matching_eq_ok_iff {conditions : List RawCondition} {rows matched : List StoredRow} :
    m.matching now t conditions rows = .ok matched ↔
      (∀ row ∈ rows, ∃ b, m.holds now t row conditions = .ok b) ∧
      matched = rows.filter (m.keeps now t conditions) := by
  induction rows generalizing matched with
  | nil => simp [matching, eq_comm]
  | cons row rows ih =>
    simp only [matching, Except.bind_eq_ok_iff, ih, List.forall_mem_cons, Except.pure_eq_ok,
      Except.ok.injEq]
    constructor
    · rintro ⟨b, hb, rest, ⟨hrows, rfl⟩, rfl⟩
      refine ⟨⟨⟨b, hb⟩, hrows⟩, ?_⟩
      cases b <;> simp [keeps_of_holds hb]
    · rintro ⟨⟨⟨b, hb⟩, hrows⟩, rfl⟩
      refine ⟨b, hb, _, ⟨hrows, rfl⟩, ?_⟩
      cases b <;> simp [keeps_of_holds hb]

theorem sorted_perm (t : Table) (order : Option SortKey) (rows : List StoredRow) :
    (sorted t order rows).Perm rows := by
  unfold sorted
  split
  · exact .refl _
  · dsimp only
    split
    · exact sortStably_perm _ _
    · exact .refl _

/-- What a fetch answers: the page of the matching rows in their order, with their number. -/
theorem fetch_eq_ok_iff {f : Fetch} {fetched : Fetched} :
    m.fetch now f = .ok fetched ↔ ∃ matched aggregates,
      m.matching now f.table f.conditions m.rows = .ok matched ∧
      f.aggregates.mapM (aggregate f.table (sorted f.table f.order matched)) = .ok aggregates ∧
      f.page.checkLimit (UInt64.ofNat (sorted f.table f.order matched).length) m.limit = .ok () ∧
      fetched = ⟨f.page.window (sorted f.table f.order matched), aggregates,
        f.page.info (UInt64.ofNat (sorted f.table f.order matched).length)⟩ := by
  simp only [fetch, Except.bind_eq_ok_iff, Except.pure_eq_ok, Except.ok.injEq]
  constructor
  · rintro ⟨matched, hm, aggregates, ha, ⟨⟩, hl, rfl⟩
    exact ⟨matched, aggregates, hm, ha, hl, rfl⟩
  · rintro ⟨matched, aggregates, hm, ha, hl, rfl⟩
    exact ⟨matched, hm, aggregates, ha, (), hl, rfl⟩

theorem mem_rows_of_fetch {f : Fetch} {fetched : Fetched} (h : m.fetch now f = .ok fetched)
    {row : StoredRow} (hrow : row ∈ fetched.rows) : row ∈ m.rows := by
  obtain ⟨matched, aggregates, hm, -, -, rfl⟩ := fetch_eq_ok_iff.mp h
  obtain ⟨-, rfl⟩ := matching_eq_ok_iff.mp hm
  have hsorted := List.mem_of_mem_take (List.mem_of_mem_drop hrow)
  exact (List.mem_filter.mp ((sorted_perm _ _ _).subset hsorted)).1

/-- The rows fetched do not depend on the columns and aggregates asked for with them. -/
theorem rows_eq_of_fetch {f f' : Fetch} {fetched fetched' : Fetched}
    (h : m.fetch now f = .ok fetched) (h' : m.fetch now f' = .ok fetched')
    (ht : f'.table = f.table) (hc : f'.conditions = f.conditions) (hp : f'.page = f.page)
    (ho : f'.order = f.order) : fetched'.rows = fetched.rows := by
  obtain ⟨matched, -, hm, -, -, rfl⟩ := fetch_eq_ok_iff.mp h
  obtain ⟨matched', -, hm', -, -, rfl⟩ := fetch_eq_ok_iff.mp h'
  rw [ht, hc] at hm'
  obtain rfl := Except.ok.inj (hm.symm.trans hm')
  rw [ht, hp, ho]

end Memory

end TableQuery
