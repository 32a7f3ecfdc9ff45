import TableQuery.Proofs.Query.Frame
import TableQuery.Proofs.Query.Split

/-!
# Runs of templates taken apart

What a run of a template that succeeded has done, step by step.

## Main definitions

* `Table.fetchFor` — what the driver is asked for.

## Main results

* `Engine.findOnce_eq_ok_iff`, `Engine.answer_eq_ok_iff` — the steps of a run that succeeded.
* `Engine.map_id_of_answer` — the rows of an answer are those of the driver.
-/

namespace TableQuery

/-- What the driver of a table is asked for on behalf of a template. -/
def Table.fetchFor (t : Table) (template : Template) (conditions : List RawCondition) : Fetch where
  table := t
  conditions
  output := t.fetchColumns template.outputIds conditions
  aggregates := Engine.requestedAggregates template.body.output
  page := template.page
  order := template.order

theorem Table.sameCells_of_withOffers {t : Table} {session : Session}
    {rows offered : List TableRow} (h : t.withOffers session rows = .ok offered) :
    List.Forall₂ (fun row shown => shown.id = row.id ∧ shown.cells = row.cells) rows offered := by
  induction rows generalizing offered with
  | nil =>
    cases h
    exact .nil
  | cons row rows ih =>
    simp only [withOffers, Except.bind_eq_ok_iff, Except.pure_eq_ok, Except.ok.injEq] at h
    obtain ⟨actions, -, rest, hrest, rfl⟩ := h
    exact .cons ⟨rfl, rfl⟩ (ih hrest)

namespace Engine

variable {e : Engine} {now : Moment} {session : Session} {find : Template → Run TableRows}
  {t : Table}

theorem driver_eq_ok_iff {id : String} {d : Driver} :
    e.driver id = .ok d ↔ e.drivers.lookup id = some d := by
  unfold driver
  cases e.drivers.lookup id <;> simp

/-- The steps of a run that found rows. -/
theorem findOnce_eq_ok_iff {simple : Bool} {template : Template} {answer : TableRows} :
    (e.findOnce now session find simple template).result = .ok answer ↔
      ∃ t direct linked, e.registry.table? template.table = some t ∧
        t.validate template = .ok () ∧ t.split template.body.filter = .ok (direct, linked) ∧
        (((e.inbound find t (LinkGroup.collect linked)).result = .ok none ∧ answer = .empty) ∨
          ∃ translated d fetched,
            (e.inbound find t (LinkGroup.collect linked)).result = .ok (some translated) ∧
            e.driver t.id = .ok d ∧
            (d.ask now session (t.fetchFor template (direct ++ translated))).result = .ok fetched ∧
            (e.answer session find simple (t.fetchFor template (direct ++ translated))
              template.outputIds fetched).result = .ok answer) := by
  simp only [findOnce, Run.liftM_eq_ofExcept, Run.result_bind_eq_ok_iff,
    Run.result_ofExcept_eq_ok_iff, Registry.find_eq_ok_iff, Prod.exists]
  constructor
  · rintro ⟨t, ht, ⟨⟩, hv, direct, linked, hs, found, hi, h⟩
    cases found with
    | none =>
      simp only [Run.result_pure, Except.ok.injEq] at h
      exact ⟨t, direct, linked, ht, hv, hs, .inl ⟨hi, h.symm⟩⟩
    | some translated =>
      simp only [Run.result_bind_eq_ok_iff, Run.result_ofExcept_eq_ok_iff] at h
      obtain ⟨d, hd, fetched, hf, ha⟩ := h
      exact ⟨t, direct, linked, ht, hv, hs, .inr ⟨translated, d, fetched, hi, hd, hf, ha⟩⟩
  · rintro ⟨t, direct, linked, ht, hv, hs, ⟨hi, rfl⟩ | ⟨translated, d, fetched, hi, hd, hf, ha⟩⟩
    · exact ⟨t, ht, (), hv, direct, linked, hs, none, hi, rfl⟩
    · refine ⟨t, ht, (), hv, direct, linked, hs, some translated, hi, ?_⟩
      simp only [Run.result_bind_eq_ok_iff, Run.result_ofExcept_eq_ok_iff]
      exact ⟨d, hd, fetched, hf, ha⟩

/-- Rows with their linked cells filled, but in a simple run. -/
def filled (e : Engine) (find : Template → Run TableRows) (simple : Bool) (t : Table)
    (rows : List TableRow) : Run (List TableRow) :=
  if simple then pure rows else e.outbound find t rows

theorem filled_true (rows : List TableRow) : e.filled find true t rows = pure rows := rfl

/-- Rows with the actions that they offer, but in a simple run. -/
def offered (session : Session) (simple : Bool) (t : Table) (rows : List TableRow) :
    Run (List TableRow) :=
  if simple then pure rows else Run.ofExcept (t.withOffers session rows)

theorem answer_eq {simple : Bool} {f : Fetch} {requested : List String} {fetched : Fetched} :
    e.answer session find simple f requested fetched = (do
      let rows ← Run.ofExcept (f.table.rows e.options f.output fetched.rows)
      let filled ← e.filled find simple f.table rows
      let aggregates ← Run.ofExcept (f.table.aggregates e.options fetched.aggregates)
      let rows ← offered session simple f.table (filled.map fun row => row.onlyCells requested)
      return ⟨rows, aggregates, fetched.page⟩) := by
  cases simple <;> rfl

/-- The steps from what a driver answered to an answer. -/
theorem answer_eq_ok_iff {simple : Bool} {f : Fetch} {requested : List String} {fetched : Fetched}
    {answer : TableRows} :
    (e.answer session find simple f requested fetched).result = .ok answer ↔
      ∃ rows full aggregates final,
        f.table.rows e.options f.output fetched.rows = .ok rows ∧
        (e.filled find simple f.table rows).result = .ok full ∧
        f.table.aggregates e.options fetched.aggregates = .ok aggregates ∧
        (offered session simple f.table (full.map fun row => row.onlyCells requested)).result =
          .ok final ∧
        answer = ⟨final, aggregates, fetched.page⟩ := by
  simp only [answer_eq, Run.result_bind_eq_ok_iff, Run.result_ofExcept_eq_ok_iff, Run.result_pure,
    Except.ok.injEq]
  constructor
  · rintro ⟨rows, hr, full, hf, aggregates, ha, final, ho, rfl⟩
    exact ⟨rows, full, aggregates, final, hr, hf, ha, ho, rfl⟩
  · rintro ⟨rows, full, aggregates, final, hr, hf, ha, ho, rfl⟩
    exact ⟨rows, hr, full, hf, aggregates, ha, final, ho, rfl⟩

/-- A simple run shows the rows of the driver with nothing but the cells asked for. -/
theorem answer_simple_eq_ok_iff {f : Fetch} {requested : List String} {fetched : Fetched}
    {answer : TableRows} :
    (e.answer session find true f requested fetched).result = .ok answer ↔
      ∃ rows aggregates, f.table.rows e.options f.output fetched.rows = .ok rows ∧
        f.table.aggregates e.options fetched.aggregates = .ok aggregates ∧
        answer = ⟨rows.map fun row => row.onlyCells requested, aggregates, fetched.page⟩ := by
  rw [answer_eq_ok_iff]
  constructor
  · rintro ⟨rows, full, aggregates, final, hrows, hfull, haggregates, hfinal, rfl⟩
    cases hfull
    cases hfinal
    exact ⟨rows, aggregates, hrows, haggregates, rfl⟩
  · rintro ⟨rows, aggregates, hrows, haggregates, rfl⟩
    exact ⟨rows, rows, aggregates, _, hrows, rfl, haggregates, rfl, rfl⟩

theorem map_id_of_filled {simple : Bool} {rows full : List TableRow}
    (h : (e.filled find simple t rows).result = .ok full) :
    full.map TableRow.id = rows.map TableRow.id := by
  cases simple with
  | true =>
    cases h
    rfl
  | false => exact (forall₂_map_eq (filledIn_outbound h) fun _ _ hrow => hrow.id_eq.symm).symm

theorem map_id_of_offered {simple : Bool} {rows final : List TableRow}
    (h : (offered session simple t rows).result = .ok final) :
    final.map TableRow.id = rows.map TableRow.id := by
  cases simple with
  | true =>
    cases h
    rfl
  | false =>
    have hsame := Table.sameCells_of_withOffers (Run.result_ofExcept_eq_ok_iff.mp h)
    exact (forall₂_map_eq hsame fun _ _ hrow => hrow.1.symm).symm

/-- The rows of an answer are the rows of the driver, in its order. -/
theorem map_id_of_answer {simple : Bool} {f : Fetch} {requested : List String} {fetched : Fetched}
    {answer : TableRows}
    (h : (e.answer session find simple f requested fetched).result = .ok answer) :
    ∃ rows, f.table.rows e.options f.output fetched.rows = .ok rows ∧
      answer.rows.map TableRow.id = rows.map TableRow.id ∧ answer.page = fetched.page := by
  obtain ⟨rows, full, aggregates, final, hr, hf, -, ho, rfl⟩ := answer_eq_ok_iff.mp h
  refine ⟨rows, hr, ?_, rfl⟩
  have hkeep : (full.map fun row => row.onlyCells requested).map TableRow.id =
      full.map TableRow.id := by
    rw [List.map_map]
    rfl
  exact (map_id_of_offered ho).trans (hkeep.trans (map_id_of_filled hf))

end Engine

end TableQuery
