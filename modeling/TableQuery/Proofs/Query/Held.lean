import TableQuery.Proofs.Query.Completeness

/-!
# Lookups in tables in memory

The rows that a lookup in memory comes to are those that hold one of the keys. Asked for a list of
keys, memory answers with all of them, and the last row that shows a text tells its value; asked
for one key, it answers with the first row that holds the key.

## Main definitions

* `StoredRow.holds` — a row holds the raw value that a key stands for.
* `Engine.LooksInto` — a link leads to stored columns of a table in memory.
* `Engine.lastShown?`, `Engine.firstHeld?` — the rows that tell the value of a text.

## Main results

* `Engine.lookup_listed`, `Engine.lookup_single` — what the two ways of looking up find.
-/

namespace TableQuery

/-- A row holds the raw value that a key stands for. -/
def StoredRow.holds (row : StoredRow) (search : Column) (key : Value) : Bool :=
  (search.native key).toOption.any fun raw =>
    ((row.get? search).getD .null).compare? raw == some .eq

namespace StoredRow

variable {row : StoredRow} {search : Column} {key : Value}

/-- A row that is an answer already provides no raw values and holds no key. -/
theorem not_typed_of_holds (h : row.holds search key = true) (r : TableRow) : row ≠ .typed r := by
  rintro rfl
  unfold holds at h
  cases hraw : search.native key with
  | error => simp [hraw, Except.toOption] at h
  | ok raw =>
    have hnone := Raw.compare?_eq_none (a := .null) rfl (Column.isNull_of_native hraw)
    simp [hraw, Except.toOption, get?, hnone] at h

theorem any_holds {keys : List Value} {raws : List Raw}
    (h : Table.nativeValues search keys = .ok raws) :
    keys.any (row.holds search) = Memory.isAmong ((row.get? search).getD .null) raws := by
  induction keys generalizing raws with
  | nil =>
    cases h
    rfl
  | cons key keys ih =>
    obtain ⟨raw, hraw, h⟩ := Except.bind_eq_ok_iff.mp h
    obtain ⟨rest, hrest, h⟩ := Except.bind_eq_ok_iff.mp h
    cases h
    have hfirst : row.holds search key =
        (((row.get? search).getD .null).compare? raw == some .eq) := by
      simp [holds, hraw, Except.toOption]
    rw [List.any_cons, ih hrest, hfirst]
    rfl

/-- Keys of the type of the column are held by the same rows if they have the same text. -/
theorem holds_eq_of_display {key' : Value} (ht : key.type? = some search.type)
    (ht' : key'.type? = some search.type) (hd : key.display = key'.display) :
    row.holds search key = row.holds search key' := by
  have hraw := search.rawOf_eq_of_display (ht.trans ht'.symm) hd
  simp only [Column.rawOf, Column.retyped, ht, ht', if_true, Except.ok_bind] at hraw
  rw [holds, hraw, holds]

end StoredRow

theorem PageRequest.window_first {α : Type} (rows : List α) :
    (⟨0, 1⟩ : PageRequest).window rows = rows.take 1 := by
  have hpaged : (⟨0, 1⟩ : PageRequest).isPaged = true := by decide
  cases rows <;> simp [window, start, stop, hpaged]

namespace Engine

/-- A link leads to stored columns of a table in memory. -/
structure LooksInto (e : Engine) (l : Link) (remote : Table) (search value : Column) (m : Memory) :
    Prop where
  remote_eq : e.registry.table? l.table = some remote
  search_eq : remote.column? l.searchColumn = some search
  value_eq : remote.column? l.valueColumn = some value
  search_stored : search.outboundLink? = none
  value_stored : value.outboundLink? = none
  driver_eq : e.drivers.lookup remote.id = some m.driver

/-- Of the rows that hold one of the keys, the last one that shows a text tells its value. -/
def lastShown? (options : OptionLists) (l : Link) (search value : Column) (rows : List TableRow)
    (stored : List StoredRow) (text : String) : Option Value :=
  let keys := (localKeys l search [] rows).toOption.getD []
  (stored.reverse.find? fun r => keys.any (r.holds search) &&
    (r.shown? options search).map Value.display == some text).bind fun r => r.shown? options value

def soughtKeys (l : Link) (search : Column) (rows : List TableRow) : List Value :=
  rows.filterMap fun row => (l.sought? row).bind fun v => (search.retyped v).toOption

/-- The first row that holds the key of a text tells its value. -/
def firstHeld? (options : OptionLists) (l : Link) (search value : Column) (rows : List TableRow)
    (stored : List StoredRow) (text : String) : Option Value := do
  let key ← (soughtKeys l search rows).find? fun key => key.display == text
  let r ← stored.find? fun r => r.holds search key
  r.shown? options value

variable {e : Engine} {now : Moment} {session : Session} {find : Template → Run TableRows}
  {l : Link} {remote : Table} {search value : Column} {m : Memory} {rows : List TableRow}
  {found : Findings}

theorem mem_soughtKeys_iff {key : Value} :
    key ∈ soughtKeys l search rows ↔
      ∃ row ∈ rows, ∃ v, l.sought? row = some v ∧ search.retyped v = .ok key := by
  simp only [soughtKeys, List.mem_filterMap, Option.bind_eq_some_iff, Except.toOption_eq_some_iff]

theorem type?_of_mem_soughtKeys {key : Value} (h : key ∈ soughtKeys l search rows) :
    key.type? = some search.type := by
  obtain ⟨row, -, v, -, hkey⟩ := mem_soughtKeys_iff.mp h
  exact Column.type?_of_retyped hkey

/-- The question of a link finds rows on which its condition holds, and shows what they show. -/
theorem found_of_link (hinto : e.LooksInto l remote search value m) {operator : String}
    {values : List Value} {page : PageRequest} {answer : TableRows}
    (h : (e.findOnce now session find true (l.template operator values page)).result =
      .ok answer) :
    ∃ raws keep, Table.nativeValues search values = .ok raws ∧
      (∀ stored, keep stored = true ↔ m.evaluate now search (qualify operator)
        ((stored.get? search).getD .null) raws = .ok true) ∧
      List.Forall₂ (fun stored row =>
          row.value? l.searchColumn = stored.shown? e.options search ∧
          row.value? l.valueColumn = stored.shown? e.options value ∧
          ((∀ r, stored ≠ .typed r) → l.ShownBy row))
        (page.window (m.rows.filter keep)) answer.rows := by
  obtain ⟨hremote, hsearch, hvalue, hs, hv, hd⟩ := hinto
  have hdirect : ∀ condition ∈ (l.template operator values page).body.filter,
      remote.linkOf? condition = none := by
    rw [Link.filter_template, List.forall_mem_singleton, Table.linkOf?, hsearch, Option.bind_some,
      hs]
  obtain ⟨remote', direct, linked, hremote', -, hsplit, -⟩ := findOnce_eq_ok_iff.mp h
  obtain rfl := Option.some.inj (hremote.symm.trans hremote')
  obtain ⟨raws, hraws, -⟩ := (Table.split_lookup_eq_ok_iff hsearch hs).mp hsplit
  obtain ⟨keep, hkeep, -, hfound⟩ := shown_of_direct hremote hd hdirect rfl h
  refine ⟨raws, keep, hraws, fun stored => (hkeep stored).trans ?_, hfound.imp ?_⟩
  · rw [Link.filter_template, List.forall_mem_singleton]
    simp [Memory.Meets, hsearch, hraws]
  · rintro stored row ⟨hshown, hcolumns⟩
    exact ⟨hshown _ l.mem_output.1 search hsearch hs, hshown _ l.mem_output.2 value hvalue hv,
      fun htyped => Link.shownBy_of_columns (hcolumns htyped)⟩

/-- Where keys are looked up all at once, the last row that shows a text tells its value. -/
theorem lookup_listed (hinto : e.LooksInto l remote search value m)
    (hin : search.supports Builtin.isIn = true)
    (h : (e.lookup (e.findOnce now session find true) l rows).result = .ok found) (text : String) :
    found.lookup text = lastShown? e.options l search value rows m.rows text := by
  rcases lookup_cases hinto.remote_eq hinto.search_eq h with ⟨-, h⟩ | ⟨hnot, -⟩
  · obtain ⟨keys, hkeys, ⟨rfl, rfl⟩ | ⟨-, answer, hanswer, rfl⟩⟩ := lookupAll_eq_ok_iff.mp h
    · rw [lastShown?, hkeys, List.find?_eq_none.mpr (by simp [Except.toOption])]
      rfl
    · obtain ⟨raws, keep, hraws, hkeep, hfound⟩ := found_of_link hinto hanswer
      have hkeep : keep = fun r => keys.any (r.holds search) := by
        funext r
        rw [Bool.eq_iff_iff, hkeep, StoredRow.any_holds hraws]
        have hq : qualify Builtin.isIn = Builtin.isIn := rfl
        rw [hq, Memory.evaluate_isIn, Except.ok.injEq]
      rw [PageRequest.window_of_not_isPaged rfl, hkeep] at hfound
      have hshown : ∀ r ∈ answer.rows, l.ShownBy r := by
        intro r hr
        obtain ⟨stored, hstored, -, -, hshown⟩ := forall₂_exists_left hfound hr
        obtain ⟨key, -, hholds⟩ := List.any_eq_true.mp (List.mem_filter.mp hstored).2
        exact hshown fun r => StoredRow.not_typed_of_holds hholds r
      have htold : ((m.rows.filter fun r => keys.any (r.holds search)).reverse.find? fun r =>
          (r.shown? e.options search).map Value.display == some text).bind
            (fun r => r.shown? e.options value) =
          (answer.rows.reverse.find? fun r =>
            (r.value? l.searchColumn).map Value.display == some text).bind
              fun r => r.value? l.valueColumn :=
        forall₂_find?_bind (List.forall₂_reverse_iff.mpr hfound)
          (fun stored r hr => by rw [hr.1]) (fun stored r hr => hr.2.1.symm)
      rw [lookup_findings hshown, ← htold, ← List.filter_reverse, List.find?_filter, lastShown?,
        hkeys]
      simp only [Bool.decide_and, Bool.decide_eq_true, Except.toOption, Option.getD_some]
  · cases hin.symm.trans hnot

/-- Asked for one key, memory answers with the first row that holds it. -/
theorem firstValue?_of_link (hinto : e.LooksInto l remote search value m) {key : Value}
    {answer : TableRows}
    (h : (e.findOnce now session find true (l.template Builtin.eq [key] ⟨0, 1⟩)).result =
      .ok answer) :
    l.firstValue? answer =
      (m.rows.find? fun r => r.holds search key).bind fun r => r.shown? e.options value := by
  obtain ⟨raws, keep, hraws, hkeep, hfound⟩ := found_of_link hinto h
  obtain ⟨raw, hraw, hrest⟩ := Except.bind_eq_ok_iff.mp hraws
  cases hrest
  have hkeep : keep = fun r => r.holds search key := by
    funext r
    rw [Bool.eq_iff_iff, hkeep]
    have hq : qualify Builtin.eq = Builtin.eq := rfl
    rw [hq, Memory.evaluate_eq, Except.ok.injEq, StoredRow.holds, hraw]
    rfl
  rw [PageRequest.window_first, hkeep] at hfound
  have hhead (rows : List StoredRow) : rows.head? = (rows.take 1).head? := by
    cases rows <;> rfl
  rw [Link.firstValue?, ← List.head?_filter, hhead]
  generalize (m.rows.filter fun r => r.holds search key).take 1 = first at hfound ⊢
  generalize answer.rows = shown at hfound ⊢
  cases hfound with
  | nil => rfl
  | cons hrow _ => exact hrow.2.1

/-- Where keys are looked up one by one, each of them is asked for. -/
theorem exists_answeredFor {before : Findings}
    (h : (lookupEach find l search before rows).result = .ok found) {row : TableRow}
    (hrow : row ∈ rows) {v : Value} (hv : l.sought? row = some v) :
    ∃ key answer, search.retyped v = .ok key ∧
      AnsweredFor find l search rows key.display answer := by
  induction rows generalizing before with
  | nil => cases hrow
  | cons first rows ih =>
    simp only [answeredFor_cons_iff]
    rw [lookupEach, ← Link.sought?] at h
    rcases List.mem_cons.mp hrow with rfl | hrow
    · simp only [hv, Run.liftM_eq_ofExcept, Run.result_bind_eq_ok_iff,
        Run.result_ofExcept_eq_ok_iff] at h
      obtain ⟨key, hkey, answer, hanswer, -⟩ := h
      exact ⟨key, answer, hkey, .inl ⟨v, key, hv, hkey, rfl, hanswer⟩⟩
    · have hrest : ∃ later, (lookupEach find l search later rows).result = .ok found := by
        split at h
        · exact ⟨_, h⟩
        · simp only [Run.liftM_eq_ofExcept, Run.result_bind_eq_ok_iff,
            Run.result_ofExcept_eq_ok_iff] at h
          obtain ⟨key, -, answer, -, h⟩ := h
          split at h
          · exact ⟨_, h⟩
          · exact ⟨_, h⟩
      obtain ⟨later, hrest⟩ := hrest
      obtain ⟨key, answer, hkey, hfor⟩ := ih hrest hrow
      exact ⟨key, answer, hkey, .inr hfor⟩

/-- All values of a text are answered with the first row that holds their key. -/
theorem firstValue?_of_answeredFor (hinto : e.LooksInto l remote search value m) {text : String}
    {answer : TableRows}
    (h : AnsweredFor (e.findOnce now session find true) l search rows text answer) :
    l.firstValue? answer = firstHeld? e.options l search value rows m.rows text := by
  obtain ⟨row, hrow, v, key, hv, hkey, htext, hanswer⟩ := h
  have hmem : key ∈ soughtKeys l search rows := mem_soughtKeys_iff.mpr ⟨row, hrow, v, hv, hkey⟩
  rw [firstValue?_of_link hinto hanswer, firstHeld?]
  cases hfirst : (soughtKeys l search rows).find? fun key => key.display == text with
  | none => exact absurd (beq_iff_eq.mpr htext) (List.find?_eq_none.mp hfirst key hmem)
  | some first =>
    have hdisplay : first.display = text := by simpa using List.find?_some hfirst
    have hholds : (fun r : StoredRow => r.holds search key) = fun r => r.holds search first := by
      funext r
      exact StoredRow.holds_eq_of_display (type?_of_mem_soughtKeys hmem)
        (type?_of_mem_soughtKeys (List.mem_of_find?_eq_some hfirst)) (htext.trans hdisplay.symm)
    rw [hholds]
    rfl

/-- Where keys are looked up one by one, the first row that holds the key of a text tells its
value. -/
theorem lookup_single (hinto : e.LooksInto l remote search value m)
    (hin : search.supports Builtin.isIn = false)
    (h : (e.lookup (e.findOnce now session find true) l rows).result = .ok found) (text : String) :
    found.lookup text = firstHeld? e.options l search value rows m.rows text := by
  rcases lookup_cases hinto.remote_eq hinto.search_eq h with ⟨hlist, -⟩ | ⟨-, h⟩
  · cases hin.symm.trans hlist
  · rcases lookup_lookupEach text h with ⟨answer, w, hfor, hw, hlookup⟩ | ⟨hlookup, hnone⟩
    · rw [hlookup, ← hw, firstValue?_of_answeredFor hinto hfor]
    · rw [hlookup, List.lookup_nil]
      cases hfirst : (soughtKeys l search rows).find? fun key => key.display == text with
      | none =>
        rw [firstHeld?, hfirst]
        rfl
      | some key =>
        obtain ⟨row, hrow, v, hv, hretyped⟩ :=
          mem_soughtKeys_iff.mp (List.mem_of_find?_eq_some hfirst)
        obtain ⟨key', answer, hkey', hfor⟩ := exists_answeredFor h hrow hv
        obtain rfl := Except.ok.inj (hretyped.symm.trans hkey')
        have hdisplay : key.display = text := by simpa using List.find?_some hfirst
        rw [hdisplay] at hfor
        rw [← firstValue?_of_answeredFor hinto hfor, hnone answer hfor]

end Engine

end TableQuery
