import TableQuery.Proofs.Sql.Columns

/-!
# Names between quotes

A database reads a name between quotes up to the first quote that does not stand twice. A quoted
name therefore ends where it was written to end, whatever is in it, and what is read is the name.

## Main definitions

* `Sql.closeName?` — a name up to the quote that closes it.
* `Sql.Dialect.readName?` — a name between quotes, as a database reads it.
* `Sql.selectItem` — a column in the list of a select.

## Main results

* `Sql.closeName?_eq_some_iff` — reading up to the closing quote inverts doubling.
* `Sql.quote_delimits` — a text is read as a name exactly if it begins with the quoted name, so the
  names of a select stay apart and within their quotes.
-/

namespace TableQuery.Sql

/-- Behind an opening quote: the name up to the quote that closes it, which is the first one that
does not stand twice, and the text behind it. -/
def closeName? (quote : Char) : List Char → Option (List Char × List Char)
  | [] => none
  | [c] => if c = quote then some ([], []) else none
  | c :: c' :: s =>
    if c = quote then
      if c' = quote then (closeName? quote s).map fun (name, rest) => (quote :: name, rest)
      else some ([], c' :: s)
    else (closeName? quote (c' :: s)).map fun (name, rest) => (c :: name, rest)

def Dialect.readName? (d : Dialect) : List Char → Option (List Char × List Char)
  | [] => none
  | c :: s => if c = d.quoteChar then closeName? d.quoteChar s else none

def doubled (quote : Char) (name : List Char) : List Char :=
  name.flatMap fun c => if c = quote then [quote, quote] else [c]

section Doubled

variable {q c : Char} {s name rest : List Char}

@[simp] theorem doubled_nil : doubled q [] = [] := rfl

@[simp] theorem doubled_cons_quote : doubled q (q :: name) = q :: q :: doubled q name := by
  simp [doubled]

@[simp] theorem doubled_cons (h : c ≠ q) : doubled q (c :: name) = c :: doubled q name := by
  simp [doubled, h]

theorem toList_quote (d : Dialect) (name : String) :
    (quote d name).toList = d.quoteChar :: doubled d.quoteChar name.toList ++ [d.quoteChar] := by
  simp [quote, quoteChars, doubled]

/-- No quote goes on with the one that closes a name. -/
def Ends (quote : Char) (rest : List Char) : Prop :=
  ∀ c ∈ rest.head?, c ≠ quote

/-- What was doubled is read up to the quote behind it. -/
theorem closeName?_doubled (name : List Char) (h : Ends q rest) :
    closeName? q (doubled q name ++ q :: rest) = some (name, rest) := by
  induction name with
  | nil =>
    cases rest with
    | nil => simp [closeName?]
    | cons c rest =>
      have hc : c ≠ q := h c rfl
      simp [closeName?, hc]
  | cons c name ih =>
    by_cases hc : c = q
    · subst hc
      simp [closeName?, ih]
    · rw [doubled_cons hc, List.cons_append]
      -- Behind any character there is at least the quote that closes the name.
      obtain ⟨c', s, hs⟩ := List.exists_cons_of_ne_nil (l := doubled q name ++ q :: rest) (by simp)
      rw [hs] at ih ⊢
      simp [closeName?, hc, ih]

/-- What is read up to a quote was doubled before it. -/
theorem eq_doubled_of_closeName? (h : closeName? q s = some (name, rest)) :
    s = doubled q name ++ q :: rest ∧ Ends q rest := by
  fun_induction closeName? q s generalizing name with
  | case1 => cases h
  | case2 =>
    cases h
    simp [Ends]
  | case3 => cases h
  | case4 s ih =>
    obtain ⟨⟨name', rest'⟩, hread, heq⟩ := Option.map_eq_some_iff.mp h
    cases heq
    simpa using ih hread
  | case5 c' s hc' =>
    cases h
    simpa [Ends] using hc'
  | case6 c c' s hc ih =>
    obtain ⟨⟨name', rest'⟩, hread, heq⟩ := Option.map_eq_some_iff.mp h
    cases heq
    simpa [hc] using ih hread

/-- Reading a name up to the quote that closes it inverts doubling the quotes in it. -/
theorem closeName?_eq_some_iff :
    closeName? q s = some (name, rest) ↔ s = doubled q name ++ q :: rest ∧ Ends q rest := by
  refine ⟨eq_doubled_of_closeName?, ?_⟩
  rintro ⟨rfl, h⟩
  exact closeName?_doubled name h

end Doubled

namespace Dialect

variable {d : Dialect} {s name rest : List Char}

/-- A text is read as a name exactly if it begins with the quoted name, and with no further quote
behind it. -/
theorem readName?_eq_some_iff : d.readName? s = some (name, rest) ↔
    s = (quote d (String.ofList name)).toList ++ rest ∧ Ends d.quoteChar rest := by
  rw [toList_quote, String.toList_ofList, List.cons_append, List.cons_append, List.append_assoc]
  cases s with
  | nil => simp [readName?]
  | cons c s =>
    by_cases hc : c = d.quoteChar
    · simp [readName?, hc, closeName?_eq_some_iff]
    · simp [readName?, hc]

/-- A quoted name is read as the name up to where it ends. -/
theorem readName?_quote_append (name : String) (h : Ends d.quoteChar rest) :
    d.readName? ((quote d name).toList ++ rest) = some (name.toList, rest) := by
  rw [readName?_eq_some_iff, String.ofList_toList]
  exact ⟨rfl, h⟩

theorem readName?_quote (d : Dialect) (name : String) :
    d.readName? (quote d name).toList = some (name.toList, []) := by
  have hends : Ends d.quoteChar [] := by simp [Ends]
  have h := readName?_quote_append name hends
  rwa [List.append_nil] at h

end Dialect

/-- Different names are written differently. -/
theorem quote_injective (d : Dialect) : Function.Injective (quote d) := by
  intro a b h
  have ha := d.readName?_quote a
  rw [h, d.readName?_quote b] at ha
  have hnames : b.toList = a.toList := (Prod.mk.inj (Option.some.inj ha)).1
  exact (String.toList_inj.mp hnames).symm

/-! ## Names in a select -/

def selectItem (d : Dialect) (c : Column) : String :=
  c.expression ++ " AS " ++ quote d c.storageName

def itemsBefore (d : Dialect) : List Column → String
  | [] => ""
  | c :: cs => selectItem d c ++ ", " ++ itemsBefore d cs

/-- A text goes on behind a name without a quote: it is at its end, or goes on with a comma or a
blank. -/
theorem ends_of_head? {d : Dialect} {rest : List Char} (h : ∀ c ∈ rest.head?, c = ',' ∨ c = ' ') :
    Ends d.quoteChar rest := by
  intro c hc
  rcases h c hc with rfl | rfl <;> cases d <;> decide

/-- The list around one of its items. -/
theorem exists_intercalate_eq (d : Dialect) (before after : List Column) (c : Column) :
    ∃ behind, (∀ c ∈ behind.toList.head?, c = ',') ∧
      ", ".intercalate ((before ++ c :: after).map (selectItem d)) =
        itemsBefore d before ++ selectItem d c ++ behind := by
  induction before with
  | nil =>
    cases after with
    | nil => exact ⟨"", by simp, by simp [itemsBefore]⟩
    | cons c' after =>
      refine ⟨", " ++ ", ".intercalate ((c' :: after).map (selectItem d)), by simp, ?_⟩
      simp [itemsBefore, String.intercalate_cons_cons, String.append_assoc]
  | cons b before ih =>
    obtain ⟨behind, hbehind, ih⟩ := ih
    refine ⟨behind, hbehind, ?_⟩
    rw [List.cons_append, List.map_cons, String.intercalate_cons_of_ne_nil (by simp), ih,
      itemsBefore]
    simp only [String.append_assoc]

/-- In a select, the name that a column is read under is a name between quotes, and what is behind
it is the rest of the text. -/
theorem exists_text_selectStatement (d : Dialect) (relation : String) (before after : List Column)
    (c : Column) (conditions : Fragment) (order : String) (page : PageRequest) :
    ∃ behind, ((selectStatement d relation (before ++ c :: after) conditions order
        page).statement d).text =
      "SELECT " ++ itemsBefore d before ++ c.expression ++ " AS " ++ quote d c.storageName ++
        behind ∧
      d.readName? (quote d c.storageName ++ behind).toList =
        some (c.storageName.toList, behind.toList) := by
  obtain ⟨behind, hbehind, hlist⟩ := exists_intercalate_eq d before after c
  set tail := (conditions ++ .text order ++ pageClause page : Fragment).render d 0
  have htext : ((selectStatement d relation (before ++ c :: after) conditions order
      page).statement d).text = "SELECT " ++ ", ".intercalate ((before ++ c :: after).map
        (selectItem d)) ++ " FROM " ++ relation ++ tail := by
    have hitems : selectItem d = fun c => c.expression ++ " AS " ++ quote d c.storageName := rfl
    rw [hitems]
    simp only [tail, selectStatement, Fragment.statement, Fragment.text, List.append_assoc,
      List.cons_append, List.nil_append, Fragment.render, String.append_assoc]
  refine ⟨behind ++ " FROM " ++ relation ++ tail, ?_, ?_⟩
  · rw [htext, hlist, selectItem]
    simp only [String.append_assoc]
  · rw [String.toList_append]
    refine Dialect.readName?_quote_append c.storageName (ends_of_head? ?_)
    intro x hx
    simp only [String.append_assoc, String.toList_append, List.head?_append] at hx
    cases hhead : behind.toList.head? with
    | none =>
      -- The last column, behind whose name the relation is named.
      rw [hhead] at hx
      exact .inr (Option.some.inj hx).symm
    | some y =>
      rw [hhead] at hx
      obtain rfl := Option.some.inj hx
      exact .inl (hbehind y hhead)

/-- A text is read as a name between quotes exactly if it begins with the quoted name and no
further quote follows; so a quoted name is read as the name up to its last character, and different
names are written differently. In a select, each column is read under its own name between quotes,
which ends where it was written to end, and no two names are the same. -/
theorem quote_delimits (d : Dialect) :
    (∀ s name rest, d.readName? s = some (name, rest) ↔
      s = (quote d (String.ofList name)).toList ++ rest ∧ Ends d.quoteChar rest) ∧
    (∀ name, d.readName? (quote d name).toList = some (name.toList, [])) ∧
    Function.Injective (quote d) ∧
    (∀ relation before c after conditions order page, ∃ behind,
      ((selectStatement d relation (before ++ c :: after) conditions order
          page).statement d).text =
        "SELECT " ++ itemsBefore d before ++ c.expression ++ " AS " ++ quote d c.storageName ++
          behind ∧
        d.readName? (quote d c.storageName ++ behind).toList =
          some (c.storageName.toList, behind.toList)) ∧
    ∀ t output, ((selectColumns t output).map fun c => quote d c.storageName).Nodup := by
  refine ⟨fun s name rest => Dialect.readName?_eq_some_iff, d.readName?_quote, quote_injective d,
    fun relation before c after => exists_text_selectStatement d relation before after c, ?_⟩
  intro t output
  have hnames := (nodup_selectColumns t output).map (quote_injective d)
  rwa [List.map_map] at hnames

/-- A name that would end before its last character if its quotes stood once. -/
def hostile : String := "x\", secret AS \"y"

/-- Between quotes it stays one name, where its own text is read as the name `x`. -/
theorem hostile_kept :
    Dialect.postgres.readName? ("\"" ++ hostile ++ "\"").toList =
        some (['x'], ", secret AS \"y\"".toList) ∧
      (quote .postgres hostile).toList = "\"x\"\", secret AS \"\"y\"".toList ∧
      Dialect.postgres.readName? (quote .postgres hostile).toList = some (hostile.toList, []) :=
  ⟨by decide, by decide, (quote_delimits .postgres).2.1 hostile⟩

end TableQuery.Sql
