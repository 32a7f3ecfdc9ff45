import TableQuery.Proofs.Text.Split
import TableQuery.Schema.Compile

/-!
# Written forms of links

A link is written as the name of a table and, in parentheses, three columns or one. Blanks may
stand anywhere. Names of tables are word characters and points, names of columns word characters,
so that no text can be taken apart in two ways. Every other text is refused, and a link whose ids
are such names is read from its own written form.

## Main definitions

* `Link.Spelled` — a text is a table and columns in parentheses.
* `Link.Denotes` — the link that a text without blanks denotes on a column.

## Main results

* `Link.parts?_eq_some_iff` — a text is taken apart exactly if it is of that form.
* `Link.Spelled.unique` — in one way only.
* `Link.read?_iff` — which links are read.
* `Link.read?_display` — links are read from their own written form.
* `Link.reads_exactly` — all of this, with the error of every other text.
-/

namespace TableQuery

open TableQuery.Text (isBlank isWord isWordChar notMem_of_isWord splitAtChar)

namespace Link

variable {column text : String} {c : Char} {s table : List Char} {columns : List (List Char)}
  {l : Link}

/-! ## The two forms -/

/-- A text is the name of a table and, in parentheses, words with commas between them. -/
structure Spelled (table : List Char) (columns : List (List Char)) (s : List Char) : Prop where
  text_eq : s = table ++ '(' :: ([','].intercalate columns ++ [')'])
  isTableName_table : isTableName table = true
  isWord_columns : ∀ c ∈ columns, isWord c = true
  columns_ne_nil : columns ≠ []

/-- The link that a text without blanks denotes on a column. Three columns are the one here, the
one that is searched and the one that is taken. One column is searched and taken, and the column
itself is the one here. -/
inductive Denotes (column : String) (s : List Char) : Link → Prop where
  | full {table here searched taken : List Char} (h : Spelled table [here, searched, taken] s) :
      Denotes column s
        ⟨String.ofList table, String.ofList here, String.ofList searched, String.ofList taken⟩
  | short {table searched : List Char} (h : Spelled table [searched] s) :
      Denotes column s
        ⟨String.ofList table, column, String.ofList searched, String.ofList searched⟩

def unspaced (text : String) : List Char :=
  text.toList.filter fun c => !isBlank c

/-- The ids of a link are names that can be written. -/
structure Nameable (l : Link) : Prop where
  table : isTableName l.table.toList = true
  localColumn : isWord l.localColumn.toList = true
  searchColumn : isWord l.searchColumn.toList = true
  valueColumn : isWord l.valueColumn.toList = true

/-! ## Texts taken apart -/

theorem notMem_of_isTableName (h : isTableName table = true) (hpoint : c ≠ '.')
    (hc : isWordChar c = false) : c ∉ table := by
  intro hmem
  rw [isTableName, Bool.and_eq_true, List.all_eq_true] at h
  simpa [hpoint, hc] using h.2 c hmem

/-- A text is taken apart exactly if it is a table and columns in parentheses. -/
theorem parts?_eq_some_iff : parts? s = some (table, columns) ↔ Spelled table columns s := by
  have hcomma : isWordChar ',' = false := by decide +kernel
  have hopening : isWordChar '(' = false := by decide +kernel
  simp only [parts?, Option.bind_eq_bind, Option.bind_eq_some_iff, Option.ite_none_right_eq_some,
    Option.some.injEq, Prod.mk.injEq, Bool.and_eq_true, List.all_eq_true]
  constructor
  · rintro ⟨⟨_, rest⟩, hfirst, inner, hinner, ⟨htable, hcolumns⟩, rfl, hcut⟩
    obtain ⟨c, rfl, hc, -⟩ := Text.splitFirst?_eq_some_iff.mp hfirst
    obtain rfl : c = '(' := by simpa using hc
    obtain rfl := Text.stripEnd?_eq_some_iff.mp hinner
    rw [hcut] at hcolumns
    obtain ⟨rfl, hne, -⟩ := Text.splitAtChar_eq_iff.mp hcut
    exact ⟨rfl, htable, hcolumns, hne⟩
  · rintro ⟨rfl, htable, hcolumns, hne⟩
    have hcut : splitAtChar ',' ([','].intercalate columns) = columns :=
      Text.splitAtChar_eq_iff.mpr
        ⟨rfl, hne, fun c hc => notMem_of_isWord (hcolumns c hc) hcomma⟩
    have hbefore : ∀ d ∈ table, (d == '(') = false := by
      intro d hd
      rw [beq_eq_false_iff_ne]
      rintro rfl
      exact notMem_of_isTableName htable (by decide) hopening hd
    refine ⟨(table, _), Text.splitFirst?_append hbefore rfl, _, Text.stripEnd?_append _ _,
      ⟨htable, ?_⟩, rfl, hcut⟩
    rw [hcut]
    exact hcolumns

/-- A text is such a form in one way only. -/
theorem Spelled.unique {table' : List Char} {columns' : List (List Char)}
    (h : Spelled table columns s) (h' : Spelled table' columns' s) :
    table = table' ∧ columns = columns' := by
  have hsame := (parts?_eq_some_iff.mpr h).symm.trans (parts?_eq_some_iff.mpr h')
  exact Prod.mk.inj (Option.some.inj hsame)

/-- A link is read exactly from the texts that denote it, whatever blanks stand in them. -/
theorem read?_iff : read? column text = some l ↔ Denotes column (unspaced text) l := by
  unfold read?
  constructor
  · intro h
    split at h
    · next table searched hparts =>
      obtain rfl := Option.some.inj h
      exact .short (parts?_eq_some_iff.mp hparts)
    · next table here searched taken hparts =>
      obtain rfl := Option.some.inj h
      exact .full (parts?_eq_some_iff.mp hparts)
    · cases h
  · intro h
    cases h with
    | full h => rw [← unspaced, parts?_eq_some_iff.mpr h]
    | short h => rw [← unspaced, parts?_eq_some_iff.mpr h]

/-! ## Links of fields -/

/-- A text that is more than blanks is read as a link, or it is an error of the field. -/
theorem columnLink_eq {f : FieldSpec} (h : f.link = some text)
    (hblank : text.toList.all isBlank = false) :
    f.columnLink = (read? f.id text).elim (.error (.invalidLinkFormat f.id text))
      fun l => .ok (some l) := by
  rw [FieldSpec.columnLink, h]
  dsimp only
  rw [if_neg (by simp [hblank])]
  cases read? f.id text <;> rfl

theorem columnLink_eq_ok_iff {f : FieldSpec} (h : f.link = some text)
    (hblank : text.toList.all isBlank = false) :
    f.columnLink = .ok (some l) ↔ Denotes f.id (unspaced text) l := by
  rw [columnLink_eq h hblank, ← read?_iff]
  cases read? f.id text <;> simp

theorem columnLink_eq_error_iff {f : FieldSpec} (h : f.link = some text)
    (hblank : text.toList.all isBlank = false) :
    f.columnLink = .error (.invalidLinkFormat f.id text) ↔
      ¬∃ l, Denotes f.id (unspaced text) l := by
  rw [columnLink_eq h hblank]
  simp only [← read?_iff]
  cases read? f.id text <;> simp

/-! ## Links read from their own written form -/

theorem Nameable.spelled_display (h : l.Nameable) :
    Spelled l.table.toList
      [l.localColumn.toList, l.searchColumn.toList, l.valueColumn.toList] l.display.toList where
  text_eq := by simp [display, List.intercalate]
  isTableName_table := h.table
  isWord_columns := by simp [h.localColumn, h.searchColumn, h.valueColumn]
  columns_ne_nil := by simp

theorem not_isBlank_of_isTableName (h : isTableName table = true) :
    ∀ c ∈ table, isBlank c = false := by
  intro c hc
  rw [← Bool.not_eq_true]
  intro hblank
  refine notMem_of_isTableName h ?_ (Text.isWordChar_of_isBlank hblank) hc
  rintro rfl
  revert hblank
  decide

/-- No blank stands in the written form of a link. -/
theorem Nameable.unspaced_display (h : l.Nameable) : unspaced l.display = l.display.toList := by
  have hkept {w : List Char} (hw : ∀ c ∈ w, isBlank c = false) :
      w.filter (fun c => !isBlank c) = w :=
    List.filter_eq_self.mpr fun c hc => by rw [hw c hc]; rfl
  have htable := hkept (not_isBlank_of_isTableName h.table)
  have hlocal := hkept (Text.not_isBlank_of_isWord h.localColumn)
  have hsearch := hkept (Text.not_isBlank_of_isWord h.searchColumn)
  have hvalue := hkept (Text.not_isBlank_of_isWord h.valueColumn)
  simp only [unspaced, display, String.toList_append, List.filter_append, htable, hlocal, hsearch,
    hvalue]
  rfl

theorem read?_display (h : l.Nameable) (column : String) : read? column l.display = some l := by
  rw [read?_iff, h.unspaced_display]
  simpa using (Denotes.full h.spelled_display : Denotes column _ _)

/-- Links are read from two forms and from nothing else, with blanks anywhere in them: a table and,
in parentheses, three columns or one. A text is such a form in one way only. In a field, every other
text that is more than blanks is an error. Links whose ids can be written are read from their own
written form, on whatever column. -/
theorem reads_exactly :
    (∀ column text l, read? column text = some l ↔ Denotes column (unspaced text) l) ∧
    (∀ s table columns table' columns', Spelled table columns s → Spelled table' columns' s →
      table = table' ∧ columns = columns') ∧
    (∀ (f : FieldSpec) text, f.link = some text → text.toList.all isBlank = false →
      (∀ l, f.columnLink = .ok (some l) ↔ Denotes f.id (unspaced text) l) ∧
      (f.columnLink = .error (.invalidLinkFormat f.id text) ↔
        ¬∃ l, Denotes f.id (unspaced text) l)) ∧
    ∀ l : Link, l.Nameable → ∀ column, read? column l.display = some l := by
  refine ⟨fun column text l => read?_iff, fun s table columns table' columns' => Spelled.unique,
    fun f text h hblank => ⟨fun l => ?_, ?_⟩, fun l h column => read?_display h column⟩
  · exact columnLink_eq_ok_iff h hblank
  · exact columnLink_eq_error_iff h hblank

end Link

/-! ## Prices of another table -/

namespace PriceList

def price (link : String) : FieldSpec :=
  { (default : FieldSpec) with id := "Preis", link := some link }

/-- The price of the material that is named here, with names beyond ASCII. -/
def material : Link := ⟨"erp.Größen", "Код", "Id", "Preis"⟩

/-- The price is linked with blanks everywhere, and the same link is read from its written form on
another column. With one column in parentheses the price itself is looked up. A second pair of
parentheses is an error. -/
theorem prices_linked :
    (price " erp . Größen\t( Код,Id , Preis )\n").columnLink = .ok (some material) ∧
    Link.read? "Cost" material.display = some material ∧
    (price "Größen(Id)").columnLink = .ok (some ⟨"Größen", "Preis", "Id", "Id"⟩) ∧
    (price "Größen((Id))").columnLink = .error (.invalidLinkFormat "Preis" "Größen((Id))") := by
  obtain ⟨hread, -, hfield, hdisplay⟩ := Link.reads_exactly
  have hwords : Link.isTableName "erp.Größen".toList = true ∧ Text.isWord "Код".toList = true ∧
      Text.isWord "Id".toList = true ∧ Text.isWord "Preis".toList = true := by
    decide +kernel
  have hnameable : material.Nameable := ⟨hwords.1, hwords.2.1, hwords.2.2.1, hwords.2.2.2⟩
  refine ⟨?_, hdisplay material hnameable "Cost", ?_, ?_⟩
  · refine ((hfield (price _) _ rfl (by decide +kernel)).1 _).mpr ((hread _ _ _).mp ?_)
    decide +kernel
  · refine ((hfield (price _) _ rfl (by decide +kernel)).1 _).mpr ((hread _ _ _).mp ?_)
    decide +kernel
  · refine (hfield (price _) _ rfl (by decide +kernel)).2.mpr fun ⟨l, hl⟩ => ?_
    have hnone : Link.read? "Preis" "Größen((Id))" = none := by decide +kernel
    cases hnone.symm.trans ((hread _ _ _).mpr hl)

end PriceList

end TableQuery
