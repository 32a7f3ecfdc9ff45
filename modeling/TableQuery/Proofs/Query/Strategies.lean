import Mathlib.Data.List.Find
import TableQuery.Proofs.Query.Held
import TableQuery.Proofs.Sample

/-!
# Two ways of looking up

A linked column is filled by one question for all local values if the column searched in can be
asked for a list of values, and by one question for each row if it can only be asked for one. Both
ways fill in the same where the rows that hold a value also show its text and rows that show the
same text have the same value. Where two rows have the same text, the last one counts in one way
and the first one in the other.

## Main definitions

* `Engine.offering` — the same tables, with other operators on the column that a link searches in.

## Main results

* `Engine.listed_eq_single_iff` — when both ways fill in the same.
* `Catalogue.twins_differ` — two rows with the same text.
-/

namespace TableQuery

/-! ## Other operators -/

def Column.offering (c : Column) (ops : List Operator) : Column :=
  { c with filters := ops }

def Table.offering (t : Table) (id : String) (ops : List Operator) : Table :=
  { t with columns := t.columns.map fun c => if c.id = id then c.offering ops else c }

/-- The same tables, with other operators on the column that a link searches in. -/
def Engine.offering (e : Engine) (l : Link) (ops : List Operator) : Engine :=
  { e with
    registry := ⟨e.registry.tables.map fun t =>
      if t.id = l.table then t.offering l.searchColumn ops else t⟩ }

section Offering

variable {ops : List Operator} {c search value value' : Column} {l : Link} {rows : List TableRow}
  {options : OptionLists}

@[simp] theorem Column.retyped_offering (v : Value) : (c.offering ops).retyped v = c.retyped v :=
  rfl

@[simp] theorem StoredRow.shown?_offering (r : StoredRow) :
    r.shown? options (c.offering ops) = r.shown? options c := by
  cases r <;> rfl

theorem StoredRow.holds_offering (r : StoredRow) (key : Value) :
    r.holds (c.offering ops) key = r.holds c key := by
  cases r <;> rfl

theorem Table.column?_offering {t : Table} {id id' : String} :
    (t.offering id ops).column? id' =
      (t.column? id').map fun c => if c.id = id then c.offering ops else c := by
  have hid : (fun c : Column => c.id == id') ∘ (fun c => if c.id = id then c.offering ops else c) =
      fun c => c.id == id' := by
    funext c
    rw [Function.comp_apply]
    split <;> rfl
  unfold column? offering
  rw [List.find?_map, hid]

namespace Engine

theorem localKeys_offering {seen : List String} :
    localKeys l (search.offering ops) seen rows = localKeys l search seen rows := by
  induction rows generalizing seen with
  | nil => rfl
  | cons row rows ih => simp only [localKeys, Column.retyped_offering, ih]

/-- What a column offers does not change what its rows tell. -/
theorem lastShown?_offering {stored : List StoredRow} {text : String}
    (hv : ∀ r : StoredRow, r.shown? options value' = r.shown? options value) :
    lastShown? options l (search.offering ops) value' rows stored text =
      lastShown? options l search value rows stored text := by
  simp only [lastShown?, localKeys_offering, funext (StoredRow.holds_offering _),
    StoredRow.shown?_offering, hv]

theorem firstHeld?_offering {stored : List StoredRow} {text : String}
    (hv : ∀ r : StoredRow, r.shown? options value' = r.shown? options value) :
    firstHeld? options l (search.offering ops) value' rows stored text =
      firstHeld? options l search value rows stored text := by
  simp only [firstHeld?, soughtKeys, Column.retyped_offering, StoredRow.holds_offering, hv]

theorem LooksInto.offering {e : Engine} {remote : Table} {m : Memory}
    (h : e.LooksInto l remote search value m) (ops : List Operator) :
    ∃ value', (e.offering l ops).LooksInto l (remote.offering l.searchColumn ops)
        (search.offering ops) value' m ∧
      ∀ r : StoredRow, r.shown? e.options value' = r.shown? e.options value := by
  have hsearch := Table.column?_id h.search_eq
  have hremote := Registry.table?_id h.remote_eq
  refine ⟨if value.id = l.searchColumn then value.offering ops else value, ⟨?_, ?_, ?_, ?_, ?_, ?_⟩,
    fun r => ?_⟩
  · have hid : (fun t : Table => t.id == l.table) ∘
        (fun t => if t.id = l.table then t.offering l.searchColumn ops else t) =
        fun t => t.id == l.table := by
      funext t
      rw [Function.comp_apply]
      split <;> rfl
    have htable := h.remote_eq
    unfold Registry.table? at htable ⊢
    rw [Engine.offering, List.find?_map, hid, htable, Option.map_some, if_pos hremote]
  · rw [Table.column?_offering, h.search_eq, Option.map_some, if_pos hsearch]
  · rw [Table.column?_offering, h.value_eq, Option.map_some]
  · exact h.search_stored
  · split
    · exact h.value_stored
    · exact h.value_stored
  · exact h.driver_eq
  · split
    · exact r.shown?_offering
    · rfl

end Engine

end Offering

namespace Engine

variable {e : Engine} {find : Template → Run TableRows} {c search value : Column} {l : Link}
  {rows : List TableRow} {found found' : Findings}

/-! ## Rows filled by one column -/

theorem setCell_eq_iff {column : String} {v w : Value} {cells : List Cell} :
    setCell column v cells = setCell column w cells ↔
      (column ∈ cells.map Cell.column → v = w) := by
  induction cells with
  | nil => simp [setCell]
  | cons cell cells ih =>
    unfold setCell
    split
    · next heq => simp [heq]
    · next hne =>
      have hne' : ¬ column = cell.column := fun h => hne h.symm
      simp [ih, hne']

/-- Two lookups fill in the same exactly if they find the same for every local value. -/
theorem map_fillRow_eq_iff :
    rows.map (fillRow c l found) = rows.map (fillRow c l found') ↔
      ∀ row ∈ rows, c.id ∈ row.cells.map Cell.column → ∀ v, row.value? l.localColumn = some v →
        (found.lookup v.display).getD c.emptyValue =
          (found'.lookup v.display).getD c.emptyValue := by
  rw [List.map_inj_left]
  refine forall₂_congr fun row _ => ?_
  have hrow : fillRow c l found row = fillRow c l found' row ↔
      setCell c.id (((row.value? l.localColumn).bind fun v =>
          found.lookup v.display).getD c.emptyValue) row.cells =
        setCell c.id (((row.value? l.localColumn).bind fun v =>
          found'.lookup v.display).getD c.emptyValue) row.cells := by
    simp [fillRow]
  rw [hrow, setCell_eq_iff]
  refine imp_congr_right fun _ => ?_
  cases row.value? l.localColumn <;> simp

theorem fillColumns_singleton_eq_ok_iff {filled : List TableRow} :
    (e.fillColumns find [(c, l)] rows).result = .ok filled ↔
      ∃ found, (e.lookup find l rows).result = .ok found ∧
        filled = rows.map (fillRow c l found) := by
  simp only [fillColumns, Run.result_bind_eq_ok_iff, Run.result_pure, Except.ok.injEq]
  exact exists_congr fun found => and_congr_right fun _ => eq_comm

/-! ## Keys of both ways -/

/-- Values of one type with the same text become keys with the same text. -/
theorem display_of_retyped {v w key key' : Value} (ht : v.type? = w.type?)
    (hd : v.display = w.display) (h : search.retyped v = .ok key)
    (h' : search.retyped w = .ok key') : key.display = key'.display := by
  unfold Column.retyped at h h'
  rw [← ht] at h'
  split at h
  · next htype =>
    rw [if_pos htype] at h'
    cases h
    cases h'
    exact hd
  · next htype =>
    rw [if_neg htype, ← hd] at h'
    exact congrArg Value.display (Except.ok.inj (h.symm.trans h'))

/-- The keys that are looked up all at once are keys of rows. -/
theorem localKeys_subset {seen : List String} {keys : List Value}
    (h : localKeys l search seen rows = .ok keys) : keys ⊆ soughtKeys l search rows := by
  induction rows generalizing seen keys with
  | nil =>
    cases h
    exact List.nil_subset _
  | cons row rows ih =>
    have hrest : soughtKeys l search rows ⊆ soughtKeys l search (row :: rows) := by
      intro key hkey
      obtain ⟨row', hrow', hsought⟩ := mem_soughtKeys_iff.mp hkey
      exact mem_soughtKeys_iff.mpr ⟨row', List.mem_cons_of_mem _ hrow', hsought⟩
    rw [localKeys_cons] at h
    split at h
    · exact List.Subset.trans (ih h) hrest
    · next v hv =>
      split at h
      · exact List.Subset.trans (ih h) hrest
      · obtain ⟨key, hkey, h⟩ := Except.bind_eq_ok_iff.mp h
        obtain ⟨keys, hkeys, h⟩ := Except.bind_eq_ok_iff.mp h
        cases h
        rw [List.cons_subset]
        refine ⟨mem_soughtKeys_iff.mpr ⟨row, List.mem_cons_self, v, hv, hkey⟩, ?_⟩
        exact List.Subset.trans (ih hkeys) hrest

/-- Each text is looked up, by the first of its values. -/
theorem exists_mem_localKeys_of_seen (hu : l.Uniform rows) {seen : List String}
    {keys : List Value} (h : localKeys l search seen rows = .ok keys) {row : TableRow}
    (hrow : row ∈ rows) {v key : Value} (hv : l.sought? row = some v) (hseen : v.display ∉ seen)
    (hkey : search.retyped v = .ok key) : ∃ key' ∈ keys, key'.display = key.display := by
  induction rows generalizing seen keys with
  | nil => cases hrow
  | cons first rows ih =>
    obtain ⟨type, hu⟩ := hu
    have hurest : l.Uniform rows := ⟨type, (List.forall_mem_cons.mp hu).2⟩
    rw [localKeys_cons] at h
    cases hfirst : l.sought? first with
    | none =>
      rw [hfirst] at h
      refine ih hurest h ((List.mem_cons.mp hrow).resolve_left ?_) hseen
      rintro rfl
      cases hfirst.symm.trans hv
    | some w =>
      simp only [hfirst] at h
      split at h
      · next hagain =>
        refine ih hurest h ((List.mem_cons.mp hrow).resolve_left ?_) hseen
        rintro rfl
        obtain rfl := Option.some.inj (hfirst.symm.trans hv)
        exact hseen (by simpa using hagain)
      · obtain ⟨firstKey, hfirstKey, h⟩ := Except.bind_eq_ok_iff.mp h
        obtain ⟨rest, hrest, h⟩ := Except.bind_eq_ok_iff.mp h
        cases h
        by_cases hsame : w.display = v.display
        · have htype : w.type? = v.type? :=
            (hu first List.mem_cons_self w hfirst).trans (hu row hrow v hv).symm
          exact ⟨firstKey, List.mem_cons_self, display_of_retyped htype hsame hfirstKey hkey⟩
        · have hrow : row ∈ rows := by
            refine (List.mem_cons.mp hrow).resolve_left ?_
            rintro rfl
            exact hsame (congrArg Value.display (Option.some.inj (hfirst.symm.trans hv)))
          obtain ⟨key', hkey', hdisplay⟩ := ih hurest hrest hrow
            (by simpa using ⟨fun h => hsame h.symm, hseen⟩)
          exact ⟨key', List.mem_cons_of_mem _ hkey', hdisplay⟩

/-! ## Both ways -/

/-- Rows in memory tell one value for each text: those that hold a key are those that show its
text, and rows that show the same text have the same value. -/
structure TellsOnce (options : OptionLists) (l : Link) (search value : Column)
    (rows : List TableRow) (stored : List StoredRow) : Prop where
  holds_iff : ∀ key ∈ soughtKeys l search rows, ∀ r ∈ stored, r.holds search key = true ↔
    (r.shown? options search).map Value.display = some key.display
  value_eq : ∀ r ∈ stored, ∀ r' ∈ stored, ∀ text,
    (r.shown? options search).map Value.display = some text →
    (r'.shown? options search).map Value.display = some text →
    r.shown? options value = r'.shown? options value

/-- Then the last row and the first row tell the same. -/
theorem TellsOnce.lastShown?_eq {options : OptionLists} {stored : List StoredRow}
    (h : TellsOnce options l search value rows stored) (hu : l.Uniform rows) {keys : List Value}
    (hkeys : localKeys l search [] rows = .ok keys) (text : String) :
    lastShown? options l search value rows stored text =
      firstHeld? options l search value rows stored text := by
  have hshown {r : StoredRow} (hr : r ∈ stored) {key : Value} (hkey : key ∈ keys) :
      r.holds search key = true ↔ (r.shown? options search).map Value.display = some key.display :=
    h.holds_iff key (localKeys_subset hkeys hkey) r hr
  rw [lastShown?, hkeys, firstHeld?]
  cases hfirst : (soughtKeys l search rows).find? fun key => key.display == text with
  | none =>
    -- A row that shows the text is found for no key, because no key has the text.
    have hnone : (stored.reverse.find? fun r => keys.any (r.holds search) &&
        (r.shown? options search).map Value.display == some text) = none := by
      rw [List.find?_eq_none]
      intro r hr hfound
      rw [Bool.and_eq_true, List.any_eq_true, beq_iff_eq] at hfound
      obtain ⟨⟨key, hkey, hholds⟩, htext⟩ := hfound
      have hdisplay := htext.symm.trans ((hshown (List.mem_reverse.mp hr) hkey).mp hholds)
      exact List.find?_eq_none.mp hfirst key (localKeys_subset hkeys hkey)
        (beq_iff_eq.mpr (Option.some.inj hdisplay).symm)
    simp only [Except.toOption, Option.getD_some, hnone]
    rfl
  | some key =>
    have hmem := List.mem_of_find?_eq_some hfirst
    have hdisplay : key.display = text := by simpa using List.find?_some hfirst
    obtain ⟨row, hrow, v, hv, hretyped⟩ := mem_soughtKeys_iff.mp hmem
    obtain ⟨key', hkey', hsame⟩ :=
      exists_mem_localKeys_of_seen hu hkeys hrow hv List.not_mem_nil hretyped
    -- Both ways come to the rows that show the text, from different ends.
    have hlast : ∀ r ∈ stored.reverse, (keys.any (r.holds search) &&
        (r.shown? options search).map Value.display == some text) =
          ((r.shown? options search).map Value.display == some text) := by
      intro r hr
      rw [Bool.and_eq_right_iff_imp, beq_iff_eq]
      intro htext
      rw [← hdisplay, ← hsame] at htext
      exact List.any_eq_true.mpr ⟨key', hkey', (hshown (List.mem_reverse.mp hr) hkey').mpr htext⟩
    have hheld : ∀ r ∈ stored, r.holds search key =
        ((r.shown? options search).map Value.display == some text) := by
      intro r hr
      rw [Bool.eq_iff_iff, h.holds_iff key hmem r hr, hdisplay, beq_iff_eq]
    simp only [Except.toOption, Option.getD_some, Option.bind_eq_bind, Option.bind_some]
    rw [List.find?_congr hlast, List.find?_congr hheld]
    refine find?_reverse_bind fun r hr htext r' hr' htext' => ?_
    exact h.value_eq r hr r' hr' text (beq_iff_eq.mp htext) (beq_iff_eq.mp htext')

variable {now : Moment} {session : Session} {remote : Table} {m : Memory}
  {several single : List Operator} {listed one : List TableRow}

/-- Rows that are filled by one question for all values and by one question for each row are the
same exactly if for every local value the last row that shows its text, among the rows found, and
the first row that holds its key tell the same value, or both tell none. They are the same where
each text is told once. -/
theorem listed_eq_single_iff {n : Nat} (hinto : e.LooksInto l remote search value m)
    (hseveral : (search.offering several).supports Builtin.isIn = true)
    (hsingle : (search.offering single).supports Builtin.isIn = false)
    (hlisted : ((e.offering l several).fillColumns
      ((e.offering l several).findSimple now session (n + 1)) [(c, l)] rows).result = .ok listed)
    (hone : ((e.offering l single).fillColumns
      ((e.offering l single).findSimple now session (n + 1)) [(c, l)] rows).result = .ok one) :
    (listed = one ↔ ∀ row ∈ rows, c.id ∈ row.cells.map Cell.column →
      ∀ v, row.value? l.localColumn = some v →
        (lastShown? e.options l search value rows m.rows v.display).getD c.emptyValue =
          (firstHeld? e.options l search value rows m.rows v.display).getD c.emptyValue) ∧
    (l.Uniform rows → TellsOnce e.options l search value rows m.rows → listed = one) := by
  obtain ⟨found, hfound, rfl⟩ := fillColumns_singleton_eq_ok_iff.mp hlisted
  obtain ⟨found', hfound', rfl⟩ := fillColumns_singleton_eq_ok_iff.mp hone
  obtain ⟨value₁, hinto₁, hvalue₁⟩ := hinto.offering several
  obtain ⟨value₂, hinto₂, hvalue₂⟩ := hinto.offering single
  have hlast (text : String) :
      found.lookup text = lastShown? e.options l search value rows m.rows text :=
    (lookup_listed hinto₁ hseveral hfound text).trans (lastShown?_offering hvalue₁)
  have hfirst (text : String) :
      found'.lookup text = firstHeld? e.options l search value rows m.rows text :=
    (lookup_single hinto₂ hsingle hfound' text).trans (firstHeld?_offering hvalue₂)
  have hiff : rows.map (fillRow c l found) = rows.map (fillRow c l found') ↔ _ :=
    map_fillRow_eq_iff
  simp only [hlast, hfirst] at hiff
  refine ⟨hiff, fun hu honce => hiff.mpr fun row _ _ v _ => ?_⟩
  obtain ⟨keys, hkeys⟩ : ∃ keys, localKeys l search [] rows = .ok keys := by
    rcases lookup_cases hinto₁.remote_eq hinto₁.search_eq hfound with ⟨-, h⟩ | ⟨hnot, -⟩
    · obtain ⟨keys, hkeys, -⟩ := lookupAll_eq_ok_iff.mp h
      exact ⟨keys, localKeys_offering.symm.trans hkeys⟩
    · cases hseveral.symm.trans hnot
  rw [honce.lastShown?_eq hu hkeys]

end Engine

/-! ## A catalogue of parts -/

namespace Catalogue

open Sample (clock visitor)

def parts : Table :=
  ⟨"Part", "Part", "", [.ofTexts "Id" true none, .ofTexts "No" false none,
    .ofTexts "Name" false none], "Id", [], none, none⟩

def bolt : StoredRow := .keyed [("Id", .text "P1"), ("No", .text "7"), ("Name", .text "Bolt")]

def nut (number : String) : StoredRow :=
  .keyed [("Id", .text "P2"), ("No", .text number), ("Name", .text "Nut")]

/-- A bolt with the number 7, and a nut with some number. -/
def memory (number : String) : Memory where
  rows := [bolt, nut number]
  limit := 100000
  operators := []

def engine (number : String) : Engine where
  registry := ⟨[parts]⟩
  options := .empty
  drivers := [("Part", (memory number).driver)]

def link : Link := ⟨"Part", "Ref", "No", "Name"⟩

def name : Column := .ofTexts "RefName" false (some link)

/-- An order of the part with the number 7, and one without a part. -/
def orders : List TableRow :=
  [⟨"O1", [.plain "Ref" (.string "7"), .plain "RefName" (.string "")], []⟩,
    ⟨"O2", [.plain "Ref" .null, .plain "RefName" (.string "")], []⟩]

def several : List Operator := [⟨Builtin.isIn, "in", .multiple⟩]

def single : List Operator := [⟨Builtin.eq, "equal", .single⟩]

/-- The orders with the names of their parts, where numbers offer some operators. -/
def named (number : String) (ops : List Operator) : Run (List TableRow) :=
  ((engine number).offering link ops).fillColumns
    (((engine number).offering link ops).findSimple clock visitor 1)
    [(name, link)] orders

def column (id : String) : Column := .ofTexts id false none

theorem looksInto (number : String) :
    (engine number).LooksInto link parts (column "No") (column "Name") (memory number) :=
  ⟨rfl, rfl, rfl, rfl, rfl, rfl⟩

def names (rows : List TableRow) : List (Option String) :=
  rows.map fun row => (row.value? "RefName").map Value.display

theorem uniform : link.Uniform orders := by
  refine ⟨.string, ?_⟩
  have hsought : orders.map link.sought? = [some (.string "7"), none] := rfl
  intro row hrow v hv
  have hmem : some v ∈ orders.map link.sought? := hv ▸ List.mem_map_of_mem hrow
  rw [hsought] at hmem
  simp only [List.mem_cons, Option.some.injEq, reduceCtorEq, List.not_mem_nil, or_false] at hmem
  rw [hmem]
  rfl

/-- Where the numbers of parts are different, each tells one name. -/
theorem tellsOnce : Engine.TellsOnce .empty link (column "No") (column "Name") orders
    (memory "8").rows := by
  have hkeys : Engine.soughtKeys link (column "No") orders = [.string "7"] := rfl
  have hbolt : (bolt.shown? .empty (column "No")).map Value.display = some "7" := by cbv
  have hnut : ((nut "8").shown? .empty (column "No")).map Value.display = some "8" := by cbv
  have hrows : (memory "8").rows = [bolt, nut "8"] := rfl
  constructor
  · rw [hkeys, hrows, List.forall_mem_singleton, List.forall_mem_cons, List.forall_mem_singleton,
      hbolt, hnut]
    exact ⟨iff_of_true rfl rfl, iff_of_false (by cbv; simp) (by decide)⟩
  · intro r hr r' hr' text htext htext'
    rw [hrows, List.mem_cons, List.mem_singleton] at hr hr'
    rcases hr with rfl | rfl <;> rcases hr' with rfl | rfl
    · rfl
    · exact absurd (hbolt.symm.trans (htext.trans (htext'.symm.trans hnut))) (by decide)
    · exact absurd (hnut.symm.trans (htext.trans (htext'.symm.trans hbolt))) (by decide)
    · rfl

/-- Orders are named the same in both ways where the numbers of parts are different. -/
theorem singles_agree : ∃ listed one, (named "8" several).result = .ok listed ∧
    (named "8" single).result = .ok one ∧ names one = [some "Bolt", some ""] ∧
    link.Uniform orders ∧
    Engine.TellsOnce .empty link (column "No") (column "Name") orders (memory "8").rows ∧
    listed = one := by
  have hlisted : (named "8" several).result.map names = .ok [some "Bolt", some ""] := by cbv
  have hone : (named "8" single).result.map names = .ok [some "Bolt", some ""] := by cbv
  obtain ⟨listed, hlisted, -⟩ := Except.map_eq_ok_iff.mp hlisted
  obtain ⟨one, hone, hnames⟩ := Except.map_eq_ok_iff.mp hone
  exact ⟨listed, one, hlisted, hone, hnames, uniform, tellsOnce,
    (Engine.listed_eq_single_iff (looksInto "8") rfl rfl hlisted hone).2 uniform tellsOnce⟩

/-- Two parts with the same number: asked for all numbers at once, the last one counts, and asked
for one number, the first one. -/
theorem twins_differ :
    (engine "7").LooksInto link parts (column "No") (column "Name") (memory "7") ∧
    ((column "No").offering several).supports Builtin.isIn = true ∧
    ((column "No").offering single).supports Builtin.eq = true ∧
    ((column "No").offering single).supports Builtin.isIn = false ∧
    ∃ listed one, (named "7" several).result = .ok listed ∧ (named "7" single).result = .ok one ∧
      names listed = [some "Nut", some ""] ∧ names one = [some "Bolt", some ""] ∧
      listed ≠ one := by
  have hlisted : (named "7" several).result.map names = .ok [some "Nut", some ""] := by cbv
  have hone : (named "7" single).result.map names = .ok [some "Bolt", some ""] := by cbv
  obtain ⟨listed, hlisted, hnut⟩ := Except.map_eq_ok_iff.mp hlisted
  obtain ⟨one, hone, hbolt⟩ := Except.map_eq_ok_iff.mp hone
  refine ⟨looksInto "7", rfl, rfl, rfl, listed, one, hlisted, hone, hnut, hbolt, ?_⟩
  rintro rfl
  simp [hnut] at hbolt

end Catalogue

end TableQuery
