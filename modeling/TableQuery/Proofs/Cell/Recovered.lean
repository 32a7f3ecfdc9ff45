import TableQuery.Cell.Native
import TableQuery.Proofs.Run
import TableQuery.Proofs.Value.Compare
import TableQuery.Proofs.ValueFormat.Scan

/-!
# Keys recovered from their texts

The text that a column shows for a key is read as a raw value, and rows are found by comparing
their keys with it. Words without a sign are read as words with one, and compared as doubles; texts
are read without the blanks around them; and what is no number is not even equal to itself. All
other keys are recovered.

## Main definitions

* `Raw.kind?` — the kind of a raw value.
* `Column.Reversible` — the format of a column shows all of a value.
* `Column.Recovers` — the text of a key stands for this key and for no other one.
* `Column.Separates` — what it takes for that.

## Main results

* `Column.reversible_of_defaultFormat` — formats that are not declared are reversible.
* `Column.native_whole`, `Column.native_float`, `Column.native_bool`, `Column.native_text` — what
  the text of a value is read as.
* `Column.recovers_iff` — which keys are recovered.
-/

namespace TableQuery

open TableQuery.Text (trim)
open TableQuery.ValueFormat (Argument Piece Verb pieces render scan? sprintf verbs)

def Raw.kind? : Raw → Option StoredKind
  | null => none
  | bool _ => some .bool
  | int _ => some .int
  | uint _ => some .uint
  | float _ => some .float
  | text _ => some .string
  | bytes _ => some .bytes
  | time _ => some .time

namespace Column

variable {c : Column} {f : String} {v : Verb} {a : Argument} {raw : Raw} {text : String}
  {keys : List Raw}

/-! ## Formats -/

/-- The format shows all of a value of the column's kind: whole numbers in the digits of a base,
doubles in general notation, truth values in words and nothing else, and texts as they are. -/
def Reversible (c : Column) : Prop :=
  match c.kind with
  | .bool => ∃ f v, c.format = some f ∧ pieces f.toList = [.verb v] ∧ v.width = none
  | .int | .uint => ∃ f v base, c.format = some f ∧ verbs f.toList = [v] ∧ v.base? = some base
  | .float => ∃ f v, c.format = some f ∧ verbs f.toList = [v] ∧ v.IsGeneral
  | .string => ∀ f, c.format = some f → ∃ v, verbs f.toList = [v] ∧ v.IsPlain
  | .time | .bytes | .json => False

/-- The formats of columns that declare none are reversible. -/
theorem reversible_of_defaultFormat (hformat : c.format = c.kind.defaultFormat .string)
    (hkind : c.kind ∈ [.bool, .int, .uint, .float, .string]) : c.Reversible := by
  have hd : verbs "%d".toList = [⟨false, false, false, none, none, 'd'⟩] := by cbv
  have hg : verbs "%g".toList = [⟨false, false, false, none, none, 'g'⟩] := by cbv
  have hv : pieces "%v".toList = [.verb ⟨false, false, false, none, none, 'v'⟩] := by cbv
  unfold Reversible
  cases hc : c.kind <;> rw [hc] at hformat
  case bool => exact ⟨_, _, hformat, hv, rfl⟩
  case int | uint => exact ⟨_, _, 10, hformat, hd, rfl⟩
  case float => exact ⟨_, _, hformat, hg, rfl, rfl, rfl, rfl⟩
  case string =>
    intro f hf
    cases hformat.symm.trans hf
  all_goals simp [hc] at hkind

def written (c : Column) (a : Argument) : String :=
  sprintf (c.format.getD "%v") a

theorem typed_of_argument? (htype : c.type = .string) (ha : raw.argument? = some a)
    (options : OptionLists) : c.typed options raw = .ok (.string (c.written a)) := by
  cases raw <;> cases ha <;>
    simp [typed, htype, Raw.isNull, textValue, Raw.argument?, Except.map, written]

/-- A format of nothing but a verb without a width shows what is no number as the verb does. -/
theorem written_of_width (hpieces : pieces (c.format.getD "%v").toList = [.verb v])
    (hwidth : v.width = none) (ha : a.isNumeric = false) :
    c.written a = String.ofList (v.body a) := by
  rw [written, sprintf, render, hpieces, List.flatMap_singleton, Piece.render,
    Verb.render_of_width hwidth ha]

/-- What it shows through a format with a single verb is read as the verb reads it. -/
theorem scan_written (hformat : c.format = some f) (hverb : verbs f.toList = [v])
    (default : String) :
    c.scan default (c.written a) = v.read? (trim (v.render a)) := by
  rw [scan, written, sprintf, String.toList_ofList, hformat, Option.getD_some, Option.getD_some,
    ValueFormat.scan?_render hverb]

/-! ## What texts are read as -/

/-- Whole numbers are read as words with a sign. -/
theorem native_whole {base : Nat} {i : Int} (htype : c.type = .string)
    (hkind : c.kind = .int ∨ c.kind = .uint) (hformat : c.format = some f)
    (hverb : verbs f.toList = [v]) (hbase : v.base? = some base) (ha : a.whole? = some i) :
    c.native (.string (c.written a)) =
      if -2 ^ 63 ≤ i ∧ i < 2 ^ 63 then .ok (.int (Int64.ofInt i))
      else c.unreadable (c.written a) := by
  have hscan : c.scan "%d" (c.written a) =
      if -2 ^ 63 ≤ i ∧ i < 2 ^ 63 then some (.int (Int64.ofInt i)) else none := by
    rw [scan_written hformat hverb, Verb.read?_whole hbase ha]
  rcases hkind with hkind | hkind <;>
    simp only [native, htype, nativeOfText, hkind, hscan] <;> split_ifs <;> rfl

/-- Doubles are read back up to the sign of zero, but for what is no number. -/
theorem native_float {x : Float} (htype : c.type = .string) (hkind : c.kind = .float)
    (hformat : c.format = some f) (hverb : verbs f.toList = [v]) (hgeneral : v.IsGeneral) :
    ∃ y, c.native (.string (c.written (.float x))) = .ok (.float y) ∧
      ∀ z, (z == y) = (z == x) := by
  have hscan : c.scan "%g" (c.written (.float x)) =
      (Decimal.readFloat? (ValueFormat.general none x)).map .float := by
    rw [scan_written hformat hverb, Verb.read?_float hgeneral]
  have hread : ∃ y, Decimal.readFloat? (ValueFormat.general none x) = some y ∧
      ∀ z, (z == y) = (z == x) := by
    by_cases hx : x = Float.nan
    · subst hx
      exact ⟨Float.nan, by decide, fun _ => rfl⟩
    · exact Decimal.readFloat?_general hx
  obtain ⟨y, hy, hz⟩ := hread
  refine ⟨y, ?_, hz⟩
  rw [hy] at hscan
  simp only [native, htype, nativeOfText, hkind, hscan, Option.map_some]

theorem native_bool (htype : c.type = .string) (hkind : c.kind = .bool)
    (hformat : c.format = some f) (hpieces : pieces f.toList = [.verb v]) (hwidth : v.width = none)
    (b : Bool) : c.native (.string (c.written (.bool b))) = .ok (.bool b) := by
  have htext : c.written (.bool b) = if b then "true" else "false" := by
    rw [written_of_width (by rwa [hformat]) hwidth rfl, Verb.body_bool, String.ofList_toList]
  rw [htext]
  cases b <;> simp [native, htype, nativeOfText, hkind]

/-- Texts are read as they are where the column has no format, and without the blanks around them
where it has one. -/
theorem native_text (htype : c.type = .string) (hkind : c.kind = .string)
    (hplain : ∀ f, c.format = some f → ∃ v, verbs f.toList = [v] ∧ v.IsPlain) (s : String) :
    c.native (.string (c.written (.text s.toList))) =
      .ok (.text (if c.format = none then s else String.ofList (trim s.toList))) := by
  cases hformat : c.format with
  | none =>
    have hpieces : pieces (c.format.getD "%v").toList =
        [.verb ⟨false, false, false, none, none, 'v'⟩] := by
      rw [hformat]
      cbv
    have hv : Verb.IsPlain ⟨false, false, false, none, none, 'v'⟩ := ⟨by decide, rfl⟩
    rw [written_of_width hpieces rfl rfl, hv.body_text, String.ofList_toList]
    simp [native, htype, nativeOfText, hkind, hformat]
  | some f =>
    obtain ⟨v, hverb, hv⟩ := hplain f hformat
    have hscan : c.scan "" (c.written (.text s.toList)) = some (.text (trim s.toList)) := by
      rw [scan_written hformat hverb, Verb.read?_text hv]
    simp [native, htype, nativeOfText, hkind, hformat, hscan]

/-! ## Keys -/

/-- The text of a key is read as a value that this key is equal to, and no other one. -/
def Recovers (c : Column) (keys : List Raw) (raw : Raw) (text : String) : Prop :=
  ∃ found, c.native (.string text) = .ok found ∧
    ∀ key ∈ keys, key.compare? found = some .eq ↔ key = raw

/-- What it takes for a key to be recovered: a word without a sign fits one with a sign and has a
double of its own, a double is a number and has no equal, which another zero is, and a text that is
shown through a format has no blanks around it. -/
def Separates (c : Column) (keys : List Raw) (raw : Raw) : Prop :=
  match raw with
  | .uint u => u.toNat < 2 ^ 63 ∧ ∀ w, .uint w ∈ keys → (w.toFloat == u.toFloat) = true → w = u
  | .float x => x ≠ Float.nan ∧ ∀ y, .float y ∈ keys → (y == x) = true → y = x
  | .text s => c.format = none ∨ trim s.toList = s.toList
  | _ => True

theorem recovers_iff_of_native {found : Raw} (h : c.native (.string text) = .ok found) :
    c.Recovers keys raw text ↔ ∀ key ∈ keys, key.compare? found = some .eq ↔ key = raw := by
  constructor
  · rintro ⟨found', h', hkeys⟩
    obtain rfl := Except.ok.inj (h'.symm.trans h)
    exact hkeys
  · exact fun hkeys => ⟨found, h, hkeys⟩

section Kinds

variable (htype : c.type = .string) (hreversible : c.Reversible)
  (hkeys : ∀ key ∈ keys, key.kind? = some c.kind)

include htype hreversible hkeys

theorem recovers_bool (hkind : c.kind = .bool) (b : Bool) :
    c.Recovers keys (.bool b) (c.written (.bool b)) := by
  rw [Reversible, hkind] at hreversible
  rw [hkind] at hkeys
  obtain ⟨f, v, hformat, hpieces, hwidth⟩ := hreversible
  rw [recovers_iff_of_native (native_bool htype hkind hformat hpieces hwidth b)]
  intro key hkey
  cases key with
  | bool b' => simp [Raw.compare?]
  | _ => cases hkeys _ hkey

theorem recovers_int (hkind : c.kind = .int) (i : Int64) :
    c.Recovers keys (.int i) (c.written (.int i)) := by
  rw [Reversible, hkind] at hreversible
  rw [hkind] at hkeys
  obtain ⟨f, v, base, hformat, hverb, hbase⟩ := hreversible
  have hnative := native_whole (a := .int i) htype (.inl hkind) hformat hverb hbase rfl
  rw [if_pos ⟨i.minValue_le_toInt, i.toInt_lt⟩, Int64.ofInt_toInt] at hnative
  rw [recovers_iff_of_native hnative]
  intro key hkey
  cases key with
  | int i' => simp [Raw.compare?]
  | _ => cases hkeys _ hkey

/-- A word without a sign is recovered if it fits one with a sign and has a double of its own. -/
theorem recovers_uint_iff (hkind : c.kind = .uint) (u : UInt64) :
    c.Recovers keys (.uint u) (c.written (.uint u)) ↔ c.Separates keys (.uint u) := by
  rw [Reversible, hkind] at hreversible
  rw [hkind] at hkeys
  obtain ⟨f, v, base, hformat, hverb, hbase⟩ := hreversible
  have hnative := native_whole (a := .uint u) htype (.inr hkind) hformat hverb hbase rfl
  by_cases hu : u.toNat < 2 ^ 63
  · rw [if_pos (by omega)] at hnative
    have hself : (u.toFloat == u.toFloat) = true :=
      Float.beq_iff_ne_nan_and_eq.mpr
        ⟨Decimal.toFloat_ne_nan u, Decimal.toFloat_ne_nan u, .inl rfl⟩
    rw [recovers_iff_of_native hnative]
    constructor
    · intro h
      refine ⟨hu, fun w hw hfloat => Raw.uint.inj ((h _ hw).mp ?_)⟩
      exact (Raw.compare?_int_of_uint hu w).mpr hfloat
    · rintro ⟨-, h⟩ key hkey
      cases key with
      | uint w =>
        rw [Raw.compare?_int_of_uint hu, Raw.uint.injEq]
        exact ⟨h w hkey, fun hw => hw ▸ hself⟩
      | _ => cases hkeys _ hkey
  · rw [if_neg (by omega)] at hnative
    refine iff_of_false ?_ fun h => hu h.1
    rintro ⟨found, hfound, -⟩
    cases hnative.symm.trans hfound

/-- A double is recovered if it is a number and no other key is equal to it. -/
theorem recovers_float_iff (hkind : c.kind = .float) {x : Float} (hx : .float x ∈ keys) :
    c.Recovers keys (.float x) (c.written (.float x)) ↔ c.Separates keys (.float x) := by
  rw [Reversible, hkind] at hreversible
  rw [hkind] at hkeys
  obtain ⟨f, v, hformat, hverb, hgeneral⟩ := hreversible
  obtain ⟨y, hnative, hy⟩ := native_float (x := x) htype hkind hformat hverb hgeneral
  rw [recovers_iff_of_native hnative]
  have hcompare (z : Float) : (Raw.float z).compare? (.float y) = some .eq ↔ (z == x) = true := by
    rw [← hy z]
    exact compareFloats?_eq_iff
  have hself : (x == x) = true ↔ x ≠ Float.nan := by
    rw [Float.beq_iff_ne_nan_and_eq]
    tauto
  constructor
  · intro h
    refine ⟨hself.mp ((hcompare x).mp ((h _ hx).mpr rfl)), fun z hz heq => ?_⟩
    exact Raw.float.inj ((h _ hz).mp ((hcompare z).mpr heq))
  · rintro ⟨hnumber, h⟩ key hkey
    cases key with
    | float z =>
      rw [hcompare, Raw.float.injEq]
      exact ⟨h z hkey, fun hz => hz ▸ hself.mpr hnumber⟩
    | _ => cases hkeys _ hkey

/-- A text is recovered if no blanks around it get lost. -/
theorem recovers_text_iff (hkind : c.kind = .string) {s : String} (hs : .text s ∈ keys) :
    c.Recovers keys (.text s) (c.written (.text s.toList)) ↔ c.Separates keys (.text s) := by
  rw [Reversible, hkind] at hreversible
  rw [hkind] at hkeys
  rw [recovers_iff_of_native (native_text htype hkind hreversible s)]
  have hsame : c.Separates keys (.text s) ↔
      (if c.format = none then s else String.ofList (trim s.toList)) = s := by
    simp only [Separates]
    split_ifs with hformat
    · exact iff_of_true (.inl hformat) rfl
    · rw [or_iff_right hformat, ← String.toList_inj, String.toList_ofList]
  rw [hsame]
  generalize (if c.format = none then s else String.ofList (trim s.toList)) = t
  have hcompare (s' : String) : (Raw.text s').compare? (.text t) = some .eq ↔ s' = t := by
    simp [Raw.compare?]
  constructor
  · exact fun h => ((hcompare s).mp ((h _ hs).mpr rfl)).symm
  · rintro rfl key hkey
    cases key with
    | text s' => rw [hcompare, Raw.text.injEq]
    | _ => cases hkeys _ hkey

/-- A key that is shown through a reversible format is recovered if it is kept apart. -/
theorem recovers_iff {options : OptionLists} (hraw : raw ∈ keys)
    (htext : c.typed options raw = .ok (.string text)) :
    c.Recovers keys raw text ↔ c.Separates keys raw := by
  have hkind := (hkeys raw hraw).symm
  have hwritten {a : Argument} (ha : raw.argument? = some a) : text = c.written a := by
    rw [typed_of_argument? htype ha] at htext
    exact (Value.string.inj (Except.ok.inj htext)).symm
  cases raw with
  | null => cases hkeys _ hraw
  | bytes | time =>
    rw [Reversible, Option.some.inj hkind] at hreversible
    exact hreversible.elim
  | bool b =>
    rw [hwritten rfl]
    exact iff_of_true (recovers_bool htype hreversible hkeys (Option.some.inj hkind) b) trivial
  | int i =>
    rw [hwritten rfl]
    exact iff_of_true (recovers_int htype hreversible hkeys (Option.some.inj hkind) i) trivial
  | uint u =>
    rw [hwritten rfl]
    exact recovers_uint_iff htype hreversible hkeys (Option.some.inj hkind) u
  | float x =>
    rw [hwritten rfl]
    exact recovers_float_iff htype hreversible hkeys (Option.some.inj hkind) hraw
  | text s =>
    rw [hwritten rfl]
    exact recovers_text_iff htype hreversible hkeys (Option.some.inj hkind) hraw

end Kinds

end Column

end TableQuery
