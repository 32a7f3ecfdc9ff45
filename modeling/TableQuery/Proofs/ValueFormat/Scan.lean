import TableQuery.Proofs.Decimal.Reader
import TableQuery.Proofs.Text.Affix
import TableQuery.ValueFormat.Scan

/-!
# Formats read back what they show

Between the literal texts of a format with a single verb stands what the verb shows. A verb for
whole numbers fills them with blanks or with zeros behind the sign, and both are passed over where
the number is read.

## Main definitions

* `ValueFormat.verbs` — the verbs of a format.
* `ValueFormat.Argument.whole?` — a value as a whole number.
* `ValueFormat.Verb.base?` — the base in which a verb shows and reads whole numbers.
* `ValueFormat.Verb.IsGeneral` — a verb that shows doubles with all their digits.
* `ValueFormat.Verb.IsPlain` — a verb that shows and reads texts as they are.

## Main results

* `ValueFormat.scan?_render` — a format with a single verb reads what the verb reads.
* `ValueFormat.Verb.read?_whole` — whole numbers are read back if they fit a signed word.
* `ValueFormat.Verb.read?_float` — so are doubles in general notation.
* `ValueFormat.Verb.read?_text` — texts are read back without the blanks around them.
-/

namespace TableQuery.ValueFormat

open TableQuery.Text (digits isBlank signed trim Written)

/-! ## Literal texts -/

def Piece.verb? : Piece → Option Verb
  | .literal _ => none
  | .verb v => some v

def verbs (format : List Char) : List Verb :=
  (pieces format).filterMap Piece.verb?

theorem flatMap_render_of_literal {ps : List Piece} (h : ps.filterMap Piece.verb? = [])
    (a : Argument) : ps.flatMap (Piece.render a) = literals ps := by
  induction ps with
  | nil => rfl
  | cons p ps ih =>
    cases p with
    | literal text =>
      rw [List.flatMap_cons, ih h]
      rfl
    | verb v => simp [Piece.verb?] at h

/-- The only verb stands between literal texts. -/
theorem exists_firstVerb? {ps : List Piece} {v : Verb} (h : ps.filterMap Piece.verb? = [v]) :
    ∃ before after, firstVerb? ps = some (before, v, after) ∧
      ∀ a, ps.flatMap (Piece.render a) = before ++ (v.render a ++ after) := by
  induction ps with
  | nil => cases h
  | cons p ps ih =>
    cases p with
    | literal text =>
      obtain ⟨before, after, hfirst, hrender⟩ := ih h
      refine ⟨text ++ before, after, by simp [firstVerb?, hfirst], fun a => ?_⟩
      rw [List.flatMap_cons, hrender, List.append_assoc]
      rfl
    | verb w =>
      simp only [Piece.verb?, List.filterMap_cons, List.cons.injEq] at h
      obtain ⟨rfl, hrest⟩ := h
      refine ⟨[], literals ps, rfl, fun a => ?_⟩
      rw [List.flatMap_cons, flatMap_render_of_literal hrest]
      rfl

/-- What a format with a single verb shows is read as the verb reads it. -/
theorem scan?_render {format : List Char} {v : Verb} (h : verbs format = [v]) (a : Argument) :
    scan? format (render format a) = v.read? (trim (v.render a)) := by
  obtain ⟨before, after, hfirst, hrender⟩ := exists_firstVerb? h
  simp [scan?, hfirst, render, hrender, Text.stripStart?_append, Text.stripEnd?_append]

/-! ## Whole numbers -/

def Argument.whole? : Argument → Option Int
  | .int i => some i.toInt
  | .uint u => some u.toNat
  | _ => none

namespace Verb

variable {v : Verb} {a : Argument} {base : Nat} {i : Int}

def base? (v : Verb) : Option Nat :=
  match v.letter with
  | 'd' => some 10
  | 'x' => some 16
  | _ => none

theorem base_bounds (h : v.base? = some base) : 1 < base ∧ base ≤ 16 := by
  unfold base? at h
  split at h <;> cases h <;> decide

theorem body_whole (hb : v.base? = some base) (ha : a.whole? = some i) :
    v.body a = if i < 0 then '-' :: digits base i.natAbs else digits base i.natAbs := by
  have hu (u : UInt64) : ¬ (u.toNat : Int) < 0 := by omega
  unfold base? at hb
  unfold body
  split at hb
  · next hletter =>
    cases hb
    cases a <;> cases ha <;> simp [hletter, Argument.display, signed, hu]
  · next hletter =>
    cases hb
    cases a <;> cases ha <;> simp [hletter, Int64.lt_iff_toInt_lt, hu]
  · cases hb

/-- Filling a number puts blanks around it or zeros behind its sign. -/
theorem exists_fill {s : List Char} (hbase : 1 < base) (hle : base ≤ 16) (h : Written base i s) :
    ∃ before behind t, v.fill true s =
      List.replicate before ' ' ++ t ++ List.replicate behind ' ' ∧ Written base i t := by
  unfold fill
  generalize v.width.getD 0 - s.length = missing
  split_ifs
  · exact ⟨0, missing, s, rfl, h⟩
  · refine ⟨0, 0, _, by rw [List.replicate_zero, List.nil_append, List.append_nil], ?_⟩
    cases h with
    | minus zeros hi =>
      simpa [← List.append_assoc] using Written.minus (missing + zeros) hi
    | plus zeros hi =>
      simpa [← List.append_assoc] using Written.plus (missing + zeros) hi
    | plain zeros hi =>
      have hplain (c : Char) (hc : c ∈ List.replicate zeros '0' ++ digits base i.natAbs) :=
        Text.plain_of_mem_filled hbase hle hc
      split
      · next heq => exact absurd rfl (hplain _ (heq ▸ List.mem_cons_self)).2.1
      · next heq => exact absurd rfl (hplain _ (heq ▸ List.mem_cons_self)).2.2
      · simpa [← List.append_assoc] using Written.plain (missing + zeros) hi
  · exact ⟨missing, 0, s, by simp, h⟩

theorem exists_render (hb : v.base? = some base) (ha : a.whole? = some i) :
    ∃ before behind t, v.render a =
      List.replicate before ' ' ++ t ++ List.replicate behind ' ' ∧ Written base i t := by
  obtain ⟨hbase, hle⟩ := base_bounds hb
  have hnumeric : a.isNumeric = true := by cases a <;> cases ha <;> rfl
  unfold render
  rw [body_whole hb ha, hnumeric]
  refine exists_fill hbase hle ?_
  by_cases hi : i < 0
  · rw [if_pos hi]
    exact .minus 0 hi
  · have hdigits (c : Char) (hc : c ∈ digits base i.natAbs) :=
      Text.plain_of_mem_digits hbase hle hc
    rw [if_neg hi]
    split
    · next heq => exact absurd rfl (hdigits _ (heq ▸ List.mem_cons_self)).2.1
    · split_ifs
      · exact .plus 0 (by omega)
      · exact .plain 0 (by omega)

/-- A whole number is read back exactly if it fits a signed word. -/
theorem read?_whole (hb : v.base? = some base) (ha : a.whole? = some i) :
    v.read? (trim (v.render a)) =
      if -2 ^ 63 ≤ i ∧ i < 2 ^ 63 then some (.int (Int64.ofInt i)) else none := by
  obtain ⟨hbase, hle⟩ := base_bounds hb
  obtain ⟨before, behind, t, hrender, ht⟩ := exists_render hb ha
  rw [hrender, Text.trim_padded (ht.not_isBlank hbase hle)]
  have hread : v.read? t = (Text.readInt64? base t).map .int := by
    unfold base? at hb
    unfold read?
    split at hb
    · next hletter =>
      cases hb
      simp only [hletter]
      rw [Text.readInt64?_written hbase hle (ht.dropWhile_plus hbase hle),
        Text.readInt64?_written hbase hle ht]
    · next hletter =>
      cases hb
      simp only [hletter]
    · cases hb
  rw [hread, Text.readInt64?_written hbase hle ht]
  split_ifs <;> rfl

/-! ## Doubles and truth values -/

/-- The verb shows doubles in the general notation with all their digits, at most between
blanks. -/
structure IsGeneral (v : Verb) : Prop where
  letter_eq : v.letter = 'g'
  precision_eq : v.precision = none
  plus_eq : v.plus = false
  zero_eq : v.zero = false

/-- Without zeros there are only blanks around what is shown. -/
theorem exists_fill_of_not_zero (h : v.zero = false) (numeric : Bool) (s : List Char) :
    ∃ before behind,
      v.fill numeric s = List.replicate before ' ' ++ s ++ List.replicate behind ' ' := by
  unfold fill
  dsimp only
  split
  · exact ⟨0, _, rfl⟩
  · rw [h, Bool.false_and, if_neg Bool.false_ne_true]
    exact ⟨v.width.getD 0 - s.length, 0, by simp⟩

/-- A double is read as its general notation is. -/
theorem read?_float (h : v.IsGeneral) (x : Float) :
    v.read? (trim (v.render (.float x))) = (Decimal.readFloat? (general none x)).map .float := by
  obtain ⟨hletter, hprecision, hplus, hzero⟩ := h
  have hbody : v.body (.float x) = general none x := by
    simp [body, hletter, hprecision, floatBody, Argument.toFloat?]
  have hrender : v.render (.float x) = v.fill true (general none x) := by
    unfold render
    rw [hbody, hplus]
    simp only [Argument.isNumeric, Bool.false_and, Bool.false_eq_true, if_false]
    split <;> rfl
  obtain ⟨before, behind, hfill⟩ := exists_fill_of_not_zero hzero true (general none x)
  rw [hrender, hfill, Text.trim_padded (Decimal.not_isBlank_general x)]
  simp [read?, hletter]

/-- What is no number and has no width to be filled up to is shown as it is. -/
theorem render_of_width (hwidth : v.width = none) (ha : a.isNumeric = false) :
    v.render a = v.body a := by
  unfold render
  rw [ha]
  simp only [fill, hwidth, Option.getD_none, Nat.zero_sub, List.replicate_zero, List.append_nil,
    List.nil_append, Bool.and_false, Bool.false_eq_true, if_false, ite_self]
  split <;> rfl

theorem body_bool (v : Verb) (b : Bool) :
    v.body (.bool b) = (if b then "true" else "false").toList := by
  unfold body
  split <;> simp_all [floatBody, Argument.toFloat?, Argument.display]

/-! ## Texts -/

/-- The verb shows texts as they are, but for blanks around them, and reads them as they are. -/
structure IsPlain (v : Verb) : Prop where
  letter_notMem : v.letter ∉ ['d', 'x', 'f', 'F', 'e', 'g']
  precision_eq : v.precision = none

theorem IsPlain.body_text (h : v.IsPlain) (s : List Char) : v.body (.text s) = s := by
  obtain ⟨hletter, hprecision⟩ := h
  simp only [List.mem_cons, List.not_mem_nil, or_false, not_or] at hletter
  obtain ⟨hd, hx, hf, hF, he, hg⟩ := hletter
  unfold body
  split <;> simp_all [Argument.display]

/-- A text is read back without the blanks around it. -/
theorem read?_text (h : v.IsPlain) (s : List Char) :
    v.read? (trim (v.render (.text s))) = some (.text (trim s)) := by
  have hread (t : List Char) : v.read? t = some (.text t) := by
    obtain ⟨hletter, -⟩ := h
    simp only [List.mem_cons, List.not_mem_nil, or_false, not_or] at hletter
    obtain ⟨hd, hx, hf, hF, he, hg⟩ := hletter
    unfold read?
    split <;> simp_all
  have htrim : trim (v.fill false s) = trim s := by
    unfold fill
    split_ifs
    · exact Text.trim_append_replicate _ _
    · next h => simp at h
    · exact Text.trim_replicate_append _ _
  have hrender : v.render (.text s) = v.fill false s := by
    unfold render
    rw [h.body_text]
    simp only [Argument.isNumeric, Bool.and_false, Bool.false_eq_true, if_false]
    split <;> rfl
  rw [hread, hrender, htrim]

end Verb

end TableQuery.ValueFormat
