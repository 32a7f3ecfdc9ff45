import TableQuery.Proofs.Lists
import TableQuery.Proofs.ValueFormat.Scan

/-!
# Formats of whole numbers

A format of whole numbers is a verb with any flags, width and precision that shows their decimal or
hexadecimal digits, between literal texts whose percent signs are doubled. From its text these parts
are read, and what it shows of a whole number is read back as this number.

## Main definitions

* `ValueFormat.WholeVerb`, `ValueFormat.WholeVerb.text` — written verbs of whole numbers.
* `ValueFormat.escaped` — a literal text with its percent signs doubled.
* `ValueFormat.WholeFormat`, `ValueFormat.WholeFormat.text` — formats of whole numbers.

## Main results

* `ValueFormat.WholeVerb.readVerb?_text` — the verb that is read from its text.
* `ValueFormat.WholeFormat.pieces_text` — the parts that are read from the text of a format.
* `ValueFormat.WholeFormat.scan?_render_text` — whole numbers are read back.
-/

namespace TableQuery.ValueFormat

/-! ## Verbs as they are written -/

inductive Flag where
  | minus
  | plus
  | zero
  deriving DecidableEq, Repr

def Flag.char : Flag → Char
  | minus => '-'
  | plus => '+'
  | zero => '0'

inductive Radix where
  | decimal
  | hexadecimal
  deriving DecidableEq, Repr

def Radix.letter : Radix → Char
  | decimal => 'd'
  | hexadecimal => 'x'

def written (ds : List (Fin 10)) : List Char :=
  ds.map fun d : Fin 10 => Nat.digitChar d

structure WholeVerb where
  flags : List Flag
  /-- The digits of the width, which there are none of without a width. -/
  width : List (Fin 10)
  /-- The digits of the precision, if there is one. -/
  precision : Option (List (Fin 10))
  radix : Radix
  deriving DecidableEq, Repr

namespace WholeVerb

def point (v : WholeVerb) : List Char :=
  v.precision.elim [] fun ds => '.' :: written ds

/-- The verb as it is written behind a percent sign. -/
def text (v : WholeVerb) : List Char :=
  v.flags.map Flag.char ++ (written v.width ++ (v.point ++ [v.radix.letter]))

/-- The characters that are read as flags, to which the zeros belong that a width begins with. -/
def signs (v : WholeVerb) : List Char :=
  v.flags.map Flag.char ++ (written v.width).takeWhile isFlag

def verb (v : WholeVerb) : Verb where
  minus := v.signs.contains '-'
  plus := v.signs.contains '+'
  zero := v.signs.contains '0'
  width := readSize? ((written v.width).dropWhile isFlag)
  precision := v.precision.map fun ds => (readSize? (written ds)).getD 0
  letter := v.radix.letter

theorem isFlag_of_mem_flags (v : WholeVerb) : ∀ c ∈ v.flags.map Flag.char, isFlag c = true := by
  intro c hc
  obtain ⟨flag, -, rfl⟩ := List.mem_map.mp hc
  cases flag <;> rfl

theorem isDigit_of_mem_written {ds : List (Fin 10)} : ∀ c ∈ written ds, c.isDigit = true := by
  have hall : ∀ d : Fin 10, (Nat.digitChar d).isDigit = true := by decide
  intro c hc
  obtain ⟨d, -, rfl⟩ := List.mem_map.mp hc
  exact hall d

theorem letter_stops (r : Radix) :
    isFlag r.letter = false ∧ r.letter.isDigit = false ∧ r.letter ≠ '.' ∧ r.letter ≠ '%' := by
  cases r <;> decide

/-- What follows the width is neither a flag nor a digit. -/
theorem exists_point (v : WholeVerb) (rest : List Char) :
    ∃ c s, v.point ++ v.radix.letter :: rest = c :: s ∧ isFlag c = false ∧ c.isDigit = false := by
  obtain ⟨hflag, hdigit, -, -⟩ := letter_stops v.radix
  unfold point
  cases v.precision with
  | none => exact ⟨_, _, rfl, hflag, hdigit⟩
  | some ds => exact ⟨_, _, rfl, by decide, by decide⟩

theorem readPrecision_point (v : WholeVerb) (rest : List Char) :
    readPrecision (v.point ++ v.radix.letter :: rest) =
      (v.verb.precision, v.radix.letter :: rest) := by
  obtain ⟨-, hdigit, hpoint, -⟩ := letter_stops v.radix
  unfold point verb
  cases v.precision with
  | none =>
    unfold readPrecision
    split
    · next heq => exact absurd (List.cons.inj heq).1 hpoint
    · rfl
  | some ds =>
    have htake : (written ds ++ v.radix.letter :: rest).takeWhile Char.isDigit = written ds := by
      rw [takeWhile_append_stop hdigit]
      exact List.takeWhile_eq_self_iff.mpr isDigit_of_mem_written
    have hdrop : (written ds ++ v.radix.letter :: rest).dropWhile Char.isDigit =
        v.radix.letter :: rest := by
      rw [dropWhile_append_stop hdigit, List.dropWhile_eq_nil_iff.mpr isDigit_of_mem_written]
      rfl
    simp [readPrecision, htake, hdrop]

/-- The verb that is read from its text, whatever follows. -/
theorem readVerb?_text (v : WholeVerb) (rest : List Char) :
    readVerb? (v.text ++ rest) = some (v.verb, rest) := by
  obtain ⟨c, s, htail, hflag, hdigit⟩ := v.exists_point rest
  have htext : v.text ++ rest = v.flags.map Flag.char ++ (written v.width ++ c :: s) := by
    rw [← htail]
    simp [text]
  have hsigns : (v.text ++ rest).takeWhile isFlag = v.signs := by
    rw [htext, List.takeWhile_append_of_pos v.isFlag_of_mem_flags, takeWhile_append_stop hflag,
      signs]
  have hbehind : (v.text ++ rest).dropWhile isFlag =
      (written v.width).dropWhile isFlag ++ c :: s := by
    rw [htext, List.dropWhile_append_of_pos v.isFlag_of_mem_flags, dropWhile_append_stop hflag]
  have hdigits : ∀ d ∈ (written v.width).dropWhile isFlag, d.isDigit = true := fun d hd =>
    isDigit_of_mem_written d ((List.dropWhile_sublist isFlag).subset hd)
  have hwidth : ((written v.width).dropWhile isFlag ++ c :: s).takeWhile Char.isDigit =
      (written v.width).dropWhile isFlag := by
    rw [takeWhile_append_stop hdigit]
    exact List.takeWhile_eq_self_iff.mpr hdigits
  have hpoint : ((written v.width).dropWhile isFlag ++ c :: s).dropWhile Char.isDigit =
      v.point ++ v.radix.letter :: rest := by
    rw [dropWhile_append_stop hdigit, List.dropWhile_eq_nil_iff.mpr hdigits, htail]
    rfl
  simp only [readVerb?, hsigns, hbehind, hwidth, hpoint, readPrecision_point]
  rfl

theorem base?_verb (v : WholeVerb) :
    v.verb.base? = some (match v.radix with | .decimal => 10 | .hexadecimal => 16) := by
  unfold verb
  cases v.radix <;> rfl

/-- A verb is not taken for a second percent sign. -/
theorem head_text_ne (v : WholeVerb) (rest s : List Char) : v.text ++ rest ≠ '%' :: s := by
  intro heq
  have hflags : '%' ∉ v.flags.map Flag.char := fun hmem => by
    simpa [isFlag] using v.isFlag_of_mem_flags '%' hmem
  have hwritten (ds : List (Fin 10)) : '%' ∉ written ds := fun hmem => by
    simpa using isDigit_of_mem_written '%' hmem
  have hpoint : '%' ∉ v.point := by
    unfold point
    cases v.precision with
    | none => simp
    | some ds => simp [hwritten ds]
  have hletter : v.radix.letter ≠ '%' := (letter_stops v.radix).2.2.2
  have hmem : '%' ∈ v.text := by
    cases htext : v.text with
    | nil => simp [text] at htext
    | cons c t =>
      rw [htext, List.cons_append, List.cons.injEq] at heq
      rw [heq.1]
      exact List.mem_cons_self
  simp only [text, List.mem_append, List.mem_singleton] at hmem
  rcases hmem with hmem | hmem | hmem | hmem
  · exact hflags hmem
  · exact hwritten _ hmem
  · exact hpoint hmem
  · exact hletter hmem.symm

end WholeVerb

/-! ## Formats as they are written -/

/-- A literal text with its percent signs doubled. -/
def escaped (s : List Char) : List Char :=
  s.flatMap fun c => if c = '%' then ['%', '%'] else [c]

theorem piecesAfter_escaped (reversed s rest : List Char) :
    piecesAfter reversed (escaped s ++ rest) = piecesAfter (s.reverse ++ reversed) rest := by
  induction s generalizing reversed with
  | nil => rfl
  | cons c s ih =>
    by_cases hc : c = '%'
    · subst hc
      have hcons : escaped ('%' :: s) ++ rest = '%' :: '%' :: (escaped s ++ rest) := rfl
      rw [hcons, piecesAfter, ih]
      simp
    · have hcons : escaped (c :: s) ++ rest = c :: (escaped s ++ rest) := by
        simp [escaped, hc]
      rw [hcons, piecesAfter, ih]
      · simp
      · exact fun _ hpercent _ => hc hpercent
      · exact hc

theorem piecesAfter_verb (v : WholeVerb) (reversed rest : List Char) :
    piecesAfter reversed ('%' :: (v.text ++ rest)) =
      literalPiece reversed ++ .verb v.verb :: piecesAfter [] rest := by
  rw [piecesAfter]
  · split
    · next w rest' heq =>
      rw [v.readVerb?_text rest] at heq
      cases heq
      rfl
    · next heq =>
      rw [v.readVerb?_text rest] at heq
      cases heq
  · exact v.head_text_ne rest

structure WholeFormat where
  before : List Char
  verb : WholeVerb
  after : List Char
  deriving DecidableEq, Repr

namespace WholeFormat

def text (f : WholeFormat) : List Char :=
  escaped f.before ++ '%' :: (f.verb.text ++ escaped f.after)

/-- The parts that are read from the text of a format. -/
theorem pieces_text (f : WholeFormat) :
    pieces f.text =
      literalPiece f.before.reverse ++ .verb f.verb.verb :: literalPiece f.after.reverse := by
  have hafter : piecesAfter [] (escaped f.after) = literalPiece f.after.reverse := by
    have h := piecesAfter_escaped [] f.after []
    rwa [List.append_nil, List.append_nil, piecesAfter] at h
  rw [pieces, text, piecesAfter_escaped, piecesAfter_verb, hafter, List.append_nil]

theorem filterMap_literalPiece (reversed : List Char) :
    (literalPiece reversed).filterMap Piece.verb? = [] := by
  cases reversed <;> rfl

theorem verbs_text (f : WholeFormat) : verbs f.text = [f.verb.verb] := by
  simp [verbs, pieces_text, filterMap_literalPiece, Piece.verb?]

/-- Whatever the literal texts, flags, width and precision are, a format of whole numbers reads back
every signed word from what it shows, and every unsigned word that is a signed one. -/
theorem scan?_render_text (f : WholeFormat) :
    (∀ i : Int64, scan? f.text (render f.text (.int i)) = some (.int i)) ∧
    ∀ u : UInt64, scan? f.text (render f.text (.uint u)) =
      if u.toNat < 2 ^ 63 then some (.int (Int64.ofNat u.toNat)) else none := by
  have hscan (a : Argument) (n : Int) (ha : a.whole? = some n) :
      scan? f.text (render f.text a) =
        if -2 ^ 63 ≤ n ∧ n < 2 ^ 63 then some (.int (Int64.ofInt n)) else none := by
    rw [scan?_render f.verbs_text]
    exact Verb.read?_whole f.verb.base?_verb ha
  constructor
  · intro i
    rw [hscan _ i.toInt rfl, if_pos ⟨i.le_toInt, i.toInt_lt⟩, Int64.ofInt_toInt]
  · intro u
    rw [hscan _ u.toNat rfl]
    have hbounds : (-2 ^ 63 ≤ (u.toNat : Int) ∧ (u.toNat : Int) < 2 ^ 63) ↔ u.toNat < 2 ^ 63 := by
      omega
    simp only [hbounds]
    rfl

/-- A percent sign in a literal text is no verb, and the zero before the width is a flag. -/
example : (⟨['5', '%', ' '], ⟨[.plus], [0, 8], none, .hexadecimal⟩, ['%']⟩ : WholeFormat).text =
    "5%% %+08x%%".toList := by
  decide

end WholeFormat

end TableQuery.ValueFormat
