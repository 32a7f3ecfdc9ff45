import TableQuery.Proofs.Driver.Memory
import TableQuery.Proofs.Sample
import TableQuery.Proofs.Sql.Agreement
import TableQuery.Proofs.Value.Order

/-!
# Signed and unsigned words

A signed word meets an unsigned one as doubles. These are in the order of the nearest numbers of 53
bits, and so the words are in the order of numbers unless they are different numbers with the same
nearest one. Such words count as equal, for sorting and in every condition.

## Main definitions

* `Raw.wordOrder?` — the order of words as whole numbers.
* `Raw.MixedUp` — words that are different numbers, but have the same nearest one.
* `Memory.MatchesNumbers` — conditions find the rows with the right numbers.

## Main results

* `Raw.compare?_eq_wordOrder?_iff` — words are in the order of numbers unless they are mixed up.
* `Column.word?_of_native` — conditions on columns of whole numbers are on words.
* `Memory.numbers_matched_iff` — conditions find the rows with the right numbers exactly if no value
  is mixed up with one of the condition.
-/

namespace TableQuery

open Decimal (nearestInt)
open Sql (Comparison Sign)

namespace Raw

def wordOrder? (a b : Raw) : Option Ordering :=
  a.word?.bind fun i => b.word?.map fun j => compare i j

/-- A signed and an unsigned word that are different numbers and have the same nearest number of 53
bits. -/
def MixedUp (a b : Raw) : Prop :=
  a.kind? ≠ b.kind? ∧ ∃ i j, a.word? = some i ∧ b.word? = some j ∧ i ≠ j ∧
    nearestInt i = nearestInt j

/-- A word, or null. -/
def IsWord (a : Raw) : Prop :=
  a.isNull = true ∨ a.word?.isSome = true

section MixedUp

variable {a b : Raw} {i j : ℤ}

theorem mixedUp_iff (ha : a.word? = some i) (hb : b.word? = some j) :
    a.MixedUp b ↔ a.kind? ≠ b.kind? ∧ i ≠ j ∧ nearestInt i = nearestInt j := by
  simp [MixedUp, ha, hb]

theorem mixedUp_comm : a.MixedUp b ↔ b.MixedUp a := by
  unfold MixedUp
  constructor <;> rintro ⟨hkind, i, j, hi, hj, hne, h⟩ <;>
    exact ⟨hkind.symm, j, i, hj, hi, hne.symm, h.symm⟩

/-- Words are in the order of numbers unless they are mixed up. -/
theorem compare?_eq_wordOrder?_iff (ha : a.IsWord) (hb : b.word?.isSome = true) :
    a.compare? b = a.wordOrder? b ↔ ¬ a.MixedUp b := by
  obtain ⟨j, hj⟩ := Option.isSome_iff_exists.mp hb
  rcases ha with hnull | hword
  · cases a with
    | null => cases b <;> first | exact iff_of_true rfl (by simp [MixedUp, word?]) | cases hj
    | _ => cases hnull
  · obtain ⟨i, hi⟩ := Option.isSome_iff_exists.mp hword
    rw [compare?_word hi hj, wordOrder?, hi, hj, Option.bind_some, Option.map_some,
      Option.some.injEq, mixedUp_iff hi hj]
    split
    · next hkind => simp [hkind]
    · next hkind =>
      rw [Decimal.compare_nearestInt_eq_iff]
      tauto

/-- Words that are mixed up count as equal, which they are not. -/
theorem MixedUp.compare?_eq (h : a.MixedUp b) :
    a.compare? b = some .eq ∧ a.wordOrder? b ≠ some .eq := by
  obtain ⟨hkind, i, j, hi, hj, hne, h⟩ := h
  rw [compare?_word hi hj, if_neg hkind, h, wordOrder?, hi, hj]
  exact ⟨congrArg some (compare_eq_iff_eq.mpr rfl), by simpa using hne⟩

/-- A number of at most 53 bits is never mixed up. -/
theorem not_mixedUp_of_lt (ha : a.word? = some i) (hlt : i.natAbs < 2 ^ 53) : ¬ a.MixedUp b := by
  rintro ⟨-, i', j, hi, -, hne, h⟩
  obtain rfl := Option.some.inj (ha.symm.trans hi)
  exact hne (Decimal.eq_of_nearestInt_eq hlt h)

end MixedUp

end Raw

/-- What a condition on a column of whole numbers is asked with are words, if the column is shown as
text, as whole numbers or as entries of an option list. -/
theorem Column.word?_of_native {c : Column} {v : Value} {raw : Raw}
    (hkind : c.kind = .int ∨ c.kind = .uint)
    (htype : c.type = .string ∨ c.type = .int ∨ c.type = .choice) (h : c.native v = .ok raw) :
    raw.word?.isSome = true := by
  have htext {text : String} (h : c.nativeOfText text = .ok raw) : raw.word?.isSome = true := by
    rcases hkind with hkind | hkind <;> simp only [nativeOfText, hkind] at h <;> split at h <;>
      first
      | obtain rfl := Except.ok.inj h
        rfl
      | cases h
  rcases htype with htype | htype | htype <;> cases v <;>
    simp only [native, htype, reduceCtorEq] at h
  · exact htext h
  · exact htext h
  · split at h <;> obtain rfl := Except.ok.inj h <;> rfl
  · obtain rfl := Except.ok.inj h
    rfl
  · obtain rfl := Except.ok.inj h
    rfl

namespace Memory

variable {m : Memory} {now : Moment} {t : Table} {name : String} {c : Column}
  {rows : List StoredRow} {args : List Raw}

/-- The rows that a single condition holds on are those whose value it holds on. -/
theorem matching_single {operator : String} {holds : Raw → Bool} (hc : t.column? name = some c)
    (h : ∀ value, m.evaluate now c operator value args = .ok (holds value)) :
    m.matching now t [⟨name, operator, args⟩] rows =
      .ok (rows.filter fun row => holds (row.value c)) := by
  have hholds (row : StoredRow) :
      m.holds now t row [⟨name, operator, args⟩] = .ok (holds (row.value c)) := by
    have hvalue := h (row.value c)
    simp only [Memory.holds, Table.column_eq_ok_iff.mpr hc, Except.ok_bind]
    rw [← StoredRow.value, hvalue]
    cases holds (row.value c) <;> rfl
  refine matching_eq_ok_iff.mpr ⟨fun row _ => ⟨_, hholds row⟩, ?_⟩
  exact List.filter_congr fun row _ => (keeps_of_holds (hholds row)).symm

theorem matching_order (hc : t.column? name = some c) (sign : Sign) (arg : Raw) :
    m.matching now t [⟨name, (Comparison.order sign).operator, [arg]⟩] rows =
      .ok (rows.filter fun row => sign.accepts ((row.value c).compare? arg)) := by
  obtain ⟨f, hf, hholds⟩ := (Comparison.order sign).memory_comparison?
  have heval (value : Raw) : m.evaluate now c (Comparison.order sign).operator value [arg] =
      .ok (sign.accepts (value.compare? arg)) := by
    simp only [evaluate, hf]
    exact congrArg Except.ok (hholds value arg)
  exact matching_single hc heval

theorem matching_isIn (hc : t.column? name = some c) (args : List Raw) :
    m.matching now t [⟨name, Builtin.isIn, args⟩] rows =
      .ok (rows.filter fun row => args.any fun arg => (row.value c).compare? arg == some .eq) :=
  matching_single hc fun value => evaluate_isIn m now c value args

/-- Every condition on a column finds the rows with the right number: comparisons with one of the
arguments, and asking for some of them. Null has no order with numbers. -/
structure MatchesNumbers (m : Memory) (now : Moment) (t : Table) (name : String) (c : Column)
    (rows : List StoredRow) (args : List Raw) : Prop where
  order (sign : Sign) (arg : Raw) (harg : arg ∈ args) :
    m.matching now t [⟨name, (Comparison.order sign).operator, [arg]⟩] rows =
      .ok (rows.filter fun row => sign.accepts ((row.value c).wordOrder? arg))
  isIn (among : List Raw) (hsubset : among ⊆ args) :
    m.matching now t [⟨name, Builtin.isIn, among⟩] rows =
      .ok (rows.filter fun row => among.any fun arg => (row.value c).wordOrder? arg == some .eq)

/-- A signed and an unsigned word are in the order of numbers, whichever comes first, unless they
are mixed up, which takes numbers of more than 53 bits. Conditions on a column of words find the
rows with the right numbers exactly if no value is mixed up with an argument. -/
theorem numbers_matched_iff (hc : t.column? name = some c)
    (hrows : ∀ row ∈ rows, (row.value c).IsWord) (hargs : ∀ arg ∈ args, arg.word?.isSome = true) :
    (∀ (x : Int64) (y : UInt64),
      ((Raw.int x).compare? (.uint y) = some (compare x.toInt y.toNat) ↔
        ¬ (Raw.int x).MixedUp (.uint y)) ∧
      ((Raw.uint y).compare? (.int x) = some (compare (y.toNat : ℤ) x.toInt) ↔
        ¬ (Raw.int x).MixedUp (.uint y)) ∧
      (x.toInt.natAbs < 2 ^ 53 ∨ y.toNat < 2 ^ 53 → ¬ (Raw.int x).MixedUp (.uint y))) ∧
    (m.MatchesNumbers now t name c rows args ↔
      ∀ row ∈ rows, ∀ arg ∈ args, ¬ (row.value c).MixedUp arg) := by
  refine ⟨fun x y => ⟨?_, ?_, ?_⟩, fun h row hrow arg harg hmixed => ?_, fun h => ⟨?_, ?_⟩⟩
  · exact Raw.compare?_eq_wordOrder?_iff (.inr rfl) rfl
  · rw [Raw.mixedUp_comm]
    exact Raw.compare?_eq_wordOrder?_iff (.inr rfl) rfl
  · rintro (hx | hy)
    · exact Raw.not_mixedUp_of_lt rfl hx
    · rw [Raw.mixedUp_comm]
      exact Raw.not_mixedUp_of_lt (i := y.toNat) rfl hy
  · have hfound := h.order .eq arg harg
    rw [matching_order hc] at hfound
    have hrow' : row ∈ rows.filter fun row => Sign.eq.accepts ((row.value c).compare? arg) :=
      List.mem_filter.mpr ⟨hrow, beq_iff_eq.mpr hmixed.compare?_eq.1⟩
    rw [Except.ok.inj hfound] at hrow'
    exact hmixed.compare?_eq.2 (beq_iff_eq.mp (List.mem_filter.mp hrow').2)
  · intro sign arg harg
    rw [matching_order hc]
    refine congrArg Except.ok (List.filter_congr fun row hrow => ?_)
    rw [(Raw.compare?_eq_wordOrder?_iff (hrows row hrow) (hargs arg harg)).mpr
      (h row hrow arg harg)]
  · intro among hsubset
    rw [matching_isIn hc]
    refine congrArg Except.ok (List.filter_congr fun row hrow => ?_)
    rw [Bool.eq_iff_iff, List.any_eq_true, List.any_eq_true]
    refine exists_congr fun arg => and_congr_right fun harg => ?_
    rw [(Raw.compare?_eq_wordOrder?_iff (hrows row hrow) (hargs arg (hsubset harg))).mpr
      (h row hrow arg (hsubset harg))]

end Memory

/-! ## The numbers of large coins -/

namespace Vault

open Sample (clock)

def number : Column :=
  { (default : Column) with
    id := "No", name := "No", kind := .uint, type := .string, format := some "%d"
    storageName := "No" }

def coins : Table :=
  ⟨"Coin", "Coin", "",
    [{ (default : Column) with
        id := "Id", name := "Id", kind := .string, type := .string, isKey := true
        storageName := "Id" }, number], "Id", [], none, none⟩

def coin (id : String) (no : UInt64) : StoredRow :=
  .keyed [("Id", .text id), ("No", .uint no)]

/-- Coins whose numbers are `2 ^ 53` and the next one. -/
def neighbours : List StoredRow :=
  [coin "a" 9007199254740992, coin "b" 9007199254740993]

def apart : List StoredRow :=
  [coin "c" 7, coin "d" 9007199254740994]

/-- The number `2 ^ 53 + 1` as it is read in a text. -/
def asked : Raw := .int 9007199254740993

theorem native_asked : number.native (.string "9007199254740993") = .ok asked := by
  have hverb : ValueFormat.verbs "%d".toList = [⟨false, false, false, none, none, 'd'⟩] := by cbv
  have hnative := Column.native_whole (a := .uint 9007199254740993) (c := number) rfl (.inr rfl)
    rfl hverb rfl rfl
  have hwritten : number.written (.uint 9007199254740993) = "9007199254740993" := by
    decide +kernel
  rwa [if_pos (by decide), hwritten] at hnative

/-- The number asked for is told apart from a small one and from the next even one. -/
theorem apart_matched : coins.column? "No" = some number ∧
    (∀ row ∈ apart, (row.value number).IsWord) ∧ (∀ arg ∈ [asked], arg.word?.isSome = true) ∧
    (default : Memory).MatchesNumbers clock coins "No" number apart [asked] := by
  have hrows : ∀ row ∈ apart, (row.value number).IsWord := by
    simp only [apart, List.forall_mem_cons]
    exact ⟨.inr rfl, .inr rfl, List.forall_mem_nil _⟩
  have hargs : ∀ arg ∈ [asked], arg.word?.isSome = true := by
    simp [asked, Raw.word?]
  refine ⟨rfl, hrows, hargs, (Memory.numbers_matched_iff rfl hrows hargs).2.mpr ?_⟩
  intro row hrow arg harg hmixed
  obtain rfl := List.mem_singleton.mp harg
  simp only [apart, List.mem_cons, List.not_mem_nil, or_false] at hrow
  rcases hrow with rfl | rfl
  · exact Raw.not_mixedUp_of_lt (a := .uint 7) (i := 7) rfl (by decide) hmixed
  · obtain ⟨-, -, h⟩ := (Raw.mixedUp_iff (a := .uint 9007199254740994) (b := asked)
      (i := 9007199254740994) (j := 9007199254740993) rfl rfl).mp hmixed
    exact absurd h (by decide +kernel)

/-- The number `2 ^ 53` counts as equal to the next one, which finds both and none below it. -/
theorem neighbours_mixedUp :
    number.native (.string "9007199254740993") = .ok asked ∧
    (Raw.uint 9007199254740992).compare? asked = some .eq ∧
    (default : Memory).matching clock coins [⟨"No", Builtin.eq, [asked]⟩] neighbours =
      .ok neighbours ∧
    (default : Memory).matching clock coins [⟨"No", Builtin.lt, [asked]⟩] neighbours = .ok [] := by
  have hfirst : (Raw.uint 9007199254740992).compare? asked = some .eq := by
    refine (Raw.compare?_word (i := 9007199254740992) (j := 9007199254740993) rfl rfl).trans ?_
    rw [if_neg (by decide)]
    decide +kernel
  have hsecond : (Raw.uint 9007199254740993).compare? asked = some .eq := by
    refine (Raw.compare?_word (i := 9007199254740993) (j := 9007199254740993) rfl rfl).trans ?_
    rw [if_neg (by decide)]
    decide +kernel
  have hequal : ∀ row ∈ neighbours, (row.value number).compare? asked = some .eq := by
    simp only [neighbours, List.forall_mem_cons]
    exact ⟨hfirst, hsecond, List.forall_mem_nil _⟩
  have hcolumn : coins.column? "No" = some number := rfl
  refine ⟨native_asked, hfirst, ?_, ?_⟩
  · refine (Memory.matching_order hcolumn .eq asked).trans (congrArg Except.ok ?_)
    refine List.filter_eq_self.mpr fun row hrow => ?_
    rw [hequal row hrow]
    rfl
  · refine (Memory.matching_order hcolumn .lt asked).trans (congrArg Except.ok ?_)
    refine List.filter_eq_nil_iff.mpr fun row hrow => ?_
    rw [hequal row hrow]
    decide

end Vault

end TableQuery
