import TableQuery.Proofs.Calendar.Order
import TableQuery.Proofs.Query.Offered
import TableQuery.Proofs.Sql.Truth

/-!
# Single conditions in memory and in a database

The same condition is evaluated in memory and asked of a database. Both agree on values that are
there. A missing value counts in memory as different from all others and as an empty text, and a
database does not know about it.

## Main definitions

* `Builtin.unknownOnNull` — the operators that differ on missing values.
* `Sql.Comparison` — the ways to compare with one value.
* `Sql.Agree` — a condition means the same in memory and to a database.

## Main results

* `Sql.Agree.of_mem_operators` — every operator of the library does.
* `Sql.likes_iff_holds` — the patterns that a database is asked for mean the searches in memory.
-/

namespace TableQuery

/-- The raw value of a column in a row, where what is not there is null. -/
def StoredRow.value (row : StoredRow) (c : Column) : Raw :=
  (row.get? c).getD .null

/-- The negations and the searches for parts of texts: of a missing value a database does not
know whether they hold. -/
def Builtin.unknownOnNull : List String :=
  [ne, notIn, contains, lacks, startsWith, endsWith]

/-- The days of the period that an operator means are within the calendar. -/
def Period.Available (now : Moment) (operator : String) : Prop :=
  (Period.days? operator).isSome = true → (Period.ofOperator? operator now).isSome = true

/-- The operators that mean periods. -/
theorem Period.mem_of_days? {operator : String} (h : (days? operator).isSome = true) :
    operator ∈ [Builtin.today, Builtin.yesterday, Builtin.lastWeek, Builtin.lastMonth,
      Builtin.lastThreeMonths] := by
  unfold days? at h
  simp only [List.mem_cons, List.not_mem_nil, or_false]
  split_ifs at h <;> simp_all

/-- Only moments are in order with moments. -/
theorem Raw.compare?_time (a : Raw) (u : Moment) :
    a.compare? (.time u) =
      match a with
      | .time t => some (compare t u)
      | _ => none := by
  cases a <;> rfl

namespace Sql

/-- The ways to compare with one value: by order, or by a part of the text. -/
inductive Comparison where
  | order (sign : Sign)
  | part (place : Place)
  | noPart
  deriving DecidableEq

namespace Comparison

def operator : Comparison → String
  | order .eq => Builtin.eq
  | order .ne => Builtin.ne
  | order .gt => Builtin.gt
  | order .lt => Builtin.lt
  | order .ge => Builtin.ge
  | order .le => Builtin.le
  | part .anywhere => Builtin.contains
  | part .start => Builtin.startsWith
  | part .stop => Builtin.endsWith
  | noPart => Builtin.lacks

def all : List Comparison :=
  [.eq, .ne, .gt, .lt, .ge, .le].map order ++ [.anywhere, .start, .stop].map part ++ [noPart]

/-- What a database is asked in a comparison with a value that is there. -/
def predicate (v : Raw) : Comparison → Predicate
  | order sign => .compare sign v
  | part place => .finds false place v
  | noPart => .finds true .anywhere v

def holds (a v : Raw) : Comparison → Bool
  | order sign => sign.accepts (a.compare? v)
  | part place => place.finds v.display.toList a.display.toList
  | noPart => !Place.finds .anywhere v.display.toList a.display.toList

theorem exists_of_single {op : Operator} (h : op ∈ Builtin.operators) (ha : op.arity = .single) :
    ∃ k : Comparison, k.operator = op.id := by
  have hall : ∀ op ∈ Builtin.operators, op.arity = .single → op.id ∈ all.map operator := by
    decide
  obtain ⟨k, -, hk⟩ := List.mem_map.mp (hall op h ha)
  exact ⟨k, hk⟩

theorem predicate_comparison? {v : Raw} (hv : v.isNull = false) (k : Comparison) :
    ∃ p, Predicate.comparison? k.operator = some p ∧ p v = k.predicate v := by
  rcases k with (_ | _ | _ | _ | _ | _) | (_ | _ | _) | _
  case order.eq => exact ⟨_, rfl, by simp [Predicate.equal, hv, predicate]⟩
  case order.ne => exact ⟨_, rfl, by simp [Predicate.notEqual, hv, predicate]⟩
  all_goals exact ⟨_, rfl, rfl⟩

theorem memory_comparison? (k : Comparison) :
    ∃ f, Memory.comparison? k.operator = some f ∧ ∀ a v, f a v = k.holds a v := by
  rcases k with (_ | _ | _ | _ | _ | _) | (_ | _ | _) | _ <;> exact ⟨_, rfl, fun _ _ => rfl⟩

end Comparison

/-- The pattern that is made of a text is fitted by the texts that contain it, start with it or end
with it, whichever is searched for, whatever characters both consist of. A database is asked for
the pattern of the text of a value, and in memory the search holds for the values whose texts
fit. -/
theorem likes_iff_holds (place : Place) :
    (∀ t s : List Char, likes (likePattern place t) s = true ↔ place.Holds t s) ∧
    ∀ (now : Moment) (c : Column) (m : Memory) (id : String) (a v : Raw) (vs : List Raw),
      Predicate.ofCondition now c ⟨id, (Comparison.part place).operator, v :: vs⟩ =
        .ok (.like false (likePattern place v.display.toList)) ∧
      m.evaluate now c (Comparison.part place).operator a (v :: vs) =
        .ok (likes (likePattern place v.display.toList) a.display.toList) := by
  refine ⟨fun t s => ?_, fun now c m id a v vs => ⟨?_, ?_⟩⟩
  · rw [likes_likePattern, Place.finds_iff]
  · cases place <;> rfl
  · rw [likes_likePattern]
    cases place <;> rfl

namespace Semantics

variable {db : Semantics}

/-- Signs other than that of inequality hold for no missing value. -/
theorem compare_eq_yes_iff_accepts (hdb : db.Standard) {sign : Sign} {a b : Raw}
    (hb : b.isNull = false) (hsign : sign ≠ .ne) :
    db.compare sign a b = .yes ↔ sign.accepts (a.compare? b) = true := by
  rw [compare_eq_yes_iff hdb hb, and_iff_right_iff_imp]
  intro h
  cases ha : a.isNull with
  | false => rfl
  | true =>
    rw [Raw.compare?_eq_none ha hb] at h
    cases sign <;> simp_all [Sign.accepts]

/-- The text of a value is found in a value that is there. -/
theorem truth_finds (hdb : db.Standard) {negated : Bool} {place : Place} {a v : Raw} :
    db.truth a (.finds negated place v) = .yes ↔
      (place.finds v.display.toList a.display.toList != negated) = true ∧ a.isNull = false := by
  cases ha : a.isNull with
  | true => simp [Predicate.finds, truth, ha]
  | false =>
    simp only [Predicate.finds, truth, ha, likes_likePattern, hdb.text_eq a ha]
    cases negated <;> simp [Truth.negatedIf]

/-- A comparison is true where it holds in memory, if the value is known. -/
theorem truth_comparison (hdb : db.Standard) {v : Raw} (hv : v.isNull = false) (a : Raw)
    (k : Comparison) :
    db.truth a (k.predicate v) = .yes ↔
      k.holds a v = true ∧ (k.operator ∈ Builtin.unknownOnNull → a.isNull = false) := by
  cases k with
  | order sign =>
    by_cases hsign : sign = .ne
    · subst hsign
      rw [Comparison.predicate, truth, compare_eq_yes_iff hdb hv, and_comm,
        forall_prop_of_true (by decide)]
      rfl
    · have hop : (Comparison.order sign).operator ∉ Builtin.unknownOnNull := by
        cases sign <;> first | exact absurd rfl hsign | decide
      rw [Comparison.predicate, truth, compare_eq_yes_iff_accepts hdb hv hsign]
      exact (and_iff_left fun hmem => absurd hmem hop).symm
  | part place =>
    have hop : (Comparison.part place).operator ∈ Builtin.unknownOnNull := by
      cases place <;> decide
    rw [Comparison.predicate, truth_finds hdb, forall_prop_of_true hop, Bool.bne_false]
    rfl
  | noPart =>
    rw [Comparison.predicate, truth_finds hdb, forall_prop_of_true (by decide), Bool.bne_true]
    rfl

/-- A value is known to be within a period if it is a moment of it. -/
theorem truth_within (hdb : db.Standard) {a : Raw} {p : Period} :
    db.truth a (.within p) = .yes ↔ ∃ t, a = .time t ∧ p.holds t = true := by
  rw [truth, Truth.and_eq_yes_iff, compare_eq_yes_iff_accepts hdb rfl (by decide),
    compare_eq_yes_iff_accepts hdb rfl (by decide), Raw.compare?_time, Raw.compare?_time]
  cases a with
  | time t =>
    simp only [Sign.accepts, Raw.time.injEq, exists_eq_left', Period.holds_iff]
    cases Ord.compare t p.start <;> simp
  | _ => simp [Sign.accepts]

end Semantics

/-- A condition on a value of a column is asked of memory and of a database, and both agree on
values that are known to them. -/
structure Agree (db : Semantics) (m : Memory) (now : Moment) (c : Column) (a : Raw)
    (raw : RawCondition) : Prop where
  evaluates : ∃ b, m.evaluate now c raw.operator a raw.values = .ok b
  asks : Period.Available now raw.operator → ∃ p, Predicate.ofCondition now c raw = .ok p
  yes_iff : (∃ p, Predicate.ofCondition now c raw = .ok p ∧ db.truth a p = .yes) ↔
    m.evaluate now c raw.operator a raw.values = .ok true ∧
      (raw.operator ∈ Builtin.unknownOnNull → a.isNull = false)

namespace Agree

variable {db : Semantics} {m : Memory} {now : Moment} {c : Column} {a : Raw} {raw : RawCondition}

theorem of_ok {b : Bool} {p : Predicate}
    (hb : m.evaluate now c raw.operator a raw.values = .ok b)
    (hp : Predicate.ofCondition now c raw = .ok p)
    (h : db.truth a p = .yes ↔
      b = true ∧ (raw.operator ∈ Builtin.unknownOnNull → a.isNull = false)) :
    Agree db m now c a raw where
  evaluates := ⟨b, hb⟩
  asks _ := ⟨p, hp⟩
  yes_iff := by simp [hb, hp, h]

theorem of_comparison (hdb : db.Standard) {k : Comparison} {v : Raw}
    (hk : k.operator = raw.operator) (hvalues : raw.values = [v]) (hv : v.isNull = false) :
    Agree db m now c a raw := by
  obtain ⟨f, hf, hholds⟩ := k.memory_comparison?
  obtain ⟨p, hp, hpredicate⟩ := k.predicate_comparison? hv
  rw [hk] at hf hp
  have htruth := db.truth_comparison hdb hv a k
  rw [← hpredicate, ← hholds, hk] at htruth
  exact of_ok (by simp [Memory.evaluate, hf, hvalues])
    (by simp [Predicate.ofCondition, hp, hvalues]) htruth

/-- A list of values is asked for as it is. -/
theorem ofCondition_list (hop : raw.operator = Builtin.isIn ∨ raw.operator = Builtin.notIn)
    (hvalues : raw.values ≠ []) :
    Predicate.ofCondition now c raw =
      .ok (.among (raw.operator == Builtin.notIn) raw.values) := by
  have hnone : Predicate.comparison? raw.operator = none := by
    rcases hop with h | h <;> rw [h] <;> rfl
  simp only [Predicate.ofCondition, hnone]
  rw [if_pos hop, if_neg (by simpa using hvalues)]

theorem ofCondition_valueless (hcomparison : Predicate.comparison? raw.operator = none)
    (hlist : ¬(raw.operator = Builtin.isIn ∨ raw.operator = Builtin.notIn)) :
    Predicate.ofCondition now c raw =
      match Predicate.valueless? now raw.operator with
      | some predicate => .ok predicate
      | none => .error (Predicate.unasked c raw.operator) := by
  simp only [Predicate.ofCondition, hcomparison]
  exact if_neg hlist

theorem ofCondition_period (hop : (Period.days? raw.operator).isSome = true) :
    Predicate.ofCondition now c raw =
      match Period.ofOperator? raw.operator now with
      | some p => .ok (.within p)
      | none => .error (.beyondCalendar c.id raw.operator) := by
  have hops := Period.mem_of_days? hop
  simp only [List.mem_cons, List.not_mem_nil, or_false] at hops
  have hvalueless : Predicate.valueless? now raw.operator =
      (Period.ofOperator? raw.operator now).map .within := by
    rcases hops with h | h | h | h | h <;> rw [h] <;> rfl
  rw [ofCondition_valueless (by rcases hops with h | h | h | h | h <;> rw [h] <;> rfl)
    (by rcases hops with h | h | h | h | h <;> rw [h] <;> decide), hvalueless]
  cases Period.ofOperator? raw.operator now with
  | none => simp only [Option.map_none, Predicate.unasked, hop, if_true]
  | some p => rfl

theorem of_isIn (hdb : db.Standard) (hop : raw.operator = Builtin.isIn) (hvalues : raw.values ≠ [])
    (hnull : ∀ v ∈ raw.values, v.isNull = false) : Agree db m now c a raw := by
  have hb : m.evaluate now c raw.operator a raw.values = .ok (Memory.isAmong a raw.values) := by
    rw [hop]
    rfl
  have hp : Predicate.ofCondition now c raw = .ok (.among false raw.values) := by
    rw [ofCondition_list (.inl hop) hvalues, hop]
    rfl
  refine of_ok hb hp ?_
  rw [Semantics.truth, Truth.negatedIf, if_neg (by decide), Semantics.among_eq_yes_iff hdb hnull,
    hop]
  constructor
  · rintro ⟨-, h⟩
    exact ⟨h, fun hmem => absurd hmem (by decide)⟩
  · rintro ⟨h, -⟩
    refine ⟨?_, h⟩
    obtain ⟨v, hv, heq⟩ := List.any_eq_true.mp h
    cases ha : a.isNull with
    | false => rfl
    | true => simp [Raw.compare?_eq_none ha (hnull v hv)] at heq

theorem of_notIn (hdb : db.Standard) (hop : raw.operator = Builtin.notIn)
    (hvalues : raw.values ≠ []) (hnull : ∀ v ∈ raw.values, v.isNull = false) :
    Agree db m now c a raw := by
  have hb : m.evaluate now c raw.operator a raw.values = .ok (!Memory.isAmong a raw.values) := by
    rw [hop]
    rfl
  have hp : Predicate.ofCondition now c raw = .ok (.among true raw.values) := by
    rw [ofCondition_list (.inr hop) hvalues, hop]
    rfl
  refine of_ok hb hp ?_
  rw [Semantics.truth, Truth.negatedIf, if_pos rfl, Truth.not_eq_yes_iff,
    Semantics.among_eq_no_iff hdb hnull hvalues, hop, forall_prop_of_true (by decide), and_comm,
    Bool.not_eq_true']

theorem of_isNull (holds : Bool)
    (hop : raw.operator = if holds then Builtin.isNull else Builtin.isNotNull) :
    Agree db m now c a raw := by
  have hb : m.evaluate now c raw.operator a raw.values = .ok (a.isNull == holds) := by
    rw [hop]
    cases holds <;> cases a <;> rfl
  have hp : Predicate.ofCondition now c raw = .ok (.isNull holds) := by
    rw [Predicate.ofCondition, hop]
    cases holds <;> rfl
  have hknown : raw.operator ∉ Builtin.unknownOnNull := by
    rw [hop]
    cases holds <;> decide
  exact of_ok hb hp (by simp [Semantics.truth, hknown])

theorem of_period (hdb : db.Standard) (hop : (Period.days? raw.operator).isSome = true) :
    Agree db m now c a raw := by
  have hops := Period.mem_of_days? hop
  simp only [List.mem_cons, List.not_mem_nil, or_false] at hops
  have hknown : raw.operator ∉ Builtin.unknownOnNull := by
    rcases hops with h | h | h | h | h <;> rw [h] <;> decide
  have hb : m.evaluate now c raw.operator a raw.values =
      .ok (Memory.isWithin now raw.operator a) := by
    rcases hops with h | h | h | h | h <;> rw [h] <;> rfl
  have hp : Predicate.ofCondition now c raw = _ := ofCondition_period hop
  cases hperiod : Period.ofOperator? raw.operator now with
  | none =>
    refine ⟨⟨_, hb⟩, fun h => ?_, ?_⟩
    · simpa [hperiod] using h hop
    · rw [hperiod] at hp
      have hwithin : Memory.isWithin now raw.operator a = false := by
        cases a <;> simp [Memory.isWithin, hperiod]
      simp [hp, hb, hwithin]
  | some p =>
    rw [hperiod] at hp
    refine of_ok hb hp ?_
    rw [Semantics.truth_within hdb]
    cases a <;> simp [Memory.isWithin, hperiod, hknown]

/-- All operators of the library, with as many values as they take. -/
theorem of_mem_operators (hdb : db.Standard) {op : Operator} (hop : op ∈ Builtin.operators)
    (hid : op.id = raw.operator) (hcount : op.arity.accepts raw.values.length = true)
    (hnull : ∀ v ∈ raw.values, v.isNull = false) : Agree db m now c a raw := by
  cases harity : op.arity with
  | single =>
    obtain ⟨k, hk⟩ := Comparison.exists_of_single hop harity
    rw [harity] at hcount
    obtain ⟨v, hv⟩ := List.length_eq_one_iff.mp (by simpa [Arity.accepts] using hcount)
    exact of_comparison hdb (hk.trans hid) hv (hnull v (by simp [hv]))
  | multiple =>
    have hvalues : raw.values ≠ [] := by
      rw [harity] at hcount
      simpa [Arity.accepts, Nat.succ_le_iff, List.length_pos_iff] using hcount
    have hlist : ∀ op ∈ Builtin.operators, op.arity = .multiple →
        op.id = Builtin.isIn ∨ op.id = Builtin.notIn := by
      decide
    rcases hlist op hop harity with h | h
    · exact of_isIn hdb (hid.symm.trans h) hvalues hnull
    · exact of_notIn hdb (hid.symm.trans h) hvalues hnull
  | none =>
    have hnone : ∀ op ∈ Builtin.operators, op.arity = .none →
        op.id = Builtin.isNull ∨ op.id = Builtin.isNotNull ∨
          (Period.days? op.id).isSome = true := by
      decide
    rcases hnone op hop harity with h | h | h
    · exact of_isNull true (hid.symm.trans h)
    · exact of_isNull false (hid.symm.trans h)
    · rw [hid] at h
      exact of_period hdb h

end Agree

end Sql

end TableQuery
