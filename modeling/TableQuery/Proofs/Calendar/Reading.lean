import Mathlib.Tactic.NormNum
import TableQuery.Calendar.Read
import TableQuery.Calendar.Render
import TableQuery.Proofs.Lists
import TableQuery.Proofs.Text.Integer
import TableQuery.Proofs.Text.Numeral

/-!
# Moments are read as they are shown

A pattern of literal text and of years, months, days, hours, minutes and seconds with text between
them is read part by part. Each part ends where its own text ends, so that what becomes known is
what the moment told when it was shown.

## Main definitions

* `Calendar.Quantity.told?` — the number that a moment tells by a quantity.
* `Calendar.Tells` — what a pattern lets become known of a moment.
* `Calendar.Known.ofDate`, `Calendar.Known.ofMoment` — a date, or a moment, and nothing else.
* `Moment.atSecond` — the moment at which the second that is written begins.

## Main results

* `Calendar.Quantity.written_render` — a quantity is shown by the digits of its number.
* `Calendar.Quantity.readValue_render` — it is read back before a text that begins with no digit.
* `Calendar.Tells.read` — so are the parts of a pattern, one behind the other.
* `Calendar.Known.date_ofDate`, `Calendar.Known.moment_ofMoment` — what is known makes a moment.
-/

namespace TableQuery

namespace Date

open Calendar

theorem year_bounds (d : Date) : -262143 ≤ d.year ∧ d.year ≤ 262142 := by
  have h := d.exists_in_calendar
  simp only [isDate, Bool.and_eq_true, decide_eq_true_eq] at h
  exact h.1.1.1.1

theorem month_bounds (d : Date) : 1 ≤ d.month ∧ d.month ≤ 12 := by
  have h := d.exists_in_calendar
  simp only [isDate, Bool.and_eq_true, decide_eq_true_eq] at h
  exact ⟨h.1.1.1.2, h.1.1.2⟩

theorem day_bounds (d : Date) : 1 ≤ d.day ∧ d.day ≤ 31 := by
  have h := d.exists_in_calendar
  simp only [isDate, Bool.and_eq_true, decide_eq_true_eq] at h
  have hle : daysInMonth d.year d.month ≤ 31 := by
    unfold daysInMonth
    split
    · split <;> omega
    all_goals omega
  exact ⟨h.1.2, h.2.trans hle⟩

end Date

namespace Moment

theorem hour_lt (t : Moment) : t.hour < 24 := by
  have h := t.seconds_lt
  unfold hour
  omega

theorem minute_lt (t : Moment) : t.minute < 60 := by
  unfold minute
  omega

theorem second_lt (t : Moment) : t.second < 60 := by
  unfold second
  omega

theorem writtenSecond_le (t : Moment) : t.writtenSecond ≤ 60 := by
  have hsecond := t.second_lt
  have hnanos := t.nanos_lt
  unfold writtenSecond
  omega

end Moment

namespace Calendar

open TableQuery.Text (Written digits isBlank padStart readNat? trimStart)

/-! ## Digits -/

/-- Digits are read before a text that begins with none. -/
theorem readDigits_filled {rest : List Char} {most : Option Nat} {zeros n : Nat} (hn : n < 2 ^ 63)
    (hmost : ∀ m ∈ most, zeros + (digits 10 n).length ≤ m)
    (hrest : ∀ c ∈ rest.head?, c.isDigit = false) :
    readDigits 1 most (List.replicate zeros '0' ++ digits 10 n ++ rest) = .ok (n, rest) := by
  have hall : ∀ c ∈ List.replicate zeros '0' ++ digits 10 n, c.isDigit = true := by
    intro c hc
    rcases List.mem_append.mp hc with hc | hc
    · rw [List.eq_of_mem_replicate hc]
      rfl
    · exact Text.isDigit_of_mem_digits hc
  have hlength : 0 < (List.replicate zeros '0' ++ digits 10 n).length := by
    have hpos : 0 < (digits 10 n).length := Nat.length_toDigits_pos
    simp only [List.length_append]
    omega
  have htaken : (most.map (List.replicate zeros '0' ++ digits 10 n).take).getD
      (List.replicate zeros '0' ++ digits 10 n) = List.replicate zeros '0' ++ digits 10 n := by
    cases most with
    | none => rfl
    | some m =>
      have hle := hmost m rfl
      exact List.take_of_length_le (by simpa using hle)
  have hread := Text.readNat?_digits (by norm_num : 1 < 10) (by norm_num) zeros n
  have hfits : n < Nat.pow 2 63 := hn
  unfold readDigits
  simp only [takeWhile_append_of_head hall hrest, htaken, hread, List.drop_left]
  rw [if_neg (by omega), if_pos hfits]

/-- Numbers of two digits are filled with zeros. -/
theorem pair_zero {n : Nat} (hn : n < 100) : pair .zero n = padStart '0' 2 (digits 10 n) := by
  have hall : ∀ n < 100, pair .zero n = padStart '0' 2 (digits 10 n) := by decide
  exact hall n hn

/-! ## Quantities -/

namespace Quantity

variable {q : Quantity} {t : Moment} {n : Int} {rest s : List Char}

/-- The number that a moment tells by a quantity, for those that make up dates and times. -/
def told? : Quantity → Moment → Option Int
  | .year, t => some t.date.year
  | .month, t => some t.date.month
  | .day, t => some t.date.day
  | .hour, t => some t.hour
  | .minute, t => some t.minute
  | .second, t => some t.writtenSecond
  | _, _ => none

/-- What is no year is a number of two digits. -/
theorem pair_of_told? (h : q.told? t = some n) (hq : q ≠ .year) :
    ∃ m < 100, n = (m : Nat) ∧ q.render .zero t = pair .zero m ∧ q.width = some 2 := by
  have hmonth := t.date.month_bounds
  have hday := t.date.day_bounds
  have hhour := t.hour_lt
  have hminute := t.minute_lt
  have hsecond := t.writtenSecond_le
  cases q <;> cases h
  case year => exact absurd rfl hq
  all_goals exact ⟨_, by omega, rfl, rfl, rfl⟩

/-- A year has a sign if it is not one of four digits. -/
theorem render_year (t : Moment) : Quantity.year.render .zero t =
    (if t.date.year < 0 then ['-'] else if 9999 < t.date.year then ['+'] else []) ++
      padStart '0' 4 (digits 10 t.date.year.natAbs) := by
  show filledYear .zero t.date.year = _
  by_cases hneg : t.date.year < 0
  · simp [filledYear, filled, hneg]
  · by_cases hbig : 9999 < t.date.year
    · simp [filledYear, filled, hneg, hbig]
    · simp [filledYear, filled, hneg, hbig]

/-- A quantity is shown by the digits of its number. -/
theorem written_render (h : q.told? t = some n) : Written 10 n (q.render .zero t) := by
  by_cases hq : q = .year
  · subst hq
    cases h
    rw [render_year]
    split
    · next hneg => exact .minus _ hneg
    · next hneg =>
      split
      · exact .plus _ (by omega)
      · exact .plain _ (by omega)
  · obtain ⟨m, hm, rfl, hrender, -⟩ := pair_of_told? h hq
    rw [hrender, pair_zero hm]
    exact .plain _ (by omega)

/-- Only the digits of a year may stand behind a sign. -/
theorem readValue_of_head (q : Quantity) (hs : ∀ c ∈ s.head?, c ≠ '-' ∧ c ≠ '+') :
    q.readValue s = readDigits 1 q.width s := by
  unfold readValue
  split <;> first | rfl | exact absurd rfl (hs _ rfl).1 | exact absurd rfl (hs _ rfl).2

theorem readValue_filled {zeros m : Nat} (q : Quantity) (hm : m < 2 ^ 63)
    (hwidth : ∀ k ∈ q.width, zeros + (digits 10 m).length ≤ k)
    (hrest : ∀ c ∈ rest.head?, c.isDigit = false) :
    q.readValue (List.replicate zeros '0' ++ digits 10 m ++ rest) = .ok (m, rest) := by
  rw [readValue_of_head q, readDigits_filled hm hwidth hrest]
  intro c hc
  have hne : List.replicate zeros '0' ++ digits 10 m ≠ [] := by simp [digits]
  rw [List.head?_append_of_ne_nil _ hne] at hc
  exact (Text.plain_of_mem_filled (by norm_num) (by norm_num) (List.mem_of_mem_head? hc)).2

/-- Filled up to a width that its digits do not exceed, a number has this width. -/
theorem length_filled_le {m width : Nat} (hwidth : 0 < width) (hm : m < 10 ^ width) :
    width - (digits 10 m).length + (digits 10 m).length ≤ width := by
  have hle : (digits 10 m).length ≤ width :=
    (Nat.length_toDigits_le_iff (by norm_num) hwidth).mpr hm
  omega

/-- A year is read back before a text that begins with no digit. -/
theorem readValue_year (t : Moment) (hrest : ∀ c ∈ rest.head?, c.isDigit = false) :
    Quantity.year.readValue (Quantity.year.render .zero t ++ rest) = .ok (t.date.year, rest) := by
  obtain ⟨hlo, hhi⟩ := t.date.year_bounds
  have hm : t.date.year.natAbs < 2 ^ 63 := by omega
  rw [render_year]
  split
  · next hneg =>
    have hyear : -(t.date.year.natAbs : ℤ) = t.date.year := by omega
    rw [List.cons_append, List.cons_append, List.nil_append, readValue, padStart,
      readDigits_filled hm (by simp) hrest]
    exact congrArg (fun n => Except.ok (n, rest)) hyear
  · next hneg =>
    have hyear : (t.date.year.natAbs : ℤ) = t.date.year := by omega
    split
    · next hbig =>
      rw [List.cons_append, List.cons_append, List.nil_append, readValue, padStart,
        readDigits_filled hm (by simp) hrest, hyear]
    · next hbig =>
      rw [List.nil_append, padStart, readValue_filled .year hm ?_ hrest, hyear]
      rintro k ⟨⟩
      exact length_filled_le (by norm_num) (by omega)

theorem readValue_render (h : q.told? t = some n) (hrest : ∀ c ∈ rest.head?, c.isDigit = false) :
    q.readValue (q.render .zero t ++ rest) = .ok (n, rest) := by
  by_cases hq : q = .year
  · subst hq
    cases h
    exact readValue_year t hrest
  · obtain ⟨m, hm, rfl, hrender, hwidth⟩ := pair_of_told? h hq
    rw [hrender, pair_zero hm, padStart]
    refine readValue_filled q (by omega) ?_ hrest
    rw [hwidth]
    rintro k ⟨⟩
    exact length_filled_le (by norm_num) hm

end Quantity

/-! ## What becomes known -/

namespace Known

variable {q : Quantity} {t : Moment} {n : Int} {k : Known}

def knowing (k : Known) (t : Moment) : Quantity → Known
  | .year => { k with year := some t.date.year }
  | .month => { k with month := some t.date.month }
  | .day => { k with day := some t.date.day }
  | .hour => { k with afternoon := some (decide (12 ≤ t.hour)), hourOfHalf := some (t.hour % 12) }
  | .minute => { k with minute := some t.minute }
  | .second => { k with second := some t.writtenSecond }
  | _ => k

/-- Nothing is known of a quantity, for those that make up dates and times. -/
def Lacks (k : Known) : Quantity → Prop
  | .year => k.year = none
  | .month => k.month = none
  | .day => k.day = none
  | .hour => k.afternoon = none ∧ k.hourOfHalf = none
  | .minute => k.minute = none
  | .second => k.second = none
  | _ => False

theorem bounded_natCast {lo hi n : Nat} (hlo : lo ≤ n) (hhi : n ≤ hi) :
    bounded lo hi n = .ok n := by
  rw [bounded, if_pos (by omega), Int.toNat_natCast]

theorem boundedYear_year (d : Date) : boundedYear d.year = .ok d.year := by
  have hbounds := d.year_bounds
  rw [boundedYear, if_pos (by simp only [Int.pow_eq]; omega)]

/-- The number that a moment tells is within the bounds of its quantity. -/
theorem set_told (h : q.told? t = some n) (hk : k.Lacks q) : q.set k n = .ok (k.knowing t q) := by
  have hmonth := t.date.month_bounds
  have hday := t.date.day_bounds
  have hhour := t.hour_lt
  have hminute := t.minute_lt
  cases q <;> cases h
  case year =>
    rw [Quantity.set, setYear, boundedYear_year, show k.year = none from hk]
    rfl
  case month =>
    rw [Quantity.set, setMonth, bounded_natCast hmonth.1 hmonth.2, show k.month = none from hk]
    rfl
  case day =>
    rw [Quantity.set, setDay, bounded_natCast hday.1 hday.2, show k.day = none from hk]
    rfl
  case hour =>
    rw [Quantity.set, setHour, bounded_natCast (Nat.zero_le _) (by omega)]
    simp only [bind, Except.bind, hk.1, hk.2]
    rfl
  case minute =>
    rw [Quantity.set, setMinute, bounded_natCast (Nat.zero_le _) (by omega),
      show k.minute = none from hk]
    rfl
  case second =>
    rw [Quantity.set, setSecond, bounded_natCast (Nat.zero_le _) t.writtenSecond_le,
      show k.second = none from hk]
    rfl

end Known

/-! ## Patterns -/

/-- No number goes on where the parts begin. -/
def EndsNumber : List Item → Prop
  | [] => True
  | .literal (c :: _) :: _ => c.isDigit = false
  | _ => False

/-- What a pattern lets become known of a moment, in addition to what is known before. Its literal
text has no blanks, and is what numbers end at. -/
inductive Tells (t : Moment) : List Item → Known → Known → Prop
  | nil (k : Known) : Tells t [] k k
  | literal {text : List Char} {items : List Item} {k k' : Known}
      (htext : ∀ c ∈ text, isBlank c = false) (h : Tells t items k k') :
      Tells t (.literal text :: items) k k'
  | number {q : Quantity} {n : Int} {items : List Item} {k k' k'' : Known}
      (hn : q.told? t = some n) (hset : q.set k n = .ok k') (hends : EndsNumber items)
      (h : Tells t items k' k'') : Tells t (.number q .zero :: items) k k''

section Patterns

variable {t : Moment} {item : Item} {items : List Item} {s : List Char} {k k' : Known}

theorem renderItems?_cons (item : Item) (items : List Item) (t : Moment) :
    renderItems? (item :: items) t =
      (item.render? t).bind fun s => (renderItems? items t).map (s ++ ·) := by
  simp only [renderItems?, List.mapM_cons]
  cases item.render? t with
  | none => rfl
  | some s => cases items.mapM (Item.render? t) <;> rfl

theorem EndsNumber.head (h : EndsNumber items) (hs : renderItems? items t = some s) :
    ∀ c ∈ s.head?, c.isDigit = false := by
  unfold EndsNumber at h
  split at h
  · cases hs
    simp
  · next c text items =>
    rw [renderItems?_cons] at hs
    obtain ⟨rest, -, rfl⟩ := Option.map_eq_some_iff.mp hs
    rintro _ ⟨⟩
    exact h
  · exact h.elim

theorem Tells.char {c : Char} (hc : isBlank c = false) (h : Tells t items k k') :
    Tells t (.literal [c] :: items) k k' :=
  .literal (List.forall_mem_singleton.mpr hc) h

theorem EndsNumber.append {items' : List Item} (h : EndsNumber items) (h' : EndsNumber items') :
    EndsNumber (items ++ items') := by
  unfold EndsNumber at h
  split at h
  · exact h'
  · exact h
  · exact h.elim

theorem Tells.append {items' : List Item} {k'' : Known} (h : Tells t items k k')
    (h' : Tells t items' k' k'') (hends : EndsNumber items') : Tells t (items ++ items') k k'' := by
  induction h with
  | nil k => exact h'
  | literal htext _ ih => exact .literal htext (ih h')
  | number hn hset hends' _ ih => exact .number hn hset (hends'.append hends) (ih h')

theorem Item.read_literal (k : Known) (text rest : List Char) :
    Item.read k (text ++ rest) (.literal text) = .ok (k, rest) := by
  show (Item.literal text).readPart k (text ++ rest) = _
  rw [Item.readPart, Text.stripStart?_append]
  rfl

theorem Item.read_number {q : Quantity} {n : Int} {rest : List Char} (hn : q.told? t = some n)
    (hset : q.set k n = .ok k') (hrest : ∀ c ∈ rest.head?, c.isDigit = false) :
    Item.read k (q.render .zero t ++ rest) (.number q .zero) = .ok (k', rest) := by
  have hwritten := Quantity.written_render hn
  have htrim : trimStart (q.render .zero t ++ rest) = q.render .zero t ++ rest := by
    have hplain := hwritten.not_isBlank (by norm_num) (by norm_num)
    obtain ⟨c, r, hcons⟩ := List.exists_cons_of_ne_nil hwritten.ne_nil
    rw [hcons] at hplain ⊢
    exact Text.trimStart_of_head (hplain c List.mem_cons_self)
  show (Item.number q .zero).readPart k (q.render .zero t ++ rest) = _
  rw [Item.readPart, htrim, Quantity.readValue_render hn hrest]
  show (q.set k n >>= fun k' => .ok (k', rest)) = _
  rw [hset]
  rfl

/-- The parts of a pattern are read back, one behind the other. -/
theorem Tells.read (h : Tells t items k k') : ∃ s, renderItems? items t = some s ∧
    (∀ c ∈ s, isBlank c = false) ∧ readItems items k s = .ok (k', []) := by
  induction h with
  | nil k => exact ⟨[], rfl, by simp, rfl⟩
  | @literal text items k k' htext _ ih =>
    obtain ⟨s, hs, hblank, hread⟩ := ih
    refine ⟨text ++ s, by rw [renderItems?_cons, hs]; rfl, ?_, ?_⟩
    · exact List.forall_mem_append.mpr ⟨htext, hblank⟩
    · rw [readItems, Item.read_literal]
      exact hread
  | @number q n items k k' k'' hn hset hends _ ih =>
    obtain ⟨s, hs, hblank, hread⟩ := ih
    have hplain := (Quantity.written_render hn).not_isBlank (by norm_num) (by norm_num)
    refine ⟨q.render .zero t ++ s, by rw [renderItems?_cons, hs]; rfl, ?_, ?_⟩
    · exact List.forall_mem_append.mpr ⟨hplain, hblank⟩
    · -- What is shown behind the number begins with no digit, and the number ends there.
      rw [readItems, Item.read_number hn hset (hends.head hs)]
      exact hread

/-- A whole text lets become known what its pattern tells. -/
theorem Tells.readKnown {pattern : String} (h : Tells t (Item.ofPattern pattern) .nothing k) :
    ∃ text : String, render? pattern t = some text ∧
      (∀ c ∈ text.toList, isBlank c = false) ∧ Calendar.readKnown pattern text.toList = .ok k := by
  obtain ⟨s, hs, hblank, hread⟩ := h.read
  refine ⟨String.ofList s, by rw [render?, hs]; rfl, by rwa [String.toList_ofList], ?_⟩
  rw [String.toList_ofList, Calendar.readKnown, hread]
  rfl

end Patterns

end Calendar

/-! ## Seconds -/

namespace Moment

/-- The moment at which the second that is written begins. The second behind a longer one is only
written as such at the end of a minute. -/
def atSecond (t : Moment) : Moment where
  date := t.date
  seconds := t.seconds + if t.second = 59 then 0 else t.nanos / 1000000000
  nanos := if t.second = 59 then t.nanos / 1000000000 * 1000000000 else 0
  seconds_lt := by
    have hseconds := t.seconds_lt
    have hnanos := t.nanos_lt
    unfold second
    split <;> omega
  nanos_lt := by
    have hnanos := t.nanos_lt
    split <;> omega

/-- A moment at which a second begins, which may be a leap second. -/
def IsWhole (t : Moment) : Prop :=
  t.nanos = 0 ∨ t.second = 59 ∧ t.nanos = 1000000000

theorem seconds_atSecond (t : Moment) :
    t.second = 59 ∧ t.atSecond.seconds = t.seconds ∧
      t.atSecond.nanos = t.nanos / 1000000000 * 1000000000 ∨
    t.second ≠ 59 ∧ t.atSecond.seconds = t.seconds + t.nanos / 1000000000 ∧
      t.atSecond.nanos = 0 := by
  by_cases h : t.second = 59
  · exact .inl ⟨h, by simp [atSecond, h], by simp [atSecond, h]⟩
  · exact .inr ⟨h, by simp [atSecond, h], by simp [atSecond, h]⟩

theorem atSecond_eq_iff {t : Moment} : t.atSecond = t ↔ t.IsWhole := by
  have hnanos := t.nanos_lt
  have hsame : t.atSecond = t ↔ t.atSecond.seconds = t.seconds ∧ t.atSecond.nanos = t.nanos := by
    constructor
    · intro h
      rw [h]
      exact ⟨rfl, rfl⟩
    · rintro ⟨hseconds, hnanos⟩
      calc t.atSecond = ⟨t.date, t.atSecond.seconds, t.atSecond.nanos, _, _⟩ := rfl
        _ = t := by simp only [hseconds, hnanos]
  rw [hsame, IsWhole]
  rcases t.seconds_atSecond with h | h <;> omega

theorem hour_atSecond (t : Moment) : t.atSecond.hour = t.hour := by
  have hnanos := t.nanos_lt
  have h := t.seconds_atSecond
  unfold hour
  unfold second at h
  omega

theorem minute_atSecond (t : Moment) : t.atSecond.minute = t.minute := by
  have hnanos := t.nanos_lt
  have h := t.seconds_atSecond
  unfold minute
  unfold second at h
  omega

theorem writtenSecond_atSecond (t : Moment) : t.atSecond.writtenSecond = t.writtenSecond := by
  have hnanos := t.nanos_lt
  have h := t.seconds_atSecond
  unfold writtenSecond second
  unfold second at h
  omega

/-- A written second 60 is read as a leap second, and every other one as it is. -/
theorem second_atSecond (t : Moment) :
    t.writtenSecond = 60 ∧ t.atSecond.second = 59 ∧ t.atSecond.nanos = 1000000000 ∨
    t.writtenSecond ≠ 60 ∧ t.atSecond.second = t.writtenSecond ∧ t.atSecond.nanos = 0 := by
  have hnanos := t.nanos_lt
  have h := t.seconds_atSecond
  unfold writtenSecond second
  unfold second at h
  omega

theorem ofHms?_self {t : Moment} (h : t.nanos < 1000000000 ∨ t.second = 59) :
    ofHms? t.date t.hour t.minute t.second t.nanos = some t := by
  have hsum : t.hour * 3600 + t.minute * 60 + t.second = t.seconds := by
    unfold hour minute second
    omega
  rw [ofHms?, dif_pos ⟨t.hour_lt, t.minute_lt, t.second_lt, t.nanos_lt, h⟩]
  simp only [hsum]

end Moment

/-! ## What is known -/

namespace Calendar.Known

/-- A date is known, and nothing else. -/
def ofDate (d : Date) : Known :=
  { nothing with year := some d.year, month := some d.month, day := some d.day }

def ofMoment (t : Moment) : Known :=
  { ofDate t.date with
    afternoon := some (decide (12 ≤ t.hour))
    hourOfHalf := some (t.hour % 12)
    minute := some t.minute
    second := some t.writtenSecond }

theorem candidate_ofDate (d : Date) :
    (ofDate d).candidate (some d.year) none = .ok (true, d) := by
  have hagrees : ((ofDate d).agreesOnIsoWeek d && (ofDate d).agreesOnOrdinal d) = true := by
    simp [agreesOnIsoWeek, agreesOnOrdinal, ofDate, nothing, consistent, consistentWith]
  show (Date.ofYmd? d.year d.month d.day).elim (Except.error Fault.outOfRange) (fun d' =>
    Except.ok ((ofDate d).agreesOnIsoWeek d' && (ofDate d).agreesOnOrdinal d', d')) = _
  rw [Date.ofYmd?_self, Option.elim_some, hagrees]

theorem date_ofDate (d : Date) : (ofDate d).date = .ok d := by
  show ((ofDate d).candidate (some d.year) none >>= fun found =>
    if found.1 && consistent none found.2.quarter then .ok found.2 else .error .impossible) = _
  rw [candidate_ofDate]
  simp [consistent, bind, Except.bind]

theorem date_ofMoment (t : Moment) : (ofMoment t).date = .ok t.date :=
  date_ofDate t.date

theorem timeOfDay_ofMoment (t : Moment) : (ofMoment t).timeOfDay t.date = .ok t.atSecond := by
  have hlong : t.atSecond.nanos < 1000000000 ∨ t.atSecond.second = 59 := by
    have h := t.second_atSecond
    omega
  have hself : Moment.ofHms? t.date t.atSecond.hour t.atSecond.minute t.atSecond.second
      t.atSecond.nanos = some t.atSecond := Moment.ofHms?_self hlong
  -- The hour is known by the half of the day and by its place in this half.
  have hhour : (t.hour % 12 + if decide (12 ≤ t.hour) then 12 else 0) = t.atSecond.hour := by
    have hseconds := t.seconds_lt
    rw [t.hour_atSecond, Moment.hour]
    by_cases hlate : 12 ≤ t.seconds / 3600
    · simp only [hlate, decide_true, if_true]
      omega
    · simp only [hlate, decide_false, Bool.false_eq_true, if_false]
      omega
  show (Moment.ofHms? t.date (t.hour % 12 + if decide (12 ≤ t.hour) then 12 else 0) t.minute
    (if some t.writtenSecond = some 60 then 59 else t.writtenSecond)
    (0 + if some t.writtenSecond = some 60 then 1000000000 else 0)).elim
      (Except.error Fault.outOfRange) Except.ok = _
  rw [hhour, ← t.minute_atSecond]
  rcases t.second_atSecond with ⟨hleap, hsecond, hnanos⟩ | ⟨hleap, hsecond, hnanos⟩
  · rw [hsecond, hnanos] at hself
    rw [hleap, if_pos rfl, if_pos rfl, Nat.zero_add, hself, Option.elim_some]
  · rw [hsecond, hnanos] at hself
    have hplain : ¬ some t.writtenSecond = some 60 := by simpa using hleap
    rw [if_neg hplain, if_neg hplain, Nat.add_zero, hself, Option.elim_some]

/-- What is known of a moment makes the moment at which its second begins. -/
theorem moment_ofMoment (t : Moment) : (ofMoment t).moment 0 = .ok t.atSecond := by
  have h : (ofMoment t).date.bind (ofMoment t).timeOfDay = .ok t.atSecond := by
    rw [date_ofMoment]
    exact timeOfDay_ofMoment t
  unfold moment
  dsimp only
  rw [h]
  rfl

end Calendar.Known

end TableQuery
