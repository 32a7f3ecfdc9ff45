import TableQuery.Cell.Native
import TableQuery.Proofs.Calendar.Reading
import TableQuery.Proofs.Schema.Compiled

/-!
# Moments through formats that are not declared

A column of dates or times without a format of its own shows every moment of the calendar, whatever
its year. What it shows is read back: of a date the midnight, and of a time the second.

## Main definitions

* `Calendar.Grain` — the day or the second of a moment, each with its pattern and its columns.
* `Column.HasDefaultFormat` — a column without a format of its own.

## Main results

* `FieldSpec.hasDefaultFormat_of_compile` — columns of fields that declare no format are such.
* `Calendar.Grain.exists_text` — what a pattern shows is read back.
* `Column.moments_kept` — so it is in a column, and what was read is shown in the same way.
-/

namespace TableQuery

namespace Calendar

open TableQuery.Text (trim)

/-! ## The formats -/

def dateItems : List Item :=
  [.number .year .zero, .literal ['-'], .number .month .zero, .literal ['-'], .number .day .zero]

def timeItems : List Item :=
  [.literal ['T'], .number .hour .zero, .literal [':'], .number .minute .zero, .literal [':'],
    .number .second .zero, .literal ['Z']]

theorem ofPattern_datePattern : Item.ofPattern datePattern = dateItems := by rfl

theorem ofPattern_timePattern : Item.ofPattern timePattern = dateItems ++ timeItems := by rfl

theorem tells_dateItems (t : Moment) : Tells t dateItems .nothing (.ofDate t.date) :=
  .number rfl (Known.set_told rfl rfl) rfl <| .char rfl <|
    .number rfl (Known.set_told rfl rfl) rfl <| .char rfl <|
      .number rfl (Known.set_told rfl rfl) trivial <| .nil _

theorem tells_timeItems (t : Moment) : Tells t timeItems (.ofDate t.date) (.ofMoment t) :=
  .char rfl <| .number rfl (Known.set_told rfl ⟨rfl, rfl⟩) rfl <|
    .char rfl <| .number rfl (Known.set_told rfl rfl) rfl <|
      .char rfl <| .number rfl (Known.set_told rfl rfl) rfl <| .char rfl <| .nil _

/-- What is shown of a moment. -/
inductive Grain where
  | day
  | second

namespace Grain

def pattern : Grain → String
  | day => datePattern
  | second => timePattern

/-- The moment at which the day or the second begins. -/
def floor : Grain → Moment → Moment
  | day, t => .midnight t.date
  | second, t => t.atSecond

def read? : Grain → List Char → Option Moment
  | day, s => (readDate? datePattern s).map .midnight
  | second, s => readMoment? timePattern s

def told : Grain → Moment → Known
  | day, t => .ofDate t.date
  | second, t => .ofMoment t

theorem tells (g : Grain) (t : Moment) :
    Tells t (Item.ofPattern g.pattern) .nothing (g.told t) := by
  cases g with
  | day => exact ofPattern_datePattern ▸ tells_dateItems t
  | second => exact ofPattern_timePattern ▸ (tells_dateItems t).append (tells_timeItems t) rfl

/-- What its pattern tells of a moment determines where the day or the second begins. -/
theorem read?_of_told {g : Grain} {s : List Char} {t : Moment}
    (h : readKnown g.pattern s = .ok (g.told t)) : g.read? s = some (g.floor t) := by
  cases g with
  | day =>
    change readKnown datePattern s = .ok (.ofDate t.date) at h
    have hdate : readDate? datePattern s = some t.date := by
      rw [readDate?, h]
      exact congrArg Except.toOption (Known.date_ofDate t.date)
    rw [read?, hdate]
    rfl
  | second =>
    change readKnown timePattern s = .ok (.ofMoment t) at h
    rw [read?, readMoment?, h]
    exact congrArg Except.toOption (Known.moment_ofMoment t)

/-- What a pattern shows of a moment is read back. -/
theorem exists_text (g : Grain) (t : Moment) : ∃ text : String,
    render? g.pattern t = some text ∧ trim text.toList = text.toList ∧
      g.read? text.toList = some (g.floor t) := by
  obtain ⟨text, htext, hblank, hread⟩ := (g.tells t).readKnown
  exact ⟨text, htext, (Text.isTrimmed_of_forall hblank).trim_eq, read?_of_told hread⟩

/-- Nothing that comes behind is shown. -/
theorem render?_floor (g : Grain) (t : Moment) :
    render? g.pattern (g.floor t) = render? g.pattern t := by
  cases g with
  | day =>
    show render? datePattern (.midnight t.date) = render? datePattern t
    rw [render?, render?, ofPattern_datePattern]
    rfl
  | second =>
    show render? timePattern t.atSecond = render? timePattern t
    simp only [render?, ofPattern_timePattern, renderItems?, dateItems, timeItems, List.cons_append,
      List.nil_append, List.mapM_cons, Item.render?, Quantity.render, t.hour_atSecond,
      t.minute_atSecond, t.writtenSecond_atSecond]
    rfl

/-- The type of the columns that show it. -/
def type : Grain → ColumnType
  | day => .date
  | second => .time

def value : Grain → String → Value
  | day => .date
  | second => .time

end Grain

end Calendar

/-! ## Columns -/

/-- A column without a format, or with the one of its kind and type. -/
def Column.HasDefaultFormat (c : Column) : Prop :=
  c.format = none ∨ c.format = c.kind.defaultFormat c.type

/-- Columns of fields that declare no format are such. -/
theorem FieldSpec.hasDefaultFormat_of_compile {f : FieldSpec} {v : Vocabulary} {c : Column}
    (h : f.compile v = .ok c) (hf : f.format = none) : c.HasDefaultFormat := by
  obtain ⟨hmakes, hformat⟩ := makes_and_format h
  rw [hf, Option.none_or, ← hmakes.kind_eq] at hformat
  exact .inr hformat

namespace Column

variable {c : Column} {options : OptionLists} {g : Calendar.Grain} {t : Moment} {text : String}

theorem pattern_eq (h : c.HasDefaultFormat) (htype : c.type = g.type) : c.pattern = g.pattern := by
  unfold pattern
  rcases h with h | h
  · rw [h, htype]
    cases g <;> rfl
  · rw [h, htype]
    cases g <;> cases c.kind <;> rfl

theorem typed_moment (htype : c.type = g.type) (h : Calendar.render? c.pattern t = some text) :
    c.typed options (.time t) = .ok (g.value text) := by
  cases g <;> simp [typed, htype, Calendar.Grain.type, Calendar.Grain.value, Raw.isNull, dateText,
    timeText, h, Except.map]

theorem native_moment (htype : c.type = g.type) (hpattern : c.pattern = g.pattern)
    (htrim : Text.trim text.toList = text.toList) (hread : g.read? text.toList = some t) :
    c.native (g.value text) = .ok (.time t) := by
  have hmoment : c.readMoment? text.toList = some t := by
    cases g with
    | day =>
      have hdate : c.type = .date := htype
      rw [readMoment?, if_pos hdate, hpattern]
      exact congrArg (Option.or · _) hread
    | second =>
      have hdate : c.type ≠ .date := by simp [htype, Calendar.Grain.type]
      rw [readMoment?, if_neg hdate, hpattern]
      exact congrArg (Option.or · _) hread
  have htext : c.readMoment text = .ok t := by rw [readMoment, htrim, hmoment]
  cases g <;> simp [native, htype, Calendar.Grain.type, Calendar.Grain.value, htext, Except.map]

/-- A moment is shown, and read back as the one at which its day or its second begins. -/
theorem exists_typed (h : c.HasDefaultFormat) (htype : c.type = g.type) (options : OptionLists)
    (t : Moment) : ∃ text, c.typed options (.time t) = .ok (g.value text) ∧
      c.native (g.value text) = .ok (.time (g.floor t)) ∧
      c.typed options (.time (g.floor t)) = .ok (g.value text) := by
  have hpattern := pattern_eq h htype
  obtain ⟨text, htext, htrim, hread⟩ := g.exists_text t
  have hagain := (g.render?_floor t).trans htext
  rw [← hpattern] at htext hagain
  exact ⟨text, typed_moment htype htext, native_moment htype hpattern htrim hread,
    typed_moment htype hagain⟩

/-- A column without a format of its own shows every moment. As a time, what it shows is read back
as the moment at which the second begins, and so as the same moment exactly if it is whole. As a
date, it is read back as the midnight of its day. What was read is shown in the same way. -/
theorem moments_kept (h : c.HasDefaultFormat) (options : OptionLists) (t : Moment) :
    (c.type = .time → ∃ text, c.typed options (.time t) = .ok (.time text) ∧
      (c.native (.time text) = .ok (.time t) ↔ t.IsWhole) ∧
      c.native (.time text) = .ok (.time t.atSecond) ∧
      c.typed options (.time t.atSecond) = .ok (.time text)) ∧
    (c.type = .date → ∃ text, c.typed options (.time t) = .ok (.date text) ∧
      c.native (.date text) = .ok (.time (.midnight t.date)) ∧
      c.typed options (.time (.midnight t.date)) = .ok (.date text)) := by
  refine ⟨fun htype => ?_, fun htype => exists_typed (g := .day) h htype options t⟩
  obtain ⟨text, htext, hread, hagain⟩ :
      ∃ text, c.typed options (.time t) = .ok (.time text) ∧
        c.native (.time text) = .ok (.time t.atSecond) ∧
        c.typed options (.time t.atSecond) = .ok (.time text) :=
    exists_typed (g := .second) h htype options t
  refine ⟨text, htext, ?_, hread, hagain⟩
  rw [hread, ← Moment.atSecond_eq_iff]
  simp

end Column

/-! ## The last second of a year -/

namespace Almanac

def instants : Column :=
  { (default : Column) with id := "Instant", name := "Instant", kind := .time, type := .time }

def days : Column :=
  { (default : Column) with
    id := "Day", name := "Day", kind := .time, type := .date, format := some "%Y-%m-%d" }

def leap : Moment := ⟨⟨2016, 12, 31, rfl⟩, 86399, 1000000000, by decide, by decide⟩

/-- A quarter of a second behind noon, on a leap day before the first year. -/
def ancient : Moment := ⟨⟨-44, 2, 29, rfl⟩, 43200, 250000000, by decide, by decide⟩

/-- A leap second is read back, and so is a leap day before the first year; of a time on this day
only its second is. -/
theorem leap_kept : ∃ text,
    instants.typed .empty (.time leap) = .ok (.time "2016-12-31T23:59:60Z") ∧
    instants.native (.time "2016-12-31T23:59:60Z") = .ok (.time leap) ∧
    instants.typed .empty (.time ancient) = .ok (.time text) ∧
    instants.native (.time text) ≠ .ok (.time ancient) ∧
    days.typed .empty (.time ancient) = .ok (.date "-0044-02-29") ∧
    days.native (.date "-0044-02-29") = .ok (.time (.midnight ancient.date)) := by
  have hinstants : instants.HasDefaultFormat := .inl rfl
  have hdays : days.HasDefaultFormat := .inr rfl
  have hleap : instants.typed .empty (.time leap) = .ok (.time "2016-12-31T23:59:60Z") := by
    rfl
  have hancient : days.typed .empty (.time ancient) = .ok (.date "-0044-02-29") := by
    rfl
  obtain ⟨written, hwritten, hwhole, -, -⟩ := (Column.moments_kept hinstants .empty leap).1 rfl
  obtain ⟨text, htext, hquarter, -, -⟩ := (Column.moments_kept hinstants .empty ancient).1 rfl
  obtain ⟨day, hday, hread, -⟩ := (Column.moments_kept hdays .empty ancient).2 rfl
  obtain rfl : "2016-12-31T23:59:60Z" = written := by
    simpa using hleap.symm.trans hwritten
  obtain rfl : "-0044-02-29" = day := by
    simpa using hancient.symm.trans hday
  exact ⟨text, hleap, hwhole.mpr (.inr ⟨rfl, rfl⟩), htext,
    fun h => by simpa [Moment.IsWhole, ancient] using hquarter.mp h, hancient, hread⟩

end Almanac

end TableQuery
