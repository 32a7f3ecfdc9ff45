import TableQuery.Proofs.Calendar.Order
import TableQuery.Proofs.Cell.Recovered
import TableQuery.Proofs.Decimal.Words

/-!
# The order of raw values

Values on one scale are in order with each other, and those of one kind exactly: texts, texts of
bytes, moments and numbers, which meet as doubles if they are of different kinds. For sorting, null
comes first and values on different scales count as equal. That is no order of all values, since a
value may count as equal to two others that are in order with each other.

## Main definitions

* `Raw.word?` — the whole number that a word is.
* `Raw.place?` — the place of a number among the doubles.
* `Raw.scale?` — the scale that a value is on.
* `Raw.Blurs` — a value counts as equal to two others, of which one comes before the other.

## Main results

* `Raw.compare?_word` — the order of words.
* `Raw.compare?_swap`, `Raw.sortOrder_swap` — both orders read the same from both sides.
* `Raw.intransitive_iff` — where sorting is not by an order.
-/

namespace TableQuery

open Decimal (Place nearestInt)

theorem compareBytes_eq_compareLex (as bs : List UInt8) :
    compareBytes as bs = List.compareLex compare as bs := by
  induction as generalizing bs with
  | nil => cases bs <;> rfl
  | cons a as ih =>
    cases bs with
    | nil => rfl
    | cons b bs => rw [compareBytes, List.compareLex_cons_cons, ih]

instance compareBytes_transCmp : Std.TransCmp compareBytes := by
  rw [show compareBytes = List.compareLex compare from
    funext₂ compareBytes_eq_compareLex]
  infer_instance

namespace Raw

/-! ## Words -/

def word? : Raw → Option ℤ
  | int x => some x.toInt
  | uint y => some y.toNat
  | _ => none

section Word

variable {a b : Raw} {i j : ℤ}

theorem compare_int64 (x y : Int64) : compare x y = compare x.toInt y.toInt := by
  simp only [compare, compareOfLessAndEq, Int64.lt_iff_toInt_lt, Int64.toInt_inj]

theorem compare_uint64 (x y : UInt64) : compare x y = compare (x.toNat : ℤ) (y.toNat : ℤ) := by
  rw [Decimal.compare_natCast]
  exact UInt64.compare_eq_toNat_compare_toNat x y

/-- Words of one kind are in the order of numbers, and a signed and an unsigned word in that of the
nearest numbers of 53 bits. -/
theorem compare?_word (ha : a.word? = some i) (hb : b.word? = some j) :
    a.compare? b = some (if a.kind? = b.kind? then compare i j
      else compare (nearestInt i) (nearestInt j)) := by
  cases a <;> cases b <;> simp only [word?, Option.some.injEq, reduceCtorEq] at ha hb
  · next x y =>
    subst ha hb
    exact congrArg some (compare_int64 x y)
  · next x y =>
    subst ha hb
    exact Decimal.compareFloats?_of_isWhole (Decimal.isWhole_ofInt64 x) (Decimal.isWhole_toFloat y)
  · next x y =>
    subst ha hb
    exact Decimal.compareFloats?_of_isWhole (Decimal.isWhole_toFloat x) (Decimal.isWhole_ofInt64 y)
  · next x y =>
    subst ha hb
    exact congrArg some (compare_uint64 x y)

end Word

/-! ## Numbers of different kinds -/

def place? (a : Raw) : Option Place :=
  a.float?.bind Decimal.place?

section Place

variable {a b c : Raw} {p q : Place}

/-- Values of different kinds are in order only if both are numbers, and then by their places. -/
theorem compare?_of_kind_ne (h : a.kind? ≠ b.kind?) :
    a.compare? b = a.place?.bind fun p => b.place?.map fun q => compare p q := by
  have hfloats (x y : Float) : compareFloats? x y =
      (Decimal.place? x).bind fun p => (Decimal.place? y).map fun q => compare p q :=
    compareFloats?_eq x y
  cases a <;> cases b <;>
    first
    | exact absurd rfl h
    | exact hfloats _ _
    | simp [compare?, place?, float?]

theorem compare?_float (x y : Float) : (float x).compare? (float y) =
    (float x).place?.bind fun p => (float y).place?.map fun q => compare p q :=
  compareFloats?_eq x y

/-- The places of words are in the order of the nearest numbers of 53 bits. -/
theorem compare_place_word {i j : ℤ} (ha : a.word? = some i) (hb : b.word? = some j) :
    ∃ p q, a.place? = some p ∧ b.place? = some q ∧
      compare p q = compare (nearestInt i) (nearestInt j) := by
  have hwhole {a : Raw} {i : ℤ} (ha : a.word? = some i) : ∃ x, a.float? = some x ∧
      Decimal.IsWhole x.toModel.unpack (nearestInt i) := by
    cases a <;> simp only [word?, Option.some.injEq, reduceCtorEq] at ha
    · exact ⟨_, rfl, ha ▸ Decimal.isWhole_ofInt64 _⟩
    · exact ⟨_, rfl, ha ▸ Decimal.isWhole_toFloat _⟩
  obtain ⟨x, hx, hi⟩ := hwhole ha
  obtain ⟨y, hy, hj⟩ := hwhole hb
  have hcompare := Decimal.compareFloats?_of_isWhole hi hj
  rw [compareFloats?_eq, Option.bind_eq_some_iff] at hcompare
  obtain ⟨p, hp, hcompare⟩ := hcompare
  obtain ⟨q, hq, hcompare⟩ := Option.map_eq_some_iff.mp hcompare
  exact ⟨p, q, by simp [place?, hx, hp], by simp [place?, hy, hq], hcompare⟩

/-- Numbers of one kind whose places are in order are in order, too. -/
theorem place_le (hp : a.place? = some p) (hq : b.place? = some q)
    (h : a.compare? b ≠ some .gt) : p ≤ q := by
  by_contra! hlt
  refine h ?_
  by_cases hkind : a.kind? = b.kind?
  · have hword {i j : ℤ} (ha : a.word? = some i) (hb : b.word? = some j) :
        a.compare? b = some .gt := by
      obtain ⟨p', q', hp', hq', hplaces⟩ := compare_place_word ha hb
      obtain rfl := Option.some.inj (hp.symm.trans hp')
      obtain rfl := Option.some.inj (hq.symm.trans hq')
      rw [compare_gt_iff_gt.mpr hlt, eq_comm, compare_gt_iff_gt] at hplaces
      rw [compare?_word ha hb, if_pos hkind, compare_gt_iff_gt.mpr]
      by_contra! hle
      exact absurd (Decimal.nearestInt_mono hle) (not_le.mpr hplaces)
    cases a <;> cases b <;> cases hkind
    case null.refl => cases hp
    case bool.refl x y =>
      have hzero : (bool false).place? = some (toLex (0, toLex (0, 0))) := rfl
      have hone : (bool true).place? = some (toLex (1, toLex (-52, 2 ^ 52))) := rfl
      cases x <;> cases y
      · exact absurd hlt (Option.some.inj (hp.symm.trans hq) ▸ lt_irrefl p)
      · obtain rfl := Option.some.inj (hp.symm.trans hzero)
        obtain rfl := Option.some.inj (hq.symm.trans hone)
        exact absurd hlt (by decide)
      · rfl
      · exact absurd hlt (Option.some.inj (hp.symm.trans hq) ▸ lt_irrefl p)
    case int.refl x y => exact hword rfl rfl
    case uint.refl x y => exact hword rfl rfl
    case float.refl x y =>
      rw [compare?_float, hp, hq]
      exact congrArg some (compare_gt_iff_gt.mpr hlt)
    case text.refl => cases hp
    case bytes.refl => cases hp
    case time.refl => cases hp
  · rw [compare?_of_kind_ne hkind, hp, hq]
    exact congrArg some (compare_gt_iff_gt.mpr hlt)

theorem compare?_trans (hab : a.kind? = b.kind?) (hbc : b.kind? = c.kind?)
    (h : (a.compare? b).any Ordering.isLE = true) (h' : (b.compare? c).any Ordering.isLE = true) :
    (a.compare? c).any Ordering.isLE = true := by
  cases a <;> cases b <;> cases hab <;> cases c <;> cases hbc
  case null.refl.null.refl => rfl
  case float.refl.float.refl x y z =>
    rw [compare?_float] at h h' ⊢
    generalize (float x).place? = p at h h' ⊢
    generalize (float y).place? = q at h h' ⊢
    generalize (float z).place? = r at h h' ⊢
    cases p <;> cases q <;> cases r <;> try contradiction
    exact Std.TransCmp.isLE_trans h h'
  all_goals exact Std.TransCmp.isLE_trans h h'

end Place

/-- The order reads the same from both sides. -/
theorem compare?_swap (a b : Raw) : b.compare? a = (a.compare? b).map Ordering.swap := by
  have hplaces (p q : Option Place) : (q.bind fun q => p.map fun p => compare q p) =
      (p.bind fun p => q.map fun q => compare p q).map Ordering.swap := by
    cases p <;> cases q <;> try rfl
    exact congrArg some Std.OrientedOrd.eq_swap
  by_cases hkind : a.kind? = b.kind?
  · cases a <;> cases b <;> cases hkind
    case null.refl => rfl
    case float.refl x y => rw [compare?_float, compare?_float, hplaces]
    case bytes.refl x y => exact congrArg some Std.OrientedCmp.eq_swap
    all_goals exact congrArg some Std.OrientedOrd.eq_swap
  · rw [compare?_of_kind_ne hkind, compare?_of_kind_ne (Ne.symm hkind), hplaces]

/-! ## Scales -/

/-- Values on one scale are in order with each other. -/
inductive Scale where
  | text
  | bytes
  | moment
  | number
  deriving DecidableEq

/-- The scale that a value is on. Null is on none, nor is what is no number. -/
def scale? : Raw → Option Scale
  | null => none
  | text _ => some .text
  | bytes _ => some .bytes
  | time _ => some .moment
  | bool _ | int _ | uint _ => some .number
  | float x => (Decimal.place? x).map fun _ => .number

section Scale

variable {a b : Raw}

/-- Numbers are what has a place among the doubles. -/
theorem scale?_eq_number_iff : a.scale? = some .number ↔ a.place?.isSome = true := by
  have hword {a : Raw} {i : ℤ} (h : a.word? = some i) : a.place?.isSome = true := by
    obtain ⟨p, -, hp, -⟩ := compare_place_word h h
    rw [hp]
    rfl
  cases a with
  | null | text s | bytes bs | time t => simp [scale?, place?, float?]
  | bool b => cases b <;> exact iff_of_true rfl rfl
  | int x | uint y => exact iff_of_true rfl (hword rfl)
  | float x => simp [scale?, place?, float?, Option.isSome_iff_exists]

/-- Values that are there are in order exactly if they are on one scale. -/
theorem isSome_compare?_iff (ha : a.isNull = false) :
    (a.compare? b).isSome = true ↔ a.scale?.isSome = true ∧ b.scale? = a.scale? := by
  by_cases hkind : a.kind? = b.kind?
  · cases a <;> cases b <;> cases hkind
    case null.refl => cases ha
    case float.refl x y =>
      rw [compare?_float, place?, place?, float?, float?, Option.bind_some, Option.bind_some,
        scale?, scale?]
      cases Decimal.place? x <;> cases Decimal.place? y <;> simp
    all_goals exact iff_of_true rfl ⟨rfl, rfl⟩
  · have hplaces : (a.compare? b).isSome = true ↔
        a.scale? = some .number ∧ b.scale? = some .number := by
      rw [compare?_of_kind_ne hkind, scale?_eq_number_iff, scale?_eq_number_iff]
      cases a.place? <;> cases b.place? <;> simp
    rw [hplaces]
    constructor
    · rintro ⟨h, h'⟩
      rw [h, h']
      exact ⟨rfl, rfl⟩
    · rintro ⟨h, h'⟩
      -- Only numbers of different kinds are on one scale.
      cases a <;> cases b <;> simp_all [scale?, kind?]

end Scale

/-! ## Sorting -/

section Sorting

variable {a b c : Raw}

theorem sortOrder_of_not_isNull (ha : a.isNull = false) (hb : b.isNull = false) :
    a.sortOrder b = (a.compare? b).getD .eq := by
  rw [sortOrder, ha, hb]

/-- Every value counts as equal to itself. -/
theorem sortOrder_self (a : Raw) : a.sortOrder a = .eq := by
  cases ha : a.isNull with
  | true => rw [sortOrder, ha]
  | false =>
    have hswap := compare?_swap a a
    rw [sortOrder_of_not_isNull ha ha]
    cases h : a.compare? a with
    | none => rfl
    | some o =>
      rw [h] at hswap
      cases o <;> simp_all

theorem sortOrder_swap (a b : Raw) : b.sortOrder a = (a.sortOrder b).swap := by
  cases ha : a.isNull <;> cases hb : b.isNull
  · rw [sortOrder_of_not_isNull ha hb, sortOrder_of_not_isNull hb ha, compare?_swap a b]
    cases a.compare? b <;> rfl
  all_goals simp only [sortOrder, ha, hb, Ordering.swap]

/-- A value counts as equal to two others of which the second comes before the first: it is on
another scale, or it is of another kind and as a double all three are the same. -/
def Blurs (b a c : Raw) : Prop :=
  a.compare? c = some .gt ∧ b.isNull = false ∧
    (b.scale? ≠ a.scale? ∨ b.kind? ≠ a.kind? ∧ b.place? = a.place? ∧ b.place? = c.place?)

theorem not_isNull_of_compare? (h : a.compare? b = some .gt) :
    a.isNull = false ∧ b.isNull = false := by
  cases a <;> cases b <;> first | exact ⟨rfl, rfl⟩ | cases h

theorem Blurs.sortOrder_eq (h : b.Blurs a c) : a.sortOrder b = .eq ∧ b.sortOrder c = .eq := by
  obtain ⟨hgt, hb, h⟩ := h
  obtain ⟨ha, hc⟩ := not_isNull_of_compare? hgt
  rw [sortOrder_of_not_isNull ha hb, sortOrder_of_not_isNull hb hc]
  have hnone {a b : Raw} (ha : a.isNull = false) (h : b.scale? ≠ a.scale?) :
      a.compare? b = none := by
    rw [← Option.not_isSome_iff_eq_none, isSome_compare?_iff ha]
    exact fun hsome => h hsome.2
  rcases h with hscale | ⟨hkind, hplace, hplace'⟩
  · obtain ⟨-, hac⟩ := (isSome_compare?_iff ha).mp (by rw [hgt]; rfl)
    rw [hnone ha hscale, hnone hb (hac ▸ hscale.symm)]
    exact ⟨rfl, rfl⟩
  · have hequal {a b : Raw} (hkind : a.kind? ≠ b.kind?) (h : a.place? = b.place?) :
        (a.compare? b).getD .eq = .eq := by
      rw [compare?_of_kind_ne hkind, h]
      cases b.place? with
      | none => rfl
      | some p => exact compare_eq_iff_eq.mpr rfl
    have hac : a.kind? = c.kind? := by
      by_contra hne
      have heq := hequal hne (hplace.symm.trans hplace')
      rw [hgt] at heq
      cases heq
    exact ⟨hequal (Ne.symm hkind) hplace.symm, hequal (hac ▸ hkind) hplace'⟩

/-- Other values than numbers are of one kind with all on their scale. -/
theorem kind?_eq_of_scale? (ha : a.scale?.isSome = true) (hnumber : a.scale? ≠ some .number)
    (h : b.scale? = a.scale?) : b.kind? = a.kind? := by
  cases a <;> cases b <;> simp_all [scale?, kind?]

/-- Values of one scale that are in order, but not by a transitive order. -/
theorem blurs_of_compare? (hscale : b.scale? = a.scale?) (hab : (a.compare? b).any Ordering.isLE)
    (hbc : (b.compare? c).any Ordering.isLE) (hac : a.compare? c = some .gt) :
    b.kind? ≠ a.kind? ∧ b.place? = a.place? ∧ b.place? = c.place? := by
  obtain ⟨ha, -⟩ := not_isNull_of_compare? hac
  obtain ⟨hsome, hscale'⟩ := (isSome_compare?_iff ha).mp (by rw [hac]; rfl)
  have hkinds (hb : b.kind? = a.kind?) (hc : c.kind? = a.kind?) : False := by
    have h := compare?_trans hb.symm (hb.trans hc.symm) hab hbc
    rw [hac] at h
    cases h
  by_cases hnumber : a.scale? = some .number
  · obtain ⟨p, hp⟩ := Option.isSome_iff_exists.mp (scale?_eq_number_iff.mp hnumber)
    obtain ⟨q, hq⟩ := Option.isSome_iff_exists.mp
      (scale?_eq_number_iff.mp (hscale.trans hnumber))
    obtain ⟨r, hr⟩ := Option.isSome_iff_exists.mp
      (scale?_eq_number_iff.mp (hscale'.trans hnumber))
    have hpq : p ≤ q := place_le hp hq fun h => by rw [h] at hab; cases hab
    have hqr : q ≤ r := place_le hq hr fun h => by rw [h] at hbc; cases hbc
    have hrp : r ≤ p := place_le hr hp fun h => by
      rw [compare?_swap, hac] at h
      cases h
    obtain rfl : p = q := hpq.antisymm (hqr.trans hrp)
    obtain rfl : p = r := hqr.antisymm hrp
    refine ⟨fun hb => ?_, hq.trans hp.symm, hq.trans hr.symm⟩
    have hc : a.kind? ≠ c.kind? := fun hc => hkinds hb hc.symm
    rw [compare?_of_kind_ne hc, hp, hr] at hac
    have hrefl : compare p p = .eq := compare_eq_iff_eq.mpr rfl
    cases hrefl.symm.trans (Option.some.inj hac)
  · exact absurd (kind?_eq_of_scale? hsome hnumber hscale')
      (hkinds (kind?_eq_of_scale? hsome hnumber hscale))

/-- Sorting is by no transitive order exactly at a value that counts as equal to two others of which
the second comes before the first. -/
theorem intransitive_iff :
    a.sortOrder b ≠ .gt ∧ b.sortOrder c ≠ .gt ∧ a.sortOrder c = .gt ↔ b.Blurs a c := by
  constructor
  · rintro ⟨hab, hbc, hac⟩
    -- With null everything is in order.
    obtain ⟨ha, hb, hc⟩ : a.isNull = false ∧ b.isNull = false ∧ c.isNull = false := by
      cases ha : a.isNull <;> cases hb : b.isNull <;> cases hc : c.isNull <;>
        simp_all [sortOrder]
    rw [sortOrder_of_not_isNull ha hb] at hab
    rw [sortOrder_of_not_isNull hb hc] at hbc
    rw [sortOrder_of_not_isNull ha hc] at hac
    have hgt : a.compare? c = some .gt := by
      cases h : a.compare? c with
      | none => rw [h] at hac; cases hac
      | some o => rw [h] at hac; exact congrArg some hac
    obtain ⟨hsome, hscale'⟩ := (isSome_compare?_iff ha).mp (by rw [hgt]; rfl)
    have hle {a b : Raw} (ha : a.isNull = false) (hsome : a.scale?.isSome = true)
        (h : b.scale? = a.scale?) (hab : (a.compare? b).getD .eq ≠ .gt) :
        (a.compare? b).any Ordering.isLE = true := by
      obtain ⟨o, ho⟩ := Option.isSome_iff_exists.mp ((isSome_compare?_iff ha).mpr ⟨hsome, h⟩)
      rw [ho] at hab ⊢
      cases o <;> first | rfl | exact absurd rfl hab
    refine ⟨hgt, hb, or_iff_not_imp_left.mpr fun hscale => ?_⟩
    rw [not_not] at hscale
    exact blurs_of_compare? hscale (hle ha hsome hscale hab)
      (hle hb (hscale ▸ hsome) (hscale'.trans hscale.symm) hbc) hgt
  · intro h
    obtain ⟨hab, hbc⟩ := h.sortOrder_eq
    obtain ⟨ha, hc⟩ := not_isNull_of_compare? h.1
    refine ⟨hab ▸ nofun, hbc ▸ nofun, ?_⟩
    rw [sortOrder_of_not_isNull ha hc, h.1]
    rfl

/-- No value blurs others of its own kind, unless it is no number. -/
theorem not_blurs_of_kind (hscale : b.scale? = a.scale?) (hkind : b.kind? = a.kind?) :
    ¬ b.Blurs a c := by
  rintro ⟨-, -, hne | ⟨hne, -⟩⟩
  · exact hne hscale
  · exact hne hkind

end Sorting

end Raw

end TableQuery
