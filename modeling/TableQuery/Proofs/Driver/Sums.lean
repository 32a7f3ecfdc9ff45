import Mathlib.Algebra.Order.BigOperators.Group.List
import Mathlib.Algebra.Ring.Int.Defs
import TableQuery.Proofs.Driver.Memory
import TableQuery.Proofs.Lists
import TableQuery.Proofs.Sample

/-!
# Sums of whole numbers

A sum of whole numbers is kept within a word after each addend. What exceeds the word on the way is
lost, also where the sum of all addends fits: the greatest word, one and minus one add up to one
less than the greatest word, and in the order of minus one, one and the greatest word they add up to
the greatest word. Nothing is lost where the sum of the first addends fits however many they are.
This is so in every order of the rows exactly if the gains alone fit, and the losses alone.

## Main definitions

* `Memory.counted`, `Memory.total` — the values that an aggregate counts, and the aggregate.
* `FitsWord`, `closestWord`, `sumWithin` — sums of integers that are kept within a word.
* `gains`, `losses` — the sums of the addends of one sign.
* `Memory.wholes`, `Memory.HoldsWhole` — the whole numbers of a column.
* `Memory.AddsUpTo` — the sum that rows have in every order.

## Main results

* `sumWithin_eq` — the sum is exact where the sums of the first addends fit.
* `sumWithin_eq_of_perm`, `bounds_of_sumWithin` — when it is exact in every order.
* `Memory.aggregate_sum` — sums of whole numbers are such sums.
* `Memory.addsUpTo_iff` — when the sum of a column does not depend on the order of the rows.
* `Ledger.order_changes_sum` — a sum that does.
-/

namespace TableQuery

/-! ## Sums within a word -/

/-- An integer that a signed word of 64 bits holds. -/
def FitsWord (i : Int) : Prop :=
  -2 ^ 63 ≤ i ∧ i < 2 ^ 63

/-- The integer closest to an integer that a word holds. -/
def closestWord (i : Int) : Int :=
  max (-2 ^ 63) (min (2 ^ 63 - 1) i)

instance (i : Int) : Decidable (FitsWord i) :=
  inferInstanceAs (Decidable (_ ∧ _))

theorem fitsWord_closestWord (i : Int) : FitsWord (closestWord i) := by
  unfold FitsWord closestWord
  omega

theorem closestWord_of_fitsWord {i : Int} (h : FitsWord i) : closestWord i = i := by
  unfold FitsWord at h
  unfold closestWord
  omega

theorem fitsWord_toInt (i : Int64) : FitsWord i.toInt :=
  ⟨i.le_toInt, i.toInt_lt⟩

theorem toInt_ofInt_of_fitsWord {i : Int} (h : FitsWord i) : (Int64.ofInt i).toInt = i :=
  Int64.toInt_ofInt_of_le h.1 h.2

theorem toInt_addWithin (a b : Int64) :
    (addWithin a b).toInt = closestWord (a.toInt + b.toInt) :=
  toInt_ofInt_of_fitsWord (fitsWord_closestWord _)

/-- The sum of integers onto a sum, kept within a word after each of them. -/
def sumWithin (sum : Int) : List Int → Int
  | [] => sum
  | n :: ns => sumWithin (closestWord (sum + n)) ns

variable {sum : Int} {ns part : List Int}

theorem sumWithin_append (sum : Int) (ns ms : List Int) :
    sumWithin sum (ns ++ ms) = sumWithin (sumWithin sum ns) ms := by
  induction ns generalizing sum with
  | nil => rfl
  | cons n ns ih => exact ih _

theorem fitsWord_sumWithin (h : FitsWord sum) (ns : List Int) : FitsWord (sumWithin sum ns) := by
  induction ns generalizing sum with
  | nil => exact h
  | cons n ns ih => exact ih (fitsWord_closestWord _)

/-- Nothing is lost where the sums of the first addends fit. -/
theorem sumWithin_eq (h : ∀ part, part <+: ns → FitsWord (sum + part.sum)) :
    sumWithin sum ns = sum + ns.sum := by
  induction ns generalizing sum with
  | nil => simp [sumWithin]
  | cons n ns ih =>
    have hfirst : FitsWord (sum + n) := by
      simpa using h [n] (by simp)
    rw [sumWithin, closestWord_of_fitsWord hfirst, ih, List.sum_cons]
    · omega
    · intro part hpart
      have hlonger := h (n :: part) (List.cons_prefix_cons.mpr ⟨rfl, hpart⟩)
      rwa [List.sum_cons, ← add_assoc] at hlonger

/-- Addends of one sign reach a bound once, so that what is lost on the way is lost in the end. -/
theorem sumWithin_of_sign (hsum : FitsWord sum)
    (h : (∀ n ∈ ns, 0 ≤ n) ∨ ∀ n ∈ ns, n ≤ 0) :
    sumWithin sum ns = closestWord (sum + ns.sum) := by
  induction ns generalizing sum with
  | nil => simp [sumWithin, closestWord_of_fitsWord hsum]
  | cons n ns ih =>
    simp only [List.forall_mem_cons] at h
    have hrest : (∀ m ∈ ns, 0 ≤ m) ∨ ∀ m ∈ ns, m ≤ 0 := h.imp And.right And.right
    have hsigns : 0 ≤ n ∧ 0 ≤ ns.sum ∨ n ≤ 0 ∧ ns.sum ≤ 0 := by
      rcases h with ⟨hn, hns⟩ | ⟨hn, hns⟩
      · exact .inl ⟨hn, List.sum_nonneg hns⟩
      · exact .inr ⟨hn, by simpa using List.sum_le_card_nsmul ns 0 hns⟩
    rw [sumWithin, ih (fitsWord_closestWord _) hrest, List.sum_cons]
    unfold FitsWord at hsum
    unfold closestWord
    omega

/-! ## Gains and losses -/

/-- The sum of the addends that are not negative. -/
def gains (ns : List Int) : Int :=
  (ns.filter fun n => 0 ≤ n).sum

/-- The sum of the negative addends. -/
def losses (ns : List Int) : Int :=
  (ns.filter fun n => !(0 ≤ n)).sum

theorem gains_perm {ns ms : List Int} (h : ns.Perm ms) : gains ns = gains ms :=
  (h.filter _).sum_eq

theorem losses_perm {ns ms : List Int} (h : ns.Perm ms) : losses ns = losses ms :=
  (h.filter _).sum_eq

theorem gains_add_losses (ns : List Int) : gains ns + losses ns = ns.sum := by
  rw [gains, losses, ← List.sum_append]
  exact (List.filter_append_perm _ ns).sum_eq

/-- Some of the addends add up to something between the losses and the gains. -/
theorem sum_bounds (h : part.Sublist ns) : losses ns ≤ part.sum ∧ part.sum ≤ gains ns := by
  induction h with
  | slnil => simp [gains, losses]
  | cons n _ ih =>
    unfold gains losses at *
    by_cases hn : 0 ≤ n <;> simp [hn] <;> omega
  | cons_cons n _ ih =>
    unfold gains losses at *
    by_cases hn : 0 ≤ n <;> simp [hn] <;> omega

theorem sumWithin_gains_first (ns : List Int) :
    sumWithin 0 (ns.filter (fun n => 0 ≤ n) ++ ns.filter fun n => !(0 ≤ n)) =
      closestWord (closestWord (gains ns) + losses ns) := by
  have hgains : sumWithin 0 (ns.filter fun n => 0 ≤ n) = closestWord (0 + gains ns) :=
    sumWithin_of_sign (by decide) (.inl (by simp))
  rw [sumWithin_append, hgains, zero_add]
  refine sumWithin_of_sign (fitsWord_closestWord _) (.inr fun n hn => ?_)
  simp only [List.mem_filter, Bool.not_eq_true', decide_eq_false_iff_not] at hn
  omega

theorem sumWithin_losses_first (ns : List Int) :
    sumWithin 0 (ns.filter (fun n => !(0 ≤ n)) ++ ns.filter fun n => 0 ≤ n) =
      closestWord (closestWord (losses ns) + gains ns) := by
  have hlosses : sumWithin 0 (ns.filter fun n => !(0 ≤ n)) = closestWord (0 + losses ns) := by
    refine sumWithin_of_sign (by decide) (.inr fun n hn => ?_)
    simp only [List.mem_filter, Bool.not_eq_true', decide_eq_false_iff_not] at hn
    omega
  rw [sumWithin_append, hlosses, zero_add]
  exact sumWithin_of_sign (fitsWord_closestWord _) (.inl (by simp))

/-- Where the gains and the losses fit, the sum is exact in every order. -/
theorem sumWithin_eq_of_perm (hgains : gains ns < 2 ^ 63) (hlosses : -2 ^ 63 ≤ losses ns)
    {ms : List Int} (h : ms.Perm ns) : sumWithin 0 ms = ns.sum := by
  rw [sumWithin_eq, zero_add, h.sum_eq]
  intro part hpart
  have hbounds := sum_bounds hpart.sublist
  rw [gains_perm h, losses_perm h] at hbounds
  unfold FitsWord
  omega

/-- Where the sum of all addends fits and is exact with all gains first and with all losses first,
the gains and the losses fit. -/
theorem bounds_of_sumWithin (h : FitsWord ns.sum)
    (hgains : sumWithin 0 (ns.filter (fun n => 0 ≤ n) ++ ns.filter fun n => !(0 ≤ n)) = ns.sum)
    (hlosses : sumWithin 0 (ns.filter (fun n => !(0 ≤ n)) ++ ns.filter fun n => 0 ≤ n) = ns.sum) :
    gains ns < 2 ^ 63 ∧ -2 ^ 63 ≤ losses ns := by
  -- Gains that exceed a word are only made up for by a sum at the lower bound, and then the losses
  -- exceed it as well, so that the sum is not at the lower bound in the other order.
  rw [sumWithin_gains_first] at hgains
  rw [sumWithin_losses_first] at hlosses
  have hsum := gains_add_losses ns
  unfold FitsWord at h
  unfold closestWord at hgains hlosses
  omega

/-! ## Aggregates -/

/-- A value that is a whole number which a signed word holds. -/
def Raw.whole? : Raw → Option Int
  | int i => some i.toInt
  | uint u => if u.toNat < 2 ^ 63 then some u.toNat else none
  | _ => none

theorem Raw.fitsWord_of_whole? {raw : Raw} {n : Int} (h : raw.whole? = some n) : FitsWord n := by
  cases raw <;> simp only [whole?, Option.some.injEq, reduceCtorEq] at h
  · exact h ▸ fitsWord_toInt _
  · split at h
    · obtain rfl := Option.some.inj h
      unfold FitsWord
      omega
    · cases h

namespace Memory

variable {t : Table} {c : Column} {a : AggregateColumn} {rows : List StoredRow}
  {values values' : List Raw}

/-- The values of a column that an aggregate counts. -/
def counted (c : Column) (rows : List StoredRow) : List Raw :=
  (rows.filterMap fun row => row.get? c).filter fun raw => !raw.isNull

def total (c : Column) (a : Aggregate) (values : List Raw) : Except QueryError Raw :=
  match a with
  | .none => .ok .null
  | .sum =>
    if c.kind.isInteger then (sumWhole c 0 values).map .int
    else .ok (.float (sumFloats (values.filterMap Raw.float?)))
  | .average =>
    let floats := values.filterMap Raw.float?
    .ok (if floats.isEmpty then .null else .float (sumFloats floats / floats.length.toFloat))

theorem aggregate_eq : aggregate t rows a = (do
    let c ← t.column a.column
    let value ← total c a.aggregate (counted c rows)
    return ⟨a.column, a.aggregate, value⟩) := by
  refine bind_congr fun c => ?_
  cases a.aggregate with
  | none | average => rfl
  | sum =>
    unfold total
    dsimp only
    split <;> rfl

theorem aggregate_eq_ok_iff {raw : RawAggregate} :
    aggregate t rows a = .ok raw ↔ ∃ c value, t.column? a.column = some c ∧
      total c a.aggregate (counted c rows) = .ok value ∧
      raw = ⟨a.column, a.aggregate, value⟩ := by
  simp only [aggregate_eq, Except.bind_eq_ok_iff, Table.column_eq_ok_iff, Except.pure_eq_ok,
    Except.ok.injEq]
  constructor
  · rintro ⟨c, hc, value, hvalue, rfl⟩
    exact ⟨c, value, hc, hvalue, rfl⟩
  · rintro ⟨c, value, hc, hvalue, rfl⟩
    exact ⟨c, hc, value, hvalue, rfl⟩

theorem exists_sumWhole_iff {sum : Int64} :
    (∃ s, sumWhole c sum values = .ok s) ↔ ∀ raw ∈ values, ∃ i, addend c raw = .ok i := by
  induction values generalizing sum with
  | nil => simp [sumWhole]
  | cons raw values ih =>
    rw [List.forall_mem_cons]
    simp only [sumWhole, Except.bind_eq_ok_iff]
    constructor
    · rintro ⟨s, i, hi, hs⟩
      exact ⟨⟨i, hi⟩, ih.mp ⟨s, hs⟩⟩
    · rintro ⟨⟨i, hi⟩, hrest⟩
      obtain ⟨s, hs⟩ := ih.mpr hrest
      exact ⟨s, i, hi, hs⟩

/-! ## Sums of columns -/

def wholes (c : Column) (rows : List StoredRow) : List Int :=
  rows.filterMap fun row => (row.get? c).bind Raw.whole?

/-- What a column holds is null or a whole number which a signed word holds. -/
def HoldsWhole (c : Column) (rows : List StoredRow) : Prop :=
  ∀ raw ∈ counted c rows, raw.whole?.isSome = true

theorem addend_of_whole? {raw : Raw} {n : Int} (h : raw.whole? = some n) :
    addend c raw = .ok (Int64.ofInt n) := by
  have hpow : Nat.pow 2 63 = 2 ^ 63 := rfl
  cases raw <;> simp only [Raw.whole?, Option.some.injEq, reduceCtorEq] at h
  · rw [addend, ← h, Int64.ofInt_toInt]
  · split at h
    · next hlt =>
      obtain rfl := Option.some.inj h
      rw [addend, hpow, if_pos hlt]
      rfl
    · cases h

theorem sumWhole_eq (h : ∀ raw ∈ values, raw.whole?.isSome = true) (sum : Int64) :
    sumWhole c sum values =
      .ok (Int64.ofInt (sumWithin sum.toInt (values.filterMap Raw.whole?))) := by
  induction values generalizing sum with
  | nil => simp [sumWhole, sumWithin]
  | cons raw values ih =>
    rw [List.forall_mem_cons] at h
    obtain ⟨n, hn⟩ := Option.isSome_iff_exists.mp h.1
    have hfits := toInt_ofInt_of_fitsWord (Raw.fitsWord_of_whole? hn)
    simp only [sumWhole, addend_of_whole? hn, Except.ok_bind, ih h.2, toInt_addWithin, hfits,
      List.filterMap_cons_some hn, sumWithin]

/-- Null is no whole number, so that it does not matter whether it is passed over first. -/
theorem filterMap_counted (c : Column) (rows : List StoredRow) :
    (counted c rows).filterMap Raw.whole? = wholes c rows := by
  rw [counted, List.filterMap_filter, List.filterMap_filterMap, wholes]
  congr 1
  funext row
  cases row.get? c with
  | none => rfl
  | some raw => cases raw <;> rfl

theorem aggregate_sum {column : String} (hc : t.column? column = some c)
    (hkind : c.kind.isInteger = true) (h : HoldsWhole c rows) :
    aggregate t rows ⟨column, .sum⟩ =
      .ok ⟨column, .sum, .int (Int64.ofInt (sumWithin 0 (wholes c rows)))⟩ := by
  refine aggregate_eq_ok_iff.mpr ⟨c, _, hc, ?_, rfl⟩
  rw [total, if_pos hkind, sumWhole_eq h, filterMap_counted]
  rfl

theorem wholes_perm {rows' : List StoredRow} (h : rows.Perm rows') :
    (wholes c rows).Perm (wholes c rows') :=
  h.filterMap _

theorem HoldsWhole.perm {rows' : List StoredRow} (h : HoldsWhole c rows) (hperm : rows'.Perm rows) :
    HoldsWhole c rows' := by
  intro raw hraw
  exact h raw (((hperm.filterMap _).filter _).subset hraw)

theorem wholes_append (rows rows' : List StoredRow) :
    wholes c (rows ++ rows') = wholes c rows ++ wholes c rows' :=
  List.filterMap_append

theorem wholes_filter {p : Int → Bool} {q : StoredRow → Bool}
    (h : ∀ row n, (row.get? c).bind Raw.whole? = some n → q row = p n) (rows : List StoredRow) :
    wholes c (rows.filter q) = (wholes c rows).filter p := by
  rw [wholes, wholes, List.filterMap_filter, List.filter_filterMap]
  congr 1
  funext row
  cases hn : (row.get? c).bind Raw.whole? with
  | none => simp
  | some n => simp [h row n hn, Option.filter_some]

variable {m : Memory} {now : Moment} {conditions : List RawCondition} {column : String}

/-- In which order rows are held does not matter for the conditions that hold on one of them. -/
theorem holds_withRows (m : Memory) (rows : List StoredRow) (row : StoredRow) :
    ({ m with rows } : Memory).holds now t row conditions = m.holds now t row conditions := by
  induction conditions with
  | nil => rfl
  | cons condition conditions ih =>
    simp only [holds, ih]
    rfl

theorem keeps_withRows (m : Memory) (rows : List StoredRow) :
    ({ m with rows } : Memory).keeps now t conditions = m.keeps now t conditions := by
  funext row
  rw [keeps, holds_withRows, keeps]

/-- Every fetch of the rows on which the conditions hold tells this sum of a column, in whatever
order the rows are held and asked for. -/
def AddsUpTo (m : Memory) (now : Moment) (t : Table) (conditions : List RawCondition)
    (column : String) (sum : Int) : Prop :=
  ∀ rows : List StoredRow, rows.Perm m.rows → ∀ f : Fetch, f.table = t →
    f.conditions = conditions → ⟨column, .sum⟩ ∈ f.aggregates →
    ∀ fetched, ({ m with rows } : Memory).fetch now f = .ok fetched →
      ⟨column, .sum, .int (Int64.ofInt sum)⟩ ∈ fetched.aggregates

/-- The matching rows of rows that are held in another order. -/
theorem matching_perm {rows matched : List StoredRow} (hperm : rows.Perm m.rows)
    (hm : m.matching now t conditions m.rows = .ok matched) :
    ∃ matched', ({ m with rows } : Memory).matching now t conditions rows = .ok matched' ∧
      matched'.Perm matched ∧ matched' = rows.filter (m.keeps now t conditions) := by
  obtain ⟨hholds, rfl⟩ := matching_eq_ok_iff.mp hm
  refine ⟨_, matching_eq_ok_iff.mpr ⟨fun row hrow => ?_, rfl⟩, ?_, ?_⟩
  · rw [holds_withRows]
    exact hholds row (hperm.subset hrow)
  · rw [keeps_withRows]
    exact hperm.filter _
  · rw [keeps_withRows]

/-- A sum that rows have in every order is that of the matching rows in the order they are held
in. -/
theorem AddsUpTo.sumWithin_eq {rows : List StoredRow} {sum : Int}
    (h : m.AddsUpTo now t conditions column sum) (hperm : rows.Perm m.rows)
    {matched : List StoredRow} (hm : m.matching now t conditions m.rows = .ok matched)
    (hc : t.column? column = some c) (hkind : c.kind.isInteger = true)
    (hwhole : HoldsWhole c matched) (hfits : FitsWord sum) :
    sumWithin 0 (wholes c (rows.filter (m.keeps now t conditions))) = sum := by
  obtain ⟨matched', hm', hperm', rfl⟩ := matching_perm hperm hm
  have haggregates : [⟨column, .sum⟩].mapM
      (aggregate t (rows.filter (m.keeps now t conditions))) = .ok [⟨column, .sum, .int (Int64.ofInt
        (sumWithin 0 (wholes c (rows.filter (m.keeps now t conditions)))))⟩] := by
    simp [aggregate_sum hc hkind (hwhole.perm hperm')]
  have hfetch : ({ m with rows } : Memory).fetch now
      ⟨t, conditions, [], [⟨column, .sum⟩], ⟨0, 1⟩, none⟩ = .ok _ :=
    fetch_eq_ok_iff.mpr ⟨_, _, hm', haggregates, rfl, rfl⟩
  have hmem := h rows hperm _ rfl rfl List.mem_cons_self _ hfetch
  simp only [List.mem_singleton, RawAggregate.mk.injEq, Raw.int.injEq, true_and] at hmem
  have hwords := congrArg Int64.toInt hmem
  rw [toInt_ofInt_of_fitsWord hfits,
    toInt_ofInt_of_fitsWord (fitsWord_sumWithin (by decide) _)] at hwords
  exact hwords.symm

def gaining (c : Column) (row : StoredRow) : Bool :=
  ((row.get? c).bind Raw.whole?).any fun n => 0 ≤ n

theorem wholes_gaining (c : Column) (rows : List StoredRow) :
    wholes c (rows.filter (gaining c)) = (wholes c rows).filter (fun n => 0 ≤ n) ∧
      wholes c (rows.filter fun row => !gaining c row) =
        (wholes c rows).filter fun n => !(0 ≤ n) := by
  constructor
  · exact wholes_filter (fun row n hn => by simp [gaining, hn]) rows
  · exact wholes_filter (fun row n hn => by simp [gaining, hn]) rows

/-- The sum of the whole numbers of a column is answered without fail, kept within a word after each
of them, and it is exact where the sums of the first of them fit. Where the sum of all of them fits,
it is exact in whatever order the rows are held and asked for exactly if the gains and the losses
fit. -/
theorem addsUpTo_iff {matched : List StoredRow}
    (hm : m.matching now t conditions m.rows = .ok matched) (hc : t.column? column = some c)
    (hkind : c.kind.isInteger = true) (hwhole : HoldsWhole c matched)
    (hfits : FitsWord (wholes c matched).sum) :
    (∀ order, aggregate t (sorted t order matched) ⟨column, .sum⟩ =
        .ok ⟨column, .sum, .int (Int64.ofInt (sumWithin 0 (wholes c (sorted t order matched))))⟩ ∧
      ((∀ part, part <+: wholes c (sorted t order matched) → FitsWord part.sum) →
        sumWithin 0 (wholes c (sorted t order matched)) = (wholes c matched).sum)) ∧
    (m.AddsUpTo now t conditions column (wholes c matched).sum ↔
      gains (wholes c matched) < 2 ^ 63 ∧ -2 ^ 63 ≤ losses (wholes c matched)) := by
  refine ⟨fun order => ⟨?_, fun hparts => ?_⟩, fun hadds => ?_, ?_⟩
  · exact aggregate_sum hc hkind (hwhole.perm (sorted_perm t order matched))
  · rw [sumWithin_eq (by simpa using hparts), zero_add]
    exact (wholes_perm (sorted_perm t order matched)).sum_eq
  · obtain ⟨-, rfl⟩ := matching_eq_ok_iff.mp hm
    obtain ⟨hgaining, hlosing⟩ := wholes_gaining c (m.rows.filter (m.keeps now t conditions))
    have hperm := List.filter_append_perm (gaining c) m.rows
    refine bounds_of_sumWithin hfits ?_ ?_
    · rw [← hadds.sumWithin_eq hperm hm hc hkind hwhole hfits, List.filter_append, wholes_append,
        List.filter_comm, hgaining, List.filter_comm, hlosing]
    · rw [← hadds.sumWithin_eq (List.perm_append_comm.trans hperm) hm hc hkind hwhole hfits,
        List.filter_append, wholes_append, List.filter_comm, hlosing, List.filter_comm, hgaining]
  · rintro ⟨hgains, hlosses⟩ rows hperm f rfl rfl hsum fetched hfetch
    obtain ⟨matched', aggregates, hm', haggregates, -, rfl⟩ := fetch_eq_ok_iff.mp hfetch
    obtain ⟨found, hfound, hpermuted, -⟩ := matching_perm hperm hm
    obtain rfl := Except.ok.inj (hfound.symm.trans hm')
    obtain ⟨raw, hraw, heq⟩ := forall₂_exists_right (Except.mapM_eq_ok_iff.mp haggregates) hsum
    have hsorted := (sorted_perm f.table f.order found).trans hpermuted
    rw [aggregate_sum hc hkind (hwhole.perm hsorted),
      sumWithin_eq_of_perm hgains hlosses (wholes_perm hsorted)] at heq
    exact Except.ok.inj heq ▸ hraw

end Memory

/-! ## The entries of a ledger -/

namespace Ledger

open Sample (clock)

def amount : Column :=
  { (default : Column) with
    id := "Amount", name := "Amount", kind := .int, type := .int, aggregates := [.sum]
    orderable := true, storageName := "Amount" }

def entries : Table :=
  ⟨"Entry", "Entry", "",
    [{ (default : Column) with
        id := "No", name := "No", kind := .string, type := .string, isKey := true
        storageName := "No" }, amount], "No", [], none, none⟩

def entry (amount : Raw) : StoredRow :=
  .keyed [("Amount", amount)]

def all (direction : Direction) : Fetch :=
  ⟨entries, [], [], [⟨"Amount", .sum⟩], .all, some ⟨"Amount", direction⟩⟩

/-- Entries of which some gain the greatest word and another one loses a little. -/
def fitting : Memory :=
  ⟨[entry (.int 9223372036854775806), entry .null, entry (.int (-5)), entry (.uint 1)], 100000, []⟩

/-- The entries that fit add up to the same in every order. -/
theorem fitting_adds_up :
    fitting.matching clock entries [] fitting.rows = .ok fitting.rows ∧
    entries.column? "Amount" = some amount ∧ amount.kind.isInteger = true ∧
    Memory.HoldsWhole amount fitting.rows ∧ FitsWord (Memory.wholes amount fitting.rows).sum ∧
    fitting.AddsUpTo clock entries [] "Amount" 9223372036854775802 := by
  have hm : fitting.matching clock entries [] fitting.rows = .ok fitting.rows := by
    cbv
  have hcolumn : entries.column? "Amount" = some amount := rfl
  have hcounted : Memory.counted amount fitting.rows =
      [.int 9223372036854775806, .int (-5), .uint 1] := by
    cbv
  have hwhole : Memory.HoldsWhole amount fitting.rows := by
    intro raw hraw
    rw [hcounted] at hraw
    simp only [List.mem_cons, List.not_mem_nil, or_false] at hraw
    rcases hraw with rfl | rfl | rfl <;> rfl
  have hwholes : Memory.wholes amount fitting.rows = [9223372036854775806, -5, 1] := by
    cbv
  have hfits : FitsWord (Memory.wholes amount fitting.rows).sum := by
    rw [hwholes]
    decide
  refine ⟨hm, hcolumn, rfl, hwhole, hfits, ?_⟩
  have hadds := (Memory.addsUpTo_iff hm hcolumn rfl hwhole hfits).2
  rw [hwholes] at hadds
  exact hadds.mpr (by decide)

/-- Entries of which some gain more than the greatest word, also without the last of them. -/
def exceeding : Memory :=
  ⟨[entry (.int 9223372036854775807), entry (.int 1), entry (.int (-1))], 100000, []⟩

/-- With the greatest amounts first one of them is lost, and with the least ones first none is. -/
theorem order_changes_sum :
    (Memory.wholes amount exceeding.rows).sum = 9223372036854775807 ∧
    (∃ fetched, exceeding.fetch clock (all .descending) = .ok fetched ∧
      fetched.aggregates = [⟨"Amount", .sum, .int 9223372036854775806⟩]) ∧
    ∃ fetched, exceeding.fetch clock (all .ascending) = .ok fetched ∧
      fetched.aggregates = [⟨"Amount", .sum, .int 9223372036854775807⟩] := by
  refine ⟨?_, ⟨_, rfl, ?_⟩, _, rfl, ?_⟩
  · cbv
  · rfl
  · rfl

end Ledger

end TableQuery
