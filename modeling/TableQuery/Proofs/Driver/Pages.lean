import Mathlib.Algebra.Order.Floor.Div
import TableQuery.Proofs.Driver.Memory
import TableQuery.Proofs.Sample

/-!
# Pages of rows

Pages of one size divide the matching rows, in the order asked for, into parts that follow each
other. Where a page begins is the product of its number and the size, which may exceed a word of 64
bits. This does no harm: a page that would begin behind the last row is empty, wherever it begins.

## Main definitions

* `Memory.inOrder` — the matching rows in the order asked for.
* `Memory.Partition` — what the pages of one size have to do with these rows.

## Main results

* `PageRequest.start_eq_min_offset` — a product that is cut off at the greatest word will do.
* `flatMap_pages` — the parts of a list, one behind the other, are the list.
* `Memory.fetch_pages` — fetching all pages fetches all rows.
-/

namespace TableQuery

/-- The parts of a list, one behind the other, are the list. -/
theorem flatMap_pages {α : Type} (as : List α) {size : Nat} (hsize : 0 < size) :
    (List.range (as.length ⌈/⌉ size)).flatMap (fun k => (as.drop (k * size)).take size) = as := by
  have hfirst (n : Nat) :
      (List.range n).flatMap (fun k => (as.drop (k * size)).take size) = as.take (n * size) := by
    induction n with
    | zero => simp
    | succ n ih =>
      rw [List.range_succ, List.flatMap_append, ih, List.flatMap_singleton, Nat.succ_mul,
        List.take_add]
  rw [hfirst, List.take_of_length_le]
  rw [Nat.mul_comm]
  exact le_smul_ceilDiv hsize

namespace PageRequest

variable {α : Type} {p : PageRequest}

theorem isPaged_iff : p.isPaged = true ↔ 0 < p.size.toNat := by
  simp [isPaged, UInt64.lt_iff_toNat_lt]

/-- The rows of a page are those behind the pages before it. -/
theorem window_eq (hp : p.isPaged = true) (rows : List α) :
    p.window rows = (rows.drop (p.page.toNat * p.size.toNat)).take p.size.toNat := by
  have hstart : p.start rows.length = min (p.page.toNat * p.size.toNat) rows.length := by
    simp [start, hp]
  have hstop : p.stop rows.length = min (p.start rows.length + p.size.toNat) rows.length := by
    simp [stop, hp]
  rw [window, hstop, hstart]
  rcases Nat.le_total rows.length (p.page.toNat * p.size.toNat) with hle | hle
  · rw [Nat.min_eq_right hle, List.drop_eq_nil_of_le hle, List.take_nil, List.drop_eq_nil_of_le]
    exact List.length_take_le' _ _
  · rw [Nat.min_eq_left hle, ← List.take_take, List.take_length, List.drop_take,
      Nat.add_sub_cancel_left]

/-- The number of rows before a page is cut off at the greatest word. -/
theorem toNat_offset (p : PageRequest) :
    p.offset.toNat = min (p.page.toNat * p.size.toNat) (2 ^ 64 - 1) := by
  rw [offset, UInt64.toNat_ofNat', Nat.mod_eq_of_lt]
  · rfl
  · exact (Nat.min_le_right _ _).trans_lt (by decide)

/-- A product that exceeds a word leads behind the last row, and so does the greatest word. -/
theorem start_eq_min_offset (hp : p.isPaged = true) {count : Nat} (hcount : count < 2 ^ 64) :
    p.start count = min p.offset.toNat count := by
  rw [toNat_offset, start, if_pos hp]
  omega

/-- A page has no rows exactly if there are not so many pages. -/
theorem window_eq_nil_iff (hp : p.isPaged = true) (rows : List α) :
    p.window rows = [] ↔ rows.length ⌈/⌉ p.size.toNat ≤ p.page.toNat := by
  have hsize := isPaged_iff.mp hp
  rw [window_eq hp, List.take_eq_nil_iff, List.drop_eq_nil_iff, ceilDiv_le_iff_le_smul hsize,
    Nat.nsmul_eq_mul, Nat.mul_comm]
  simp [hsize.ne']

/-- The number of pages is the ceiling of the number of rows by the size. -/
theorem toNat_totalPages (hp : p.isPaged = true) {count : Nat} (hcount : count < 2 ^ 64) :
    (p.info (UInt64.ofNat count)).totalPages.toNat = count ⌈/⌉ p.size.toNat := by
  have hsize := isPaged_iff.mp hp
  have hle : count ⌈/⌉ p.size.toNat ≤ count := by
    rw [ceilDiv_le_iff_le_smul hsize]
    exact Nat.le_mul_of_pos_left count hsize
  rw [Nat.ceilDiv_eq_add_pred_div] at hle ⊢
  simp only [info, hp, if_true, UInt64.toNat_ofNat', Nat.mod_eq_of_lt hcount]
  exact Nat.mod_eq_of_lt (hle.trans_lt hcount)

end PageRequest

namespace Memory

variable {m : Memory} {now : Moment} {f : Fetch} {size : UInt64}

/-- The rows on which all conditions hold, in the order asked for. -/
def inOrder (m : Memory) (now : Moment) (f : Fetch) : List StoredRow :=
  sorted f.table f.order (m.rows.filter (m.keeps now f.table f.conditions))

theorem length_inOrder_le (m : Memory) (now : Moment) (f : Fetch) :
    (m.inOrder now f).length ≤ m.rows.length := by
  rw [inOrder, (sorted_perm _ _ _).length_eq]
  exact List.length_filter_le _ _

/-- The conditions can be looked at on all rows, and the aggregates can be computed over those on
which they hold. -/
def Answers (m : Memory) (now : Moment) (f : Fetch) : Prop :=
  (∀ row ∈ m.rows, ∃ b, m.holds now f.table row f.conditions = .ok b) ∧
    ∃ aggregates, f.aggregates.mapM (aggregate f.table (m.inOrder now f)) = .ok aggregates

/-- What fails, fails before a page is cut out. -/
theorem fetch_of_not_answers (h : ¬ m.Answers now f) :
    ∃ error, ∀ page, m.fetch now { f with page } = .error error := by
  cases hm : m.matching now f.table f.conditions m.rows with
  | error error => exact ⟨error, fun page => by simp [fetch, hm, bind, Except.bind]⟩
  | ok matched =>
    obtain ⟨hholds, rfl⟩ := matching_eq_ok_iff.mp hm
    cases ha : f.aggregates.mapM (aggregate f.table (m.inOrder now f)) with
    | error error =>
      rw [inOrder] at ha
      refine ⟨error, fun page => ?_⟩
      simp only [fetch, hm, Except.ok_bind, ha]
      rfl
    | ok aggregates => exact absurd ⟨hholds, aggregates, ha⟩ h

/-- All pages are cut out of the same rows, with the same aggregates. -/
theorem fetch_eq_map (hholds : ∀ row ∈ m.rows, ∃ b, m.holds now f.table row f.conditions = .ok b)
    {aggregates : List RawAggregate}
    (ha : f.aggregates.mapM (aggregate f.table (m.inOrder now f)) = .ok aggregates)
    (page : PageRequest) :
    m.fetch now { f with page } =
      (page.checkLimit (UInt64.ofNat (m.inOrder now f).length) m.limit).map fun _ =>
        ⟨page.window (m.inOrder now f), aggregates,
          page.info (UInt64.ofNat (m.inOrder now f).length)⟩ := by
  have hm := matching_eq_ok_iff.mpr ⟨hholds, rfl⟩
  rw [inOrder] at ha ⊢
  simp only [fetch, hm, Except.ok_bind, ha]
  cases page.checkLimit _ m.limit <;> rfl

/-- What the pages of one size have to do with the matching rows. -/
structure Partition (m : Memory) (now : Moment) (f : Fetch) (size : UInt64)
    (fetched : UInt64 → Fetched) : Prop where
  /-- The pages, one behind the other, show every matching row once and in order. -/
  flatMap_rows : (List.range (fetched 0).page.totalPages.toNat).flatMap
    (fun k => (fetched (.ofNat k)).rows) = m.inOrder now f
  rows_eq_nil_iff : ∀ page, (fetched page).rows = [] ↔ (fetched page).page.totalPages ≤ page
  totalPages_eq : ∀ page,
    (fetched page).page.totalPages.toNat = (m.inOrder now f).length ⌈/⌉ size.toNat
  totalResults_eq : ∀ page, (fetched page).page.totalResults.toNat = (m.inOrder now f).length
  /-- Each page lies within the rows, also where the product of its number and the size exceeds a
  word. -/
  bounds : ∀ page, let p : PageRequest := ⟨page, size⟩
    let count := (m.inOrder now f).length
    (fetched page).rows = ((m.inOrder now f).take (p.stop count)).drop (p.start count) ∧
      p.start count = min p.offset.toNat count ∧ p.start count ≤ p.stop count ∧
      p.stop count ≤ count
  /-- All rows at once are the matching rows with the aggregates of each page, unless they are too
  many. -/
  fetch_all : ∀ page, m.fetch now { f with page := .all } =
    if m.limit.toNat < (m.inOrder now f).length then
      .error (.resultExceedMaxLimit (fetched page).page.totalResults m.limit)
    else .ok ⟨m.inOrder now f, (fetched page).aggregates,
      ⟨0, 0, 1, (fetched page).page.totalResults⟩⟩
  aggregates_eq : ∀ page,
    f.aggregates.mapM (aggregate f.table (m.inOrder now f)) = .ok (fetched page).aggregates

/-- The pages that are cut out of the matching rows, with aggregates over all of them. -/
def pageOf (m : Memory) (now : Moment) (f : Fetch) (size : UInt64) (aggregates : List RawAggregate)
    (page : UInt64) : Fetched :=
  ⟨PageRequest.window ⟨page, size⟩ (m.inOrder now f), aggregates,
    PageRequest.info ⟨page, size⟩ (UInt64.ofNat (m.inOrder now f).length)⟩

theorem partition_pageOf (hsize : size ≠ 0) (hrows : m.rows.length < 2 ^ 64)
    (hholds : ∀ row ∈ m.rows, ∃ b, m.holds now f.table row f.conditions = .ok b)
    {aggregates : List RawAggregate}
    (ha : f.aggregates.mapM (aggregate f.table (m.inOrder now f)) = .ok aggregates) :
    m.Partition now f size (m.pageOf now f size aggregates) := by
  have hcount := (m.length_inOrder_le now f).trans_lt hrows
  have hpos : 0 < size.toNat := UInt64.lt_iff_toNat_lt.mp (UInt64.pos_iff_ne_zero.mpr hsize)
  have hpaged (page : UInt64) : (⟨page, size⟩ : PageRequest).isPaged = true :=
    PageRequest.isPaged_iff.mpr hpos
  have htotal (page : UInt64) : (m.pageOf now f size aggregates page).page.totalPages.toNat =
      (m.inOrder now f).length ⌈/⌉ size.toNat :=
    PageRequest.toNat_totalPages (hpaged page) hcount
  have hresults : (UInt64.ofNat (m.inOrder now f).length).toNat = (m.inOrder now f).length := by
    rw [UInt64.toNat_ofNat', Nat.mod_eq_of_lt hcount]
  refine ⟨?_, ?_, htotal, fun _ => hresults, ?_, ?_, fun _ => ha⟩
  · rw [htotal]
    conv_rhs => rw [← flatMap_pages (m.inOrder now f) hpos]
    refine List.flatMap_congr fun k hk => ?_
    have hk : k < 2 ^ 64 := (List.mem_range.mp hk).trans (htotal 0 ▸ UInt64.toNat_lt _)
    rw [pageOf, PageRequest.window_eq (hpaged _)]
    dsimp only
    rw [UInt64.toNat_ofNat', Nat.mod_eq_of_lt hk]
  · intro page
    rw [UInt64.le_iff_toNat_le, htotal]
    exact PageRequest.window_eq_nil_iff (hpaged page) _
  · exact fun page => ⟨rfl, PageRequest.start_eq_min_offset (hpaged page) hcount,
      PageRequest.start_le_stop _ _, PageRequest.stop_le _ _⟩
  · intro page
    have hlimit : m.limit < UInt64.ofNat (m.inOrder now f).length ↔
        m.limit.toNat < (m.inOrder now f).length := by
      rw [UInt64.lt_iff_toNat_lt, hresults]
    have hall : PageRequest.all.isPaged = false := rfl
    rw [fetch_eq_map hholds ha, PageRequest.window_of_not_isPaged hall, PageRequest.checkLimit]
    simp only [hall, Bool.not_false, Bool.true_and, decide_eq_true_eq, hlimit]
    split <;> rfl

/-- If conditions and aggregates can be looked at, all pages of a size can be fetched, and they
divide the matching rows, in the order asked for. They tell the number of these rows and the
aggregates over all of them. Otherwise fetching fails in the same way whatever page is asked for. -/
theorem fetch_pages (m : Memory) (now : Moment) (f : Fetch) {size : UInt64} (hsize : size ≠ 0)
    (hrows : m.rows.length < 2 ^ 64) :
    (m.Answers now f → ∃ fetched : UInt64 → Fetched,
      (∀ page, m.fetch now { f with page := ⟨page, size⟩ } = .ok (fetched page)) ∧
        m.Partition now f size fetched) ∧
    (¬ m.Answers now f → ∃ error, ∀ page, m.fetch now { f with page } = .error error) := by
  refine ⟨?_, fetch_of_not_answers⟩
  rintro ⟨hholds, aggregates, ha⟩
  refine ⟨m.pageOf now f size aggregates, fun page => ?_, partition_pageOf hsize hrows hholds ha⟩
  have hpaged : (⟨page, size⟩ : PageRequest).isPaged = true :=
    PageRequest.isPaged_iff.mpr (UInt64.lt_iff_toNat_lt.mp (UInt64.pos_iff_ne_zero.mpr hsize))
  rw [fetch_eq_map hholds ha, PageRequest.checkLimit, hpaged]
  rfl

end Memory

/-! ## The receipts of a till -/

namespace Till

open Sample (clock)

def receipts : Table :=
  ⟨"Receipt", "Receipt", "",
    [{ (default : Column) with
        id := "No", name := "No", kind := .string, type := .string, isKey := true
        storageName := "No" },
      { (default : Column) with
        id := "Amount", name := "Amount", kind := .int, type := .int, aggregates := [.sum]
        orderable := true, storageName := "Amount" }], "No", [], none, none⟩

def receipt (no : String) (amount : Int64) : StoredRow :=
  .keyed [("No", .text no), ("Amount", .int amount)]

/-- Four receipts, of which two are so large that all of them may not be asked for at once. -/
def memory : Memory :=
  ⟨[receipt "a" 5, receipt "b" 3, receipt "c" 8, receipt "d" 1], 2, []⟩

/-- The receipts of at least 2, the greatest amount first, with the sum of their amounts. -/
def sums : Fetch where
  table := receipts
  conditions := [⟨"Amount", Builtin.ge, [.int 2]⟩]
  output := ["No"]
  aggregates := [⟨"Amount", .sum⟩]
  page := .all
  order := some ⟨"Amount", .descending⟩

theorem inOrder_sums :
    memory.inOrder clock sums = [receipt "c" 8, receipt "a" 5, receipt "b" 3] := by
  cbv

theorem answers_sums : memory.Answers clock sums := by
  constructor
  · intro row _
    exact Memory.exists_holds fun condition hc => by
      obtain rfl := List.mem_singleton.mp hc
      exact ⟨_, rfl, _, rfl⟩
  · rw [inOrder_sums]
    exact ⟨[⟨"Amount", .sum, .int 16⟩], rfl⟩

/-- Pages of two: one with the receipts of 8 and 5 and one with that of 3, and a page is empty whose
number by the size exceeds a word. -/
theorem receipts_paged : (2 : UInt64) ≠ 0 ∧ memory.rows.length < 2 ^ 64 ∧
    memory.Answers clock sums ∧ ∃ fetched : UInt64 → Fetched,
      (∀ page, memory.fetch clock { sums with page := ⟨page, 2⟩ } = .ok (fetched page)) ∧
      memory.Partition clock sums 2 fetched ∧
      (fetched 0).page.totalPages.toNat = 2 ∧ (fetched 0).page.totalResults.toNat = 3 ∧
      (fetched 0).rows ++ (fetched 1).rows = [receipt "c" 8, receipt "a" 5, receipt "b" 3] ∧
      (fetched 9223372036854775808).rows = [] := by
  have hsize : (2 : UInt64) ≠ 0 := by decide
  have hrows : memory.rows.length < 2 ^ 64 := by decide
  obtain ⟨fetched, hfetch, hpages⟩ := (memory.fetch_pages clock sums hsize hrows).1 answers_sums
  have htotal := hpages.totalPages_eq 0
  have hparts := hpages.flatMap_rows
  rw [inOrder_sums] at htotal
  have htwo : (fetched 0).page.totalPages.toNat = 2 := htotal.trans (by decide)
  rw [htwo, inOrder_sums, List.range_succ, List.range_one] at hparts
  refine ⟨hsize, hrows, answers_sums, fetched, hfetch, hpages, htwo, ?_, ?_, ?_⟩
  · rw [hpages.totalResults_eq, inOrder_sums]
    rfl
  · simpa using hparts
  · rw [hpages.rows_eq_nil_iff, UInt64.le_iff_toNat_le, hpages.totalPages_eq, inOrder_sums]
    decide

end Till

end TableQuery
