import Mathlib.Tactic.SplitIfs
import TableQuery.Proofs.Driver.Pages
import TableQuery.Sql.Source

/-!
# Pages of a database

A page is asked of a database by two words with a sign: the size of the page and the number of rows
before it. Both are words without a sign beforehand. From `2 ^ 63` on they become negative, and a
database has no such page.

## Main definitions

* `Sql.limited` — the rows that a limit leaves behind an offset.

## Main results

* `Sql.values_selectStatement` — the values of a page come last.
* `Sql.limited_page_iff` — which pages are asked for rightly.
-/

namespace TableQuery

namespace Sql

/-- The rows that a database answers of rows in order: all of them without values for a page, and
otherwise at most as many as the limit behind as many as the offset. A negative number of rows can
neither be taken nor skipped. -/
def limited {α : Type} (values : List Bound) (rows : List α) : Option (List α) :=
  match values with
  | [] => some rows
  | [.raw (.int limit), .raw (.int offset)] =>
    if 0 ≤ limit ∧ 0 ≤ offset then
      some ((rows.drop offset.toInt.toNat).take limit.toInt.toNat)
    else none
  | _ => none

/-- The values of a page come behind those of the conditions. -/
theorem values_selectStatement (d : Dialect) (relation : String) (columns : List Column)
    (conditions : Fragment) (order : String) (p : PageRequest) :
    (selectStatement d relation columns conditions order p).values =
      conditions.values ++ (pageClause p).values := by
  have htext (s : String) : (Fragment.text s).values = [] := rfl
  simp only [selectStatement, Fragment.values_append, htext, List.nil_append, List.append_nil]

theorem values_pageClause {p : PageRequest} (hp : p.isPaged = true) :
    (pageClause p).values = [.raw (.int p.size.toInt64), .raw (.int p.offset.toInt64)] := by
  rw [pageClause, if_pos hp]
  rfl

/-- A word without a sign, as one with a sign. -/
theorem toInt_toInt64 (u : UInt64) :
    u.toInt64.toInt = if u.toNat < 2 ^ 63 then (u.toNat : ℤ) else u.toNat - 2 ^ 64 := by
  have hword : u.toInt64.toInt = u.toBitVec.toInt := rfl
  have hnat : u.toBitVec.toNat = u.toNat := rfl
  rw [hword, BitVec.toInt_eq_toNat_cond, hnat]
  split_ifs <;> omega

theorem zero_le_toInt64_iff (u : UInt64) : 0 ≤ u.toInt64 ↔ u.toNat < 2 ^ 63 := by
  have hlt := u.toNat_lt
  rw [Int64.le_iff_toInt_le, Int64.toInt_zero, toInt_toInt64]
  split_ifs <;> omega

/-- The number of rows before a page fits a word with a sign if it is not cut off at the greatest
word beforehand. -/
theorem offset_lt_iff (p : PageRequest) :
    p.offset.toNat < 2 ^ 63 ↔ p.page.toNat * p.size.toNat < 2 ^ 63 := by
  rw [p.toNat_offset]
  omega

/-- A page is asked for by its size and the number of rows before it, as words with a sign. Neither
is negative as long as both are below `2 ^ 63`. Then a database answers the rows of the page,
whatever rows there are, and otherwise it answers none of them. -/
theorem limited_page_iff {p : PageRequest} (hp : p.isPaged = true) :
    ∃ limit offset : Int64,
      (pageClause p).values = [.raw (.int limit), .raw (.int offset)] ∧
      (∀ d relation columns conditions order,
        (selectStatement d relation columns conditions order p).values =
          conditions.values ++ [.raw (.int limit), .raw (.int offset)]) ∧
      (0 ≤ limit ↔ p.size.toNat < 2 ^ 63) ∧
      (0 ≤ offset ↔ p.page.toNat * p.size.toNat < 2 ^ 63) ∧
      ∀ {α : Type} (rows : List α), limited [.raw (.int limit), .raw (.int offset)] rows =
        if p.size.toNat < 2 ^ 63 ∧ p.page.toNat * p.size.toNat < 2 ^ 63 then some (p.window rows)
        else none := by
  refine ⟨_, _, values_pageClause hp, fun d relation columns conditions order => ?_,
    zero_le_toInt64_iff _, (zero_le_toInt64_iff _).trans (offset_lt_iff p), fun rows => ?_⟩
  · rw [values_selectStatement, values_pageClause hp]
  · simp only [limited, zero_le_toInt64_iff, offset_lt_iff]
    split_ifs with hfits
    · have hsize : p.size.toInt64.toInt.toNat = p.size.toNat := by
        rw [toInt_toInt64, if_pos hfits.1, Int.toNat_natCast]
      have hoffset : p.offset.toInt64.toInt.toNat = p.page.toNat * p.size.toNat := by
        rw [toInt_toInt64, if_pos ((offset_lt_iff p).mpr hfits.2), Int.toNat_natCast,
          p.toNat_offset]
        omega
      rw [hsize, hoffset, PageRequest.window_eq hp]
    · rfl

end Sql

/-! ## The pages of a directory -/

namespace Directory

open Sql (Bound limited pageClause)

def third : PageRequest := ⟨2, 2⟩

def behind : PageRequest := ⟨1, 9223372036854775808⟩

/-- A page of two so far behind that `2 ^ 63` rows are before it. -/
def distant : PageRequest := ⟨4611686018427387904, 2⟩

/-- The fifth entry is alone on the third page. -/
theorem third_limited : third.isPaged = true ∧
    limited (pageClause third).values ["ann", "bob", "cid", "dan", "eve"] = some ["eve"] ∧
    third.window ["ann", "bob", "cid", "dan", "eve"] = ["eve"] := by
  have hp : third.isPaged = true := rfl
  obtain ⟨limit, offset, hvalues, -, -, -, hrows⟩ := Sql.limited_page_iff hp
  refine ⟨hp, ?_, rfl⟩
  rw [hvalues, hrows, if_pos (by decide)]
  rfl

/-- Both are empty pages of every list that there can be, but they are asked for by negative
numbers. -/
theorem behind_not_limited : behind.isPaged = true ∧ distant.isPaged = true ∧
    (pageClause behind).values = [.raw (.int (-9223372036854775808)),
      .raw (.int (-9223372036854775808))] ∧
    (pageClause distant).values = [.raw (.int 2), .raw (.int (-9223372036854775808))] ∧
    limited (pageClause behind).values ["ann"] = none ∧ behind.window ["ann"] = [] ∧
    limited (pageClause distant).values ["ann"] = none ∧ distant.window ["ann"] = [] := by
  refine ⟨rfl, rfl, rfl, rfl, ?_, by decide, ?_, by decide⟩
  · rfl
  · rfl

end Directory

end TableQuery
