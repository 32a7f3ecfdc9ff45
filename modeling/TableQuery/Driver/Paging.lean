import TableQuery.Template.Basic

/-!
# Pages

## Main definitions

* `PageRequest.info` — where a page stands among all rows.
* `PageRequest.start`, `PageRequest.stop`, `PageRequest.window` — the rows of a page.
* `PageRequest.offset` — the number of rows before a page, within a word of 64 bits.
* `PageRequest.checkLimit` — all rows may only be asked for if they are not too many.
-/

namespace TableQuery

namespace PageRequest

/-- Where a page stands among all rows, which are one page if no page is asked for. -/
def info (p : PageRequest) (total : UInt64) : PageInfo where
  currentPage := p.page
  pageSize := p.size
  totalPages :=
    if p.isPaged then UInt64.ofNat ((total.toNat + p.size.toNat - 1) / p.size.toNat) else 1
  totalResults := total

def start (p : PageRequest) (count : Nat) : Nat :=
  if p.isPaged then min (p.page.toNat * p.size.toNat) count else 0

def stop (p : PageRequest) (count : Nat) : Nat :=
  if p.isPaged then min (p.start count + p.size.toNat) count else count

def window {α : Type} (p : PageRequest) (rows : List α) : List α :=
  (rows.take (p.stop rows.length)).drop (p.start rows.length)

/-- The number of rows before a page, the greatest word if it exceeds one. -/
def offset (p : PageRequest) : UInt64 :=
  UInt64.ofNat (min (p.page.toNat * p.size.toNat) (Nat.pow 2 64 - 1))

/-- All rows may only be asked for if they are at most `limit`. -/
def checkLimit (p : PageRequest) (total limit : UInt64) : Except QueryError Unit :=
  if !p.isPaged && limit < total then .error (.resultExceedMaxLimit total limit) else .ok ()

theorem start_le_stop (p : PageRequest) (count : Nat) : p.start count ≤ p.stop count := by
  unfold start stop start
  split <;> omega

theorem stop_le (p : PageRequest) (count : Nat) : p.stop count ≤ count := by
  unfold stop
  split <;> omega

theorem window_of_not_isPaged {α : Type} {p : PageRequest} (h : p.isPaged = false)
    (rows : List α) : p.window rows = rows := by
  simp [window, start, stop, h]

end PageRequest

end TableQuery
