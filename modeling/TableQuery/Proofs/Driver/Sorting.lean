import TableQuery.Proofs.Driver.Pages
import TableQuery.Proofs.Sample
import TableQuery.Proofs.Sql.Agreement
import TableQuery.Proofs.Value.Order

/-!
# Rows in order

Rows are sorted by inserting one after the other, from behind, in front of the first row that the
new one does not come before. If the values of the column are in a transitive order, then no row
stands in front of one that comes before it, and rows that count as equal stay as they were. A value
that counts as equal to two others stops the search for the right place.

## Main definitions

* `Direction.order` — the order of values in a direction.
* `Memory.StablySorted` — what is expected of sorted rows.
* `Memory.Sorts` — fetching shows the rows sorted.

## Main results

* `filter_sortStably` — sorting keeps the order among rows that do not come before each other.
* `pairwise_sortStably` — sorting by a transitive order.
* `Memory.sorts_iff` — rows are always sorted by a column exactly if no value in it blurs others.
-/

namespace TableQuery

/-! ## Inserting from behind -/

section Insert

variable {α : Type} {less : α → α → Bool} {p : α → Bool} {a : α} {as : List α}

/-- An item is inserted behind all others that it does not come before. -/
theorem filter_insertFromEnd (h : ∀ b ∈ as, p a = true → p b = true → less a b = false) :
    (insertFromEnd less a as).filter p = (a :: as).filter p := by
  induction as with
  | nil => rfl
  | cons b as ih =>
    rw [List.forall_mem_cons] at h
    unfold insertFromEnd
    split
    · next hless =>
      rw [List.filter_cons, ih h.2]
      by_cases ha : p a = true
      · have hb : ¬ p b = true := fun hb => by rw [h.1 ha hb] at hless; cases hless
        simp [ha, hb]
      · simp [ha, List.filter_cons]
    · rfl

/-- Sorting keeps the order among items that do not come before each other. -/
theorem filter_sortStably
    (h : ∀ a ∈ as, ∀ b ∈ as, p a = true → p b = true → less a b = false) :
    (sortStably less as).filter p = as.filter p := by
  have hfold (as sorted : List α)
      (h : ∀ a ∈ as, ∀ b ∈ as ++ sorted, p a = true → p b = true → less a b = false) :
      (as.foldl (fun sorted a => insertFromEnd less a sorted) sorted).filter p =
        (as.filter p).reverse ++ sorted.filter p := by
    induction as generalizing sorted with
    | nil => rfl
    | cons a as ih =>
      have hperm := (insertFromEnd_perm less a sorted).append_left as
      rw [List.foldl_cons, ih, filter_insertFromEnd]
      · by_cases ha : p a = true <;> simp [ha]
      · exact fun b hb => h a List.mem_cons_self b (by simp [hb])
      · refine fun a' ha' b hb => h a' (List.mem_cons_of_mem a ha') b ?_
        have hmem := hperm.subset hb
        simp only [List.mem_append, List.mem_cons] at hmem ⊢
        tauto
  have hfold := hfold as [] (by simpa using h)
  rw [sortStably, List.filter_reverse, hfold, List.filter_nil, List.append_nil,
    List.reverse_reverse]

/-- If not to come before is transitive, an item is inserted in front of all that it comes
before. -/
theorem pairwise_insertFromEnd (hasymm : ∀ b ∈ as, less a b = true → less b a = false)
    (htrans : ∀ b ∈ as, ∀ c ∈ as, less a b = false → less b c = false → less a c = false)
    (h : as.Pairwise fun a b => less a b = false) :
    (insertFromEnd less a as).Pairwise fun a b => less a b = false := by
  induction as with
  | nil => exact List.pairwise_singleton _ _
  | cons b as ih =>
    rw [List.pairwise_cons] at h
    rw [List.forall_mem_cons] at hasymm
    unfold insertFromEnd
    split
    · next hless =>
      refine List.pairwise_cons.mpr ⟨fun c hc => ?_, ih hasymm.2 ?_ h.2⟩
      · rcases List.mem_cons.mp ((insertFromEnd_perm less a as).subset hc) with rfl | hc
        · exact hasymm.1 hless
        · exact h.1 c hc
      · exact fun b' hb c hc => htrans b' (by simp [hb]) c (by simp [hc])
    · next hless =>
      rw [Bool.not_eq_true] at hless
      refine List.pairwise_cons.mpr ⟨List.forall_mem_cons.mpr ⟨hless, fun c hc => ?_⟩,
        List.pairwise_cons.mpr h⟩
      exact htrans b (by simp) c (by simp [hc]) hless (h.1 c hc)

/-- Sorted items do not come before earlier ones, if not to come before is transitive. -/
theorem pairwise_sortStably
    (hasymm : ∀ a ∈ as, ∀ b ∈ as, less a b = true → less b a = false)
    (htrans : ∀ a ∈ as, ∀ b ∈ as, ∀ c ∈ as,
      less a b = false → less b c = false → less a c = false) :
    (sortStably less as).Pairwise fun a b => less b a = false := by
  have hfold (bs sorted : List α) (hbs : bs ⊆ as) (hsorted : sorted ⊆ as)
      (h : sorted.Pairwise fun a b => less a b = false) :
      (bs.foldl (fun sorted a => insertFromEnd less a sorted) sorted).Pairwise
        fun a b => less a b = false := by
    induction bs generalizing sorted with
    | nil => exact h
    | cons b bs ih =>
      rw [List.cons_subset] at hbs
      refine ih _ hbs.2 ?_ ?_
      · exact List.Subset.trans (insertFromEnd_perm less b sorted).subset
          (List.cons_subset.mpr ⟨hbs.1, hsorted⟩)
      · exact pairwise_insertFromEnd (fun c hc => hasymm b hbs.1 c (hsorted hc))
          (fun c hc d hd => htrans b hbs.1 c (hsorted hc) d (hsorted hd)) h
  rw [sortStably, List.pairwise_reverse]
  exact hfold as [] (List.Subset.refl as) (List.nil_subset as) List.Pairwise.nil

end Insert

/-! ## Rows by a column -/

def Direction.order (d : Direction) (a b : Raw) : Ordering :=
  match d with
  | .ascending => a.sortOrder b
  | .descending => b.sortOrder a

section Direction

variable {d : Direction} {a b c : Raw}

theorem Direction.order_swap (d : Direction) (a b : Raw) :
    d.order b a = (d.order a b).swap := by
  cases d
  · exact Raw.sortOrder_swap a b
  · exact Raw.sortOrder_swap b a

/-- Where no value blurs others, both directions are transitive. -/
theorem Direction.order_trans {values : Set Raw}
    (h : ∀ a ∈ values, ∀ b ∈ values, ∀ c ∈ values, ¬ b.Blurs a c) (ha : a ∈ values)
    (hb : b ∈ values) (hc : c ∈ values) (hab : d.order a b ≠ .gt) (hbc : d.order b c ≠ .gt) :
    d.order a c ≠ .gt := by
  cases d with
  | ascending => exact fun hac => h a ha b hb c hc (Raw.intransitive_iff.mp ⟨hab, hbc, hac⟩)
  | descending => exact fun hac => h c hc b hb a ha (Raw.intransitive_iff.mp ⟨hbc, hab, hac⟩)

/-- Values that count as equal to one value count as equal to each other. -/
theorem Direction.order_eq_trans {values : Set Raw}
    (h : ∀ a ∈ values, ∀ b ∈ values, ∀ c ∈ values, ¬ b.Blurs a c) (ha : a ∈ values)
    (hb : b ∈ values) (hc : c ∈ values) (hab : d.order a c = .eq) (hbc : d.order b c = .eq) :
    d.order a b = .eq := by
  have hcb : d.order c b = .eq := by rw [d.order_swap b c, hbc]; rfl
  have hca : d.order c a = .eq := by rw [d.order_swap a c, hab]; rfl
  have hle := d.order_trans h ha hc hb (hab ▸ nofun) (hcb ▸ nofun)
  have hge := d.order_trans h hb hc ha (hbc ▸ nofun) (hca ▸ nofun)
  rw [d.order_swap a b] at hge
  cases hd : d.order a b <;> simp_all

end Direction

namespace Memory

variable {t : Table} {name : String} {c : Column}

/-- What is expected of rows that are sorted by a column: they are the same rows, none is strictly
behind a later one, rows that count as equal to a value are as they were, and ascending rows begin
with those without a value. -/
structure StablySorted (c : Column) (d : Direction) (rows sorted : List StoredRow) : Prop where
  perm : sorted.Perm rows
  ordered : sorted.Pairwise fun x y => d.order (x.value c) (y.value c) ≠ .gt
  stable (row : StoredRow) (hrow : row ∈ rows) :
    (sorted.filter fun other => d.order (other.value c) (row.value c) == .eq) =
      rows.filter fun other => d.order (other.value c) (row.value c) == .eq
  nullsFirst (hd : d = .ascending) :
    sorted.Pairwise fun x y => (y.value c).isNull = true → (x.value c).isNull = true

/-- The matching rows are sorted by a column, and a fetch shows its page of them. -/
def Sorts (m : Memory) (now : Moment) (f : Fetch) (c : Column) (d : Direction) : Prop :=
  StablySorted c d (m.rows.filter (m.keeps now f.table f.conditions)) (m.inOrder now f) ∧
    ∀ fetched, m.fetch now f = .ok fetched → fetched.rows = f.page.window (m.inOrder now f)

theorem sorted_eq_sortStably (hc : t.column? name = some c) (ho : c.orderable = true)
    (d : Direction) (rows : List StoredRow) :
    sorted t (some ⟨name, d⟩) rows =
      sortStably (fun x y => d.order (x.value c) (y.value c) == .lt) rows := by
  simp only [sorted, Option.bind_some, hc, Option.map_some, ho, if_true]
  cases d with
  | ascending => rfl
  | descending =>
    refine congrArg (sortStably · rows) (funext₂ fun x y => ?_)
    show ((x.value c).sortOrder (y.value c) == .gt) = ((y.value c).sortOrder (x.value c) == .lt)
    rw [Raw.sortOrder_swap (x.value c)]
    cases (x.value c).sortOrder (y.value c) <;> rfl

/-- Rows without values that blur others are sorted. -/
theorem stablySorted_sortStably {values : Set Raw} {rows : List StoredRow} (d : Direction)
    (hrows : ∀ row ∈ rows, row.value c ∈ values)
    (h : ∀ a ∈ values, ∀ b ∈ values, ∀ c ∈ values, ¬ b.Blurs a c) :
    StablySorted c d rows
      (sortStably (fun x y => d.order (x.value c) (y.value c) == .lt) rows) := by
  have hnot {o : Ordering} : (o == .lt) = false ↔ o.swap ≠ .gt := by
    cases o <;> decide
  have hordered : (sortStably (fun x y => d.order (x.value c) (y.value c) == .lt) rows).Pairwise
      fun x y => d.order (x.value c) (y.value c) ≠ .gt := by
    refine (pairwise_sortStably (fun x _ y _ hless => ?_) fun x hx y hy z hz hxy hyz => ?_).imp
      fun {x y} hless => ?_
    · rw [d.order_swap (x.value c), eq_of_beq hless]
      rfl
    · rw [hnot, ← d.order_swap] at hxy hyz ⊢
      exact d.order_trans h (hrows z hz) (hrows y hy) (hrows x hx) hyz hxy
    · rw [hnot, ← d.order_swap] at hless
      exact hless
  refine ⟨sortStably_perm _ _, hordered, fun row hrow => ?_, ?_⟩
  · refine filter_sortStably fun x hx y hy hxrow hyrow => ?_
    rw [d.order_eq_trans h (hrows x hx) (hrows y hy) (hrows row hrow) (eq_of_beq hxrow)
      (eq_of_beq hyrow)]
    rfl
  · rintro rfl
    refine hordered.imp fun {x y} hle hy => ?_
    by_contra hx
    rw [Direction.order, Raw.sortOrder, hy, Bool.eq_false_of_not_eq_true hx] at hle
    exact hle rfl

/-- Three rows of which none comes before the one in front of it are left as they are. -/
theorem sorted_blurred (hc : t.column? name = some c) (ho : c.orderable = true) {x y z : StoredRow}
    (h : (y.value c).Blurs (x.value c) (z.value c)) :
    sorted t (some ⟨name, .ascending⟩) [x, y, z] = [x, y, z] := by
  obtain ⟨hxy, hyz⟩ := h.sortOrder_eq
  have hyx : (y.value c).sortOrder (x.value c) = .eq := by rw [Raw.sortOrder_swap, hxy]; rfl
  have hzy : (z.value c).sortOrder (y.value c) = .eq := by rw [Raw.sortOrder_swap, hyz]; rfl
  rw [sorted_eq_sortStably hc ho]
  simp [sortStably, insertFromEnd, Direction.order, hyx, hzy]

/-- The order that rows are sorted by has every value equal to itself and reads the same from both
sides. It is transitive but for a value that counts as equal to two others of which the second comes
before the first. Fetching sorts by a column, whatever rows there are with certain values in it,
exactly if none of these values does so to two others of them. -/
theorem sorts_iff (hc : t.column? name = some c) (ho : c.orderable = true) (values : Set Raw) :
    (∀ a : Raw, a.sortOrder a = .eq) ∧
    (∀ a b : Raw, b.sortOrder a = (a.sortOrder b).swap) ∧
    (∀ a b c : Raw, a.sortOrder b ≠ .gt ∧ b.sortOrder c ≠ .gt ∧ a.sortOrder c = .gt ↔
      b.Blurs a c) ∧
    ((∀ (m : Memory) (now : Moment) (f : Fetch) (d : Direction), f.table = t →
        f.order = some ⟨name, d⟩ → (∀ row ∈ m.rows, row.value c ∈ values) → m.Sorts now f c d) ↔
      ∀ a ∈ values, ∀ b ∈ values, ∀ c ∈ values, ¬ b.Blurs a c) := by
  refine ⟨Raw.sortOrder_self, Raw.sortOrder_swap, fun _ _ _ => Raw.intransitive_iff, ?_, ?_⟩
  · intro h x hx y hy z hz hblurs
    let row (v : Raw) : StoredRow := .keyed [(c.storageName, v)]
    have hvalue (v : Raw) : (row v).value c = v := by simp [row, StoredRow.value, StoredRow.get?]
    let m : Memory := ⟨[row x, row y, row z], 0, []⟩
    let now : Moment := .midnight ⟨1970, 1, 1, rfl⟩
    let f : Fetch := { (default : Fetch) with table := t, order := some ⟨name, .ascending⟩ }
    have hrows : ∀ row ∈ m.rows, row.value c ∈ values := by
      simpa [m, hvalue] using ⟨hx, hy, hz⟩
    have hsorted := (h m now f .ascending rfl rfl hrows).1.ordered
    have hblurs : ((row y).value c).Blurs ((row x).value c) ((row z).value c) := by
      simpa only [hvalue] using hblurs
    have horder : m.inOrder now f = m.rows :=
      sorted_blurred hc ho hblurs
    rw [horder] at hsorted
    have hle := (List.pairwise_cons.mp hsorted).1 (row z) (by simp)
    exact hle (Raw.intransitive_iff.mpr hblurs).2.2
  · intro h m now f d hf hd hrows
    refine ⟨?_, fun fetched hfetch => ?_⟩
    · rw [inOrder, hf, hd, sorted_eq_sortStably hc ho]
      exact stablySorted_sortStably d (fun row hrow => hrows row (List.mem_filter.mp hrow).1) h
    · obtain ⟨matched, -, hm, -, -, rfl⟩ := fetch_eq_ok_iff.mp hfetch
      obtain ⟨-, rfl⟩ := matching_eq_ok_iff.mp hm
      rfl

end Memory

/-! ## The readings of meters -/

namespace Meter

open Sample (clock)

def reading : Column :=
  { (default : Column) with
    id := "Reading", name := "Reading", kind := .uint, type := .int, orderable := true
    storageName := "Reading" }

def meters : Table :=
  ⟨"Meter", "Meter", "",
    [{ (default : Column) with
        id := "No", name := "No", kind := .string, type := .string, isKey := true
        storageName := "No" }, reading], "No", [], none, none⟩

def meter (no : String) (value : Raw) : StoredRow :=
  .keyed [("No", .text no), ("Reading", value)]

def ascending : Fetch :=
  { (default : Fetch) with
    table := meters, output := ["No"], order := some ⟨"Reading", .ascending⟩ }

/-- Readings without a sign, one of which is missing and two of which are the same. -/
def unsigned : Memory :=
  ⟨[meter "a" (.uint 9007199254740993), meter "b" (.uint 5), meter "c" .null,
    meter "d" (.uint 9007199254740992), meter "e" (.uint 5)], 100, []⟩

/-- Readings of which the second counts as equal to both others. -/
def mixed : Memory :=
  ⟨[meter "a" (.int 9007199254740993), meter "b" (.uint 9007199254740992),
    meter "c" (.int 9007199254740992)], 100, []⟩

/-- The readings without a sign are sorted. -/
theorem unsigned_sorted : meters.column? "Reading" = some reading ∧ reading.orderable = true ∧
    unsigned.Sorts clock ascending reading .ascending ∧
    unsigned.inOrder clock ascending =
      [meter "c" .null, meter "b" (.uint 5), meter "e" (.uint 5),
        meter "d" (.uint 9007199254740992), meter "a" (.uint 9007199254740993)] := by
  refine ⟨rfl, rfl, ?_, by cbv⟩
  have hcolumn : meters.column? "Reading" = some reading := rfl
  have hvalues := Memory.sorts_iff hcolumn rfl
    {raw | raw.isNull = true ∨ raw.kind? = some .uint}
  refine hvalues.2.2.2.mpr ?_ unsigned clock ascending .ascending rfl rfl ?_
  · intro a ha b hb c hc hblurs
    obtain ⟨ha', -⟩ := Raw.not_isNull_of_compare? hblurs.1
    have hb' := hblurs.2.1
    have hkind {raw : Raw} (h : raw.isNull = true ∨ raw.kind? = some .uint)
        (h' : raw.isNull = false) : ∃ y, raw = .uint y := by
      have hkind := h.resolve_left (ne_true_of_eq_false h')
      cases raw with
      | uint y => exact ⟨y, rfl⟩
      | _ => cases hkind
    obtain ⟨x, rfl⟩ := hkind ha ha'
    obtain ⟨y, rfl⟩ := hkind hb hb'
    exact Raw.not_blurs_of_kind (a := .uint x) (b := .uint y) rfl rfl hblurs
  · simp only [unsigned, List.forall_mem_cons]
    exact ⟨.inr rfl, .inr rfl, .inl rfl, .inr rfl, .inr rfl, List.forall_mem_nil _⟩

/-- The greater reading stays in front of the smaller one. -/
theorem mixed_not_sorted :
    (Raw.int 9007199254740993).sortOrder (.uint 9007199254740992) ≠ .gt ∧
    (Raw.uint 9007199254740992).sortOrder (.int 9007199254740992) ≠ .gt ∧
    (Raw.int 9007199254740993).sortOrder (.int 9007199254740992) = .gt ∧
    mixed.inOrder clock ascending = mixed.rows ∧
    ¬ mixed.Sorts clock ascending reading .ascending := by
  have hblurs : (Raw.uint 9007199254740992).Blurs (.int 9007199254740993)
      (.int 9007199254740992) :=
    ⟨by decide, rfl, .inr ⟨by decide, by decide +kernel, by decide +kernel⟩⟩
  obtain ⟨hab, hbc, hac⟩ := Raw.intransitive_iff.mpr hblurs
  have horder : mixed.inOrder clock ascending = mixed.rows :=
    Memory.sorted_blurred (c := reading) rfl rfl hblurs
  refine ⟨hab, hbc, hac, horder, fun h => ?_⟩
  have hsorted := h.1.ordered
  rw [horder] at hsorted
  exact (List.pairwise_cons.mp hsorted).1 (meter "c" (.int 9007199254740992)) (by simp) hac

end Meter

end TableQuery
