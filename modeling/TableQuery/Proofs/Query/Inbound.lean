import Mathlib.Data.List.Forall2
import TableQuery.Proofs.Value.Display

/-!
# Conditions that groups stand for

What a group of linked conditions becomes: nothing where its question finds no row, and otherwise
a list of the raw values of the local column for the rows that were found.

## Main results

* `LinkGroup.mem_keys_iff` — the listed values are those of all rows found.
* `Engine.inboundCondition_eq_none_iff`, `Engine.inboundCondition_eq_some_iff` — one group.
* `Engine.exists_of_inbound_eq_none`, `Engine.inbound_eq_some_iff` — all groups.
-/

namespace TableQuery

namespace LinkGroup

variable {l : Link} {here : Column}

/-- Rows whose values in a column are shown alike have the same raw value for them. -/
def Coherent (l : Link) (here : Column) (rows : List TableRow) : Prop :=
  ∀ row ∈ rows, ∀ row' ∈ rows, ∀ v w, row.value? l.searchColumn = some v →
    row'.value? l.searchColumn = some w → v.display = w.display → here.rawOf v = here.rawOf w

/-- The values listed are those of the rows found that were not seen before. -/
theorem mem_keys_iff_of_seen {rows : List TableRow} {seen : List String} {raws : List Raw}
    (hc : Coherent l here rows) (h : keys l here seen rows = .ok raws) (raw : Raw) :
    raw ∈ raws ↔ ∃ row ∈ rows, ∃ v, row.value? l.searchColumn = some v ∧ v.display ∉ seen ∧
      here.rawOf v = .ok raw := by
  induction rows generalizing seen raws with
  | nil =>
    cases h
    simp
  | cons row rows ih =>
    have hrest : Coherent l here rows := fun a ha b hb =>
      hc a (List.mem_cons_of_mem _ ha) b (List.mem_cons_of_mem _ hb)
    simp only [keys] at h
    split at h
    · next hv => simp [ih hrest h, hv]
    · next v hv =>
      split at h
      · next hseen =>
        have hseen' : v.display ∈ seen := by simpa using hseen
        simp [ih hrest h, hv, hseen']
      · next hseen =>
        have hseen' : v.display ∉ seen := by simpa using hseen
        rw [← bind_assoc] at h
        simp only [Except.bind_eq_ok_iff, Except.pure_eq_ok, Except.ok.injEq] at h
        obtain ⟨first, hfirst, rest, hkeys, rfl⟩ := h
        have hraw : here.rawOf v = .ok first := by
          simpa only [Column.rawOf, Except.bind_eq_ok_iff] using hfirst
        rw [List.mem_cons, ih hrest hkeys]
        constructor
        · rintro (rfl | ⟨row', hrow', w, hw, hnew, hw'⟩)
          · exact ⟨row, List.mem_cons_self, v, hv, hseen', hraw⟩
          · exact ⟨row', List.mem_cons_of_mem _ hrow', w, hw,
              fun hmem => hnew (List.mem_cons_of_mem _ hmem), hw'⟩
        · rintro ⟨row', hrow', w, hw, hnew, hw'⟩
          by_cases hsame : w.display = v.display
          · left
            have := hc row List.mem_cons_self row' hrow' v w hv hw hsame.symm
            rw [hraw, hw'] at this
            exact (Except.ok.inj this).symm
          · right
            rcases List.mem_cons.mp hrow' with rfl | hrow'
            · rw [hv] at hw
              exact absurd (congrArg Value.display (Option.some.inj hw)).symm hsame
            · exact ⟨row', hrow', w, hw, by simp [hsame, hnew], hw'⟩

/-- The values listed are those of all rows found, each text once. -/
theorem mem_keys_iff {rows : List TableRow} {raws : List Raw} (hc : Coherent l here rows)
    (h : keys l here [] rows = .ok raws) (raw : Raw) :
    raw ∈ raws ↔ ∃ row ∈ rows, ∃ v, row.value? l.searchColumn = some v ∧
      here.rawOf v = .ok raw := by
  simp [mem_keys_iff_of_seen hc h raw]

end LinkGroup

namespace Engine

variable {e : Engine} {find : Template → Run TableRows} {t : Table} {g : LinkGroup}

theorem inboundCondition_eq_none_iff :
    (e.inboundCondition find t g).result = .ok none ↔
      ∃ remote here found, e.registry.table? g.link.table = some remote ∧
        t.column? g.link.localColumn = some here ∧ (find g.template).result = .ok found ∧
        found.rows = [] := by
  simp only [inboundCondition, Run.liftM_eq_ofExcept, Run.result_bind_eq_ok_iff,
    Run.result_ofExcept_eq_ok_iff, Registry.find_eq_ok_iff, Table.column_eq_ok_iff]
  constructor
  · rintro ⟨remote, hr, here, hh, found, hf, h⟩
    refine ⟨remote, here, found, hr, hh, hf, ?_⟩
    split at h
    · next hempty => exact List.isEmpty_iff.mp hempty
    · simp at h
  · rintro ⟨remote, here, found, hr, hh, hf, hempty⟩
    exact ⟨remote, hr, here, hh, found, hf, by simp [hempty]⟩

theorem inboundCondition_eq_some_iff {condition : RawCondition} :
    (e.inboundCondition find t g).result = .ok (some condition) ↔
      ∃ remote here found raws, e.registry.table? g.link.table = some remote ∧
        t.column? g.link.localColumn = some here ∧ (find g.template).result = .ok found ∧
        found.rows ≠ [] ∧ LinkGroup.keys g.link here [] found.rows = .ok raws ∧
        condition = ⟨here.id, Builtin.isIn, raws⟩ := by
  simp only [inboundCondition, Run.liftM_eq_ofExcept, Run.result_bind_eq_ok_iff,
    Run.result_ofExcept_eq_ok_iff, Registry.find_eq_ok_iff, Table.column_eq_ok_iff]
  constructor
  · rintro ⟨remote, hr, here, hh, found, hf, h⟩
    split at h
    · simp at h
    · next hempty =>
      simp only [Run.result_bind_eq_ok_iff, Run.result_ofExcept_eq_ok_iff, Run.result_pure,
        Except.ok.injEq, Option.some.injEq] at h
      obtain ⟨raws, hk, rfl⟩ := h
      exact ⟨remote, here, found, raws, hr, hh, hf, fun h => hempty (List.isEmpty_iff.mpr h), hk,
        rfl⟩
  · rintro ⟨remote, here, found, raws, hr, hh, hf, hne, hk, rfl⟩
    refine ⟨remote, hr, here, hh, found, hf, ?_⟩
    rw [if_neg (by simpa using hne)]
    simp [hk]

theorem exists_of_inbound_eq_none {gs : List LinkGroup}
    (h : (e.inbound find t gs).result = .ok none) :
    ∃ g ∈ gs, (e.inboundCondition find t g).result = .ok none := by
  induction gs with
  | nil => simp [inbound] at h
  | cons g gs ih =>
    simp only [inbound, Run.result_bind_eq_ok_iff] at h
    obtain ⟨found, hfound, h⟩ := h
    cases found with
    | none => exact ⟨g, List.mem_cons_self, hfound⟩
    | some condition =>
      simp only [Run.result_bind_eq_ok_iff, Run.result_pure, Except.ok.injEq] at h
      obtain ⟨rest, hrest, h⟩ := h
      obtain rfl : rest = none := Option.map_eq_none_iff.mp h
      obtain ⟨g', hg', h'⟩ := ih hrest
      exact ⟨g', List.mem_cons_of_mem _ hg', h'⟩

theorem inbound_eq_some_iff {gs : List LinkGroup} {conditions : List RawCondition} :
    (e.inbound find t gs).result = .ok (some conditions) ↔
      List.Forall₂ (fun g condition =>
        (e.inboundCondition find t g).result = .ok (some condition)) gs conditions := by
  induction gs generalizing conditions with
  | nil => simp [inbound, eq_comm]
  | cons g gs ih =>
    simp only [inbound, Run.result_bind_eq_ok_iff, List.forall₂_cons_left_iff]
    constructor
    · rintro ⟨found, hfound, h⟩
      cases found with
      | none => simp at h
      | some condition =>
        simp only [Run.result_bind_eq_ok_iff, Run.result_pure, Except.ok.injEq] at h
        obtain ⟨rest, hrest, h⟩ := h
        obtain ⟨rest', rfl, rfl⟩ := Option.map_eq_some_iff.mp h
        exact ⟨condition, rest', hfound, ih.mp hrest, rfl⟩
    · rintro ⟨condition, rest, hfound, hrest, rfl⟩
      refine ⟨some condition, hfound, ?_⟩
      simp [ih.mpr hrest]

end Engine

end TableQuery
