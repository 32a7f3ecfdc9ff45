import Mathlib.Data.List.Induction
import TableQuery.Query.Inbound

/-!
# Groups of linked conditions

Conditions with the same lookup form one group, led by the link of the first of them.

## Main definitions

* `Link.leaders` — the first link of each lookup.
* `LinkGroup.led` — the group that a link leads.

## Main results

* `LinkGroup.collect_eq` — the groups are those that the first links lead, in their order.
* `LinkGroup.exists_leader` — every linked condition is in a group.
-/

namespace TableQuery

namespace Link

theorem sameLookup_iff {a b : Link} : a.sameLookup b = true ↔
    a.table = b.table ∧ a.localColumn = b.localColumn ∧ a.searchColumn = b.searchColumn := by
  simp [sameLookup, and_assoc]

@[simp] theorem sameLookup_refl (a : Link) : a.sameLookup a = true := by
  simp [sameLookup]

theorem sameLookup_symm {a b : Link} (h : a.sameLookup b = true) : b.sameLookup a = true := by
  grind [sameLookup_iff]

theorem sameLookup_trans {a b c : Link} (h : a.sameLookup b = true) (h' : b.sameLookup c = true) :
    a.sameLookup c = true := by
  grind [sameLookup_iff]

/-- The first link of each lookup. -/
def leaders : List Link → List Link
  | [] => []
  | l :: ls => l :: (leaders ls).filter fun k => !l.sameLookup k

theorem mem_of_mem_leaders {l : Link} {ls : List Link} (h : l ∈ leaders ls) : l ∈ ls := by
  induction ls with
  | nil => exact h
  | cons k ls ih =>
    rcases List.mem_cons.mp h with rfl | h
    · exact List.mem_cons_self
    · exact List.mem_cons_of_mem _ (ih (List.mem_filter.mp h).1)

theorem exists_leader {l : Link} {ls : List Link} (h : l ∈ ls) :
    ∃ k ∈ leaders ls, k.sameLookup l = true := by
  induction ls with
  | nil => cases h
  | cons k ls ih =>
    by_cases hk : k.sameLookup l = true
    · exact ⟨k, List.mem_cons_self, hk⟩
    · rcases List.mem_cons.mp h with rfl | h
      · exact absurd (sameLookup_refl l) hk
      · obtain ⟨j, hj, hjl⟩ := ih h
        refine ⟨j, List.mem_cons_of_mem _ (List.mem_filter.mpr ⟨hj, ?_⟩), hjl⟩
        cases hkj : k.sameLookup j with
        | true => exact absurd (sameLookup_trans hkj hjl) hk
        | false => rfl

theorem pairwise_leaders (ls : List Link) :
    (leaders ls).Pairwise fun a b => a.sameLookup b = false := by
  induction ls with
  | nil => exact .nil
  | cons l ls ih =>
    refine .cons (fun k hk => ?_) (ih.filter _)
    simpa using (List.mem_filter.mp hk).2

/-- A further link leads a lookup if none of its lookup came before. -/
theorem leaders_append_singleton (ls : List Link) (l : Link) :
    leaders (ls ++ [l]) =
      if ls.any (fun k => k.sameLookup l) then leaders ls else leaders ls ++ [l] := by
  induction ls with
  | nil => rfl
  | cons k ls ih =>
    simp only [List.cons_append, leaders, ih, List.any_cons]
    by_cases hk : k.sameLookup l = true <;>
      by_cases ha : (ls.any fun j => j.sameLookup l) = true <;>
      simp only [hk, ha, Bool.true_or, Bool.false_or, if_true] <;>
      simp_all

end Link

namespace LinkGroup

/-- The group that a link leads among linked conditions. -/
def led (linked : List (Link × Condition)) (l : Link) : LinkGroup :=
  ⟨l, (linked.filter fun p => l.sameLookup p.1).map Prod.snd⟩

theorem led_append_singleton (linked : List (Link × Condition)) (p : Link × Condition) (l : Link) :
    led (linked ++ [p]) l =
      if l.sameLookup p.1 then ⟨l, (led linked l).members ++ [p.2]⟩ else led linked l := by
  unfold led
  split <;> simp_all [List.filter_append]

section Insert

variable {linked : List (Link × Condition)} {p : Link × Condition} {ls : List Link}

/-- Where no group has the lookup, a further condition begins one. -/
theorem insert_of_new (h : ∀ l ∈ ls, l.sameLookup p.1 = false) :
    insert p.1 p.2 (ls.map (led linked)) =
      ls.map (led (linked ++ [p])) ++ [⟨p.1, [p.2]⟩] := by
  induction ls with
  | nil => rfl
  | cons l ls ih =>
    obtain ⟨hl, hls⟩ := List.forall_mem_cons.mp h
    simp only [List.map_cons, insert, ih hls, led_append_singleton]
    simp [led, hl]

/-- Where a group has the lookup, the condition joins it, and the other groups stay. -/
theorem insert_of_known (hp : ls.Pairwise fun a b => a.sameLookup b = false) {k : Link}
    (hk : k ∈ ls) (hkp : k.sameLookup p.1 = true) :
    insert p.1 p.2 (ls.map (led linked)) = ls.map (led (linked ++ [p])) := by
  induction ls with
  | nil => cases hk
  | cons l ls ih =>
    obtain ⟨hl, hls⟩ := List.pairwise_cons.mp hp
    have hlink : (led linked l).link = l := rfl
    simp only [List.map_cons, insert, hlink]
    cases hlp : l.sameLookup p.1 with
    | true =>
      -- No later group has the lookup too.
      have hrest : ls.map (led linked) = ls.map (led (linked ++ [p])) := by
        refine List.map_congr_left fun j hj => ?_
        rw [led_append_singleton, if_neg]
        intro hjp
        have := Link.sameLookup_trans hlp (Link.sameLookup_symm hjp)
        rw [hl j hj] at this
        cases this
      rw [if_pos rfl, hrest, led_append_singleton, if_pos hlp]
    | false =>
      have hmem : k ∈ ls := by
        rcases List.mem_cons.mp hk with rfl | hk
        · rw [hlp] at hkp
          cases hkp
        · exact hk
      rw [if_neg (by simp), ih hls hmem, led_append_singleton, if_neg (by simp [hlp])]

end Insert

/-- The groups are those that the first links of the lookups lead. -/
theorem collect_eq (linked : List (Link × Condition)) :
    collect linked = (Link.leaders (linked.map Prod.fst)).map (led linked) := by
  induction linked using List.reverseRecOn with
  | nil => rfl
  | append_singleton linked p ih =>
    have hfold : collect (linked ++ [p]) = insert p.1 p.2 (collect linked) := by
      simp [collect, List.foldl_append]
    rw [hfold, ih, List.map_append, List.map_singleton, Link.leaders_append_singleton]
    split
    · next hany =>
      obtain ⟨l, hl, hlp⟩ := List.any_eq_true.mp hany
      obtain ⟨k, hk, hkl⟩ := Link.exists_leader hl
      exact insert_of_known (Link.pairwise_leaders _) hk (Link.sameLookup_trans hkl hlp)
    · next hany =>
      have hnone : ∀ l ∈ linked.map Prod.fst, l.sameLookup p.1 = false := by
        simpa using hany
      rw [insert_of_new fun l hl => hnone l (Link.mem_of_mem_leaders hl), List.map_append,
        List.map_singleton, led_append_singleton, if_pos (Link.sameLookup_refl _)]
      have hempty : (linked.filter fun q => p.1.sameLookup q.1) = [] := by
        rw [List.filter_eq_nil_iff]
        intro q hq hpq
        have := hnone q.1 (List.mem_map_of_mem hq)
        rw [Link.sameLookup_symm hpq] at this
        cases this
      simp [led, hempty]

/-- Every linked condition is in a group. -/
theorem exists_led {linked : List (Link × Condition)} {p : Link × Condition} (hp : p ∈ linked) :
    ∃ l, led linked l ∈ collect linked ∧ l.sameLookup p.1 = true ∧
      p.2 ∈ (led linked l).members := by
  obtain ⟨l, hl, hlp⟩ := Link.exists_leader (List.mem_map_of_mem (f := Prod.fst) hp)
  refine ⟨l, ?_, hlp, ?_⟩
  · rw [collect_eq]
    exact List.mem_map_of_mem hl
  · exact List.mem_map.mpr ⟨p, List.mem_filter.mpr ⟨hp, hlp⟩, rfl⟩

/-- A group is led by the link of a linked condition and holds the conditions of its lookup. -/
theorem eq_led_of_mem {linked : List (Link × Condition)} {g : LinkGroup}
    (hg : g ∈ collect linked) : g = led linked g.link ∧ g.link ∈ linked.map Prod.fst := by
  rw [collect_eq] at hg
  obtain ⟨l, hl, rfl⟩ := List.mem_map.mp hg
  exact ⟨rfl, Link.mem_of_mem_leaders hl⟩

theorem members_ne_nil {linked : List (Link × Condition)} {g : LinkGroup}
    (hg : g ∈ collect linked) : g.members ≠ [] := by
  obtain ⟨heq, hmem⟩ := eq_led_of_mem hg
  obtain ⟨p, hp, hpl⟩ := List.mem_map.mp hmem
  have hin : p.2 ∈ g.members := by
    rw [heq]
    refine List.mem_map.mpr ⟨p, List.mem_filter.mpr ⟨hp, ?_⟩, rfl⟩
    rw [hpl]
    exact Link.sameLookup_refl _
  exact List.ne_nil_of_mem hin

end LinkGroup

end TableQuery
