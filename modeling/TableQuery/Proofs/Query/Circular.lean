import TableQuery.Proofs.Query.Chains
import TableQuery.Proofs.Query.Inbound

/-!
# Runs that lead in a circle

A run asks other tables about its linked conditions, and these ask further tables in their turn.
It goes on for ever when one of the chains of questions does that it comes to, and only then.

## Main definitions

* `Run.Circular` — a run goes on for ever.

## Main results

* `Engine.findSimple_of_after` — a chain that ends is answered within its length.
* `Engine.circular_findSimple` — a chain that does not end is followed for ever.
-/

namespace TableQuery

namespace Run

variable {α β : Type}

/-- Links are followed for longer than there are columns. -/
def Circular (r : Run α) : Prop :=
  r.result = .error .circular

theorem circular_bind_iff {r : Run α} {next : α → Run β} :
    (r >>= next).Circular ↔ r.Circular ∨ ∃ a, r.result = .ok a ∧ (next a).Circular :=
  result_bind_eq_error_iff

@[simp] theorem not_circular_pure (a : α) : ¬(pure a : Run α).Circular := by
  simp [Circular]

@[simp] theorem not_circular_ofExcept (x : Except QueryError α) : ¬(ofExcept x).Circular := by
  cases x <;> simp [Circular, ofExcept, done, stop]

@[simp] theorem circular_map_iff {r : Run α} {f : α → β} : (f <$> r).Circular ↔ r.Circular := by
  rw [map_eq_pure_bind, circular_bind_iff]
  simp

end Run

theorem Driver.not_circular_ask {d : Driver} {now : Moment} {session : Session} {f : Fetch} :
    ¬(d.ask now session f).Circular := by
  unfold Driver.ask Run.call Run.Circular
  cases d.fetch now session f with
  | silent => cases session.hasDeadline <;> simp
  | _ => simp

namespace Engine

variable {e : Engine} {now : Moment} {session : Session} {find find' : Template → Run TableRows}
  {t : Table} {template : Template}

/-- A group is answered for ever if its question is. -/
theorem circular_inboundCondition_iff {g : LinkGroup} :
    (e.inboundCondition find t g).Circular ↔
      (∃ remote, e.registry.table? g.link.table = some remote) ∧
      (∃ here, t.column? g.link.localColumn = some here) ∧ (find g.template).Circular := by
  simp only [inboundCondition, Run.liftM_eq_ofExcept, Run.circular_bind_iff,
    Run.not_circular_ofExcept, false_or, Run.result_ofExcept_eq_ok_iff, Registry.find_eq_ok_iff,
    Table.column_eq_ok_iff]
  constructor
  · rintro ⟨remote, hr, here, hh, h | ⟨found, -, h⟩⟩
    · exact ⟨⟨remote, hr⟩, ⟨here, hh⟩, h⟩
    · split at h
      · exact absurd h (Run.not_circular_pure _)
      · simp at h
  · rintro ⟨⟨remote, hr⟩, ⟨here, hh⟩, h⟩
    exact ⟨remote, hr, here, hh, .inl h⟩

/-- Groups are answered for ever if one is, and something is found for all before it. -/
theorem circular_inbound_iff {gs : List LinkGroup} :
    (e.inbound find t gs).Circular ↔ ∃ before g behind found, gs = before ++ g :: behind ∧
      (e.inbound find t before).result = .ok (some found) ∧
      (e.inboundCondition find t g).Circular := by
  induction gs with
  | nil => simp [inbound]
  | cons g gs ih =>
    simp only [inbound, Run.circular_bind_iff]
    constructor
    · rintro (h | ⟨_ | condition, hg, h⟩)
      · exact ⟨[], g, gs, [], rfl, rfl, h⟩
      · exact absurd h (Run.not_circular_pure _)
      · simp only [Run.circular_bind_iff, Run.not_circular_pure, and_false, exists_false,
          or_false] at h
        obtain ⟨before, g', behind, found, rfl, hbefore, h⟩ := ih.mp h
        refine ⟨g :: before, g', behind, condition :: found, rfl, ?_, h⟩
        rw [inbound_eq_some_iff] at hbefore ⊢
        exact .cons hg hbefore
    · rintro ⟨before, g', behind, found, heq, hbefore, h⟩
      cases before with
      | nil =>
        obtain ⟨rfl, rfl⟩ := List.cons.inj heq
        exact .inl h
      | cons first before =>
        obtain ⟨rfl, rfl⟩ := List.cons.inj heq
        rw [inbound_eq_some_iff] at hbefore
        obtain ⟨condition, rest, hfirst, hrest, rfl⟩ := List.forall₂_cons_left_iff.mp hbefore
        refine .inr ⟨some condition, hfirst, Run.circular_bind_iff.mpr (.inl (ih.mpr ?_))⟩
        exact ⟨before, g', behind, rest, rfl, inbound_eq_some_iff.mpr hrest, h⟩

/-- Only the questions of the groups are asked. -/
theorem inbound_congr {gs : List LinkGroup} (h : ∀ g ∈ gs, find g.template = find' g.template) :
    e.inbound find t gs = e.inbound find' t gs := by
  induction gs with
  | nil => rfl
  | cons g gs ih =>
    rw [List.forall_mem_cons] at h
    rw [inbound, inbound, inboundCondition, inboundCondition, h.1, ih h.2]

theorem answer_congr {simple : Bool} {f : Fetch} {requested : List String} {fetched : Fetched}
    (h : ∀ rows, e.filled find simple f.table rows = e.filled find' simple f.table rows) :
    e.answer session find simple f requested fetched =
      e.answer session find' simple f requested fetched := by
  simp only [answer_eq, h]

theorem findOnce_congr {simple : Bool}
    (h : ∀ t direct linked, e.registry.table? template.table = some t →
      t.validate template = .ok () → t.split template.body.filter = .ok (direct, linked) →
      e.inbound find t (LinkGroup.collect linked) = e.inbound find' t (LinkGroup.collect linked) ∧
      ∀ rows, e.filled find simple t rows = e.filled find' simple t rows) :
    e.findOnce now session find simple template = e.findOnce now session find' simple template := by
  simp only [findOnce, Run.liftM_eq_ofExcept]
  refine Run.ofExcept_bind_congr fun t ht => Run.ofExcept_bind_congr fun _ hv =>
    Run.ofExcept_bind_congr fun p hs => ?_
  obtain ⟨hinbound, hfilled⟩ := h t p.1 p.2 (Registry.find_eq_ok_iff.mp ht) hv hs
  have hanswer (conditions : List RawCondition) (requested : List String) (fetched : Fetched) :
      e.answer session find simple (t.fetchFor template conditions) requested fetched =
        e.answer session find' simple (t.fetchFor template conditions) requested fetched :=
    answer_congr hfilled
  simp only [Table.fetchFor] at hanswer
  simp only [hinbound, hanswer]

/-- A run goes on for ever if its groups are answered for ever. -/
theorem circular_findOnce_of_inbound {simple : Bool} {direct : List RawCondition}
    {linked : List (Link × Condition)} (ht : e.registry.table? template.table = some t)
    (hv : t.validate template = .ok ()) (hs : t.split template.body.filter = .ok (direct, linked))
    (h : (e.inbound find t (LinkGroup.collect linked)).Circular) :
    (e.findOnce now session find simple template).Circular := by
  simp only [findOnce, Run.liftM_eq_ofExcept, Run.circular_bind_iff, Run.not_circular_ofExcept,
    false_or, Run.result_ofExcept_eq_ok_iff, Registry.find_eq_ok_iff, Prod.exists]
  exact ⟨t, ht, (), hv, direct, linked, hs, .inl h⟩

/-- A run goes on for ever only if its groups are answered for ever or linked cells are filled for
ever: drivers, and whatever else is done with what they find, come to an end. -/
theorem inbound_or_filled_of_circular {simple : Bool}
    (h : (e.findOnce now session find simple template).Circular) :
    ∃ t direct linked, e.registry.table? template.table = some t ∧
      t.validate template = .ok () ∧ t.split template.body.filter = .ok (direct, linked) ∧
      ((e.inbound find t (LinkGroup.collect linked)).Circular ∨
        ∃ rows, (e.filled find simple t rows).Circular) := by
  simp only [findOnce, Run.liftM_eq_ofExcept, Run.circular_bind_iff, Run.not_circular_ofExcept,
    false_or, Run.result_ofExcept_eq_ok_iff, Registry.find_eq_ok_iff, Prod.exists] at h
  obtain ⟨t, ht, ⟨⟩, hv, direct, linked, hs, h⟩ := h
  refine ⟨t, direct, linked, ht, hv, hs, ?_⟩
  obtain h | ⟨_ | translated, -, h⟩ := h
  · exact .inl h
  · exact absurd h (Run.not_circular_pure _)
  · simp only [Run.circular_bind_iff, Run.not_circular_ofExcept, false_or,
      Driver.not_circular_ask] at h
    obtain ⟨d, -, fetched, -, h⟩ := h
    simp only [answer_eq, Run.circular_bind_iff, Run.not_circular_ofExcept, false_or] at h
    obtain ⟨rows, -, h | ⟨full, -, aggregates, -, h⟩⟩ := h
    · exact .inr ⟨rows, h⟩
    · cases simple <;> simp [offered] at h

/-- A simple run goes on for ever only if its groups are answered for ever. -/
theorem circular_findOnce_iff :
    (e.findOnce now session find true template).Circular ↔ ∃ t direct linked,
      e.registry.table? template.table = some t ∧ t.validate template = .ok () ∧
      t.split template.body.filter = .ok (direct, linked) ∧
      (e.inbound find t (LinkGroup.collect linked)).Circular := by
  constructor
  · intro h
    obtain ⟨t, direct, linked, ht, hv, hs, h | ⟨rows, h⟩⟩ := inbound_or_filled_of_circular h
    · exact ⟨t, direct, linked, ht, hv, hs, h⟩
    · exact absurd h (Run.not_circular_pure rows)
  · rintro ⟨t, direct, linked, ht, hv, hs, h⟩
    exact circular_findOnce_of_inbound ht hv hs h

end Engine

theorem Link.leaders_eq_singleton {l : Link} {ls : List Link} (h : ∀ k ∈ ls, k = l) :
    leaders (l :: ls) = [l] := by
  have hnone : (leaders ls).filter (fun k => !l.sameLookup k) = [] := by
    rw [List.filter_eq_nil_iff]
    intro k hk
    rw [h k (mem_of_mem_leaders hk)]
    simp
  rw [leaders, hnone]

/-- Conditions with one link form one group. -/
theorem LinkGroup.collect_map_link {l : Link} {conditions : List Condition} (h : conditions ≠ []) :
    collect (conditions.map fun condition => (l, condition)) = [⟨l, conditions⟩] := by
  have hleaders : Link.leaders ((conditions.map fun condition => (l, condition)).map Prod.fst) =
      [l] := by
    obtain ⟨first, rest, rfl⟩ := List.exists_cons_of_ne_nil h
    exact Link.leaders_eq_singleton (by simp)
  rw [collect_eq, hleaders]
  simp [led, List.filter_map, Function.comp_def]

/-- Conditions that are all linked can be taken apart. -/
theorem Table.split_of_linkOf? {t : Table} {l : Link} {conditions : List Condition}
    (h : ∀ condition ∈ conditions, t.linkOf? condition = some l) :
    ∃ linked, t.split conditions = .ok ([], linked) := by
  induction conditions with
  | nil => exact ⟨[], rfl⟩
  | cons condition conditions ih =>
    rw [List.forall_mem_cons] at h
    obtain ⟨linked, hs⟩ := ih h.2
    obtain ⟨c, hc, hl⟩ := Option.bind_eq_some_iff.mp h.1
    exact ⟨_, split_cons_eq_ok_iff.mpr ⟨c, [], linked, hc, hs, .inl ⟨l, hl, rfl, rfl⟩⟩⟩

namespace Template

variable {r : Registry} {template next : Template} {t : Table} {column : String}

theorem OnColumn.linkOf?_eq (h : template.OnColumn column) {first : Condition}
    (hfirst : template.body.filter.head? = some first) {condition : Condition}
    (hc : condition ∈ template.body.filter) : t.linkOf? condition = t.linkOf? first := by
  rw [Table.linkOf?, Table.linkOf?, h.2 condition hc, h.2 first (List.mem_of_head? hfirst)]

/-- The conditions of a question that goes on form one group. -/
theorem OnColumn.collect_of_onward? (h : template.OnColumn column)
    (hnext : template.onward? r = some next) (ht : r.table? template.table = some t)
    {direct : List RawCondition} {linked : List (Link × Condition)}
    (hs : t.split template.body.filter = .ok (direct, linked)) :
    ∃ g, LinkGroup.collect linked = [g] ∧ g.template = next ∧
      ∃ first, t.linkOf? first = some g.link := by
  obtain ⟨t', first, l, ht', hfirst, hl, -, rfl⟩ := onward?_eq_some_iff.mp hnext
  obtain rfl : t' = t := Option.some.inj (ht'.symm.trans ht)
  have hlinked : linked = template.body.filter.map fun condition => (l, condition) := by
    rw [Table.linked_of_split hs, Table.linkedConditions, ← List.filterMap_eq_map]
    refine List.filterMap_congr fun condition hc => ?_
    simp [h.linkOf?_eq hfirst hc, hl]
  exact ⟨⟨l, template.body.filter⟩, by rw [hlinked, LinkGroup.collect_map_link h.1], rfl, first, hl⟩

/-- The conditions of a question that does not go on are not linked. -/
theorem OnColumn.collect_of_onward?_eq_none (h : template.OnColumn column)
    (hnext : template.onward? r = none) (ht : r.table? template.table = some t)
    (hv : t.validate template = .ok ())
    {direct : List RawCondition} {linked : List (Link × Condition)}
    (hs : t.split template.body.filter = .ok (direct, linked)) : LinkGroup.collect linked = [] := by
  obtain ⟨first, rest, hf⟩ := List.exists_cons_of_ne_nil h.1
  have hfirst : template.body.filter.head? = some first := by
    rw [hf]
    rfl
  have hnone : t.linkOf? first = none := by
    cases hl : t.linkOf? first with
    | none => rfl
    | some l =>
      have := onward?_eq_some_iff.mpr ⟨t, first, l, ht, hfirst, hl, hv, rfl⟩
      rw [hnext] at this
      cases this
  have hlinked : linked = [] := by
    rw [Table.linked_of_split hs]
    exact Table.linkedConditions_eq_nil fun condition hc => (h.linkOf?_eq hfirst hc).trans hnone
  rw [hlinked]
  rfl

end Template

namespace Engine

variable {e : Engine} {now : Moment} {session : Session} {find find' : Template → Run TableRows}
  {template next : Template} {column : String}

/-- A question that does not go on asks no other. -/
theorem findOnce_of_onward?_eq_none (h : template.OnColumn column)
    (hnext : template.onward? e.registry = none) :
    e.findOnce now session find true template = e.findOnce now session find' true template ∧
      ¬(e.findOnce now session find true template).Circular := by
  constructor
  · refine findOnce_congr fun t direct linked ht hv hs =>
      ⟨?_, fun rows => by rw [filled_true, filled_true]⟩
    rw [h.collect_of_onward?_eq_none hnext ht hv hs]
    rfl
  · rw [circular_findOnce_iff]
    rintro ⟨t, direct, linked, ht, hv, hs, hcircular⟩
    rw [h.collect_of_onward?_eq_none hnext ht hv hs] at hcircular
    exact Run.not_circular_pure _ hcircular

/-- A question that goes on asks the next one and no other. -/
theorem findOnce_congr_of_onward? (h : template.OnColumn column)
    (hnext : template.onward? e.registry = some next) (hfind : find next = find' next) :
    e.findOnce now session find true template = e.findOnce now session find' true template := by
  refine findOnce_congr fun t direct linked ht hv hs =>
    ⟨inbound_congr fun g hg => ?_, fun rows => by rw [filled_true, filled_true]⟩
  obtain ⟨g', hgs, hg', -⟩ := h.collect_of_onward? hnext ht hs
  rw [hgs, List.mem_singleton] at hg
  rw [hg, hg', hfind]

/-- A question that goes on is answered for ever if the next one is. -/
theorem circular_findOnce_iff_of_onward? (hr : e.registry.Linked) (h : template.OnColumn column)
    (hnext : template.onward? e.registry = some next) :
    (e.findOnce now session find true template).Circular ↔ (find next).Circular := by
  rw [circular_findOnce_iff]
  constructor
  · rintro ⟨t, direct, linked, ht, hv, hs, hcircular⟩
    obtain ⟨g', hgs, hg', -⟩ := h.collect_of_onward? hnext ht hs
    obtain ⟨before, g, behind, found, hsplit, -, hcircular⟩ := circular_inbound_iff.mp hcircular
    have hg : g ∈ LinkGroup.collect linked := by simp [hsplit]
    rw [hgs, List.mem_singleton] at hg
    rw [← hg', ← hg]
    exact (circular_inboundCondition_iff.mp hcircular).2.2
  · intro hcircular
    obtain ⟨t, first, l, ht, hfirst, hl, hv, -⟩ := Template.onward?_eq_some_iff.mp hnext
    obtain ⟨linked, hs⟩ := Table.split_of_linkOf? fun condition hc =>
      (h.linkOf?_eq hfirst hc).trans hl
    obtain ⟨g, hgs, hg, first', hl'⟩ := h.collect_of_onward? hnext ht hs
    obtain ⟨here, remote, search, value, hleads⟩ :=
      hr _ t ht g.link (Table.hasLink_of_linkOf? hl')
    have hcondition : (e.inboundCondition find t g).Circular :=
      circular_inboundCondition_iff.mpr
        ⟨⟨remote, hleads.remote_eq⟩, ⟨here, hleads.here_eq⟩, hg ▸ hcircular⟩
    refine ⟨t, [], linked, ht, hv, hs, circular_inbound_iff.mpr ?_⟩
    exact ⟨[], g, [], [], hgs, rfl, hcondition⟩

/-- A chain that ends is answered within its length, however far links may be followed. -/
theorem findSimple_of_after (hr : e.registry.Linked) {n : Nat} (hs : e.registry.Sends template)
    (h : template.after e.registry (n + 1) = none) {depth : Nat} (hd : n < depth) :
    e.findSimple now session depth template = e.findSimple now session (n + 1) template ∧
      ¬(e.findSimple now session depth template).Circular := by
  obtain ⟨column, hcolumn⟩ := hs.onColumn
  induction n generalizing template depth column with
  | zero =>
    obtain ⟨depth, rfl⟩ := Nat.exists_eq_add_one_of_ne_zero (Nat.ne_of_gt hd)
    exact findOnce_of_onward?_eq_none hcolumn h
  | succ n ih =>
    obtain ⟨depth, rfl⟩ := Nat.exists_eq_add_one_of_ne_zero (Nat.ne_of_gt (Nat.zero_lt_of_lt hd))
    cases hnext : template.onward? e.registry with
    | none => exact findOnce_of_onward?_eq_none hcolumn hnext
    | some next =>
      have hrest : next.after e.registry (n + 1) = none := by
        rw [Nat.add_comm (n + 1) 1, Template.after_add] at h
        simpa [Template.after, hnext] using h
      have hsnext := Registry.sends_of_onward? hnext
      obtain ⟨there, hthere⟩ := hsnext.onColumn
      obtain ⟨heq, hnot⟩ := ih hsnext hrest (Nat.lt_of_succ_lt_succ hd) there hthere
      exact ⟨findOnce_congr_of_onward? hcolumn hnext heq,
        fun hc => hnot ((circular_findOnce_iff_of_onward? hr hcolumn hnext).mp hc)⟩

/-- A chain that does not end is followed for ever, however far links may be followed. -/
theorem circular_findSimple (hr : e.registry.Linked) (hs : e.registry.Sends template)
    (h : ¬template.Ends e.registry) (depth : Nat) :
    (e.findSimple now session depth template).Circular := by
  obtain ⟨column, hcolumn⟩ := hs.onColumn
  induction depth generalizing template column with
  | zero => rfl
  | succ depth ih =>
    cases hnext : template.onward? e.registry with
    | none => exact absurd ⟨1, hnext⟩ h
    | some next =>
      have hsnext := Registry.sends_of_onward? hnext
      obtain ⟨there, hthere⟩ := hsnext.onColumn
      refine (circular_findOnce_iff_of_onward? hr hcolumn hnext).mpr (ih hsnext ?_ there hthere)
      rintro ⟨n, hn⟩
      refine h ⟨1 + n, ?_⟩
      rw [Template.after_add]
      simpa [Template.after, hnext] using hn

end Engine

end TableQuery
