import TableQuery.Proofs.Query.Retrieval
import TableQuery.Proofs.Query.ShortCircuit
import TableQuery.Query.Address

/-!
# Queries in addresses commute

The parameters of a query in an address are grouped by their names, and the groups become conditions
that all have to hold. In whatever order the parameters stand, the same names have the same values,
so the conditions are the same but for their order and the order of the values of a list. A table in
memory answers them with the same rows.

## Main definitions

* `Counterparts` — the items of two lists have counterparts in each other.
* `valuesOf` — the values of a name.
* `Condition.Reordered`, `RawCondition.Reordered` — conditions with the same values in other orders.

## Main results

* `groupPairs_eq` — every name has one group, of all its values.
* `Table.counterparts_queryConditions` — the same parameters make the same conditions.
* `Memory.fetch_congr` — the same conditions fetch the same.
* `Engine.findByQuery_perm` — the parameters of a query commute.
-/

namespace TableQuery

/-! ## Lists with counterparts -/

/-- Every item of one list has a counterpart in the other one. -/
def Counterparts {α β : Type} (R : α → β → Prop) (as : List α) (bs : List β) : Prop :=
  (∀ a ∈ as, ∃ b ∈ bs, R a b) ∧ ∀ b ∈ bs, ∃ a ∈ as, R a b

/-- If a step succeeds on counterparts of what it succeeds on, with counterparts of what comes of
it, so do many steps. -/
theorem Counterparts.mapM {ε α β γ δ : Type} {R : α → β → Prop} {S : γ → δ → Prop}
    {f : α → Except ε γ} {g : β → Except ε δ} {as : List α} {bs : List β} {cs : List γ}
    (h : Counterparts R as bs) (hcs : as.mapM f = .ok cs)
    (hstep : ∀ a b c, R a b → f a = .ok c → ∃ d, g b = .ok d ∧ S c d) :
    ∃ ds, bs.mapM g = .ok ds ∧ Counterparts S cs ds := by
  rw [Except.mapM_eq_ok_iff] at hcs
  have hsome : ∀ b ∈ bs, ∃ d, g b = .ok d := by
    intro b hb
    obtain ⟨a, ha, hab⟩ := h.2 b hb
    obtain ⟨c, -, hc⟩ := forall₂_exists_right hcs ha
    obtain ⟨d, hd, -⟩ := hstep a b c hab hc
    exact ⟨d, hd⟩
  obtain ⟨ds, hds⟩ := exists_forall₂ hsome
  refine ⟨ds, Except.mapM_eq_ok_iff.mpr hds, ?_, ?_⟩
  · intro c hc
    obtain ⟨a, ha, hac⟩ := forall₂_exists_left hcs hc
    obtain ⟨b, hb, hab⟩ := h.1 a ha
    obtain ⟨d, hd, hcd⟩ := hstep a b c hab hac
    obtain ⟨d', hd', hbd'⟩ := forall₂_exists_right hds hb
    obtain rfl : d = d' := Except.ok.inj (hd.symm.trans hbd')
    exact ⟨d, hd', hcd⟩
  · intro d hd
    obtain ⟨b, hb, hbd⟩ := forall₂_exists_left hds hd
    obtain ⟨a, ha, hab⟩ := h.2 b hb
    obtain ⟨c, hc, hac⟩ := forall₂_exists_right hcs ha
    obtain ⟨d', hd', hcd'⟩ := hstep a b c hab hac
    obtain rfl : d' = d := Except.ok.inj (hd'.symm.trans hbd)
    exact ⟨c, hc, hcd'⟩

/-- A step that succeeds on items in one order succeeds on them in every other order. -/
theorem perm_of_mapM {ε α β : Type} {f : α → Except ε β} {as as' : List α} {bs : List β}
    (hperm : as.Perm as') (h : as.mapM f = .ok bs) :
    ∃ bs', as'.mapM f = .ok bs' ∧ bs.Perm bs' := by
  rw [Except.mapM_eq_ok_iff] at h
  obtain ⟨bs', hbs', hperm'⟩ := List.perm_comp_forall₂ hperm.symm h
  exact ⟨bs', Except.mapM_eq_ok_iff.mpr hbs', hperm'.symm⟩

theorem firstOfEach_append_of_notMem {ss : List String} {s : String} (h : s ∉ ss) :
    firstOfEach (ss ++ [s]) = firstOfEach ss ++ [s] := by
  induction ss with
  | nil => rfl
  | cons first ss ih =>
    rw [List.mem_cons, not_or] at h
    rw [List.cons_append, firstOfEach, ih h.2, firstOfEach, List.filter_append]
    simp [h.1]

theorem firstOfEach_append_of_subset {ss more : List String} (h : more ⊆ ss) :
    firstOfEach (ss ++ more) = firstOfEach ss := by
  induction more using List.reverseRecOn with
  | nil => rw [List.append_nil]
  | append_singleton more s ih =>
    have hmore : more ⊆ ss := fun x hx => h (List.mem_append_left _ hx)
    have hs : s ∈ ss := h (by simp)
    rw [← List.append_assoc, firstOfEach_append_of_mem (List.mem_append_left _ hs), ih hmore]

/-! ## Groups -/

def valuesOf (pairs : List (String × String)) (name : String) : List String :=
  (pairs.filter fun p => p.1 == name).map Prod.snd

theorem valuesOf_perm {pairs pairs' : List (String × String)} (h : pairs.Perm pairs')
    (name : String) : (valuesOf pairs name).Perm (valuesOf pairs' name) :=
  (h.filter _).map _

section Groups

variable {pairs pairs' : List (String × String)} {name value : String}

theorem valuesOf_append_self :
    valuesOf (pairs ++ [(name, value)]) name = valuesOf pairs name ++ [value] := by
  simp [valuesOf, List.filter_append]

theorem valuesOf_append_of_ne {other : String} (h : other ≠ name) :
    valuesOf (pairs ++ [(name, value)]) other = valuesOf pairs other := by
  simp [valuesOf, List.filter_append, h.symm]

/-- The value of a name that has no group makes one. -/
theorem insertPair_of_new {names : List String} (h : name ∉ names) :
    insertPair name value (names.map fun n => (n, valuesOf pairs n)) =
      names.map (fun n => (n, valuesOf (pairs ++ [(name, value)]) n)) ++ [(name, [value])] := by
  induction names with
  | nil => rfl
  | cons other names ih =>
    rw [List.mem_cons, not_or] at h
    rw [List.map_cons, insertPair, if_neg (Ne.symm h.1), ih h.2, List.map_cons,
      valuesOf_append_of_ne (Ne.symm h.1), List.cons_append]

/-- The value of a name that has a group joins it. -/
theorem insertPair_of_known {names : List String} (hn : names.Nodup) (h : name ∈ names) :
    insertPair name value (names.map fun n => (n, valuesOf pairs n)) =
      names.map fun n => (n, valuesOf (pairs ++ [(name, value)]) n) := by
  induction names with
  | nil => cases h
  | cons other names ih =>
    rw [List.nodup_cons] at hn
    rw [List.map_cons, insertPair, List.map_cons]
    split
    · case isTrue hsame =>
      obtain rfl : other = name := hsame
      rw [valuesOf_append_self]
      congr 1
      refine List.map_congr_left fun n hmem => ?_
      rw [valuesOf_append_of_ne (ne_of_mem_of_not_mem hmem hn.1)]
    · case isFalse hother =>
      have hname : name ∈ names := (List.mem_cons.mp h).resolve_left (Ne.symm hother)
      rw [ih hn.2 hname, valuesOf_append_of_ne hother]

/-- Every name has one group, of all its values in their order. -/
theorem groupPairs_eq (pairs : List (String × String)) :
    groupPairs pairs =
      (firstOfEach (pairs.map Prod.fst)).map fun name => (name, valuesOf pairs name) := by
  induction pairs using List.reverseRecOn with
  | nil => rfl
  | append_singleton pairs p ih =>
    obtain ⟨name, value⟩ := p
    have hstep : groupPairs (pairs ++ [(name, value)]) = insertPair name value (groupPairs pairs) :=
      List.foldl_concat ..
    rw [hstep, ih, List.map_append, List.map_singleton]
    by_cases hname : name ∈ pairs.map Prod.fst
    · have hknown : name ∈ firstOfEach (pairs.map Prod.fst) := Table.mem_firstOfEach.mpr hname
      rw [insertPair_of_known (nodup_firstOfEach _) hknown, firstOfEach_append_of_mem hname]
    · have hnew : name ∉ firstOfEach (pairs.map Prod.fst) :=
        fun h => hname (Table.mem_firstOfEach.mp h)
      have hnone : valuesOf pairs name = [] := by
        rw [valuesOf, List.map_eq_nil_iff, List.filter_eq_nil_iff]
        intro p hp hsame
        exact hname (List.mem_map.mpr ⟨p, hp, by simpa using hsame⟩)
      rw [insertPair_of_new hnew, firstOfEach_append_of_notMem hname, List.map_append,
        List.map_singleton, valuesOf_append_self, hnone, List.nil_append]

theorem mem_groupPairs_iff {g : String × List String} :
    g ∈ groupPairs pairs ↔ g.1 ∈ pairs.map Prod.fst ∧ g.2 = valuesOf pairs g.1 := by
  obtain ⟨name, values⟩ := g
  rw [groupPairs_eq, List.mem_map]
  constructor
  · rintro ⟨n, hn, heq⟩
    obtain ⟨rfl, rfl⟩ := Prod.mk.inj heq
    exact ⟨Table.mem_firstOfEach.mp hn, rfl⟩
  · rintro ⟨hname, hvalues⟩
    exact ⟨name, Table.mem_firstOfEach.mpr hname, Prod.ext rfl hvalues.symm⟩

/-- Two groups of one name with the same values. -/
def SameGroup (g g' : String × List String) : Prop :=
  g.1 = g'.1 ∧ g.2.Perm g'.2

/-- The same pairs in another order make the same groups. -/
theorem counterparts_groupPairs (h : pairs.Perm pairs') :
    Counterparts SameGroup (groupPairs pairs) (groupPairs pairs') := by
  have hnames (name : String) : name ∈ pairs.map Prod.fst ↔ name ∈ pairs'.map Prod.fst :=
    (h.map Prod.fst).mem_iff
  constructor
  · intro g hg
    obtain ⟨hname, hvalues⟩ := mem_groupPairs_iff.mp hg
    refine ⟨(g.1, valuesOf pairs' g.1), mem_groupPairs_iff.mpr ⟨(hnames _).mp hname, rfl⟩, rfl, ?_⟩
    rw [hvalues]
    exact valuesOf_perm h g.1
  · intro g hg
    obtain ⟨hname, hvalues⟩ := mem_groupPairs_iff.mp hg
    refine ⟨(g.1, valuesOf pairs g.1), mem_groupPairs_iff.mpr ⟨(hnames _).mpr hname, rfl⟩, rfl, ?_⟩
    rw [hvalues]
    exact valuesOf_perm h g.1

end Groups

/-! ## Conditions -/

/-- An operator that a query in an address asks with: it compares with one value or with a list. -/
def Asks (operator : String) (count : Nat) : Prop :=
  operator ∈ [Builtin.eq, Builtin.lt, Builtin.gt] ∧ count = 1 ∨ operator = Builtin.isIn

/-- Two conditions ask the same, with the values in another order. -/
structure Condition.Reordered (k k' : Condition) : Prop where
  column_eq : k'.column = k.column
  operator_eq : k'.operator = k.operator
  perm : k.values.Perm k'.values
  asks : Asks k.operator k.values.length

structure RawCondition.Reordered (k k' : RawCondition) : Prop where
  column_eq : k'.column = k.column
  operator_eq : k'.operator = k.operator
  perm : k.values.Perm k'.values
  asks : Asks k.operator k.values.length

namespace Column

variable {c : Column} {values values' : List String}

theorem enteredAll_eq_mapM (values : List String) :
    c.enteredAll values = values.mapM c.entered := by
  induction values with
  | nil => rfl
  | cons s values ih => rw [enteredAll, List.mapM_cons, ih]

theorem markedValue_fst (text : String) :
    (markedValue text).1 ∈ [Builtin.eq, Builtin.lt, Builtin.gt] := by
  unfold markedValue
  split
  · simp
  · split <;> simp

/-- One value is asked for by its mark. -/
theorem condition_single (text : String) : c.condition [text] =
    (c.entered (markedValue text).2).map fun v => .of c.id (markedValue text).1 [v] := by
  unfold condition
  dsimp only
  cases c.entered (markedValue text).2 <;> rfl

/-- Several values are asked for as a list. -/
theorem condition_of_length_ne (h : values.length ≠ 1) : c.condition values =
    (values.mapM c.entered).map fun vs => .of c.id Builtin.isIn vs := by
  rw [← enteredAll_eq_mapM]
  unfold condition
  split
  · exact absurd rfl h
  · cases c.enteredAll values <;> rfl

theorem column_of_condition {k : Condition} (h : c.condition values = .ok k) :
    k.column = c.id := by
  by_cases hone : values.length = 1
  · obtain ⟨text, rfl⟩ := List.length_eq_one_iff.mp hone
    rw [condition_single, Except.map_eq_ok_iff] at h
    obtain ⟨v, -, rfl⟩ := h
    rfl
  · rw [condition_of_length_ne hone, Except.map_eq_ok_iff] at h
    obtain ⟨vs, -, rfl⟩ := h
    rfl

/-- The values of a column in another order make the same condition. -/
theorem reordered_condition (hperm : values.Perm values') {k : Condition}
    (h : c.condition values = .ok k) : ∃ k', c.condition values' = .ok k' ∧ k.Reordered k' := by
  have hqualified : ∀ operator ∈ [Builtin.eq, Builtin.lt, Builtin.gt],
      qualify operator = operator := by
    decide
  by_cases hone : values.length = 1
  · obtain ⟨text, rfl⟩ := List.length_eq_one_iff.mp hone
    obtain rfl : values' = [text] := List.singleton_perm.mp hperm |>.symm
    refine ⟨k, h, ?_⟩
    rw [condition_single, Except.map_eq_ok_iff] at h
    obtain ⟨v, -, rfl⟩ := h
    have hoperator := markedValue_fst text
    refine ⟨rfl, rfl, .refl _, .inl ⟨?_, rfl⟩⟩
    rw [Condition.of, hqualified _ hoperator]
    exact hoperator
  · rw [condition_of_length_ne hone, Except.map_eq_ok_iff] at h
    obtain ⟨vs, hvs, rfl⟩ := h
    obtain ⟨vs', hvs', hperm'⟩ := perm_of_mapM hperm hvs
    rw [condition_of_length_ne (hperm.length_eq ▸ hone), hvs']
    exact ⟨_, rfl, rfl, rfl, hperm', .inr (show qualify Builtin.isIn = _ by decide)⟩

end Column

namespace Table

variable {t : Table} {groups groups' : List (String × List String)} {filter : List Condition}

theorem queryConditions_eq_mapM (t : Table) (groups : List (String × List String)) :
    t.queryConditions groups =
      groups.mapM fun g => t.column g.1 >>= fun c => c.condition g.2 := by
  induction groups with
  | nil => rfl
  | cons g groups ih =>
    rw [queryConditions, List.mapM_cons, ih]
    cases t.column g.1 <;> rfl

theorem counterparts_queryConditions (hgroups : Counterparts SameGroup groups groups')
    (h : t.queryConditions groups = .ok filter) :
    ∃ filter', t.queryConditions groups' = .ok filter' ∧
      Counterparts Condition.Reordered filter filter' := by
  rw [queryConditions_eq_mapM] at h ⊢
  refine hgroups.mapM h ?_
  rintro g g' k ⟨hname, hvalues⟩ hk
  obtain ⟨c, hc, hk⟩ := Except.bind_eq_ok_iff.mp hk
  obtain ⟨k', hk', hsame⟩ := Column.reordered_condition hvalues hk
  refine ⟨k', ?_, hsame⟩
  rw [← hname, hc]
  exact hk'

/-- A condition of a query in an address is on the column of its group. -/
theorem column?_of_queryConditions (h : t.queryConditions groups = .ok filter) {k : Condition}
    (hk : k ∈ filter) :
    ∃ g ∈ groups, ∃ c, t.column? g.1 = some c ∧ t.column? k.column = some c := by
  rw [queryConditions_eq_mapM, Except.mapM_eq_ok_iff] at h
  obtain ⟨g, hg, hstep⟩ := forall₂_exists_left h hk
  obtain ⟨c, hc, hk⟩ := Except.bind_eq_ok_iff.mp hstep
  have hcolumn := column_eq_ok_iff.mp hc
  refine ⟨g, hg, c, hcolumn, ?_⟩
  rw [Column.column_of_condition hk, column?_id hcolumn, hcolumn]

theorem validateCondition_of_reordered {k k' : Condition} (h : k.Reordered k')
    (hk : t.validateCondition k = .ok ()) : t.validateCondition k' = .ok () := by
  rw [validateCondition_eq_ok_iff] at hk ⊢
  obtain ⟨c, op, hc, hop, hcount, hvalues⟩ := hk
  refine ⟨c, op, ?_, ?_, ?_, ?_⟩
  · rwa [h.column_eq]
  · rwa [h.operator_eq]
  · rwa [← h.perm.length_eq]
  · intro v hv
    exact hvalues v (h.perm.mem_iff.mpr hv)

theorem nativeValues_eq_mapM (c : Column) (values : List Value) :
    nativeValues c values = values.mapM c.native := by
  induction values with
  | nil => rfl
  | cons v values ih => rw [nativeValues, List.mapM_cons, ih]

theorem reordered_decode {k k' : Condition} (h : k.Reordered k') {raw : RawCondition}
    (hraw : t.decode k = .ok raw) : ∃ raw', t.decode k' = .ok raw' ∧ raw.Reordered raw' := by
  simp only [decode, Except.bind_eq_ok_iff, Except.pure_eq_ok, Except.ok.injEq,
    nativeValues_eq_mapM] at hraw
  obtain ⟨c, hc, raws, hraws, rfl⟩ := hraw
  obtain ⟨raws', hraws', hperm⟩ := perm_of_mapM h.perm hraws
  have hlength : raws.length = k.values.length := (Except.mapM_eq_ok_iff.mp hraws).length_eq.symm
  refine ⟨⟨c.id, k'.operator, raws'⟩, ?_, rfl, h.operator_eq, hperm, ?_⟩
  · rw [decode, h.column_eq, hc, Except.ok_bind, nativeValues_eq_mapM, hraws']
    rfl
  · rw [hlength]
    exact h.asks

theorem column_of_decode {k : Condition} {raw : RawCondition} (h : t.decode k = .ok raw) :
    raw.column = k.column := by
  simp only [decode, Except.bind_eq_ok_iff, Except.pure_eq_ok, Except.ok.injEq] at h
  obtain ⟨c, hc, raws, -, rfl⟩ := h
  exact column?_id (column_eq_ok_iff.mp hc)

/-- Conditions on columns that are asked for add nothing to what is fetched. -/
theorem fetchColumns_of_subset {output : List String} {conditions : List RawCondition}
    (h : ∀ k ∈ conditions, k.column ∈ output) :
    t.fetchColumns output conditions = t.fetchColumns output [] := by
  have hsubset : conditions.map RawCondition.column ⊆ output := by
    intro id hid
    obtain ⟨k, hk, rfl⟩ := List.mem_map.mp hid
    exact h k hk
  rw [fetchColumns, fetchColumns, List.map_nil, List.append_nil, firstOfEach_append_of_subset]
  intro id hid
  simp [hsubset hid]

end Table

/-! ## Rows in memory -/

namespace Memory

variable {m : Memory} {now : Moment} {t : Table} {conditions conditions' : List RawCondition}

/-- What a query in an address asks can be told of every value, in whatever order the values that it
is compared with stand. -/
theorem exists_evaluate {k k' : RawCondition} (h : k.Reordered k') (c : Column) (value : Raw) :
    ∃ b, m.evaluate now c k.operator value k.values = .ok b ∧
      m.evaluate now c k'.operator value k'.values = .ok b := by
  rw [h.operator_eq]
  rcases h.asks with ⟨hoperator, hone⟩ | hin
  · obtain ⟨arg, harg⟩ := List.length_eq_one_iff.mp hone
    have hsame : k'.values = k.values := by
      have hperm := h.perm
      rw [harg] at hperm
      rw [harg, List.singleton_perm.mp hperm]
    rw [hsame, harg]
    simp only [List.mem_cons, List.not_mem_nil, or_false] at hoperator
    have hcompared : (comparison? k.operator).isSome = true := by
      rcases hoperator with hop | hop | hop <;> rw [hop] <;> decide
    obtain ⟨holds, hholds⟩ := Option.isSome_iff_exists.mp hcompared
    have hevaluate : m.evaluate now c k.operator value [arg] = .ok (holds value arg) := by
      simp only [evaluate, hholds]
    exact ⟨_, hevaluate, hevaluate⟩
  · rw [hin, evaluate_isIn, evaluate_isIn]
    exact ⟨_, rfl, congrArg Except.ok (h.perm.any_eq).symm⟩

/-- The same conditions in another order hold on the same rows. -/
theorem holds_congr (hsame : Counterparts RawCondition.Reordered conditions conditions')
    (hcolumns : ∀ k ∈ conditions, ∃ c, t.column? k.column = some c) (row : StoredRow) :
    m.holds now t row conditions = m.holds now t row conditions' := by
  have hholds : ∃ b, m.holds now t row conditions = .ok b := by
    refine exists_holds fun k hk => ?_
    obtain ⟨c, hc⟩ := hcolumns k hk
    obtain ⟨k', -, hkk'⟩ := hsame.1 k hk
    obtain ⟨b, hb, -⟩ := exists_evaluate hkk' c ((row.get? c).getD .null)
    exact ⟨c, hc, b, hb⟩
  have hholds' : ∃ b, m.holds now t row conditions' = .ok b := by
    refine exists_holds fun k' hk' => ?_
    obtain ⟨k, hk, hkk'⟩ := hsame.2 k' hk'
    obtain ⟨c, hc⟩ := hcolumns k hk
    obtain ⟨b, -, hb⟩ := exists_evaluate hkk' c ((row.get? c).getD .null)
    exact ⟨c, hkk'.column_eq ▸ hc, b, hb⟩
  have haccepts {k k' : RawCondition} (h : k.Reordered k') :
      m.Accepts now t row k ↔ m.Accepts now t row k' := by
    unfold Accepts
    rw [h.column_eq]
    refine exists_congr fun c => and_congr_right fun _ => ?_
    obtain ⟨b, hb, hb'⟩ := exists_evaluate h c ((row.get? c).getD .null)
    rw [hb, hb']
  have hkeeps : m.keeps now t conditions row = m.keeps now t conditions' row := by
    rw [Bool.eq_iff_iff, keeps_iff, keeps_iff]
    constructor
    · intro hall k' hk'
      obtain ⟨k, hk, hkk'⟩ := hsame.2 k' hk'
      exact (haccepts hkk').mp (hall k hk)
    · intro hall k hk
      obtain ⟨k', hk', hkk'⟩ := hsame.1 k hk
      exact (haccepts hkk').mpr (hall k' hk')
  obtain ⟨b, hb⟩ := hholds
  obtain ⟨b', hb'⟩ := hholds'
  rw [keeps_of_holds hb, keeps_of_holds hb'] at hkeeps
  rw [hb, hb', hkeeps]

theorem matching_congr (h : ∀ row, m.holds now t row conditions = m.holds now t row conditions')
    (rows : List StoredRow) :
    m.matching now t conditions rows = m.matching now t conditions' rows := by
  induction rows with
  | nil => rfl
  | cons row rows ih => rw [matching, matching, h, ih]

/-- The same conditions fetch the same, if the fetches agree about the rest. -/
theorem fetch_congr {f f' : Fetch}
    (hsame : Counterparts RawCondition.Reordered f.conditions f'.conditions)
    (hcolumns : ∀ k ∈ f.conditions, ∃ c, f.table.column? k.column = some c)
    (hrest : f' = { f with conditions := f'.conditions }) : m.fetch now f' = m.fetch now f := by
  have hholds (row : StoredRow) : m.holds now f.table row f.conditions =
      m.holds now f.table row f'.conditions :=
    holds_congr hsame hcolumns row
  have hmatching := matching_congr hholds m.rows
  rw [hrest, fetch, fetch, hmatching]

end Memory

/-! ## Queries -/

namespace Engine

variable {e : Engine} {m : Memory} {now : Moment} {session : Session} {table : String}
  {page : PageRequest} {found : TableRows}

/-- A query in an address finds what the conditions of its groups find. -/
theorem findByQuery_eq_ok_iff {query : String} :
    (e.findByQuery now session table query page).result = .ok found ↔
      ∃ t filter, e.registry.table? table = some t ∧
        t.queryConditions (groupPairs (Text.formPairs (dropQuestionMarks query))) = .ok filter ∧
        (e.find now session
          (.temporary t.id ⟨filter, t.columns.map fun c => .plain c.id⟩ page)).result =
            .ok found := by
  simp only [findByQuery, Run.liftM_eq_ofExcept, Run.result_bind_eq_ok_iff,
    Run.result_ofExcept_eq_ok_iff, Registry.find_eq_ok_iff]
  constructor
  · rintro ⟨t, ht, filter, hfilter, hfound⟩
    exact ⟨t, filter, ht, hfilter, hfound⟩
  · rintro ⟨t, filter, ht, hfilter, hfound⟩
    exact ⟨t, ht, filter, hfilter, hfound⟩

/-- What conditions on stored columns find in memory. -/
theorem find_stored_eq_ok_iff {t : Table} {template : Template}
    (ht : e.registry.table? template.table = some t)
    (hdriver : e.drivers.lookup t.id = some m.driver)
    (hstored : ∀ k ∈ template.body.filter, ∃ c, t.column? k.column = some c ∧
      c.outboundLink? = none) :
    (e.find now session template).result = .ok found ↔
      t.validate template = .ok () ∧ ∃ direct fetched,
        template.body.filter.mapM t.decode = .ok direct ∧
        m.fetch now (t.fetchFor template direct) = .ok fetched ∧
        (e.answer session (e.findSimple now session (e.columnCount + 1)) false
          (t.fetchFor template direct) template.outputIds fetched).result = .ok found := by
  have hlinkOf : ∀ k ∈ template.body.filter, t.linkOf? k = none := by
    intro k hk
    obtain ⟨c, hc, hnone⟩ := hstored k hk
    rw [Table.linkOf?, hc, Option.bind_some, hnone]
  have hdirect : t.directConditions template.body.filter = template.body.filter :=
    List.filter_eq_self.mpr fun k hk => by rw [hlinkOf k hk]; rfl
  have hsplit : t.split template.body.filter =
      (template.body.filter.mapM t.decode).map fun direct => (direct, []) := by
    rw [Table.split_eq fun k hk => (hstored k hk).imp fun _ => And.left, hdirect,
      Table.linkedConditions_eq_nil hlinkOf]
  unfold find
  rw [findOnce_eq_ok_iff]
  constructor
  · rintro ⟨t', direct, linked, ht', hvalid, hs, hrest⟩
    obtain rfl : t' = t := Option.some.inj (ht'.symm.trans ht)
    rw [hsplit, Except.map_eq_ok_iff] at hs
    obtain ⟨_, hdecode, heq⟩ := hs
    obtain ⟨rfl, rfl⟩ := Prod.mk.inj heq
    rcases hrest with ⟨hi, -⟩ | ⟨translated, d, fetched, hi, hd, hf, ha⟩
    · cases hi
    · cases hi
      obtain rfl : m.driver = d := Option.some.inj (hdriver.symm.trans (driver_eq_ok_iff.mp hd))
      rw [List.append_nil] at hf ha
      exact ⟨hvalid, _, fetched, hdecode, Memory.ask_eq_ok_iff.mp hf, ha⟩
  · rintro ⟨hvalid, direct, fetched, hdecode, hf, ha⟩
    refine ⟨t, direct, [], ht, hvalid, ?_, .inr ⟨[], m.driver, fetched, rfl, ?_, ?_, ?_⟩⟩
    · rw [hsplit, hdecode]
      rfl
    · exact driver_eq_ok_iff.mpr hdriver
    · rw [List.append_nil]
      exact Memory.ask_eq_ok_iff.mpr hf
    · rw [List.append_nil]
      exact ha

/-- The same conditions on stored columns in another order find the same, where these columns are
among those asked for. -/
theorem find_of_reordered {t : Table} {template : Template} {filter : List Condition}
    (ht : e.registry.table? template.table = some t)
    (hdriver : e.drivers.lookup t.id = some m.driver)
    (hsame : Counterparts Condition.Reordered template.body.filter filter)
    (hstored : ∀ k ∈ template.body.filter, k.column ∈ template.outputIds ∧
      ∃ c, t.column? k.column = some c ∧ c.outboundLink? = none)
    (h : (e.find now session template).result = .ok found) :
    (e.find now session { template with body := { template.body with filter } }).result =
      .ok found := by
  have hstored' : ∀ k ∈ filter, ∃ c, t.column? k.column = some c ∧ c.outboundLink? = none := by
    intro k' hk'
    obtain ⟨k, hk, hkk'⟩ := hsame.2 k' hk'
    rw [hkk'.column_eq]
    exact (hstored k hk).2
  obtain ⟨hvalid, direct, fetched, hdecode, hfetch, hanswer⟩ :=
    (find_stored_eq_ok_iff ht hdriver fun k hk => (hstored k hk).2).mp h
  obtain ⟨direct', hdecode', hraw⟩ := hsame.mapM hdecode fun k k' raw hkk' hk =>
    Table.reordered_decode hkk' hk
  have hcolumns : ∀ raw ∈ direct, raw.column ∈ template.outputIds ∧
      ∃ c, t.column? raw.column = some c := by
    intro raw hmem
    obtain ⟨k, hk, hkraw⟩ := forall₂_exists_left (Except.mapM_eq_ok_iff.mp hdecode) hmem
    obtain ⟨houtput, c, hc, -⟩ := hstored k hk
    rw [Table.column_of_decode hkraw]
    exact ⟨houtput, c, hc⟩
  have houtput : t.fetchColumns template.outputIds direct' =
      t.fetchColumns template.outputIds direct := by
    rw [Table.fetchColumns_of_subset fun raw hmem => (hcolumns raw hmem).1,
      Table.fetchColumns_of_subset]
    intro raw' hmem'
    obtain ⟨raw, hmem, hsame⟩ := hraw.2 raw' hmem'
    rw [hsame.column_eq]
    exact (hcolumns raw hmem).1
  let template' : Template := { template with body := { template.body with filter } }
  have hfetches : t.fetchFor template' direct' =
      { t.fetchFor template direct with conditions := direct' } := by
    unfold Table.fetchFor
    congr 1
  have ht' : e.registry.table? template'.table = some t := ht
  refine (find_stored_eq_ok_iff ht' hdriver hstored').mpr
    ⟨?_, direct', fetched, hdecode', ?_, ?_⟩
  · rw [Table.validate_eq_ok_iff, Table.validateFilter_eq_ok_iff] at hvalid ⊢
    refine ⟨?_, hvalid.2⟩
    intro k' hk'
    obtain ⟨k, hk, hkk'⟩ := hsame.2 k' hk'
    exact Table.validateCondition_of_reordered hkk' (hvalid.1 k hk)
  · rw [Memory.fetch_congr hraw (fun raw hmem => (hcolumns raw hmem).2) hfetches]
    exact hfetch
  · rw [hfetches]
    exact hanswer

theorem findByQuery_of_perm {query query' : String}
    (hperm : (Text.formPairs (dropQuestionMarks query)).Perm
      (Text.formPairs (dropQuestionMarks query')))
    (hdriver : e.drivers.lookup table = some m.driver)
    (hstored : ∀ t, e.registry.table? table = some t →
      ∀ p ∈ Text.formPairs (dropQuestionMarks query), ∀ c, t.column? p.1 = some c →
        c.outboundLink? = none)
    (h : (e.findByQuery now session table query page).result = .ok found) :
    (e.findByQuery now session table query' page).result = .ok found := by
  obtain ⟨t, filter, ht, hfilter, hfound⟩ := findByQuery_eq_ok_iff.mp h
  obtain rfl : t.id = table := Registry.table?_id ht
  obtain ⟨filter', hfilter', hsame⟩ :=
    Table.counterparts_queryConditions (counterparts_groupPairs hperm) hfilter
  refine findByQuery_eq_ok_iff.mpr ⟨t, filter', ht, hfilter', ?_⟩
  refine find_of_reordered ht hdriver hsame ?_ hfound
  intro k hk
  obtain ⟨g, hg, c, hc, hkc⟩ := Table.column?_of_queryConditions hfilter hk
  obtain ⟨p, hp, hname⟩ := List.mem_map.mp (mem_groupPairs_iff.mp hg).1
  refine ⟨?_, c, hkc, hstored t ht p hp c (by rw [hname, hc])⟩
  have hid : c.id = k.column := Table.column?_id hkc
  have houtput : (Template.temporary t.id ⟨filter, t.columns.map fun c => .plain c.id⟩
      page).outputIds = t.columns.map Column.id := by
    simp [Template.outputIds, Template.temporary, OutputColumn.plain]
  rw [houtput, ← hid]
  exact List.mem_map_of_mem (Table.mem_of_column? hkc)

/-- The parameters of a query in an address commute: in whatever order they stand, where those that
are columns are stored ones and the rows are held in memory, the same is found. -/
theorem findByQuery_perm {query query' : String}
    (hperm : (Text.formPairs (dropQuestionMarks query)).Perm
      (Text.formPairs (dropQuestionMarks query')))
    (hdriver : e.drivers.lookup table = some m.driver)
    (hstored : ∀ t, e.registry.table? table = some t →
      ∀ p ∈ Text.formPairs (dropQuestionMarks query), ∀ c, t.column? p.1 = some c →
        c.outboundLink? = none) (found : TableRows) :
    (e.findByQuery now session table query page).result = .ok found ↔
      (e.findByQuery now session table query' page).result = .ok found := by
  have hstored' : ∀ t, e.registry.table? table = some t →
      ∀ p ∈ Text.formPairs (dropQuestionMarks query'), ∀ c, t.column? p.1 = some c →
        c.outboundLink? = none :=
    fun t ht p hp => hstored t ht p (hperm.mem_iff.mpr hp)
  exact ⟨findByQuery_of_perm hperm hdriver hstored, findByQuery_of_perm hperm.symm hdriver hstored'⟩

end Engine

namespace Depot

open Sample (clock visitor)

def bins : Memory where
  rows :=
    [.keyed [("Code", .text "M1"), ("No", .int 1), ("Name", .text "Bolt")],
      .keyed [("Code", .text "M2"), ("No", .int 5), ("Name", .text "Nut")],
      .keyed [("Code", .text "M3"), ("No", .int 7), ("Name", .text "Bolt")],
      .keyed [("Code", .text "M4"), ("No", .int 9), ("Name", .text "Gear")]]
  limit := 100000
  operators := []

def sorts : Table :=
  { materials with
    columns := materials.columns.map fun c => { c with filters := Builtin.operators } }

def binned : Engine where
  registry := ⟨[sorts]⟩
  options := .empty
  drivers := [("Material", bins.driver)]

/-- Bolts and nuts with a number greater than 2, where the names stand apart or together. -/
theorem names_commute :
    (Text.formPairs (dropQuestionMarks "Name=Bolt&No=MIN(2)&Name=Nut")).Perm
        (Text.formPairs (dropQuestionMarks "?Name=Nut&Name=Bolt&No=MIN%282%29")) ∧
      binned.drivers.lookup "Material" = some bins.driver ∧
      (∀ t, binned.registry.table? "Material" = some t →
        ∀ p ∈ Text.formPairs (dropQuestionMarks "Name=Bolt&No=MIN(2)&Name=Nut"), ∀ c,
          t.column? p.1 = some c → c.outboundLink? = none) ∧
      ∃ found, found.rows.map TableRow.id = ["M2", "M3"] ∧
        (binned.findByQuery clock visitor "Material" "Name=Bolt&No=MIN(2)&Name=Nut" .all).result =
          .ok found ∧
        (binned.findByQuery clock visitor "Material" "?Name=Nut&Name=Bolt&No=MIN%282%29"
          .all).result = .ok found := by
  have hperm : (Text.formPairs (dropQuestionMarks "Name=Bolt&No=MIN(2)&Name=Nut")).Perm
      (Text.formPairs (dropQuestionMarks "?Name=Nut&Name=Bolt&No=MIN%282%29")) := by
    decide +kernel
  have hstored : ∀ t, binned.registry.table? "Material" = some t →
      ∀ p ∈ Text.formPairs (dropQuestionMarks "Name=Bolt&No=MIN(2)&Name=Nut"), ∀ c,
        t.column? p.1 = some c → c.outboundLink? = none := by
    intro t ht p _ c hc
    obtain rfl := Option.some.inj ht
    have hcolumns : ∀ c ∈ sorts.columns, c.outboundLink? = none := by decide
    exact hcolumns c (Table.mem_of_column? hc)
  have hids : (binned.findByQuery clock visitor "Material" "Name=Bolt&No=MIN(2)&Name=Nut"
      .all).result.map (fun found => found.rows.map TableRow.id) = .ok ["M2", "M3"] := by
    cbv
  obtain ⟨found, hfound, hids⟩ := Except.map_eq_ok_iff.mp hids
  exact ⟨hperm, rfl, hstored, found, hids, hfound,
    (Engine.findByQuery_perm hperm rfl hstored found).mp hfound⟩

end Depot

end TableQuery
