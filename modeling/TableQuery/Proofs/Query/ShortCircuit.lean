import TableQuery.Proofs.Query.Completeness
import TableQuery.Proofs.Query.JoinFree

/-!
# All or nothing

A run takes its conditions apart before it asks anyone. Then it asks other tables, group by group,
and only when every group has come to a list of values does it ask the driver of its own table: for
the conditions on stored columns followed by one list for each group. A condition without raw
values, a group without rows and a group that fails end the run before that.

## Main definitions

* `Engine.Lists`, `Engine.FindsNone`, `Engine.Fails` — what a group can come to.
* `Engine.AllOrNothing` — how a run depends on its conditions.

## Main results

* `Table.split_eq`, `LinkGroup.keys_eq` — conditions and keys are translated item by item.
* `Engine.inbound_of_lists`, `Engine.inbound_of_before` — the groups of a run.
* `Engine.findOnce_allOrNothing` — the driver of a template is asked once, last, or not at all.
-/

namespace TableQuery

/-! ## Conditions and keys -/

namespace Table

variable {t : Table} {conditions : List Condition}

def directConditions (t : Table) (conditions : List Condition) : List Condition :=
  conditions.filter fun condition => (t.linkOf? condition).isNone

def decode (t : Table) (condition : Condition) : Except QueryError RawCondition := do
  let c ← t.column condition.column
  return ⟨c.id, condition.operator, ← nativeValues c condition.values⟩

/-- The conditions are taken apart one by one: those on stored columns become conditions on raw
values, in their order, and the others stay. -/
theorem split_eq (hcolumns : ∀ condition ∈ conditions, ∃ c, t.column? condition.column = some c) :
    t.split conditions = ((t.directConditions conditions).mapM t.decode).map
      fun direct => (direct, t.linkedConditions conditions) := by
  induction conditions with
  | nil => rfl
  | cons condition conditions ih =>
    rw [List.forall_mem_cons] at hcolumns
    obtain ⟨⟨c, hc⟩, hrest⟩ := hcolumns
    have hcolumn := column_eq_ok_iff.mpr hc
    rw [split, hcolumn, Except.ok_bind]
    cases hlink : c.outboundLink? with
    | some link =>
      have hlinkOf : t.linkOf? condition = some link := by simp [linkOf?, hc, hlink]
      have hdirect : t.directConditions (condition :: conditions) = t.directConditions conditions :=
        List.filter_cons_of_neg (by simp [hlinkOf])
      have hlinked : t.linkedConditions (condition :: conditions) =
          (link, condition) :: t.linkedConditions conditions := by
        simp [linkedConditions, hlinkOf]
      simp only [ih hrest, hdirect, hlinked]
      cases (t.directConditions conditions).mapM t.decode <;> rfl
    | none =>
      have hlinkOf : t.linkOf? condition = none := by simp [linkOf?, hc, hlink]
      have hdirect : t.directConditions (condition :: conditions) =
          condition :: t.directConditions conditions :=
        List.filter_cons_of_pos (by simp [hlinkOf])
      have hlinked : t.linkedConditions (condition :: conditions) =
          t.linkedConditions conditions := by
        simp [linkedConditions, hlinkOf]
      simp only [ih hrest, hdirect, hlinked, List.mapM_cons, decode, hcolumn, Except.ok_bind]
      cases nativeValues c condition.values <;>
        cases (t.directConditions conditions).mapM t.decode <;> rfl

end Table

/-- The values that rows are searched by, the first one of each text. -/
def Link.searchCells (l : Link) (rows : List TableRow) : List Value :=
  firstByKey Value.display (rows.filterMap fun row => row.value? l.searchColumn)

theorem LinkGroup.keys_eq_of_seen {l : Link} {here : Column} {seen : List String}
    {rows : List TableRow} : keys l here seen rows =
      ((l.searchCells rows).filter fun v => !seen.contains v.display).mapM here.rawOf := by
  induction rows generalizing seen with
  | nil => rfl
  | cons row rows ih =>
    unfold Link.searchCells at ih ⊢
    rw [keys, List.filterMap_cons]
    cases row.value? l.searchColumn with
    | none => exact ih
    | some v =>
      dsimp only
      rw [filter_firstByKey_cons]
      split
      · exact ih
      · rw [ih, List.mapM_cons, ← bind_assoc]
        rfl

/-- The keys of a group are the raw values of the values that its rows are searched by. -/
theorem LinkGroup.keys_eq (l : Link) (here : Column) (rows : List TableRow) :
    keys l here [] rows = (l.searchCells rows).mapM here.rawOf := by
  rw [keys_eq_of_seen]
  simp

namespace Engine

variable {e : Engine} {now : Moment} {session : Session} {find : Template → Run TableRows}
  {t : Table} {template : Template} {g : LinkGroup}

/-! ## One group -/

/-- A group comes to a list of values for its local column: its question finds rows, and all values
that they are searched by have raw values there. -/
def Lists (e : Engine) (find : Template → Run TableRows) (t : Table) (g : LinkGroup)
    (condition : RawCondition) : Prop :=
  ∃ remote here found raws, e.registry.table? g.link.table = some remote ∧
    t.column? g.link.localColumn = some here ∧ (find g.template).result = .ok found ∧
    found.rows ≠ [] ∧
    List.Forall₂ (fun v raw => here.rawOf v = .ok raw) (g.link.searchCells found.rows) raws ∧
    condition = ⟨here.id, Builtin.isIn, raws⟩

/-- The question of a group finds no row. -/
def FindsNone (e : Engine) (find : Template → Run TableRows) (t : Table) (g : LinkGroup) : Prop :=
  ∃ remote here found, e.registry.table? g.link.table = some remote ∧
    t.column? g.link.localColumn = some here ∧ (find g.template).result = .ok found ∧
    found.rows = []

/-- A group fails after some calls: its table or its column is missing, its question stops, or a
value that rows are searched by has no raw value in the local column. -/
inductive Fails (e : Engine) (find : Template → Run TableRows) (t : Table) (g : LinkGroup) :
    List Call → Stop → Prop where
  | table {err : QueryError} (h : e.registry.find g.link.table = .error err) :
      Fails e find t g [] (.error err)
  | column {remote : Table} {err : QueryError} (hr : e.registry.find g.link.table = .ok remote)
      (h : t.column g.link.localColumn = .error err) : Fails e find t g [] (.error err)
  | question {remote : Table} {here : Column} {s : Stop}
      (hr : e.registry.find g.link.table = .ok remote) (hc : t.column g.link.localColumn = .ok here)
      (h : (find g.template).result = .error s) : Fails e find t g (find g.template).calls s
  | conversion {remote : Table} {here : Column} {found : TableRows} {err : QueryError}
      (hr : e.registry.find g.link.table = .ok remote) (hc : t.column g.link.localColumn = .ok here)
      (hf : (find g.template).result = .ok found) (hne : found.rows ≠ [])
      (h : FirstFailure here.rawOf (g.link.searchCells found.rows) err) :
      Fails e find t g (find g.template).calls (.error err)

/-- What a group does once its table and its column are there. -/
theorem inboundCondition_eq {remote : Table} {here : Column}
    (hr : e.registry.find g.link.table = .ok remote)
    (hc : t.column g.link.localColumn = .ok here) :
    e.inboundCondition find t g = (do
      let found ← find g.template
      if found.rows.isEmpty then return none
      else return some ⟨here.id, Builtin.isIn,
        ← Run.ofExcept ((g.link.searchCells found.rows).mapM here.rawOf)⟩) := by
  simp only [inboundCondition, hr, hc, LinkGroup.keys_eq]
  rfl

theorem Lists.run {condition : RawCondition} (h : e.Lists find t g condition) :
    e.inboundCondition find t g = ⟨(find g.template).calls, .ok (some condition)⟩ := by
  obtain ⟨remote, here, found, raws, hr, hc, hf, hne, hraws, rfl⟩ := h
  rw [inboundCondition_eq (Registry.find_eq_ok_iff.mpr hr) (Table.column_eq_ok_iff.mpr hc),
    Run.bind_of_ok _ hf, Except.mapM_eq_ok_iff.mpr hraws]
  simp [List.isEmpty_eq_false_iff.mpr hne]

theorem FindsNone.run (h : e.FindsNone find t g) :
    e.inboundCondition find t g = ⟨(find g.template).calls, .ok none⟩ := by
  obtain ⟨remote, here, found, hr, hc, hf, hempty⟩ := h
  rw [inboundCondition_eq (Registry.find_eq_ok_iff.mpr hr) (Table.column_eq_ok_iff.mpr hc),
    Run.bind_of_ok _ hf]
  simp [hempty]

theorem Fails.run {calls : List Call} {s : Stop} (h : e.Fails find t g calls s) :
    e.inboundCondition find t g = ⟨calls, .error s⟩ := by
  cases h with
  | table h => simp [inboundCondition, h, Run.ofExcept, Run.bind_of_error, Run.stop]
  | column hr h =>
    simp only [inboundCondition, hr, h]
    rfl
  | question hr hc h => rw [inboundCondition_eq hr hc, Run.bind_of_error _ h]
  | conversion hr hc hf hne h =>
    rw [inboundCondition_eq hr hc, Run.bind_of_ok _ hf, Except.mapM_eq_error_iff.mpr h]
    simp [List.isEmpty_eq_false_iff.mpr hne, Run.ofExcept, Run.stop, bind, Run.andThen]

/-- The condition that a group stands for lists its values. -/
theorem lists_iff {condition : RawCondition} : e.Lists find t g condition ↔
    (e.inboundCondition find t g).result = .ok (some condition) := by
  simp only [Lists, inboundCondition_eq_some_iff, LinkGroup.keys_eq, Except.mapM_eq_ok_iff]

/-- A group comes to one of the three. -/
theorem lists_or_findsNone_or_fails (e : Engine) (find : Template → Run TableRows) (t : Table)
    (g : LinkGroup) : (∃ condition, e.Lists find t g condition) ∨ e.FindsNone find t g ∨
      ∃ calls s, e.Fails find t g calls s := by
  cases hr : e.registry.find g.link.table with
  | error err => exact .inr (.inr ⟨_, _, .table hr⟩)
  | ok remote =>
    cases hc : t.column g.link.localColumn with
    | error err => exact .inr (.inr ⟨_, _, .column hr hc⟩)
    | ok here =>
      have hr' := Registry.find_eq_ok_iff.mp hr
      have hc' := Table.column_eq_ok_iff.mp hc
      cases hf : (find g.template).result with
      | error s => exact .inr (.inr ⟨_, _, .question hr hc hf⟩)
      | ok found =>
        by_cases hne : found.rows = []
        · exact .inr (.inl ⟨remote, here, found, hr', hc', hf, hne⟩)
        · cases hraws : (g.link.searchCells found.rows).mapM here.rawOf with
          | error err =>
            exact .inr (.inr ⟨_, _, .conversion hr hc hf hne (Except.mapM_eq_error_iff.mp hraws)⟩)
          | ok raws =>
            exact .inl ⟨_, remote, here, found, raws, hr', hc', hf, hne,
              Except.mapM_eq_ok_iff.mp hraws, rfl⟩

/-! ## All groups -/

/-- The calls of the questions of groups, one after the other. -/
def asked (find : Template → Run TableRows) (gs : List LinkGroup) : List Call :=
  gs.flatMap fun g => (find g.template).calls

/-- Where every group lists values, all lists are taken. -/
theorem inbound_of_lists {gs : List LinkGroup} {translated : List RawCondition}
    (h : List.Forall₂ (e.Lists find t) gs translated) :
    e.inbound find t gs = ⟨asked find gs, .ok (some translated)⟩ := by
  induction h with
  | nil => rfl
  | @cons g condition gs translated hg _ ih =>
    rw [inbound, hg.run, ih]
    simp [bind, Run.andThen, pure, Run.done, asked]

/-- Where the groups before one list values and it does not, the groups end with it. -/
theorem inbound_of_before {before after : List LinkGroup} {calls : List Call}
    {result : Except Stop (Option RawCondition)}
    (hbefore : ∀ g' ∈ before, ∃ condition, e.Lists find t g' condition)
    (hg : e.inboundCondition find t g = ⟨calls, result⟩)
    (hresult : ∀ condition, result ≠ .ok (some condition)) :
    e.inbound find t (before ++ g :: after) =
      ⟨asked find before ++ calls, result.map fun _ => none⟩ := by
  induction before with
  | nil =>
    rw [List.nil_append, inbound, hg]
    rcases result with s | _ | condition
    · rfl
    · simp [bind, Run.andThen, pure, Run.done, asked, Except.map]
    · exact absurd rfl (hresult condition)
  | cons g' before ih =>
    rw [List.forall_mem_cons] at hbefore
    obtain ⟨⟨condition, hcondition⟩, hbefore⟩ := hbefore
    rw [List.cons_append, inbound, hcondition.run, ih hbefore]
    cases result <;> simp [bind, Run.andThen, pure, Run.done, asked, Except.map]

/-- Either every group lists values or there is a first one that does not. -/
theorem lists_or_before (e : Engine) (find : Template → Run TableRows) (t : Table)
    (gs : List LinkGroup) : (∃ translated, List.Forall₂ (e.Lists find t) gs translated) ∨
      ∃ before g after, gs = before ++ g :: after ∧
        (∀ g' ∈ before, ∃ condition, e.Lists find t g' condition) ∧
        (e.FindsNone find t g ∨ ∃ calls s, e.Fails find t g calls s) := by
  induction gs with
  | nil => exact .inl ⟨[], .nil⟩
  | cons g gs ih =>
    rcases lists_or_findsNone_or_fails e find t g with ⟨condition, hg⟩ | hg
    · rcases ih with ⟨translated, h⟩ | ⟨before, g', after, rfl, hbefore, h⟩
      · exact .inl ⟨condition :: translated, .cons hg h⟩
      · exact .inr ⟨g :: before, g', after, rfl,
          List.forall_mem_cons.mpr ⟨⟨condition, hg⟩, hbefore⟩, h⟩
    · exact .inr ⟨[], g, gs, rfl, by simp, hg⟩

/-! ## Runs -/

/-- How a run of a template on a table depends on its conditions, given how links are looked up. -/
structure AllOrNothing (e : Engine) (find : Template → Run TableRows) (simple : Bool) (t : Table)
    (template : Template) (run : Run TableRows) : Prop where
  /-- Where a condition on a stored column has no raw values, nobody is asked. -/
  undecoded : ∀ err, FirstFailure t.decode (t.directConditions template.body.filter) err →
    run = ⟨[], .error (.error err)⟩
  /-- Where every group lists values, the driver of the table is asked once, after all groups, with
  the conditions on stored columns and then the lists. What is asked later fills linked cells. -/
  listed : ∀ direct translated,
    List.Forall₂ (fun condition raw => t.decode condition = .ok raw)
      (t.directConditions template.body.filter) direct →
    List.Forall₂ (e.Lists find t)
      (LinkGroup.collect (t.linkedConditions template.body.filter)) translated →
    (∀ condition ∈ translated, condition.values ≠ []) ∧
    ∃ later, run.calls =
        asked find (LinkGroup.collect (t.linkedConditions template.body.filter)) ++
          .fetch (t.fetchFor template (direct ++ translated)) :: later ∧
      ∀ call ∈ later, simple = false ∧ ∃ l operator values page, t.HasLink l ∧
        call ∈ (find (l.template operator values page)).calls
  /-- Where a group finds no row and those before it list values, the answer is empty, and no other
  group and no driver of the table is asked. -/
  empty : ∀ direct before g after,
    List.Forall₂ (fun condition raw => t.decode condition = .ok raw)
      (t.directConditions template.body.filter) direct →
    LinkGroup.collect (t.linkedConditions template.body.filter) = before ++ g :: after →
    (∀ g' ∈ before, ∃ condition, e.Lists find t g' condition) → e.FindsNone find t g →
    run = ⟨asked find (before ++ [g]), .ok .empty⟩
  /-- Where a group fails and those before it list values, the run fails as the group does. -/
  failed : ∀ direct before g after calls s,
    List.Forall₂ (fun condition raw => t.decode condition = .ok raw)
      (t.directConditions template.body.filter) direct →
    LinkGroup.collect (t.linkedConditions template.body.filter) = before ++ g :: after →
    (∀ g' ∈ before, ∃ condition, e.Lists find t g' condition) → e.Fails find t g calls s →
    run = ⟨asked find before ++ calls, .error s⟩
  /-- There is no other case. -/
  exhaustive : (∃ err, FirstFailure t.decode (t.directConditions template.body.filter) err) ∨
    ∃ direct, List.Forall₂ (fun condition raw => t.decode condition = .ok raw)
        (t.directConditions template.body.filter) direct ∧
      ((∃ translated, List.Forall₂ (e.Lists find t)
          (LinkGroup.collect (t.linkedConditions template.body.filter)) translated) ∨
        ∃ before g after,
          LinkGroup.collect (t.linkedConditions template.body.filter) = before ++ g :: after ∧
          (∀ g' ∈ before, ∃ condition, e.Lists find t g' condition) ∧
          (e.FindsNone find t g ∨ ∃ calls s, e.Fails find t g calls s))

section Run

variable {simple : Bool} {direct : List RawCondition}
  (ht : e.registry.table? template.table = some t) (hv : t.validate template = .ok ())

include ht hv in
/-- A run of a template that fits its table begins with its conditions. -/
theorem findOnce_of_valid : e.findOnce now session find simple template =
    (do
      let direct ← Run.ofExcept ((t.directConditions template.body.filter).mapM t.decode)
      match ← e.inbound find t
          (LinkGroup.collect (t.linkedConditions template.body.filter)) with
      | none => return .empty
      | some translated =>
        let d ← Run.ofExcept (e.driver t.id)
        let f := t.fetchFor template (direct ++ translated)
        let fetched ← d.ask now session f
        e.answer session find simple f template.outputIds fetched) := by
  have hcolumns : ∀ condition ∈ template.body.filter, ∃ c,
      t.column? condition.column = some c := by
    intro condition hc
    have hfilter := Table.validateFilter_eq_ok_iff.mp (Table.validate_eq_ok_iff.mp hv).1
    obtain ⟨c, op, hcolumn, -⟩ := Table.validateCondition_eq_ok_iff.mp (hfilter condition hc)
    exact ⟨c, hcolumn⟩
  simp only [findOnce, Run.liftM_eq_ofExcept]
  rw [Run.bind_ofExcept_ok _ (Registry.find_eq_ok_iff.mpr ht), Run.bind_ofExcept_ok _ hv,
    Table.split_eq hcolumns]
  cases (t.directConditions template.body.filter).mapM t.decode <;> rfl

include ht hv in
/-- With raw values for its conditions on stored columns, a run goes on with its groups. -/
theorem findOnce_of_decoded
    (hdecoded : List.Forall₂ (fun condition raw => t.decode condition = .ok raw)
      (t.directConditions template.body.filter) direct) :
    e.findOnce now session find simple template =
    (do
      match ← e.inbound find t
          (LinkGroup.collect (t.linkedConditions template.body.filter)) with
      | none => return .empty
      | some translated =>
        let d ← Run.ofExcept (e.driver t.id)
        let f := t.fetchFor template (direct ++ translated)
        let fetched ← d.ask now session f
        e.answer session find simple f template.outputIds fetched) := by
  rw [findOnce_of_valid ht hv, Except.mapM_eq_ok_iff.mpr hdecoded]
  rfl

/-- The driver is asked first, and what it answered is filled with looked-up values. -/
theorem calls_of_ask (d : Driver) (now : Moment) (session : Session)
    (find : Template → Run TableRows) (simple : Bool) (f : Fetch) (requested : List String) :
    ∃ later, (d.ask now session f >>= e.answer session find simple f requested).calls =
        .fetch f :: later ∧
      ∀ call ∈ later, simple = false ∧ ∃ l operator values page, f.table.HasLink l ∧
        call ∈ (find (l.template operator values page)).calls := by
  cases hf : (d.ask now session f).result with
  | error s =>
    rw [Run.bind_of_error _ hf]
    exact ⟨[], rfl, by simp⟩
  | ok fetched =>
    rw [Run.bind_of_ok _ hf]
    refine ⟨(e.answer session find simple f requested fetched).calls, rfl, ?_⟩
    cases simple with
    | false =>
      exact makes_answer fun l hl operator values page call hcall =>
        ⟨rfl, l, operator, values, page, hl, hcall⟩
    | true =>
      -- A simple run asks nobody to fill cells.
      have hnone : (e.answer session find true f requested fetched).Makes fun _ => False := by
        rw [answer_eq]
        refine Run.makes_ofExcept_bind fun rows _ => ?_
        rw [filled_true]
        exact (Run.makes_pure _).bind fun _ _ => Run.makes_ofExcept_bind fun _ _ =>
          (Run.makes_pure _).bind fun _ _ => Run.makes_pure _
      exact fun call hcall => (hnone call hcall).elim

/-- Rows that a group finds by its own question are searched by some value. -/
theorem Lists.values_ne_nil {depth : Nat} {condition : RawCondition}
    (h : e.Lists (e.findSimple now session depth) t g condition)
    (hstored : ∀ remote d, e.registry.table? g.link.table = some remote →
      e.drivers.lookup remote.id = some d → d.GivesStored now session) :
    condition.values ≠ [] := by
  obtain ⟨remote, here, found, raws, hr, -, hf, hne, hraws, rfl⟩ := h
  obtain ⟨row, hrow⟩ := List.exists_mem_of_ne_nil _ hne
  obtain ⟨v, -, hv, -⟩ :=
    shownBy_of_output (l := g.link) hr (hstored remote · hr) rfl rfl hf row hrow
  have hcells : g.link.searchCells found.rows ≠ [] := by
    have hmem : v ∈ found.rows.filterMap fun row => row.value? g.link.searchColumn :=
      List.mem_filterMap.mpr ⟨row, hrow, hv⟩
    unfold Link.searchCells
    cases hlist : found.rows.filterMap fun row => row.value? g.link.searchColumn with
    | nil => simp [hlist] at hmem
    | cons w ws => simp [firstByKey]
  intro hempty
  have hlength := hraws.length_eq
  simp only at hempty
  rw [hempty, List.length_nil, List.length_eq_zero_iff] at hlength
  exact hcells hlength

end Run

/-- The driver of a table is asked for a template once, after all questions of its groups, or not at
all. With stored rows behind the links, it is asked exactly if the conditions on stored columns have
raw values and every group lists some, each in its turn. -/
theorem findOnce_allOrNothing {simple : Bool} {depth : Nat} {d : Driver}
    (ht : e.registry.table? template.table = some t) (hv : t.validate template = .ok ())
    (hd : e.drivers.lookup t.id = some d)
    (hstored : ∀ l remote d, t.HasLink l → e.registry.table? l.table = some remote →
      e.drivers.lookup remote.id = some d → d.GivesStored now session) :
    e.AllOrNothing (e.findSimple now session depth) simple t template
      (e.findOnce now session (e.findSimple now session depth) simple template) where
  undecoded err herr := by
    rw [findOnce_of_valid ht hv, Except.mapM_eq_error_iff.mpr herr]
    rfl
  listed direct translated hdecoded hlists := by
    constructor
    · intro condition hc
      obtain ⟨g, hg, hlist⟩ := forall₂_exists_left hlists hc
      obtain ⟨m, -, hlink⟩ := Table.exists_mem_members hg
      exact hlist.values_ne_nil fun remote d =>
        hstored g.link remote d (Table.hasLink_of_linkOf? hlink)
    · obtain ⟨later, hcalls, hlater⟩ := calls_of_ask (e := e) d now session
        (e.findSimple now session depth) simple (t.fetchFor template (direct ++ translated))
        template.outputIds
      refine ⟨later, ?_, hlater⟩
      rw [findOnce_of_decoded ht hv hdecoded, inbound_of_lists hlists, Run.bind_of_ok _ rfl,
        ← hcalls]
      simp only [driver_eq_ok_iff.mpr hd]
      rfl
  empty direct before g after hdecoded hsplit hbefore hnone := by
    rw [findOnce_of_decoded ht hv hdecoded, hsplit,
      inbound_of_before hbefore hnone.run (by simp), Run.bind_of_ok _ rfl]
    simp [asked]
  failed direct before g after calls s hdecoded hsplit hbefore hfails := by
    rw [findOnce_of_decoded ht hv hdecoded, hsplit,
      inbound_of_before hbefore hfails.run (by simp), Run.bind_of_error _ rfl]
  exhaustive := by
    cases hdecoded : (t.directConditions template.body.filter).mapM t.decode with
    | error err => exact .inl ⟨err, Except.mapM_eq_error_iff.mp hdecoded⟩
    | ok direct =>
      exact .inr ⟨direct, Except.mapM_eq_ok_iff.mp hdecoded, lists_or_before e _ t _⟩

end Engine

/-! ## Books of a room -/

namespace Library

open Sample (clock visitor)

def located (name : String) : Template :=
  .temporary "Book" ⟨[⟨"Id", Builtin.eq, [.string "b1"]⟩, ⟨"Room", Builtin.eq, [.string "r1"]⟩,
    ⟨"RoomName", Builtin.eq, [.string name]⟩], [.plain "Id"]⟩ .all

theorem givesStored (l : Link) (remote : Table) (d : Driver)
    (hremote : registry.table? l.table = some remote)
    (hd : engine.drivers.lookup remote.id = some d) : d.GivesStored clock visitor := by
  have hmem := List.mem_of_find?_eq_some hremote
  simp only [registry, List.mem_cons, List.not_mem_nil, or_false] at hmem
  rcases hmem with rfl | rfl | rfl <;> obtain rfl := Option.some.inj hd <;>
    exact Memory.givesStored_driver (by simp [memory]) clock visitor

def shelvesOfRoom : LinkGroup :=
  ⟨⟨"Shelf", "Shelf", "Id", "Room"⟩, [⟨"Room", Builtin.eq, [.string "r1"]⟩]⟩

def roomsNamed (name : String) : LinkGroup :=
  ⟨⟨"Room", "Room", "Id", "Name"⟩, [⟨"RoomName", Builtin.eq, [.string name]⟩]⟩

def look : Template → Run TableRows :=
  engine.findSimple clock visitor (engine.columnCount + 1)

/-- No room is called cellar. So after the shelves of the room and the rooms of this name, nobody is
asked for books. With the name of the attic, the books are asked for. -/
theorem books_asked_or_not :
    engine.find clock visitor (located "Cellar") =
      ⟨Engine.asked look [shelvesOfRoom, roomsNamed "Cellar"], .ok .empty⟩ ∧
    ∃ later, (engine.find clock visitor (located "Attic")).calls =
      Engine.asked look [shelvesOfRoom, roomsNamed "Attic"] ++
        .fetch (books.fetchFor (located "Attic") [⟨"Id", Builtin.eq, [.text "b1"]⟩,
          ⟨"Shelf", Builtin.isIn, [.text "s1"]⟩, ⟨"Room", Builtin.isIn, [.text "r1"]⟩]) ::
            later := by
  have hrun {name : String} (hvalid : books.validate (located name) = .ok ()) :
      engine.AllOrNothing look false books (located name)
        (engine.find clock visitor (located name)) :=
    have hbooks : engine.registry.table? "Book" = some books := rfl
    have hdriver : engine.drivers.lookup books.id = some (memory "Book").driver := rfl
    Engine.findOnce_allOrNothing hbooks hvalid hdriver fun l remote d _ =>
      givesStored l remote d
  have hcellar : books.validate (located "Cellar") = .ok () := by cbv
  have hattic : books.validate (located "Attic") = .ok () := by cbv
  have hbook : books.decode ⟨"Id", Builtin.eq, [.string "b1"]⟩ =
      .ok ⟨"Id", Builtin.eq, [.text "b1"]⟩ := by cbv
  have hshelf : engine.Lists look books shelvesOfRoom ⟨"Shelf", Builtin.isIn, [.text "s1"]⟩ :=
    Engine.lists_iff.mpr (by cbv)
  have hroom : engine.Lists look books (roomsNamed "Attic")
      ⟨"Room", Builtin.isIn, [.text "r1"]⟩ := Engine.lists_iff.mpr (by cbv)
  have hnone : engine.FindsNone look books (roomsNamed "Cellar") :=
    Engine.inboundCondition_eq_none_iff.mp (by cbv)
  constructor
  · exact (hrun hcellar).empty _ [shelvesOfRoom] _ [] (.cons hbook .nil) rfl
      (List.forall_mem_singleton.mpr ⟨_, hshelf⟩) hnone
  · obtain ⟨-, later, hcalls, -⟩ := (hrun hattic).listed _ _ (.cons hbook .nil)
      (.cons hshelf (.cons hroom .nil))
    exact ⟨later, hcalls⟩

end Library

end TableQuery
