import TableQuery.Proofs.Query.Termination

/-!
# Calls of runs

A run asks the driver of its table, and asks other tables, whose runs ask their drivers in their
turn. So every call that a run makes is a question to the driver of some table, on behalf of the
template of the run or of a question that a link sends.

## Main definitions

* `Run.Makes` — every call of a run has a property.
* `Engine.Asks` — what the driver of a table is asked on behalf of a template.

## Main results

* `Engine.makes_findOnce` — the calls of a run are its own one and those of its questions.
* `Engine.makes_find` — every call is made for the template or for a question that a link sends.
-/

namespace TableQuery

namespace Run

variable {α β : Type} {P : Call → Prop}

/-- Every call of a run has a property, also where the run stops. -/
def Makes (P : Call → Prop) (r : Run α) : Prop :=
  ∀ call ∈ r.calls, P call

@[simp] theorem makes_pure (a : α) : (pure a : Run α).Makes P := by
  simp [Makes]

@[simp] theorem makes_stop (s : Stop) : (stop s : Run α).Makes P := by
  simp [Makes, stop]

@[simp] theorem makes_ofExcept (x : Except QueryError α) : (ofExcept x).Makes P := by
  cases x <;> simp [Makes, ofExcept, done, stop]

theorem Makes.bind {r : Run α} {next : α → Run β} (h : r.Makes P)
    (hnext : ∀ a, r.result = .ok a → (next a).Makes P) : (r >>= next).Makes P := by
  intro call hcall
  cases hr : r.result with
  | error s =>
    rw [bind_of_error next hr] at hcall
    exact h call hcall
  | ok a =>
    rw [bind_of_ok next hr] at hcall
    rcases List.mem_append.mp hcall with hcall | hcall
    · exact h call hcall
    · exact hnext a hr call hcall

theorem makes_ofExcept_bind {x : Except QueryError α} {next : α → Run β}
    (hnext : ∀ a, x = .ok a → (next a).Makes P) : (ofExcept x >>= next).Makes P :=
  (makes_ofExcept x).bind fun a ha => hnext a (result_ofExcept_eq_ok_iff.mp ha)

theorem Makes.imp {Q : Call → Prop} {r : Run α} (h : r.Makes P) (himp : ∀ call, P call → Q call) :
    r.Makes Q :=
  fun call hcall => himp call (h call hcall)

end Run

theorem Driver.makes_ask {P : Call → Prop} {d : Driver} {now : Moment} {session : Session}
    {f : Fetch} (h : P (.fetch f)) : (d.ask now session f).Makes P := by
  intro call hcall
  obtain rfl := List.mem_singleton.mp hcall
  exact h

namespace Engine

variable {P : Call → Prop} {e : Engine} {now : Moment} {session : Session}
  {find : Template → Run TableRows} {t : Table} {template : Template}

/-! ## Lookups and groups -/

section Lookup

variable {l : Link}
  (h : ∀ operator values page, (find (l.template operator values page)).Makes P)

include h

theorem makes_lookupAll {search : Column} {rows : List TableRow} :
    (lookupAll find l search rows).Makes P := by
  refine Run.makes_ofExcept_bind fun keys _ => ?_
  split
  · exact Run.makes_pure _
  · exact (h _ _ _).bind fun _ _ => Run.makes_pure _

theorem makes_lookupEach {search : Column} {found : Findings} {rows : List TableRow} :
    (lookupEach find l search found rows).Makes P := by
  induction rows generalizing found with
  | nil => exact Run.makes_pure _
  | cons row rows ih =>
    unfold lookupEach
    split
    · exact ih
    · refine Run.makes_ofExcept_bind fun key _ => (h _ _ _).bind fun answer _ => ?_
      split
      · exact ih
      · exact ih

theorem makes_lookup {rows : List TableRow} : (e.lookup find l rows).Makes P := by
  refine Run.makes_ofExcept_bind fun remote _ => Run.makes_ofExcept_bind fun search _ =>
    Run.makes_ofExcept_bind fun _ _ => ?_
  split
  · exact makes_lookupAll h
  · split
    · exact makes_lookupEach h
    · exact Run.makes_stop _

end Lookup

theorem makes_fillColumns {linked : List (Column × Link)} {rows : List TableRow}
    (h : ∀ p ∈ linked, ∀ operator values page,
      (find (p.2.template operator values page)).Makes P) :
    (e.fillColumns find linked rows).Makes P := by
  induction linked generalizing rows with
  | nil => exact Run.makes_pure _
  | cons p linked ih =>
    rw [List.forall_mem_cons] at h
    exact (makes_lookup h.1).bind fun _ _ => ih h.2

theorem makes_inboundCondition {g : LinkGroup} (h : (find g.template).Makes P) :
    (e.inboundCondition find t g).Makes P := by
  refine Run.makes_ofExcept_bind fun remote _ => Run.makes_ofExcept_bind fun here _ =>
    h.bind fun found _ => ?_
  split
  · exact Run.makes_pure _
  · exact Run.makes_ofExcept_bind fun _ _ => Run.makes_pure _

theorem makes_inbound {gs : List LinkGroup} (h : ∀ g ∈ gs, (find g.template).Makes P) :
    (e.inbound find t gs).Makes P := by
  induction gs with
  | nil => exact Run.makes_pure _
  | cons g gs ih =>
    rw [List.forall_mem_cons] at h
    refine (makes_inboundCondition h.1).bind fun found _ => ?_
    cases found with
    | none => exact Run.makes_pure _
    | some condition => exact (ih h.2).bind fun _ _ => Run.makes_pure _

/-! ## Runs -/

/-- What the driver of a table is asked on behalf of a template: for rows with conditions on stored
columns, and with values from lists in the local columns of links; and for the aggregates of the
template. -/
structure Asks (e : Engine) (template : Template) (f : Fetch) : Prop where
  table_eq : e.registry.table? template.table = some f.table
  valid : f.table.validate template = .ok ()
  conditions : ∀ condition ∈ f.conditions, ∃ c, f.table.column? condition.column = some c ∧
    (c.outboundLink? = none ∨
      condition.operator = Builtin.isIn ∧ ∃ l, f.table.HasLink l ∧ l.localColumn = c.id)
  aggregates_eq : f.aggregates = requestedAggregates template.body.output

/-- The conditions on local columns that groups stand for. -/
theorem local_of_inbound {gs : List LinkGroup} {translated : List RawCondition}
    (h : (e.inbound find t gs).result = .ok (some translated)) {condition : RawCondition}
    (hc : condition ∈ translated) : ∃ g ∈ gs, condition.operator = Builtin.isIn ∧
      condition.column = g.link.localColumn ∧ ∃ c, t.column? g.link.localColumn = some c := by
  obtain ⟨g, hg, hcondition⟩ := forall₂_exists_left (inbound_eq_some_iff.mp h) hc
  obtain ⟨remote, here, found, raws, -, hhere, -, -, -, rfl⟩ :=
    inboundCondition_eq_some_iff.mp hcondition
  exact ⟨g, hg, rfl, Table.column?_id hhere, here, hhere⟩

theorem asks_of_inbound (ht : e.registry.table? template.table = some t)
    (hv : t.validate template = .ok ()) {direct translated : List RawCondition}
    {linked : List (Link × Condition)} (hs : t.split template.body.filter = .ok (direct, linked))
    (hi : (e.inbound find t (LinkGroup.collect linked)).result = .ok (some translated)) :
    e.Asks template (t.fetchFor template (direct ++ translated)) where
  table_eq := ht
  valid := hv
  aggregates_eq := rfl
  conditions condition hc := by
    rcases List.mem_append.mp hc with hc | hc
    · obtain ⟨c, hcolumn, hstored⟩ := Table.stored_of_split hs hc
      exact ⟨c, hcolumn, .inl hstored⟩
    · obtain ⟨g, hg, hoperator, hcolumn, c, hlocal⟩ := local_of_inbound hi hc
      obtain ⟨m, -, hlink⟩ := exists_member_of_mem_collect hs hg
      exact ⟨c, hcolumn ▸ hlocal, .inr ⟨hoperator, g.link, Table.hasLink_of_linkOf? hlink,
        (Table.column?_id hlocal).symm⟩⟩

theorem makes_answer {simple : Bool} {f : Fetch} {requested : List String} {fetched : Fetched}
    (h : ∀ l, f.table.HasLink l → ∀ operator values page,
      (find (l.template operator values page)).Makes P) :
    (e.answer session find simple f requested fetched).Makes P := by
  rw [answer_eq]
  have hfilled (rows : List TableRow) : (e.filled find simple f.table rows).Makes P := by
    unfold filled outbound
    split
    · exact Run.makes_pure _
    · split
      · exact Run.makes_pure _
      · exact makes_fillColumns fun p hp => h p.2 (hasLink_of_mem_linkedColumns hp)
  refine Run.makes_ofExcept_bind fun rows _ => (hfilled rows).bind fun full _ =>
    Run.makes_ofExcept_bind fun aggregates _ => ?_
  unfold offered
  split
  · exact Run.makes_pure _
  · exact Run.makes_ofExcept_bind fun _ _ => Run.makes_pure _

/-- A run makes a call on behalf of its template, and those of the questions that links send. -/
theorem makes_findOnce {simple : Bool} (hfetch : ∀ f, e.Asks template f → P (.fetch f))
    (hfind : ∀ sub, e.registry.Sends sub → (find sub).Makes P) :
    (e.findOnce now session find simple template).Makes P := by
  refine Run.makes_ofExcept_bind fun t ht => Run.makes_ofExcept_bind fun _ hv =>
    Run.makes_ofExcept_bind fun (direct, linked) hs => ?_
  have ht := Registry.find_eq_ok_iff.mp ht
  have hinbound : (e.inbound find t (LinkGroup.collect linked)).Makes P :=
    makes_inbound fun g hg => hfind _ (sends_of_mem_collect ht hs hg)
  refine hinbound.bind fun found hi => ?_
  cases found with
  | none => exact Run.makes_pure _
  | some translated =>
    refine Run.makes_ofExcept_bind fun d _ => Run.Makes.bind ?_ fun fetched _ => ?_
    · exact Driver.makes_ask (hfetch _ (asks_of_inbound ht hv hs hi))
    · exact makes_answer fun l hl operator values page =>
        hfind _ (sends_lookup ht hl operator values page)

/-- The calls that answer a question of a link are made on behalf of questions of links. -/
theorem makes_findSimple {depth : Nat} (hs : e.registry.Sends template) :
    (e.findSimple now session depth template).Makes fun call =>
      ∃ f sub, call = .fetch f ∧ e.registry.Sends sub ∧ e.Asks sub f := by
  induction depth generalizing template with
  | zero => exact Run.makes_stop _
  | succ depth ih =>
    exact makes_findOnce (fun f hf => ⟨f, template, rfl, hs, hf⟩) fun sub hsub => ih hsub

/-- Every call of a run asks a driver on behalf of the template or of a question of a link. -/
theorem makes_find (e : Engine) (now : Moment) (session : Session) (template : Template) :
    (e.find now session template).Makes fun call => ∃ f source, call = .fetch f ∧
      (source = template ∨ e.registry.Sends source) ∧ e.Asks source f := by
  refine makes_findOnce (fun f hf => ⟨f, template, rfl, .inl rfl, hf⟩) fun sub hsub => ?_
  refine (makes_findSimple hsub).imp fun call hcall => ?_
  obtain ⟨f, source, rfl, hsends, hasks⟩ := hcall
  exact ⟨f, source, rfl, .inr hsends, hasks⟩

end Engine

end TableQuery
