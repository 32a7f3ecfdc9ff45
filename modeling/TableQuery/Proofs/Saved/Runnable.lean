import TableQuery.Proofs.Registry.Keys
import TableQuery.Proofs.Sample
import TableQuery.Proofs.Saved.Ownership
import TableQuery.Proofs.Saved.Readings
import TableQuery.Proofs.Saved.Synced

/-!
# Templates that can be run when they are used

What is saved was accepted by a table before. A template that is resolved for this table can be
run on it. But a template may be resolved for another table, and an update may bring in a filter
that another table accepted; whether it can be run then is a question of what the tables share.

## Main definitions

* `DeskCall.KeepsTo` — a call keeps templates with their tables.
* `TemplateDesk.Stores`, `Traffic.Kept` — what is stored was accepted, the invariant of such runs.

## Main results

* `DeskCall.asks_dialogue` — calls write only what a table has accepted.
* `Traffic.Kept.step`, `Traffic.kept_of_run` — steps and runs keep the invariant.
* `TemplateDesk.runnable_resolved_iff` — which resolved templates can be run.
-/

namespace TableQuery

/-- The tables that a call names for templates are ones that it may name. -/
def DeskCall.KeepsTo (may : String → String → Prop) : DeskCall → Prop
  | create _ id template _ _ => may id template.table
  | update _ template _ _ => may template.id template.table
  | _ => True

/-! ## What is written -/

namespace TemplateDesk

variable {d : TemplateDesk} {session : Session} {may : String → String → Prop} {now : Moment}
  {id : String} {template : Template} {access : Access} {shareList : List String}

/-- A text is the filter and output of a template that a table accepts. -/
def SavedFor (d : TemplateDesk) (table body : String) : Prop :=
  ∃ t template, d.registry.find table = .ok t ∧ t.validate template = .ok () ∧
    body = template.body.encode

/-- A record is for a table that there is, and what it holds was saved for a table. Both are ones
that may be named for it. -/
structure Stores (d : TemplateDesk) (may : String → String → Prop) (r : TemplateRecord) :
    Prop where
  may_table : may r.id r.table
  exists_table : ∃ t, d.registry.find r.table = .ok t
  saved : ∃ table, may r.id table ∧ d.SavedFor table r.body

/-- What requests write is such that records are as they should be. -/
def Fits (d : TemplateDesk) (may : String → String → Prop) : StoreRequest → Prop
  | .create r => d.Stores may r
  | .update id u => ∃ table, may id table ∧ d.SavedFor table u.body
  | _ => True

theorem asks_find (d : TemplateDesk) (id : String) : (d.find id).Asks (d.Fits may) :=
  .bind (.request trivial) fun _ => .done

theorem asks_owned (user : UserInfo) (id : String) : (owned user id).Asks (d.Fits may) := by
  refine .bind (.request trivial) fun (r : TemplateRecord) => ?_
  split <;> exact .done

theorem asks_create (hmay : may id template.table) :
    (d.create session now id template access shareList).Asks (d.Fits may) := by
  refine .done_bind fun t ht => .done_bind fun _ hvalid => .done_bind fun user _ => ?_
  have hsaved : d.SavedFor template.table template.body.encode := ⟨t, template, ht, hvalid, rfl⟩
  exact .bind (.request ⟨hmay, ⟨t, ht⟩, template.table, hmay, hsaved⟩) fun _ => d.asks_find id

theorem asks_update (hmay : may template.id template.table) :
    (d.update session now template access shareList).Asks (d.Fits may) := by
  refine .done_bind fun t ht => .done_bind fun _ hvalid => .done_bind fun user _ => ?_
  have hsaved : d.SavedFor template.table template.body.encode := ⟨t, template, ht, hvalid, rfl⟩
  exact .bind (asks_owned user template.id) fun _ => .done_bind fun shares _ =>
    .bind (.request ⟨template.table, hmay, hsaved⟩) fun _ => d.asks_find template.id

end TemplateDesk

/-- Calls write only what a table has accepted. -/
theorem DeskCall.asks_dialogue {d : TemplateDesk} {session : Session}
    {may : String → String → Prop} {call : DeskCall} (h : call.KeepsTo may) :
    (call.dialogue d session).Asks (d.Fits may) := by
  cases call with
  | create => exact (TemplateDesk.asks_create h).discard
  | update => exact (TemplateDesk.asks_update h).discard
  | delete id =>
    exact .bind .done fun user => .bind (TemplateDesk.asks_owned user id) fun _ =>
      .bind (.request trivial) fun _ => .done
  | deleteByCreator => exact .discard (.bind .done fun user => .request trivial)
  | find id => exact (d.asks_find id).discard
  | listForTable table =>
    exact .discard <| .bind .done fun _ => .bind .done fun _ => .bind (.request trivial) fun _ =>
      .bind .done fun _ => .bind (.request trivial) fun _ => .bind (.request trivial) fun _ =>
        .bind .done fun _ => .done

/-! ## Runs -/

/-- The invariant of runs: what is stored was accepted by a table, and what calls are about to write
will have been. -/
structure Traffic.Kept (d : TemplateDesk) (may : String → String → Prop) (s : Traffic) : Prop where
  records : ∀ r ∈ s.shelf.records, d.Stores may r
  pending : ∀ p ∈ s.pending, p.2.Asks (d.Fits may)

namespace Traffic

variable {d : TemplateDesk} {may : String → String → Prop} {s s' : Traffic}

theorem stores_answer {shelf : Shelf} {request : StoreRequest}
    (h : ∀ r ∈ shelf.records, d.Stores may r) (hfits : d.Fits may request) :
    ∀ r ∈ (shelf.answer request).2.records, d.Stores may r := by
  have hwrites := shelf.writes_answer request
  generalize (shelf.answer request).2 = shelf' at hwrites
  cases hwrites with
  | nothing => exact h
  | create hnew =>
    intro r hr
    rcases List.mem_append.mp hr with hr | hr
    · exact h r hr
    · obtain rfl := List.mem_singleton.mp hr
      exact hfits
  | @update id u =>
    intro r' hr'
    obtain ⟨r, hr, rfl⟩ := List.mem_map.mp hr'
    obtain ⟨hmay, htable, hsaved⟩ := h r hr
    split
    · next hid => exact ⟨hmay, htable, hid ▸ hfits⟩
    · exact ⟨hmay, htable, hsaved⟩
  | delete | deleteByCreator => exact fun r hr => h r (List.mem_filter.mp hr).1

/-- Steps keep the invariant. -/
theorem Kept.step (h : s.Kept d may) (hstep : d.GoesWith (DeskCall.KeepsTo may) s s') :
    s'.Kept d may := by
  obtain ⟨⟨session, hgoes⟩, hbegins⟩ := hstep
  cases hgoes with
  | start call hnew =>
    refine ⟨h.records, ?_⟩
    obtain ⟨session', call', hcall, hpending⟩ := hbegins (by simp)
    dsimp only at hpending ⊢
    rw [hpending, List.forall_mem_cons]
    exact ⟨DeskCall.asks_dialogue hcall, h.pending⟩
  | answer request next =>
    obtain ⟨hrecords, hpending⟩ := h
    simp only [List.forall_mem_append, List.forall_mem_cons] at hpending
    obtain ⟨hbefore, hcall, hafter⟩ := hpending
    cases hcall with
    | ask hfits hnext =>
      refine ⟨stores_answer hrecords hfits, ?_⟩
      simp only [List.forall_mem_append, List.forall_mem_cons]
      exact ⟨hbefore, hnext _, hafter⟩
  | stop rest =>
    obtain ⟨hrecords, hpending⟩ := h
    simp only [List.forall_mem_append, List.forall_mem_cons] at hpending
    refine ⟨hrecords, ?_⟩
    simp only [List.forall_mem_append]
    exact ⟨hpending.1, hpending.2.2⟩

theorem kept_opening : (opening .empty).Kept d may :=
  ⟨by simp [opening, Shelf.empty], by simp [opening]⟩

/-- So whole runs keep it, beginning with an empty store. -/
theorem kept_of_run (h : Relation.ReflTransGen (d.GoesWith (DeskCall.KeepsTo may))
    (opening .empty) s) : s.Kept d may := by
  induction h with
  | refl => exact kept_opening
  | tail _ hstep ih => exact ih.step hstep

/-- In runs of any calls every table may be named for every template. -/
theorem kept_of_goes (h : Relation.ReflTransGen d.Goes (opening .empty) s) :
    s.Kept d fun _ _ => True := by
  have hany : ∀ call : DeskCall, call.KeepsTo fun _ _ => True := by
    intro call
    cases call <;> trivial
  exact kept_of_run
    (Relation.ReflTransGen.mono (fun _ _ hgoes => TemplateDesk.Goes.goesWith hgoes hany) _ _ h)

end Traffic

/-! ## Resolved templates -/

namespace TemplateDesk

variable {d : TemplateDesk} {r : TemplateRecord} {t u : Table} {template : Template}

/-- A template that was read back for the table of its record can be run on a table if this accepts
its filter, has all columns of the other one, and offers the aggregates of those that were
listed. -/
theorem runnable_syncColumns_iff {b : Template.Body} (hn : u.columnIds.Nodup)
    (hu : u.columns ≠ []) (ho : (b.output.map OutputColumn.column).Nodup) {id name : String} :
    t.Runnable { u.syncColumns
        { Template.temporary r.table b .all with id, name } with table := t.id } ↔
      t.validateFilter b.filter = .ok () ∧ (∀ c ∈ u.columns, t.hasColumn c.id = true) ∧
        ∀ o ∈ b.output, u.hasColumn o.column = true →
          ∃ c, t.column? o.column = some c ∧ c.supportsAggregate o.aggregate = true := by
  rw [Table.runnable_iff, Table.validate_eq_ok_iff]
  simp only [Table.syncColumns, Template.temporary, true_and,
    Table.validateOutput_syncOutput_iff hn ho, ne_eq, Table.syncOutput_ne_nil hn ho hu,
    not_false_eq_true]

/-- The tables of a registry have columns, with different ids. -/
theorem wellFormed_of_setUp {steps : List Registry.Step}
    (h : ∀ t, .register t ∈ steps → t.Compiled) :
    (∀ t ∈ (Registry.setUp steps).tables, t.columnIds.Nodup) ∧
      ∀ t ∈ (Registry.setUp steps).tables, t.columns ≠ [] := by
  refine ⟨Registry.nodup_columnIds_of_setUp h, fun t ht => ?_⟩
  obtain ⟨key, hkey, -⟩ := Registry.keyed_of_setUp h t ht
  exact List.ne_nil_of_mem (Table.mem_of_column? hkey.keyColumn?_eq)

theorem mem_of_find {table : String} (h : d.registry.find table = .ok t) :
    t ∈ d.registry.tables :=
  List.mem_of_find?_eq_some (Registry.find_eq_ok_iff.mp h)

/-- The templates that every table has can be run on it. -/
theorem runnable_of_reserved {table id : String} {stores : Nat → Shelf}
    (ht : d.registry.find table = .ok t) (hn : t.columnIds.Nodup)
    (hopen : ∃ c ∈ t.columns, c.internal = false)
    (hproposal : ∀ change, t.proposal = some change →
      ∀ template, t.Runnable template → t.Runnable (change template))
    (hid : id = Template.emptyId ∨ id = Template.defaultId)
    (hresolved : (d.resolve table (.saved id)).heard stores = .ok template) :
    t.Runnable template := by
  have hempty := Table.runnable_emptyTemplate hn hopen
  rw [heard_resolve, ht, Except.ok_bind] at hresolved
  split at hresolved
  · obtain rfl := Except.ok.inj hresolved
    exact hempty
  · next hne =>
    rw [if_pos (hid.resolve_left hne)] at hresolved
    obtain rfl := Except.ok.inj hresolved
    have hnamed : t.Runnable
        { t.emptyTemplate with id := Template.defaultId, name := "Default template" } :=
      ⟨hempty.table_eq, hempty.filter_columns, hempty.output_columns, hempty.validate_eq⟩
    unfold Table.defaultTemplate
    cases hchange : t.proposal with
    | none => exact hnamed
    | some change => exact hproposal change hchange _ hnamed

theorem exists_of_resolved {table id : String} {stores : Nat → Shelf}
    (hid : ¬(id = Template.emptyId ∨ id = Template.defaultId))
    (hstores : ∀ r ∈ (stores 0).records, ∃ u, d.registry.find r.table = .ok u)
    (hresolved : (d.resolve table (.saved id)).heard stores = .ok template) :
    ∃ r b u, (stores 0).find? id = some r ∧ Template.Body.decode? r.body = some b ∧
      d.registry.find r.table = .ok u ∧ template = { u.syncColumns
        { Template.temporary r.table b .all with id := r.id, name := r.name } with table } := by
  obtain ⟨-, e, -, he, rfl⟩ := (heard_resolve_eq_ok_iff hid).mp hresolved
  obtain ⟨r, hr, hsaved⟩ := heard_find_eq_ok_iff.mp he
  obtain ⟨u, hu⟩ := hstores r (List.mem_of_find?_eq_some hr)
  obtain ⟨t, ht, rfl⟩ := saved_eq_ok_iff.mp hsaved
  obtain ⟨b, hb, rfl⟩ := (templateOf_eq_ok_iff hu).mp ht
  exact ⟨r, b, u, hr, hb, hu, rfl⟩

/-- What is stored was accepted as it is read back. -/
theorem Stores.accepted_of_decode? {may : String → String → Prop} {b : Template.Body}
    (h : d.Stores may r) (hb : Template.Body.decode? r.body = some b) :
    ∃ table t, may r.id table ∧ d.registry.find table = .ok t ∧
      t.validateFilter b.filter = .ok () ∧ t.validateOutput [] b.output = .ok () := by
  obtain ⟨table, hmay, t, template, ht, hvalid, hbody⟩ := h.saved
  obtain ⟨hfilter, -, houtput⟩ := Table.validate_eq_ok_iff.mp hvalid
  rw [hbody] at hb
  obtain ⟨hsame, hread⟩ := @Table.validateFilter_of_decode? t _ _ hb
  exact ⟨table, t, hmay, ht, hread.mp hfilter, hsame ▸ houtput⟩

/-- Where all calls name one table for a template, the record is for this table, which has accepted
what it holds. -/
theorem Stores.accepted_by_own {tableOf : String → String} {b : Template.Body}
    (h : d.Stores (fun id table => table = tableOf id) r)
    (ht : d.registry.find (tableOf r.id) = .ok t) (hb : Template.Body.decode? r.body = some b) :
    d.registry.find r.table = .ok t ∧ t.validateFilter b.filter = .ok () ∧
      t.validateOutput [] b.output = .ok () := by
  obtain ⟨_, u, rfl, hu, hfilter, houtput⟩ := h.accepted_of_decode? hb
  obtain rfl := Except.ok.inj (ht.symm.trans hu)
  exact ⟨h.may_table ▸ ht, hfilter, houtput⟩

/-- Which templates that are resolved can be run on the table that they are resolved for, in every
state that calls lead to. The empty and the default template can. A stored one has been given to the
table; it can be run there exactly if the table accepts its filter, has all columns of the table
that it is stored for, and offers the aggregates that it lists for columns that are left. So it can
be run on its own table if all calls named this table for it. -/
theorem runnable_resolved_iff {steps : List Registry.Step} {table id : String} {s : Traffic}
    (hregistry : d.registry = Registry.setUp steps)
    (hcompiled : ∀ t, .register t ∈ steps → t.Compiled)
    (ht : d.registry.find table = .ok t) (hopen : ∃ c ∈ t.columns, c.internal = false)
    (hproposal : ∀ change, t.proposal = some change →
      ∀ template, t.Runnable template → t.Runnable (change template))
    (hrun : Relation.ReflTransGen d.Goes (.opening .empty) s)
    (hresolved : ((d.resolve table (.saved id)).run Shelf.answer s.shelf).1 = .ok template) :
    template.table = table ∧
    (t.Runnable template ↔ id = Template.emptyId ∨ id = Template.defaultId ∨
      ∃ r b u, s.shelf.find? id = some r ∧ Template.Body.decode? r.body = some b ∧
        d.registry.find r.table = .ok u ∧ t.validateFilter b.filter = .ok () ∧
        (∀ c ∈ u.columns, t.hasColumn c.id = true) ∧
        ∀ o ∈ b.output, u.hasColumn o.column = true →
          ∃ c, t.column? o.column = some c ∧ c.supportsAggregate o.aggregate = true) ∧
    ∀ tableOf : String → String,
      Relation.ReflTransGen (d.GoesWith (DeskCall.KeepsTo fun id table => table = tableOf id))
        (.opening .empty) s → table = tableOf id → t.Runnable template := by
  obtain ⟨hnodup, hnonempty⟩ := wellFormed_of_setUp hcompiled
  rw [← hregistry] at hnodup hnonempty
  obtain rfl : t.id = table := Registry.table?_id (Registry.find_eq_ok_iff.mp ht)
  rw [(d.reads_resolve t.id _).run_eq] at hresolved
  by_cases hreserved : id = Template.emptyId ∨ id = Template.defaultId
  · have hrunnable : t.Runnable template :=
      runnable_of_reserved ht (hnodup t (mem_of_find ht)) hopen hproposal hreserved hresolved
    exact ⟨hrunnable.table_eq, ⟨fun _ => hreserved.imp_right .inl, fun _ => hrunnable⟩,
      fun _ _ _ => hrunnable⟩
  · have hkept := Traffic.kept_of_goes hrun
    obtain ⟨r, b, u, hr, hb, hu, rfl⟩ := exists_of_resolved hreserved
      (fun r hr => (hkept.records r hr).exists_table) hresolved
    have hmem := List.mem_of_find?_eq_some hr
    obtain ⟨_, _, -, -, -, hout⟩ := (hkept.records r hmem).accepted_of_decode? hb
    have hiff := @runnable_syncColumns_iff r t u b (hnodup u (mem_of_find hu))
      (hnonempty u (mem_of_find hu)) (Table.nodup_of_validateOutput hout).1 r.id r.name
    refine ⟨rfl, ?_, fun tableOf hkeeps htable => hiff.mpr ?_⟩
    · rw [hiff]
      constructor
      · intro hfits
        exact .inr (.inr ⟨r, b, u, hr, hb, hu, hfits⟩)
      · rintro (hempty | hdefault | ⟨r', b', u', hr', hb', hu', hfits⟩)
        · exact absurd (.inl hempty) hreserved
        · exact absurd (.inr hdefault) hreserved
        · obtain rfl := Option.some.inj (hr.symm.trans hr')
          obtain rfl := Option.some.inj (hb.symm.trans hb')
          obtain rfl := Except.ok.inj (hu.symm.trans hu')
          exact hfits
    · obtain rfl : r.id = id := by simpa using List.find?_some hr
      have hstores := (Traffic.kept_of_run hkeeps).records r hmem
      obtain ⟨hu', hfilter, houtput⟩ := hstores.accepted_by_own (htable ▸ ht) hb
      obtain rfl := Except.ok.inj (hu'.symm.trans hu)
      exact ⟨hfilter, fun c hc => Table.hasColumn_iff.mpr (List.mem_map_of_mem hc),
        fun o ho _ => Table.columns_of_validateOutput houtput ho⟩

end TemplateDesk

/-! ## Customers by their names -/

namespace Clerk

open Billing (customers linkedBills)
open Sample (ann clock users)

def desk : TemplateDesk where
  registry := ⟨[linkedBills, customers]⟩
  users := users

def sons : Template :=
  .temporary "Customer" ⟨[⟨"Name", Builtin.contains, [.string "son"]⟩], [.plain "No"]⟩ .all

def record : TemplateRecord := TemplateDesk.recordOf (.unnamed "ann") clock "t1" sons .owner []

theorem run_record {p : DeskCall → Prop} (hp : p (.create clock "t1" sons .owner [])) :
    Relation.ReflTransGen (desk.GoesWith p) (.opening .empty) ⟨⟨[record]⟩, [], ["t1"]⟩ :=
  @TemplateDesk.goesWith_create desk ann p .empty [] clock "t1" sons .owner [] customers _ hp
    (by decide) rfl rfl rfl rfl

/-- Whatever table it is resolved for, the template has all columns of customers. -/
theorem resolve_record {table : String} {t : Table} (ht : desk.registry.find table = .ok t) :
    ((desk.resolve table (.saved "t1")).run Shelf.answer ⟨[record]⟩).1 =
      .ok { sons with
        id := "t1", table
        body := ⟨sons.body.filter, [.plain "No", ⟨"Name", false, .none⟩]⟩ } := by
  have hbody : Template.Body.decode? sons.body.encode = some sons.body :=
    (Template.Body.decode?_encode _).trans rfl
  have hcustomers : desk.registry.find "Customer" = .ok customers := rfl
  have hrecord := (TemplateDesk.templateOf_eq_ok_iff (r := record) hcustomers).mpr ⟨_, hbody, rfl⟩
  rw [(desk.reads_resolve _ _).run_eq, TemplateDesk.heard_resolve_eq_ok_iff (by decide)]
  refine ⟨t, _, ht, TemplateDesk.heard_find_eq_ok_iff.mpr ⟨record, rfl,
    TemplateDesk.saved_eq_ok_iff.mpr ⟨_, hrecord, rfl⟩⟩, rfl⟩

/-- Resolved for customers the template can be run. -/
theorem customers_found : ∃ template,
    ((desk.resolve "Customer" (.saved "t1")).run Shelf.answer ⟨[record]⟩).1 = .ok template ∧
      template.outputIds = ["No", "Name"] ∧ customers.Runnable template := by
  have hcompiled : ∀ t, .register t ∈ Billing.steps → t.Compiled :=
    fun t => Billing.compiled_of_mem_steps
  have hfound : desk.registry.find "Customer" = .ok customers := rfl
  have hproposal : ∀ change, customers.proposal = some change →
      ∀ template, customers.Runnable template → customers.Runnable (change template) := by
    rintro change ⟨⟩
  have hkeeps : DeskCall.KeepsTo (fun id table => table = "Customer")
      (.create clock "t1" sons .owner []) := rfl
  have hgoes := TemplateDesk.goes_of_goesWith (run_record hkeeps)
  obtain ⟨-, -, hrunnable⟩ := TemplateDesk.runnable_resolved_iff Billing.setUp_steps.symm hcompiled
    hfound ⟨_, List.mem_cons_self, rfl⟩ hproposal hgoes (resolve_record hfound)
  exact ⟨_, resolve_record hfound, rfl, hrunnable (fun _ => "Customer") (run_record hkeeps) rfl⟩

/-- Resolved for bills it is given to this table, which does not accept it. -/
theorem bills_not_found :
    Relation.ReflTransGen desk.Goes (.opening .empty) ⟨⟨[record]⟩, [], ["t1"]⟩ ∧
      desk.registry = Registry.setUp Billing.steps ∧
      desk.registry.find "Bill" = .ok linkedBills ∧
      ∃ template, ((desk.resolve "Bill" (.saved "t1")).run Shelf.answer ⟨[record]⟩).1 =
          .ok template ∧ template.table = "Bill" ∧ template.outputIds = ["No", "Name"] ∧
        linkedBills.validate template = .error (.invalidColumnId "Bill" "Name") := by
  have hgoes := TemplateDesk.goes_of_goesWith (run_record (p := fun _ => True) trivial)
  exact ⟨hgoes, Billing.setUp_steps.symm, rfl, _, resolve_record rfl, rfl, rfl, by decide +kernel⟩

end Clerk

end TableQuery
