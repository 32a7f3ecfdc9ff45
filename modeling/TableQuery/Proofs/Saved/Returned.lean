import TableQuery.Proofs.Saved.Atomic
import TableQuery.Proofs.Saved.Runnable

/-!
# Templates as they are given back

A template that is saved is given back with every column of its table. What was listed comes first
and as it was, and the rest behind it. So a template that its table accepted is given back as one
that this table accepts again.

## Main definitions

* `Table.Synced` — an output that lists every column of a table.
* `Remembers` — a store finds what was put into it.
* `TemplateDesk.GivesBack` — what was saved is given back with every column, and is accepted again.

## Main results

* `Table.synced_syncOutput` — outputs without repetition are made to list every column.
* `Shelf.remembers` — a store in memory finds what was put into it.
* `TemplateDesk.givesBack_create`, `TemplateDesk.givesBack_update` — so do those who save and change
  templates.
* `TemplateDesk.synced_of_saved` — both together, for all tables of a registry.
-/

namespace TableQuery

/-! ## Every column of a table -/

namespace Table

/-- An output lists every column of a table: first those that were listed before and that the table
has, as they were, and then the others in the order of the table, visible if they are required and
without aggregates. Nothing is left to be done. -/
structure Synced (t : Table) (listed output : List OutputColumn) : Prop where
  output_eq : output = listed.filter (fun o => t.hasColumn o.column) ++
    (t.columns.filter fun c => c.id ∉ listed.map OutputColumn.column).map
      fun c => ⟨c.id, c.required, .none⟩
  perm : (output.map OutputColumn.column).Perm t.columnIds
  nodup : (output.map OutputColumn.column).Nodup
  again : t.syncOutput output = output

variable {t : Table} {listed output : List OutputColumn}

/-- The columns that are missing are the same, whether or not those that the table has not are left
out before. -/
theorem contains_listed_iff {c : Column} (hc : c ∈ t.columns) :
    ((listed.filter fun o => t.hasColumn o.column).map OutputColumn.column).contains c.id = true ↔
      c.id ∈ listed.map OutputColumn.column := by
  rw [List.contains_iff_mem]
  constructor
  · exact fun h => (List.filter_sublist.map _).subset h
  · intro h
    obtain ⟨o, ho, hid⟩ := List.mem_map.mp h
    have hhas : t.hasColumn o.column = true := hid ▸ hasColumn_iff.mpr (List.mem_map_of_mem hc)
    exact List.mem_map.mpr ⟨o, List.mem_filter.mpr ⟨ho, hhas⟩, hid⟩

theorem syncOutput_eq (hn : t.columnIds.Nodup) (ho : (listed.map OutputColumn.column).Nodup) :
    t.syncOutput listed = listed.filter (fun o => t.hasColumn o.column) ++
      (t.columns.filter fun c => c.id ∉ listed.map OutputColumn.column).map
        fun c => ⟨c.id, c.required, .none⟩ := by
  have hperm := columns_syncOutput_perm hn ho
  unfold syncOutput at hperm ⊢
  dsimp only at hperm ⊢
  split at hperm
  · next hlength =>
    -- As many columns are listed as there are, so that none is missing.
    have hnone : (t.columns.filter fun c => c.id ∉ listed.map OutputColumn.column) = [] := by
      refine List.filter_eq_nil_iff.mpr fun c hc => ?_
      have hmem := hperm.mem_iff.mpr (List.mem_map_of_mem hc)
      simpa using (contains_listed_iff hc).mp (List.contains_iff_mem.mpr hmem)
    rw [if_pos hlength, hnone, List.map_nil, List.append_nil]
  · next hlength =>
    rw [if_neg hlength]
    congr 2
    refine List.filter_congr fun c hc => ?_
    rw [Bool.eq_iff_iff, Bool.not_eq_true', ← Bool.not_eq_true, contains_listed_iff hc,
      decide_eq_true_eq]

/-- An output that lists every column once stays as it is. -/
theorem syncOutput_of_perm (h : (output.map OutputColumn.column).Perm t.columnIds) :
    t.syncOutput output = output := by
  have hall : output.filter (fun o => t.hasColumn o.column) = output :=
    List.filter_eq_self.mpr fun o ho =>
      hasColumn_iff.mpr (h.mem_iff.mp (List.mem_map_of_mem ho))
  have hlength : output.length = t.columns.length := by
    simpa [columnIds] using h.length_eq
  unfold syncOutput
  dsimp only
  rw [hall, if_pos hlength]

/-- An output without repetition is made to list every column. -/
theorem synced_syncOutput (hn : t.columnIds.Nodup) (ho : (listed.map OutputColumn.column).Nodup) :
    t.Synced listed (t.syncOutput listed) where
  output_eq := syncOutput_eq hn ho
  perm := columns_syncOutput_perm hn ho
  nodup := (columns_syncOutput_perm hn ho).nodup_iff.mpr hn
  again := syncOutput_of_perm (columns_syncOutput_perm hn ho)

end Table

/-! ## Dialogues that succeed -/

section Run

variable {σ : Type} {answer : σ → (r : StoreRequest) → Except QueryError r.Answer × σ}

namespace Dialogue

variable {α β : Type} {s s' : σ} {b : β}

/-- A dialogue succeeds step by step. -/
theorem run_bind_eq_ok_iff {d : Dialogue α} {next : α → Dialogue β} :
    (d >>= next).run answer s = (.ok b, s') ↔
      ∃ a t, d.run answer s = (.ok a, t) ∧ (next a).run answer t = (.ok b, s') := by
  induction d generalizing s with
  | done x =>
    cases x with
    | error e => exact ⟨nofun, nofun⟩
    | ok a =>
      refine ⟨fun h => ⟨a, s, rfl, h⟩, ?_⟩
      rintro ⟨_, _, ⟨⟩, h⟩
      exact h
  | ask r reply ih => exact ih (answer s r).1

theorem run_done_bind_eq_ok_iff {x : Except QueryError α} {next : α → Dialogue β} :
    (Dialogue.done x >>= next).run answer s = (.ok b, s') ↔
      ∃ a, x = .ok a ∧ (next a).run answer s = (.ok b, s') := by
  rw [run_bind_eq_ok_iff]
  constructor
  · rintro ⟨a, t, h, hnext⟩
    obtain ⟨rfl, rfl⟩ := Prod.mk.inj h
    exact ⟨a, rfl, hnext⟩
  · rintro ⟨a, rfl, hnext⟩
    exact ⟨a, s, rfl, hnext⟩

end Dialogue

namespace TemplateDesk

variable {d : TemplateDesk} {id : String} {s s' : σ} {saved : SavedTemplate}

theorem run_find (h : (d.find id).run answer s = (.ok saved, s')) :
    ∃ r : TemplateRecord, answer s (.find id) = (.ok r, s') ∧ d.saved r = .ok saved := by
  obtain ⟨r, t, hr, h⟩ := Dialogue.run_bind_eq_ok_iff.mp h
  obtain ⟨hsaved, rfl⟩ := Prod.mk.inj h
  exact ⟨r, hr, hsaved⟩

theorem run_owned {user : UserInfo} {r : TemplateRecord}
    (h : (owned user id).run answer s = (.ok r, s')) : answer s (.find id) = (.ok r, s') := by
  obtain ⟨found, t, hfound, h⟩ := Dialogue.run_bind_eq_ok_iff.mp h
  split at h
  · obtain ⟨hr, rfl⟩ := Prod.mk.inj h
    obtain rfl := Except.ok.inj hr
    exact hfound
  · cases h

end TemplateDesk

end Run

/-! ## Stores that remember -/

/-- A store finds what was put into it, and is not changed by looking. -/
structure Remembers {σ : Type} (answer : σ → (r : StoreRequest) → Except QueryError r.Answer × σ) :
    Prop where
  find_same : ∀ {s s' : σ} {id : String} {r : TemplateRecord},
    answer s (.find id) = (.ok r, s') → s' = s
  find_create : ∀ {s s' s'' : σ} {r r' : TemplateRecord}, answer s (.create r) = (.ok (), s') →
    answer s' (.find r.id) = (.ok r', s'') → r' = r
  find_update : ∀ {s s' s'' : σ} {id : String} {u : TemplateUpdate} {r r' : TemplateRecord},
    answer s (.find id) = (.ok r, s) → answer s (.update id u) = (.ok (), s') →
      answer s' (.find id) = (.ok r', s'') → r' = u.apply r

namespace Shelf

theorem answer_find_eq_iff {s s' : Shelf} {id : String} {r : TemplateRecord} :
    s.answer (.find id) = (.ok r, s') ↔ s.find? id = some r ∧ s = s' := by
  cases hfound : s.find? id with
  | none =>
    have hanswer : s.answer (.find id) = (.error (.templateNotFound id), s) := by
      simp only [answer, hfound]
    rw [hanswer]
    constructor
    · intro h
      cases h
    · rintro ⟨h, -⟩
      cases h
  | some found =>
    have hanswer : s.answer (.find id) = (.ok found, s) := by
      simp only [answer, hfound]
    rw [hanswer]
    constructor
    · intro h
      obtain ⟨hr, hs⟩ := Prod.mk.inj h
      exact ⟨congrArg some (Except.ok.inj hr), hs⟩
    · rintro ⟨h, rfl⟩
      obtain rfl := Option.some.inj h
      rfl

/-- A store in memory does. -/
theorem remembers : Remembers answer where
  find_same h := (answer_find_eq_iff.mp h).2.symm
  find_create {s s' s'' r r'} hcreated hfound := by
    have hcreate : s.create r = (.ok (), s') := hcreated
    rw [create] at hcreate
    split at hcreate
    · cases hcreate
    · next hnew =>
      obtain ⟨-, rfl⟩ := Prod.mk.inj hcreate
      have hr := (answer_find_eq_iff.mp hfound).1
      rw [find?_create (by simpa using hnew)] at hr
      exact (Option.some.inj hr).symm
  find_update {s s' s'' id u r r'} hr hupdated hfound := by
    have hold := (answer_find_eq_iff.mp hr).1
    have hupdate : s.update id u = (.ok (), s') := hupdated
    rw [update, if_pos (by rw [hold]; rfl)] at hupdate
    obtain ⟨-, rfl⟩ := Prod.mk.inj hupdate
    have hr' := (answer_find_eq_iff.mp hfound).1
    rw [find?_update hold u] at hr'
    exact (Option.some.inj hr').symm

end Shelf

/-! ## What is given back -/

namespace TemplateDesk

variable {σ : Type} {answer : σ → (r : StoreRequest) → Except QueryError r.Answer × σ}
  {d : TemplateDesk} {session : Session} {now : Moment} {id : String} {template : Template}
  {access : Access} {shareList : List String} {s s' : σ} {saved : SavedTemplate}

/-- What a template that was saved for a table is given back as. -/
structure GivesBack (d : TemplateDesk) (template : Template) (table : String)
    (saved : SavedTemplate) : Prop where
  table_eq : saved.template.table = table
  nodup : template.outputIds.Nodup
  synced : ∀ t, d.registry.find table = .ok t →
    t.Synced template.body.output saved.template.body.output
  accepted : ∀ t, d.registry.find table = .ok t → template.table = table →
    t.validate saved.template = .ok ()

/-- A record that holds a template which was accepted. -/
theorem givesBack_of_saved {r : TemplateRecord} {t : Table}
    (hwellFormed : ∀ t ∈ d.registry.tables, t.columnIds.Nodup ∧ t.columns ≠ [])
    (ht : d.registry.find template.table = .ok t) (hvalid : t.validate template = .ok ())
    (hbody : r.body = template.body.encode) (hsaved : d.saved r = .ok saved) :
    d.GivesBack template r.table saved := by
  obtain ⟨hfilter, -, houtput⟩ := Table.validate_eq_ok_iff.mp hvalid
  have hnodup : template.outputIds.Nodup := (Table.nodup_of_validateOutput houtput).1
  obtain ⟨found, hfound, rfl⟩ := saved_eq_ok_iff.mp hsaved
  have hlists (u : Table) (hu : d.registry.find r.table = .ok u) : ∃ b : Template.Body,
      b.output = template.body.output ∧ t.validateFilter b.filter = .ok () ∧
        found = u.syncColumns
          { Template.temporary r.table b .all with id := r.id, name := r.name } := by
    obtain ⟨b, hb, hfound⟩ := (templateOf_eq_ok_iff hu).mp hfound
    rw [hbody] at hb
    obtain ⟨hsame, hread⟩ := @Table.validateFilter_of_decode? t _ _ hb
    exact ⟨b, hsame, hread.mp hfilter, hfound⟩
  refine ⟨(templateOf_eq_ok hfound).2.2, hnodup, fun u hu => ?_, fun u hu htable => ?_⟩
  · obtain ⟨b, hsame, -, rfl⟩ := hlists u hu
    have hsynced := Table.synced_syncOutput (hwellFormed u (mem_of_find hu)).1 hnodup
    rwa [← hsame] at hsynced ⊢
  · obtain ⟨b, hsame, hread, rfl⟩ := hlists u hu
    obtain rfl : t = u := Except.ok.inj (ht.symm.trans (htable ▸ hu))
    obtain ⟨hn, hne⟩ := hwellFormed t (mem_of_find hu)
    have hb : (b.output.map OutputColumn.column).Nodup := hsame ▸ hnodup
    refine Table.validate_eq_ok_iff.mpr ⟨hread, Table.syncOutput_ne_nil hn hb hne, ?_⟩
    refine (Table.validateOutput_syncOutput_iff hn hb).mpr ⟨fun c hc => ?_, fun o ho _ => ?_⟩
    · exact Table.hasColumn_iff.mpr (List.mem_map_of_mem hc)
    · exact Table.columns_of_validateOutput houtput (hsame ▸ ho)

/-- Who saves a template has put it into the store and has found it there. -/
theorem run_create
    (h : (d.create session now id template access shareList).run answer s = (.ok saved, s')) :
    ∃ t user r after, d.registry.find template.table = .ok t ∧ t.validate template = .ok () ∧
      answer s (.create (recordOf user now id template access shareList)) = (.ok (), after) ∧
      answer after (.find id) = (.ok r, s') ∧ d.saved r = .ok saved := by
  obtain ⟨t, ht, h⟩ := Dialogue.run_done_bind_eq_ok_iff.mp h
  obtain ⟨_, hvalid, h⟩ := Dialogue.run_done_bind_eq_ok_iff.mp h
  obtain ⟨user, -, h⟩ := Dialogue.run_done_bind_eq_ok_iff.mp h
  obtain ⟨_, after, hcreated, h⟩ := Dialogue.run_bind_eq_ok_iff.mp h
  obtain ⟨r, hr, hsaved⟩ := run_find h
  exact ⟨t, user, r, after, ht, hvalid, hcreated, hr, hsaved⟩

theorem givesBack_create (hstore : Remembers answer)
    (hwellFormed : ∀ t ∈ d.registry.tables, t.columnIds.Nodup ∧ t.columns ≠ [])
    (h : (d.create session now id template access shareList).run answer s = (.ok saved, s')) :
    (∃ t, d.registry.find template.table = .ok t) ∧ d.GivesBack template template.table saved := by
  obtain ⟨t, user, r, after, ht, hvalid, hcreated, hr, hsaved⟩ := run_create h
  obtain rfl := hstore.find_create hcreated hr
  exact ⟨⟨t, ht⟩, givesBack_of_saved hwellFormed ht hvalid rfl hsaved⟩

theorem givesBack_update (hstore : Remembers answer)
    (hwellFormed : ∀ t ∈ d.registry.tables, t.columnIds.Nodup ∧ t.columns ≠ [])
    (h : (d.update session now template access shareList).run answer s = (.ok saved, s')) :
    ∃ r : TemplateRecord, answer s (.find template.id) = (.ok r, s) ∧
      d.GivesBack template r.table saved := by
  obtain ⟨t, ht, h⟩ := Dialogue.run_done_bind_eq_ok_iff.mp h
  obtain ⟨_, hvalid, h⟩ := Dialogue.run_done_bind_eq_ok_iff.mp h
  obtain ⟨user, -, h⟩ := Dialogue.run_done_bind_eq_ok_iff.mp h
  obtain ⟨r, same, howned, h⟩ := Dialogue.run_bind_eq_ok_iff.mp h
  have hr := run_owned howned
  have hsame := hstore.find_same hr
  rw [hsame] at hr h
  obtain ⟨shares, -, h⟩ := Dialogue.run_done_bind_eq_ok_iff.mp h
  obtain ⟨_, after, hupdated, h⟩ := Dialogue.run_bind_eq_ok_iff.mp h
  obtain ⟨r', hr', hsaved⟩ := run_find h
  rw [hstore.find_update hr hupdated hr'] at hsaved
  have hback := givesBack_of_saved hwellFormed ht hvalid (by rfl) hsaved
  exact ⟨r, hr, hback⟩

/-- For the tables of a registry, an output without repetition is made to list every column: the
columns that were listed first, in their order and as they were, and then the others in the order of
the table. Whoever saves or changes a template has had it accepted, and so without repetition; it is
given back with every column of the table that it is saved for, and this table accepts it again if
it did before. -/
theorem synced_of_saved {steps : List Registry.Step} (hregistry : d.registry = Registry.setUp steps)
    (hcompiled : ∀ t, .register t ∈ steps → t.Compiled) (hstore : Remembers answer) :
    (∀ t ∈ d.registry.tables, ∀ template : Template, template.outputIds.Nodup →
      t.Synced template.body.output (t.syncColumns template).body.output) ∧
    (∀ session now id template access shareList s saved s',
      (d.create session now id template access shareList).run answer s = (.ok saved, s') →
        (∃ t, d.registry.find template.table = .ok t) ∧
          d.GivesBack template template.table saved) ∧
    ∀ session now template access shareList s saved s',
      (d.update session now template access shareList).run answer s = (.ok saved, s') →
        ∃ r : TemplateRecord, answer s (.find template.id) = (.ok r, s) ∧
          d.GivesBack template r.table saved := by
  have hwellFormed : ∀ t ∈ d.registry.tables, t.columnIds.Nodup ∧ t.columns ≠ [] := by
    obtain ⟨hnodup, hnonempty⟩ := wellFormed_of_setUp hcompiled
    rw [hregistry]
    exact fun t ht => ⟨hnodup t ht, hnonempty t ht⟩
  refine ⟨fun t ht template hn => Table.synced_syncOutput (hwellFormed t ht).1 hn, ?_, ?_⟩
  · intro session now id template access shareList s saved s' h
    exact givesBack_create hstore hwellFormed h
  · intro session now template access shareList s saved s' h
    exact givesBack_update hstore hwellFormed h

end TemplateDesk

/-! ## Customers by their names -/

namespace Clerk

open Billing (customers)
open Sample (ann clock)

/-- The same customers, of whom the names are wanted and not the numbers. -/
def names : Template :=
  { sons with id := "t1", body := ⟨sons.body.filter, [.plain "Name"]⟩ }

def changed : TemplateRecord :=
  { record with body := names.body.encode }

/-- A record of customers is given back with all their columns. -/
theorem saved_record {r : TemplateRecord} {b : Template.Body} (hr : r.table = "Customer")
    (hbody : r.body = b.encode) (hb : Template.Body.decode? b.encode = some b) :
    desk.saved r = .ok ⟨customers.syncColumns
      { Template.temporary r.table b .all with id := r.id, name := r.name },
      some (desk.fileInfo r)⟩ := by
  have hcustomers : desk.registry.find r.table = .ok customers := by rw [hr]; rfl
  exact TemplateDesk.saved_eq_ok_iff.mpr
    ⟨_, (TemplateDesk.templateOf_eq_ok_iff hcustomers).mpr ⟨b, hbody ▸ hb, rfl⟩, rfl⟩

/-- Numbers were listed and names are added, then names are listed and numbers are added; customers
accept both. -/
theorem sons_given_back : ∃ saved saved' after,
    (desk.create ann clock "t1" sons .owner []).run Shelf.answer .empty =
      (.ok saved, ⟨[record]⟩) ∧
    (desk.update ann clock names .owner []).run Shelf.answer ⟨[record]⟩ = (.ok saved', after) ∧
    saved.template.body.output = [.plain "No", ⟨"Name", false, .none⟩] ∧
    saved'.template.body.output = [.plain "Name", ⟨"No", false, .none⟩] ∧
    customers.validate saved.template = .ok () ∧
    customers.validate saved'.template = .ok () := by
  have hcompiled : ∀ t, .register t ∈ Billing.steps → t.Compiled :=
    fun t => Billing.compiled_of_mem_steps
  obtain ⟨-, hcreates, hupdates⟩ := TemplateDesk.synced_of_saved (d := desk)
    Billing.setUp_steps.symm hcompiled Shelf.remembers
  have hsaved := saved_record (r := record) rfl rfl ((Template.Body.decode?_encode _).trans rfl)
  have hchanged := saved_record (r := changed) rfl rfl ((Template.Body.decode?_encode _).trans rfl)
  have hcreate : (desk.create ann clock "t1" sons .owner []).run Shelf.answer .empty =
      (desk.saved record, ⟨[record]⟩) := rfl
  have hupdate : (desk.update ann clock names .owner []).run Shelf.answer ⟨[record]⟩ =
      (desk.saved changed, ⟨[changed]⟩) := rfl
  rw [hsaved] at hcreate
  rw [hchanged] at hupdate
  have hback := (hcreates _ _ _ _ _ _ _ _ _ hcreate).2
  obtain ⟨r, hr, hback'⟩ := hupdates _ _ _ _ _ _ _ _ hupdate
  obtain rfl : record = r := Option.some.inj (Shelf.answer_find_eq_iff.mp hr).1
  exact ⟨_, _, _, hcreate, hupdate, rfl, rfl, hback.accepted customers rfl rfl,
    hback'.accepted customers rfl rfl⟩

end Clerk

end TableQuery
