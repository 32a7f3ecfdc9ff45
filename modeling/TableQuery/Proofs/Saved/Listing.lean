import Mathlib.Data.List.Perm.Basic
import TableQuery.Proofs.Calendar.Order
import TableQuery.Proofs.Sample
import TableQuery.Proofs.Saved.Ownership
import TableQuery.Proofs.Saved.Readings

/-!
# Lists of templates to choose from

The list for a table and a user is put together from three requests, whose answers overlap, and is
sorted and cleared of repetitions afterwards. What it shows is said here without these steps.

## Main definitions

* `TemplateDesk.Shows` — an entry shows a record to a user.
* `Traffic.reserving` — a store whose templates have no id that every table has a template of.

## Main results

* `Shelf.own_append_others_perm` — the requests together find each visible record once.
* `SavedTemplate.exists_mergeSort` — what belongs to nobody comes first.
* `TemplateDesk.list_shows_visible` — the list for a table, record by record.
-/

namespace TableQuery

/-! ## The records of a list -/

namespace Shelf

variable {s : Shelf}

theorem Tidy.nodup_records (h : s.Tidy) : s.records.Nodup :=
  .of_map _ h.nodup

theorem Tidy.nodup_select (h : s.Tidy) (p : TemplateRecord → Bool) : (s.select p).Nodup :=
  (List.mergeSort_perm _ _).nodup_iff.mpr (h.nodup_records.filter p)

/-- The records that are asked for are the visible ones, each found once. -/
theorem own_append_others_perm (h : s.Tidy) (table user : String) :
    (s.own table user ++ s.others s table user).Perm
      (s.records.filter fun r => r.table = table ∧ r.VisibleTo user) := by
  refine (List.perm_ext_iff_of_nodup ?_ (h.nodup_records.filter _)).mpr fun r => ?_
  · refine (h.nodup_select _).append
      (.filter _ ((h.nodup_select _).append (h.nodup_select _) ?_)) ?_
    · intro r hshared hpublic
      simp only [mem_select, Bool.and_eq_true, beq_iff_eq] at hshared hpublic
      exact absurd (hshared.2.1.2.symm.trans hpublic.2.2) (by decide)
    · intro r hown hother
      exact (mem_others.mp hother).2 (mem_own.mp hown).2.2
  · simp only [List.mem_append, mem_own, mem_others, List.mem_filter, TemplateRecord.VisibleTo]
    grind

end Shelf

/-! ## Entries -/

namespace TemplateDesk

def ownerName (d : TemplateDesk) (r : TemplateRecord) : String :=
  match d.users.byId r.createUser with
  | .ok owner => if owner.displayName = "" then owner.id else owner.displayName
  | .error _ => r.createUser

/-- An entry of a list shows a record to a user: under its name if it is the user's own, and with
the name of its owner behind it otherwise. -/
structure Shows (d : TemplateDesk) (user : String) (r : TemplateRecord) (e : SavedTemplate) :
    Prop where
  id_eq : e.template.id = r.id
  table_eq : e.template.table = r.table
  name_eq : e.template.name =
    if r.createUser = user then r.name else r.name ++ " [shared by " ++ d.ownerName r ++ "]"
  body_eq : ∃ t, d.templateOf r = .ok t ∧ e.template.body = t.body
  fileInfo_eq : e.fileInfo = some (d.fileInfo r)

variable {d : TemplateDesk} {user : String} {r : TemplateRecord} {e : SavedTemplate}

theorem shownName_createUser (d : TemplateDesk) (r : TemplateRecord) :
    (d.fileInfo r).createUser.shownName = d.ownerName r := by
  rw [fileInfo, ownerName]
  cases d.users.byId r.createUser with
  | error e => rfl
  | ok owner => rfl

/-- The entry of a record of the user. -/
theorem shows_of_saved (h : d.saved r = .ok e) (hown : r.createUser = user) :
    d.Shows user r e := by
  obtain ⟨t, ht, rfl⟩ := saved_eq_ok_iff.mp h
  obtain ⟨hid, hname, htable⟩ := templateOf_eq_ok ht
  exact ⟨hid, htable, hname.trans (if_pos hown).symm, ⟨t, ht, rfl⟩, rfl⟩

/-- The entry of a record of somebody else. -/
theorem shows_markedAsShared (h : d.saved r = .ok e) (hother : r.createUser ≠ user) :
    d.Shows user r (markedAsShared e) := by
  obtain ⟨t, ht, rfl⟩ := saved_eq_ok_iff.mp h
  obtain ⟨hid, hname, htable⟩ := templateOf_eq_ok ht
  refine ⟨hid, htable, ?_, ⟨t, ht, rfl⟩, rfl⟩
  rw [if_neg hother, ← shownName_createUser, ← hname]
  rfl

theorem forall₂_shows {s s' s'' : Shelf} {table : String} {own others : List SavedTemplate}
    (hown : d.savedAll (s.own table user) = .ok own)
    (hothers : d.savedAll (s'.others s'' table user) = .ok others) :
    List.Forall₂ (d.Shows user) (s.own table user ++ s'.others s'' table user)
      (own ++ others.map markedAsShared) := by
  rw [savedAll_eq_mapM, Except.mapM_eq_ok_iff] at hown hothers
  refine List.rel_append ?_ ?_
  · refine List.Forall₂.imp (fun r e h => shows_of_saved h.2 h.1)
      ((List.forall₂_and_left _ _).mpr ⟨fun r hr => ?_, hown⟩)
    exact (Shelf.mem_own.mp hr).2.2
  · rw [List.forall₂_map_right_iff]
    refine List.Forall₂.imp (fun r e h => shows_markedAsShared h.2 h.1)
      ((List.forall₂_and_left _ _).mpr ⟨fun r hr => ?_, hothers⟩)
    exact (Shelf.mem_others.mp hr).2

end TemplateDesk

/-! ## Their order -/

section Order

variable {α : Type} {cmp : α → α → Ordering} {a b c : α}

theorem bne_gt_trans [Std.TransCmp cmp] (hab : (cmp a b != .gt) = true)
    (hbc : (cmp b c != .gt) = true) : (cmp a c != .gt) = true := by
  rw [bne_iff_ne, ne_eq, ← Ordering.isLE_iff_ne_gt] at hab hbc ⊢
  exact Std.TransCmp.isLE_trans hab hbc

theorem bne_gt_total [Std.OrientedCmp cmp] (a b : α) :
    (cmp a b != .gt || cmp b a != .gt) = true := by
  have hswap : cmp b a = (cmp a b).swap := Std.OrientedCmp.eq_swap
  rw [hswap]
  cases cmp a b <;> rfl

theorem eq_of_bne_gt [Std.OrientedCmp cmp] (hab : (cmp a b != .gt) = true)
    (hba : (cmp b a != .gt) = true) : cmp a b = .eq := by
  have hswap : cmp b a = (cmp a b).swap := Std.OrientedCmp.eq_swap
  rw [hswap] at hba
  cases h : cmp a b <;> simp [h] at hab hba ⊢

end Order

namespace SavedTemplate

open TemplateDesk (notYounger)

theorem notYounger_trans (a b c : SavedTemplate) (hab : notYounger a b = true)
    (hbc : notYounger b c = true) : notYounger a c = true := by
  obtain ⟨ta, _ | fa⟩ := a <;> obtain ⟨tb, _ | fb⟩ := b <;> obtain ⟨tc, _ | fc⟩ := c <;>
    simp only [notYounger, Bool.false_eq_true] at hab hbc ⊢
  exact bne_gt_trans hab hbc

theorem notYounger_total (a b : SavedTemplate) : (notYounger a b || notYounger b a) = true := by
  obtain ⟨ta, _ | fa⟩ := a <;> obtain ⟨tb, _ | fb⟩ := b <;> simp only [notYounger, Bool.or_self,
    Bool.or_true, Bool.true_or]
  exact bne_gt_total fa.createTime fb.createTime

/-- Sorting leaves what belongs to nobody in front of what belongs to users. -/
theorem exists_mergeSort {first : SavedTemplate} {es : List SavedTemplate}
    (hfirst : first.fileInfo = none) (hes : ∀ e ∈ es, e.fileInfo ≠ none) :
    ∃ rest, (first :: es).mergeSort notYounger = first :: rest ∧ rest.Perm es ∧
      rest.Pairwise fun a b => notYounger a b = true := by
  have hperm := List.mergeSort_perm (first :: es) notYounger
  have hsorted := List.pairwise_mergeSort notYounger_trans notYounger_total (first :: es)
  generalize (first :: es).mergeSort notYounger = sorted at hperm hsorted
  cases sorted with
  | nil => cases hperm.length_eq
  | cons e rest =>
    have he : e = first := by
      by_contra hne
      have hmem : first ∈ rest :=
        (List.mem_cons.mp (hperm.mem_iff.mpr List.mem_cons_self)).resolve_left (Ne.symm hne)
      have hown := hes e
        ((List.mem_cons.mp (hperm.mem_iff.mp List.mem_cons_self)).resolve_left hne)
      have hle := (List.pairwise_cons.mp hsorted).1 first hmem
      cases hinfo : e.fileInfo with
      | none => exact hown hinfo
      | some info => simp [notYounger, hinfo, hfirst] at hle
    subst he
    exact ⟨rest, rfl, hperm.cons_inv, (List.pairwise_cons.mp hsorted).2⟩

end SavedTemplate

/-! ## Lists -/

namespace Traffic

/-- A store before anything is asked of it. No template is given the id of one that every table
has, or one that a record has already. -/
def reserving (shelf : Shelf) : Traffic :=
  ⟨shelf, [], Template.emptyId :: Template.defaultId :: shelf.records.map TemplateRecord.id⟩

variable {d : TemplateDesk} {s s' : Traffic} {id : String}

theorem orderly_reserving {shelf : Shelf} (h : shelf.Tidy) : (reserving shelf).Orderly d :=
  orderly_idle h fun _ hr =>
    List.mem_cons_of_mem _ (List.mem_cons_of_mem _ (List.mem_map_of_mem hr))

/-- Under an id that is closed without a record, none appears. -/
theorem Orderly.absent_of_run (h : s.Orderly d) (hclosed : s.Closed id)
    (habsent : ∀ r ∈ s.shelf.records, r.id ≠ id) (hrun : Relation.ReflTransGen d.Goes s s') :
    ∀ r ∈ s'.shelf.records, r.id ≠ id := by
  induction hrun with
  | refl => exact habsent
  | tail hbefore hgoes ih =>
    obtain ⟨session, hstep⟩ := hgoes
    intro r' hr' hid
    rcases (h.run hbefore).later hstep hr' with ⟨r, hr, hlater⟩ | ⟨⟨p, hp, hcreates⟩, -⟩
    · exact ih r hr (hlater.id_eq.symm.trans hid)
    · exact (hclosed.run hbefore).2 p hp (hid ▸ hcreates)

end Traffic

namespace TemplateDesk

variable {d : TemplateDesk} {session : Session} {table : String}

/-- A list that is arranged from the entries of records begins with what the table proposes. -/
theorem exists_arranged {t : Table} {user : String} {rs : List TemplateRecord}
    {own others : List SavedTemplate} (hids : (rs.map TemplateRecord.id).Nodup)
    (hdefault : t.defaultTemplate.id ∉ rs.map TemplateRecord.id)
    (hshows : List.Forall₂ (d.Shows user) rs (own ++ others.map markedAsShared)) :
    ∃ rs' rest, arranged t own others = ⟨t.defaultTemplate, none⟩ :: rest ∧ rs'.Perm rs ∧
      List.Forall₂ (d.Shows user) rs' rest ∧
      rs'.Pairwise (fun a b => compare a.createTime b.createTime ≠ .gt) ∧
      ((arranged t own others).map fun e => e.template.id).Nodup := by
  obtain ⟨rest, hsort, hperm, hsorted⟩ := @SavedTemplate.exists_mergeSort
    ⟨t.defaultTemplate, none⟩ _ rfl fun e he hnone => by
      obtain ⟨r, -, hr⟩ := forall₂_exists_left hshows he
      simp [hr.fileInfo_eq] at hnone
  obtain ⟨rs', hrest, hrs'⟩ := List.perm_comp_forall₂ hperm hshows.flip
  have hshown : List.Forall₂ (d.Shows user) rs' rest := hrest.flip
  have hsame : rs'.map TemplateRecord.id = rest.map fun e => e.template.id :=
    forall₂_map_eq hshown fun r e h => h.id_eq.symm
  have hnodup : ((⟨t.defaultTemplate, none⟩ :: rest : List SavedTemplate).map
      fun e => e.template.id).Nodup := by
    rw [List.map_cons, ← hsame, List.nodup_cons, (hrs'.map _).mem_iff, (hrs'.map _).nodup_iff]
    exact ⟨hdefault, hids⟩
  have harranged : arranged t own others = ⟨t.defaultTemplate, none⟩ :: rest := by
    rw [arranged, List.cons_append, hsort, firstByKey_eq_self hnodup]
  refine ⟨rs', rest, harranged, hrs', hshown, ?_, harranged ▸ hnodup⟩
  refine pairwise_of_forall₂ hshown hsorted fun r r' e e' hr hr' hle => ?_
  simpa [notYounger, hr.fileInfo_eq, hr'.fileInfo_eq, fileInfo] using hle

/-- Records have entries if they are readable. -/
theorem exists_savedAll_iff {rs : List TemplateRecord} :
    (∃ es, d.savedAll rs = .ok es) ↔ ∀ r ∈ rs, (Template.Body.decode? r.body).isSome := by
  simp only [savedAll_eq_mapM, Except.mapM_eq_ok_iff]
  constructor
  · rintro ⟨es, hes⟩ r hr
    obtain ⟨e, -, he⟩ := forall₂_exists_right hes hr
    obtain ⟨t, ht, -⟩ := saved_eq_ok_iff.mp he
    exact exists_templateOf_iff.mp ⟨t, ht⟩
  · intro h
    refine exists_forall₂ fun r hr => ?_
    obtain ⟨t, ht⟩ := exists_templateOf_iff.mpr (h r hr)
    exact ⟨_, saved_eq_ok_iff.mpr ⟨t, ht, rfl⟩⟩

/-- However the calls of users took turns before: the list for a table and a user is there if the
table and the user are and the records of the table that the user may see are readable. It begins
with the template that the table proposes, which belongs to nobody, and goes on with these records,
each once and the oldest first. Those of others are marked with the names of their owners. -/
theorem list_shows_visible {shelf : Shelf} {s : Traffic} (htidy : shelf.Tidy)
    (hfree : ∀ r ∈ shelf.records, r.id ≠ Template.defaultId)
    (hhook : ∀ t, d.registry.find table = .ok t → t.defaultTemplate.id = Template.defaultId)
    (hrun : Relation.ReflTransGen d.Goes (.reserving shelf) s) :
    ((∃ list, ((d.listForTable session table).run Shelf.answer s.shelf).1 = .ok list) ↔
      ∃ t user, d.registry.find table = .ok t ∧ d.users.current session = .ok user ∧
        ∀ r ∈ s.shelf.records, r.table = table → r.VisibleTo user.id →
          (Template.Body.decode? r.body).isSome) ∧
    ∀ list, ((d.listForTable session table).run Shelf.answer s.shelf).1 = .ok list →
      ∃ t user rs rest, d.registry.find table = .ok t ∧ d.users.current session = .ok user ∧
        list = ⟨t.defaultTemplate, none⟩ :: rest ∧
        rs.Perm (s.shelf.records.filter fun r => r.table = table ∧ r.VisibleTo user.id) ∧
        List.Forall₂ (d.Shows user.id) rs rest ∧
        rs.Pairwise (fun a b => compare a.createTime b.createTime ≠ .gt) ∧
        (list.map fun e => e.template.id).Nodup := by
  have horderly := (Traffic.orderly_reserving (d := d) htidy).run hrun
  have habsent := (Traffic.orderly_reserving (d := d) htidy).absent_of_run
    ⟨by simp [Traffic.reserving], by simp [Traffic.reserving]⟩ hfree hrun
  have hpicked (user : String) := Shelf.own_append_others_perm horderly.tidy table user
  rw [(d.reads_listForTable session table).run_eq, heard_listForTable]
  simp only [Except.bind_eq_ok_iff]
  constructor
  · have hreadable (user : String) : (∀ r ∈ s.shelf.records, r.table = table → r.VisibleTo user →
        (Template.Body.decode? r.body).isSome) ↔
        ∀ r ∈ s.shelf.own table user ++ s.shelf.others s.shelf table user,
          (Template.Body.decode? r.body).isSome := by
      simp only [(hpicked user).mem_iff, List.mem_filter, decide_eq_true_eq, and_imp]
    simp only [hreadable, List.forall_mem_append, ← exists_savedAll_iff (d := d)]
    constructor
    · rintro ⟨list, t, ht, user, huser, own, hown, others, hothers, -⟩
      exact ⟨t, user, ht, huser, ⟨own, hown⟩, others, hothers⟩
    · rintro ⟨t, user, ht, huser, ⟨own, hown⟩, others, hothers⟩
      exact ⟨_, t, ht, user, huser, own, hown, others, hothers, rfl⟩
  · rintro list ⟨t, ht, user, huser, own, hown, others, hothers, hlist⟩
    obtain rfl := Except.ok.inj hlist
    have hids := (((hpicked user.id).map TemplateRecord.id).nodup_iff).mpr
      (horderly.tidy.nodup.sublist (List.filter_sublist.map _))
    have hdefault : t.defaultTemplate.id ∉
        (s.shelf.own table user.id ++ s.shelf.others s.shelf table user.id).map
          TemplateRecord.id := by
      rw [hhook t ht, ((hpicked user.id).map _).mem_iff]
      intro hmem
      obtain ⟨r, hr, hid⟩ := List.mem_map.mp hmem
      exact habsent r (List.mem_filter.mp hr).1 hid
    obtain ⟨rs, rest, harranged, hperm, hshown, hordered, hnodup⟩ :=
      exists_arranged hids hdefault (forall₂_shows hown hothers)
    exact ⟨t, user, rs, rest, ht, huser, harranged, hperm.trans (hpicked user.id), hshown,
      hordered, hnodup⟩

end TemplateDesk

/-! ## Dishes to choose from -/

namespace Kitchen

open Sample (bob)

def dishes : Table :=
  ⟨"Dish", "Dish", "", [{ (default : Column) with id := "Name", name := "Name" }], "Name", [], none,
    none⟩

/-- The directory knows two users, of whom only the first one has a name to be shown. -/
def users : UserDirectory where
  current session := .ok (.unnamed (session.user.getD ""))
  byId id :=
    if id = "ann" then .ok ⟨"ann", "ann", "Ann"⟩
    else if id = "bob" then .ok (.unnamed "bob")
    else .error (.backend "unknown user")

def desk : TemplateDesk := ⟨⟨[dishes]⟩, users⟩

def day (n : Fin 3) : Moment :=
  .midnight ⟨2024, 5, n + 1, by decide +revert⟩

/-- A shared template, one that nobody else may see, a public one as old as the first, one that its
owner shares with himself, and a public one of another table. -/
def shelf : Shelf :=
  ⟨[⟨"t1", "Soups", "Dish", .shared, "ann", day 0, day 0, "{}", ["bob", "carl"]⟩,
    ⟨"t2", "Sweets", "Dish", .owner, "ann", day 0, day 0, "{}", []⟩,
    ⟨"t3", "Roasts", "Dish", .everyone, "carl", day 0, day 0, "{}", []⟩,
    ⟨"t4", "Favourites", "Dish", .shared, "bob", day 1, day 1, "{}", ["bob"]⟩,
    ⟨"t5", "Reds", "Wine", .everyone, "ann", day 1, day 1, "{}", []⟩]⟩

def plain : Template :=
  { Template.temporary "Dish" ⟨[], [.plain "Name"]⟩ .all with name := "Plain" }

def later : Shelf :=
  ⟨shelf.records ++ [TemplateDesk.recordOf (.unnamed "bob") (day 2) "t6" plain .owner []]⟩

/-- The second user chooses from five templates, four of which are stored. -/
theorem bob_chooses : ((desk.listForTable bob "Dish").run Shelf.answer later).1.map
      (fun list => list.map fun e => (e.template.id, e.template.name)) =
    .ok [("TPL_DEFAULT", "Default template"), ("t1", "Soups [shared by Ann]"),
      ("t3", "Roasts [shared by carl]"), ("t4", "Favourites"), ("t6", "Plain")] ∧
    ∃ rs rest, ((desk.listForTable bob "Dish").run Shelf.answer later).1 =
        .ok (⟨dishes.defaultTemplate, none⟩ :: rest) ∧
      rs.Perm (later.records.filter fun r => r.table = "Dish" ∧ r.VisibleTo "bob") ∧
      List.Forall₂ (desk.Shows "bob") rs rest ∧
      rs.Pairwise fun a b => compare a.createTime b.createTime ≠ .gt := by
  have htidy : shelf.Tidy := ⟨by decide, by decide⟩
  have hfree : ∀ r ∈ shelf.records, r.id ≠ Template.defaultId := by decide
  have hhook : ∀ t, desk.registry.find "Dish" = .ok t →
      t.defaultTemplate.id = Template.defaultId := by
    rintro t ⟨⟩
    rfl
  have hrun : Relation.ReflTransGen desk.Goes (.reserving shelf) ⟨later, [], _⟩ :=
    TemplateDesk.goes_of_goesWith <| @TemplateDesk.goesWith_create desk bob (fun _ => True) shelf _
      (day 2) "t6" plain .owner [] dishes _ trivial (by decide) rfl rfl rfl rfl
  obtain ⟨hexists, hlists⟩ :=
    @TemplateDesk.list_shows_visible desk bob "Dish" shelf _ htidy hfree hhook hrun
  dsimp only at hexists hlists
  refine ⟨by cbv, ?_⟩
  obtain ⟨list, hlist⟩ := hexists.mpr ⟨dishes, .unnamed "bob", rfl, rfl, by decide +kernel⟩
  obtain ⟨t, user, rs, rest, ht, huser, rfl, hperm, hshows, hordered, -⟩ := hlists list hlist
  obtain rfl : dishes = t := Except.ok.inj ht
  obtain rfl : UserInfo.unnamed "bob" = user := Except.ok.inj huser
  exact ⟨rs, rest, hlist, hperm, hshows, hordered⟩

end Kitchen

end TableQuery
