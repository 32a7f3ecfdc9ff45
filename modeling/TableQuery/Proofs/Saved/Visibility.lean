import TableQuery.Proofs.Exchange.Template
import TableQuery.Proofs.Sample
import TableQuery.Proofs.Saved.Listing

/-!
# Who sees saved templates

Lists show users what they may see and tell nothing of the rest: the records of others might as
well be missing. A template that is asked for by its id is shown to everybody.

## Main definitions

* `Reading`, `Reading.dialogue` — what users ask for to see templates.
* `Reading.Allowed` — a reading asks for no stored template that its user may not see.
* `TemplateDesk.Tells` — a template tells what a record says.
* `Shelf.AlikeFor` — two stores with the same records that a user may see.

## Main results

* `Shelf.select_congr` — lists depend on the records that they select.
* `Reading.heard_congr` — allowed readings depend on visible records.
* `Reading.visible_iff_allowed` — only allowed readings show visible records alone.
-/

namespace TableQuery

/-! ## Readings -/

/-- What a user asks for to see templates. -/
inductive Reading where
  | find (id : String)
  | resolve (table : String) (ref : TemplateRef)
  | listForTable (table : String)

namespace Reading

/-- The dialogue of a reading, up to the templates that it shows. -/
def dialogue (d : TemplateDesk) (session : Session) : Reading → Dialogue (List Template)
  | find id => do
    let e ← d.find id
    return [e.template]
  | resolve table ref => do
    let t ← d.resolve table ref
    return [t]
  | listForTable table => do
    let list ← d.listForTable session table
    return list.map SavedTemplate.template

def requests : Reading → Nat
  | find _ | resolve .. => 1
  | listForTable _ => 3

def savedId? : Reading → Option String
  | find id => some id
  | resolve _ (.saved id) =>
    if id = Template.emptyId ∨ id = Template.defaultId then none else some id
  | _ => none

/-- A template of a reading that is not stored: its table has it, or it is given. -/
def Offers (d : TemplateDesk) (template : Template) : Reading → Prop
  | find _ => False
  | resolve table (.inline body) => template = .temporary table body .all
  | resolve table (.saved id) =>
    ∃ t, d.registry.find table = .ok t ∧
      (id = Template.emptyId ∧ template = t.emptyTemplate ∨
        id = Template.defaultId ∧ template = t.defaultTemplate)
  | listForTable table => ∃ t, d.registry.find table = .ok t ∧ template = t.defaultTemplate

/-- A stored template that is asked for by its id is visible to the user. -/
def Allowed (reading : Reading) (user : String) (s : Shelf) : Prop :=
  ∀ id, reading.savedId? = some id → ∀ r, s.find? id = some r → r.VisibleTo user

end Reading

/-- A template tells the name and the filter and output of a record. The name may be marked. -/
structure TemplateDesk.Tells (d : TemplateDesk) (r : TemplateRecord) (template : Template) :
    Prop where
  id_eq : template.id = r.id
  name_eq : template.name = r.name ∨
    template.name = r.name ++ " [shared by " ++ d.ownerName r ++ "]"
  body_eq : ∃ t, d.templateOf r = .ok t ∧ template.body = t.body

/-! ## Stores that look the same -/

namespace Shelf

/-- The records that a user may see are the same in two stores. -/
def AlikeFor (user : String) (s s' : Shelf) : Prop :=
  ∀ r : TemplateRecord, r.VisibleTo user → (r ∈ s.records ↔ r ∈ s'.records)

variable {s s' : Shelf} {user : String}

/-- By time, and by id where the time is the same. -/
theorem notYounger_eq (a b : TemplateRecord) :
    notYounger a b = (compareLex (compareOn TemplateRecord.createTime)
      (compareOn TemplateRecord.id) a b != .gt) := rfl

theorem notYounger_trans (a b c : TemplateRecord) (hab : notYounger a b = true)
    (hbc : notYounger b c = true) : notYounger a c = true := by
  rw [notYounger_eq] at hab hbc ⊢
  exact bne_gt_trans hab hbc

theorem notYounger_total (a b : TemplateRecord) : (notYounger a b || notYounger b a) = true := by
  rw [notYounger_eq, notYounger_eq]
  exact bne_gt_total a b

theorem id_eq_of_notYounger {a b : TemplateRecord} (hab : notYounger a b = true)
    (hba : notYounger b a = true) : a.id = b.id := by
  rw [notYounger_eq] at hab hba
  have heq : compareLex (compareOn TemplateRecord.createTime) (compareOn TemplateRecord.id) a b =
      .eq := eq_of_bne_gt hab hba
  exact Std.LawfulEqCmp.eq_of_compare (Ordering.then_eq_eq.mp heq).2

theorem select_congr {p : TemplateRecord → Bool} (h : s.Tidy) (h' : s'.Tidy)
    (hp : ∀ r, p r = true → (r ∈ s.records ↔ r ∈ s'.records)) : s.select p = s'.select p := by
  have hsame (r : TemplateRecord) : r ∈ s.select p ↔ r ∈ s'.select p := by
    rw [mem_select, mem_select]
    exact and_congr_left (hp r)
  have hperm : (s.select p).Perm (s'.select p) :=
    (List.perm_ext_iff_of_nodup (h.nodup_select p) (h'.nodup_select p)).mpr hsame
  refine hperm.eq_of_pairwise (fun a b ha hb hab hba => ?_)
    (List.pairwise_mergeSort notYounger_trans notYounger_total _)
    (List.pairwise_mergeSort notYounger_trans notYounger_total _)
  exact h.eq_of_id_eq (mem_select.mp ((hsame b).mpr hb)).1 (mem_select.mp ha).1
    (id_eq_of_notYounger hab hba)

theorem own_congr {table : String} (h : s.Tidy) (h' : s'.Tidy) (halike : s.AlikeFor user s') :
    s.own table user = s'.own table user := by
  refine select_congr h h' fun r hr => halike r (.inl ?_)
  simp only [Bool.and_eq_true, beq_iff_eq] at hr
  exact hr.2

theorem others_congr {table : String} {t t' : Shelf} (hs : s.Tidy) (hs' : s'.Tidy) (ht : t.Tidy)
    (ht' : t'.Tidy) (halike : s.AlikeFor user s') (halike' : t.AlikeFor user t') :
    s.others t table user = s'.others t' table user := by
  unfold others
  congr 1
  refine congrArg₂ (· ++ ·) (select_congr hs hs' fun r hr => halike r (.inr (.inl ?_)))
    (select_congr ht ht' fun r hr => halike' r (.inr (.inr ?_)))
  · simp only [Bool.and_eq_true, beq_iff_eq, List.contains_iff_mem] at hr
    exact ⟨hr.1.2, hr.2⟩
  · simp only [Bool.and_eq_true, beq_iff_eq] at hr
    exact hr.2

theorem find?_congr {id : String} (h : s.Tidy) (h' : s'.Tidy)
    (hid : ∀ r, r.id = id → (r ∈ s.records ↔ r ∈ s'.records)) : s.find? id = s'.find? id := by
  refine Option.ext fun r => ?_
  rw [find?, find?, find?_key_eq_some_iff h.nodup, find?_key_eq_some_iff h'.nodup]
  exact and_congr_left (hid r)

end Shelf

/-! ## What readings tell -/

namespace TemplateDesk

variable {d : TemplateDesk} {user : String} {r : TemplateRecord} {e : SavedTemplate}

theorem Shows.tells (h : d.Shows user r e) : d.Tells r e.template where
  id_eq := h.id_eq
  name_eq := by
    rw [h.name_eq]
    split
    · exact .inl rfl
    · exact .inr rfl
  body_eq := h.body_eq

/-- A record that is found is told, on whatever table it is used. -/
theorem tells_of_saved (h : d.saved r = .ok e) (table : String) :
    d.Tells r { e.template with table } := by
  obtain ⟨t, ht, rfl⟩ := saved_eq_ok_iff.mp h
  obtain ⟨hid, hname, -⟩ := templateOf_eq_ok ht
  exact ⟨hid, .inl hname, t, ht, rfl⟩

/-- What is listed is what the table proposes or tells of a record that was selected. -/
theorem tells_of_mem_arranged {t : Table} {rs : List TemplateRecord}
    {own others : List SavedTemplate}
    (hshows : List.Forall₂ (d.Shows user) rs (own ++ others.map markedAsShared))
    (he : e ∈ arranged t own others) :
    e.template = t.defaultTemplate ∨ ∃ r ∈ rs, d.Tells r e.template := by
  have hmem := mem_of_mem_firstByKey he
  rw [List.mem_mergeSort, List.cons_append, List.mem_cons] at hmem
  rcases hmem with rfl | hmem
  · exact .inl rfl
  · obtain ⟨r, hr, hshown⟩ := forall₂_exists_left hshows hmem
    exact .inr ⟨r, hr, hshown.tells⟩

end TemplateDesk

namespace Reading

variable {d : TemplateDesk} {session : Session} {user : UserInfo} {reading : Reading}
  {stores stores' : Nat → Shelf} {templates : List Template} {id : String}

theorem heard_find (d : TemplateDesk) (session : Session) (id : String) :
    ((find id).dialogue d session).heard stores =
      (d.find id).heard stores >>= fun e => .ok [e.template] :=
  Dialogue.heard_bind_pure _ _ _

theorem heard_resolve (d : TemplateDesk) (session : Session) (table : String) (ref : TemplateRef) :
    ((resolve table ref).dialogue d session).heard stores =
      (d.resolve table ref).heard stores >>= fun t => .ok [t] :=
  Dialogue.heard_bind_pure _ _ _

theorem heard_listForTable (d : TemplateDesk) (session : Session) (table : String) :
    ((listForTable table).dialogue d session).heard stores =
      (d.listForTable session table).heard stores >>= fun l => .ok (l.map SavedTemplate.template) :=
  Dialogue.heard_bind_pure _ _ _

theorem not_offers_of_savedId? {template : Template} (hid : reading.savedId? = some id) :
    ¬reading.Offers d template := by
  cases reading with
  | find id' => exact not_false
  | resolve table ref =>
    cases ref with
    | inline body => cases hid
    | saved id' =>
      obtain ⟨hstored, -⟩ := Option.ite_none_left_eq_some.mp hid
      rintro ⟨t, -, ⟨hempty, -⟩ | ⟨hdefault, -⟩⟩
      · exact hstored (.inl hempty)
      · exact hstored (.inr hdefault)
  | listForTable table => cases hid

theorem requests_of_savedId? (hid : reading.savedId? = some id) : reading.requests = 1 := by
  cases reading with
  | find | resolve => rfl
  | listForTable => cases hid

/-- A reading of a saved template finds it by its id and shows it. -/
theorem tells_of_savedId? (hid : reading.savedId? = some id)
    (hread : (reading.dialogue d session).heard stores = .ok templates) :
    ∃ r template, (stores 0).find? id = some r ∧ templates = [template] ∧ d.Tells r template := by
  cases reading with
  | find id' =>
    obtain rfl := Option.some.inj hid
    simp only [heard_find, Except.bind_eq_ok_iff, TemplateDesk.heard_find_eq_ok_iff] at hread
    obtain ⟨e, ⟨r, hr, he⟩, hread⟩ := hread
    exact ⟨r, e.template, hr, (Except.ok.inj hread).symm, TemplateDesk.tells_of_saved he _⟩
  | resolve table ref =>
    cases ref with
    | inline body => cases hid
    | saved id' =>
      rw [savedId?, Option.ite_none_left_eq_some] at hid
      obtain ⟨hstored, hid⟩ := hid
      obtain rfl := Option.some.inj hid
      simp only [heard_resolve, Except.bind_eq_ok_iff,
        TemplateDesk.heard_resolve_eq_ok_iff hstored, TemplateDesk.heard_find_eq_ok_iff] at hread
      obtain ⟨template, ⟨t, e, -, ⟨r, hr, he⟩, rfl⟩, hread⟩ := hread
      exact ⟨r, _, hr, (Except.ok.inj hread).symm, TemplateDesk.tells_of_saved he _⟩
  | listForTable table => cases hid

/-- Other readings offer templates of the table, or tell of records that the user may see. -/
theorem tells_of_savedId?_eq_none (hid : reading.savedId? = none)
    (huser : d.users.current session = .ok user)
    (hread : (reading.dialogue d session).heard stores = .ok templates) {template : Template}
    (hmem : template ∈ templates) : reading.Offers d template ∨
      ∃ n < reading.requests, ∃ r ∈ (stores n).records,
        r.VisibleTo user.id ∧ d.Tells r template := by
  cases reading with
  | find id => cases hid
  | resolve table ref =>
    rw [heard_resolve, Except.bind_eq_ok_iff] at hread
    obtain ⟨resolved, hresolved, hread⟩ := hread
    obtain rfl := Except.ok.inj hread
    obtain rfl := List.mem_singleton.mp hmem
    left
    cases ref with
    | inline body =>
      rw [TemplateDesk.heard_resolve_inline, Except.bind_eq_ok_iff] at hresolved
      obtain ⟨t, -, htemplate⟩ := hresolved
      exact (Except.ok.inj htemplate).symm
    | saved id =>
      rw [TemplateDesk.heard_resolve, Except.bind_eq_ok_iff] at hresolved
      obtain ⟨t, ht, htemplate⟩ := hresolved
      refine ⟨t, ht, ?_⟩
      split at htemplate
      · next hempty => exact .inl ⟨hempty, (Except.ok.inj htemplate).symm⟩
      · next hempty =>
        have hdefault : id = Template.defaultId := by
          by_contra hne
          simp [savedId?, hempty, hne] at hid
        rw [if_pos hdefault] at htemplate
        exact .inr ⟨hdefault, (Except.ok.inj htemplate).symm⟩
  | listForTable table =>
    simp only [heard_listForTable, TemplateDesk.heard_listForTable, Except.bind_eq_ok_iff] at hread
    obtain ⟨list, ⟨t, ht, user', huser', own, hown, others, hothers, hlist⟩, hread⟩ := hread
    obtain rfl := Except.ok.inj hread
    obtain rfl := Except.ok.inj hlist
    obtain rfl := Except.ok.inj (huser.symm.trans huser')
    obtain ⟨e, he, rfl⟩ := List.mem_map.mp hmem
    rcases TemplateDesk.tells_of_mem_arranged (TemplateDesk.forall₂_shows hown hothers) he with
      hdefault | ⟨r, hr, htells⟩
    · exact .inl ⟨t, ht, hdefault⟩
    · right
      rcases List.mem_append.mp hr with hr | hr
      · obtain ⟨hr, -, howner⟩ := Shelf.mem_own.mp hr
        exact ⟨0, by simp [requests], r, hr, .inl howner, htells⟩
      · obtain ⟨⟨hr, -, hshared⟩ | ⟨hr, -, hpublic⟩, -⟩ := Shelf.mem_others.mp hr
        · exact ⟨1, by simp [requests], r, hr, .inr (.inl hshared), htells⟩
        · exact ⟨2, by simp [requests], r, hr, .inr (.inr hpublic), htells⟩

/-- In stores that look the same a stored template is found in both if it is visible in each. -/
theorem find?_congr {s s' : Shelf} {user : String} (hid : reading.savedId? = some id)
    (h : s.Tidy) (h' : s'.Tidy) (halike : s.AlikeFor user s') (hallowed : reading.Allowed user s)
    (hallowed' : reading.Allowed user s') : s.find? id = s'.find? id := by
  refine Shelf.find?_congr h h' fun r hr => ⟨fun hmem => ?_, fun hmem => ?_⟩
  · have hfind := (find?_key_eq_some_iff h.nodup).mpr ⟨hmem, hr⟩
    exact (halike r (hallowed id hid r hfind)).mp hmem
  · have hfind := (find?_key_eq_some_iff h'.nodup).mpr ⟨hmem, hr⟩
    exact (halike r (hallowed' id hid r hfind)).mpr hmem

/-- Allowed readings depend on what the user may see. -/
theorem heard_congr (huser : d.users.current session = .ok user) (htidy : ∀ n, (stores n).Tidy)
    (htidy' : ∀ n, (stores' n).Tidy) (halike : ∀ n, (stores n).AlikeFor user.id (stores' n))
    (hallowed : reading.Allowed user.id (stores 0))
    (hallowed' : reading.Allowed user.id (stores' 0)) :
    (reading.dialogue d session).heard stores = (reading.dialogue d session).heard stores' := by
  have hfind {id : String} (hid : reading.savedId? = some id) :
      (d.find id).heard stores = (d.find id).heard stores' := by
    rw [TemplateDesk.heard_find, TemplateDesk.heard_find,
      find?_congr hid (htidy 0) (htidy' 0) (halike 0) hallowed hallowed']
  cases reading with
  | find id => rw [heard_find, heard_find, hfind rfl]
  | resolve table ref =>
    rw [heard_resolve, heard_resolve]
    congr 1
    cases ref with
    | inline body => rw [TemplateDesk.heard_resolve_inline, TemplateDesk.heard_resolve_inline]
    | saved id =>
      rw [TemplateDesk.heard_resolve, TemplateDesk.heard_resolve]
      refine bind_congr fun t => ?_
      split
      · rfl
      · split
        · rfl
        · next hempty hdefault => rw [hfind (by simp [savedId?, hempty, hdefault])]
  | listForTable table =>
    have hown : (stores 0).own table user.id = (stores' 0).own table user.id :=
      Shelf.own_congr (htidy 0) (htidy' 0) (halike 0)
    have hothers : (stores 1).others (stores 2) table user.id =
        (stores' 1).others (stores' 2) table user.id :=
      Shelf.others_congr (htidy 1) (htidy' 1) (htidy 2) (htidy' 2) (halike 1) (halike 2)
    simp only [heard_listForTable, TemplateDesk.heard_listForTable, huser, Except.ok_bind, hown,
      hothers]

end Reading

/-! ## Readings in the course of runs -/

/-- Moments of a run that begins with a store, each reached from the one before. -/
structure TemplateDesk.Passes (d : TemplateDesk) (shelf : Shelf) (moments : Nat → Traffic) :
    Prop where
  first : Relation.ReflTransGen d.Goes (.opening shelf) (moments 0)
  next : ∀ n, Relation.ReflTransGen d.Goes (moments n) (moments (n + 1))

theorem TemplateDesk.Passes.tidy {d : TemplateDesk} {shelf : Shelf} {moments : Nat → Traffic}
    (h : d.Passes shelf moments) (htidy : shelf.Tidy) (n : Nat) : (moments n).shelf.Tidy := by
  have hall (n : Nat) : (moments n).Orderly d := by
    induction n with
    | zero => exact (Traffic.orderly_opening htidy).run h.first
    | succ n ih => exact ih.run (h.next n)
  exact (hall n).tidy

/-- Whatever others do before and meanwhile: a reading shows the templates of the table and those
of records that its user may see, and no others, exactly if it asks for no stored template by its id
that the user may not see. In this case it would show the same in every other run in which the user
may see the same records. -/
theorem Reading.visible_iff_allowed {d : TemplateDesk} {session : Session} {user : UserInfo}
    {shelf : Shelf} {moments : Nat → Traffic} {templates : List Template} (reading : Reading)
    (htidy : shelf.Tidy) (hrun : d.Passes shelf moments)
    (huser : d.users.current session = .ok user)
    (hread : (reading.dialogue d session).heard (fun n => (moments n).shelf) = .ok templates) :
    ((∀ template ∈ templates, reading.Offers d template ∨
        ∃ n < reading.requests, ∃ r ∈ (moments n).shelf.records,
          r.VisibleTo user.id ∧ d.Tells r template) ↔
      reading.Allowed user.id (moments 0).shelf) ∧
    ∀ shelf' moments', shelf'.Tidy → d.Passes shelf' moments' →
      (∀ n, (moments n).shelf.AlikeFor user.id (moments' n).shelf) →
      reading.Allowed user.id (moments 0).shelf → reading.Allowed user.id (moments' 0).shelf →
      (reading.dialogue d session).heard (fun n => (moments' n).shelf) = .ok templates := by
  have htidies := hrun.tidy htidy
  refine ⟨⟨fun hvisible id hid r hr => ?_, fun hallowed template hmem => ?_⟩,
    fun shelf' moments' htidy' hrun' halike hallowed hallowed' => ?_⟩
  · obtain ⟨told, template, htold, rfl, htells⟩ := tells_of_savedId? hid hread
    obtain rfl := Option.some.inj (htold.symm.trans hr)
    rcases hvisible template List.mem_cons_self with hoffers | ⟨n, hn, r', hr', hsees, htells'⟩
    · exact absurd hoffers (not_offers_of_savedId? hid)
    · rw [requests_of_savedId? hid, Nat.lt_one_iff] at hn
      subst hn
      have hmem := List.mem_of_find?_eq_some hr
      rwa [(htidies 0).eq_of_id_eq hmem hr' (htells'.id_eq.symm.trans htells.id_eq)] at hsees
  · cases hid : reading.savedId? with
    | none => exact tells_of_savedId?_eq_none hid huser hread hmem
    | some id =>
      obtain ⟨r, template, hr, rfl, htells⟩ := tells_of_savedId? hid hread
      obtain rfl := List.mem_singleton.mp hmem
      have hmem := List.mem_of_find?_eq_some hr
      exact .inr ⟨0, by simp [requests_of_savedId? hid], r, hmem, hallowed id hid r hr, htells⟩
  · rw [← hread]
    exact (heard_congr huser htidies (hrun'.tidy htidy') halike hallowed hallowed').symm

/-! ## Private notes -/

namespace Diary

open Sample (ann bob clock users)

def notes : Table :=
  ⟨"Note", "Note", "", [{ (default : Column) with id := "Title", name := "Title" }], "Title", [],
    none, none⟩

def desk : TemplateDesk where
  registry := ⟨[notes]⟩
  users := users

def titles (name : String) : Template :=
  { Template.temporary "Note" ⟨[], [.plain "Title"]⟩ .all with name }

/-- The first user keeps a template private. -/
def debts : TemplateRecord :=
  TemplateDesk.recordOf (.unnamed "ann") clock "t1" (titles "Debts") .owner []

def plans : TemplateRecord :=
  TemplateDesk.recordOf (.unnamed "ann") clock "t2" (titles "Plans") .shared ["bob"]

theorem run_debts : Relation.ReflTransGen desk.Goes (.opening .empty) ⟨⟨[debts]⟩, [], ["t1"]⟩ :=
  TemplateDesk.goes_of_goesWith <| @TemplateDesk.goesWith_create desk ann (fun _ => True) .empty []
    clock "t1" (titles "Debts") .owner [] notes _ trivial (by decide) rfl rfl rfl rfl

theorem run_plans :
    Relation.ReflTransGen desk.Goes (.opening .empty) ⟨⟨[debts, plans]⟩, [], ["t2", "t1"]⟩ :=
  run_debts.trans <| TemplateDesk.goes_of_goesWith <| @TemplateDesk.goesWith_create desk ann
    (fun _ => True) ⟨[debts]⟩ _ clock "t2" (titles "Plans") .shared ["bob"] notes _ trivial
    (by decide) rfl rfl rfl rfl

/-- Such templates are read as they were saved. -/
theorem templateOf_titles {user : UserInfo} {id name : String} {access : Access}
    {shareList : List String} :
    desk.templateOf (TemplateDesk.recordOf user clock id (titles name) access shareList) =
      .ok { titles name with id } := by
  have hbody : Template.Body.decode? (titles name).body.encode = some (titles name).body :=
    (Template.Body.decode?_encode _).trans rfl
  have htable : desk.registry.find "Note" = .ok notes := rfl
  exact (TemplateDesk.templateOf_eq_ok_iff htable).mpr ⟨_, hbody, rfl⟩

/-- The first user makes both calls before the second one reads. -/
def moments : Nat → Traffic := fun _ => ⟨⟨[debts, plans]⟩, [], ["t2", "t1"]⟩

theorem passes_moments : desk.Passes .empty moments := ⟨run_plans, fun _ => .refl⟩

/-- The list of the second user has the shared template, and the private one is left out. -/
theorem bob_sees_plans : desk.Passes .empty moments ∧ desk.users.current bob =
      .ok (.unnamed "bob") ∧
    ∃ templates, ((Reading.listForTable "Note").dialogue desk bob).heard
        (fun n => (moments n).shelf) = .ok templates ∧
      templates.map Template.name = ["Default template", "Plans [shared by ann]"] ∧
      ∀ template ∈ templates, (Reading.listForTable "Note").Offers desk template ∨
        ∃ n < (Reading.listForTable "Note").requests, ∃ r ∈ (moments n).shelf.records,
          r.VisibleTo "bob" ∧ desk.Tells r template := by
  have hnames : (((Reading.listForTable "Note").dialogue desk bob).heard
      fun n => (moments n).shelf).map (List.map Template.name) =
        .ok ["Default template", "Plans [shared by ann]"] := by
    cbv
  obtain ⟨templates, hread, hnames⟩ := Except.map_eq_ok_iff.mp hnames
  have htidy : Shelf.Tidy .empty := ⟨by decide, by decide⟩
  obtain ⟨hvisible, -⟩ := Reading.visible_iff_allowed (.listForTable "Note") htidy passes_moments
    (by rfl : desk.users.current bob = .ok (.unnamed "bob")) hread
  exact ⟨passes_moments, rfl, templates, hread, hnames, hvisible.mpr fun id hid => by cases hid⟩

/-- The private template is shown to the second user when asked for by its id, be it found or
resolved. -/
theorem bob_finds_debts :
    Relation.ReflTransGen desk.Goes (.opening .empty) ⟨⟨[debts]⟩, [], ["t1"]⟩ ∧
      debts.name = "Debts" ∧ debts.createUser = "ann" ∧ debts.access = .owner ∧
      desk.users.current bob = .ok (.unnamed "bob") ∧
      ∀ reading ∈ [Reading.find "t1", .resolve "Note" (.saved "t1")],
        (reading.dialogue desk bob).heard (fun _ => ⟨[debts]⟩) =
          .ok [{ titles "Debts" with id := "t1" }] := by
  have hfind : ((desk.find "t1").heard fun _ => ⟨[debts]⟩) =
      .ok ⟨{ titles "Debts" with id := "t1" }, some (desk.fileInfo debts)⟩ := by
    rw [TemplateDesk.heard_find_eq_ok_iff]
    exact ⟨debts, rfl, TemplateDesk.saved_eq_ok_iff.mpr ⟨_, templateOf_titles, rfl⟩⟩
  refine ⟨run_debts, rfl, rfl, rfl, rfl, ?_⟩
  simp only [List.forall_mem_cons, List.not_mem_nil, false_implies, implies_true, and_true]
  constructor
  · rw [Reading.heard_find, hfind]
    rfl
  · rw [Reading.heard_resolve, TemplateDesk.heard_resolve, hfind]
    rfl

end Diary

end TableQuery
