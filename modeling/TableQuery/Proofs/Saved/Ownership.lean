import Mathlib.Logic.Relation
import TableQuery.Proofs.Lists
import TableQuery.Proofs.Sample
import TableQuery.Proofs.Saved.Readings

/-!
# Ownership of saved templates

Calls of users take turns at the store, one request at a time. A call first looks at a template and
then writes it, and others may be answered in between. This is sound as long as ids are given once:
who created the template of an id does not change, and nobody creates another one under it.

## Main definitions

* `Traffic` — a store with the calls that are under way.
* `TemplateDesk.Step` — one call begins, is answered by the store, or ends.
* `Shelf.Moves` — what a call may do to a store.
* `Traffic.Orderly` — the invariant of all runs.

## Main results

* `Shelf.moves_answer` — requests of calls do no more.
* `Traffic.Orderly.step` — steps keep the invariant.
* `TemplateDesk.ownership` — only its creator changes or deletes a template.
-/

namespace TableQuery

/-! ## Calls that take turns -/

/-- A store, the calls that are under way with the sessions they are made in, and the ids that were
given to templates. -/
structure Traffic where
  shelf : Shelf
  pending : List (Session × Dialogue Unit)
  issued : List String

namespace TemplateDesk

/-- One step of the call of a session: it begins, with an id that was not given before; the store
answers its next request; or it ends, be it done or given up. -/
inductive Step (d : TemplateDesk) (session : Session) : Traffic → Traffic → Prop where
  | start {s : Traffic} (call : DeskCall) (hnew : ∀ id, call.newId? = some id → id ∉ s.issued) :
      Step d session s
        { s with
          pending := (session, call.dialogue d session) :: s.pending
          issued := call.newId?.toList ++ s.issued }
  | answer {shelf : Shelf} {before after : List (Session × Dialogue Unit)} {issued : List String}
      (request : StoreRequest) (next : Except QueryError request.Answer → Dialogue Unit) :
      Step d session ⟨shelf, before ++ (session, .ask request next) :: after, issued⟩
        ⟨(shelf.answer request).2,
          before ++ (session, next (shelf.answer request).1) :: after, issued⟩
  | stop {shelf : Shelf} {before after : List (Session × Dialogue Unit)} {issued : List String}
      (rest : Dialogue Unit) :
      Step d session ⟨shelf, before ++ (session, rest) :: after, issued⟩
        ⟨shelf, before ++ after, issued⟩

def Goes (d : TemplateDesk) (s s' : Traffic) : Prop :=
  ∃ session, d.Step session s s'

end TemplateDesk

/-! ## What requests do to a store -/

/-- A record is another one at a later time: whose it is and since when is the same, and it was not
made public in between. -/
structure TemplateRecord.Later (r r' : TemplateRecord) : Prop where
  id_eq : r'.id = r.id
  table_eq : r'.table = r.table
  createUser_eq : r'.createUser = r.createUser
  createTime_eq : r'.createTime = r.createTime
  public_of_public : r'.access = .everyone → r.access = .everyone

namespace TemplateRecord.Later

variable {r r' r'' : TemplateRecord}

theorem refl (r : TemplateRecord) : r.Later r := ⟨rfl, rfl, rfl, rfl, fun h => h⟩

theorem trans (h : r.Later r') (h' : r'.Later r'') : r.Later r'' where
  id_eq := h'.id_eq.trans h.id_eq
  table_eq := h'.table_eq.trans h.table_eq
  createUser_eq := h'.createUser_eq.trans h.createUser_eq
  createTime_eq := h'.createTime_eq.trans h.createTime_eq
  public_of_public hp := h.public_of_public (h'.public_of_public hp)

theorem apply {u : TemplateUpdate} (h : u.access ≠ .everyone) (r : TemplateRecord) :
    r.Later (u.apply r) :=
  ⟨rfl, rfl, rfl, rfl, fun hp => absurd hp h⟩

end TemplateRecord.Later

namespace Shelf

/-- Different records have different ids, and only shared ones have a list of users. -/
structure Tidy (s : Shelf) : Prop where
  nodup : (s.records.map TemplateRecord.id).Nodup
  shares : ∀ r ∈ s.records, r.shareList ≠ [] → r.access = .shared

/-- What a request does to the records of a store, if it does anything. -/
inductive Writes (s : Shelf) : StoreRequest → Shelf → Prop where
  | nothing {request : StoreRequest} : Writes s request s
  | create {r : TemplateRecord} (hnew : ∀ other ∈ s.records, other.id ≠ r.id) :
      Writes s (.create r) ⟨s.records ++ [r]⟩
  | update {id : String} {u : TemplateUpdate} :
      Writes s (.update id u) ⟨s.records.map fun r => if r.id = id then u.apply r else r⟩
  | delete {id : String} : Writes s (.delete id) ⟨s.records.filter fun r => !(r.id == id)⟩
  | deleteByCreator {user : String} :
      Writes s (.deleteByCreator user) ⟨s.records.filter fun r => !(r.createUser == user)⟩

theorem writes_answer (s : Shelf) (request : StoreRequest) :
    s.Writes request (s.answer request).2 := by
  cases request with
  | create r =>
    dsimp only [answer, create]
    split
    · exact .nothing
    · next hnone =>
      refine .create fun other hother hid => hnone ?_
      exact List.find?_isSome.mpr ⟨other, hother, by simpa using hid⟩
  | find id =>
    dsimp only [answer]
    split <;> exact .nothing
  | update id u =>
    dsimp only [answer, update]
    split
    · exact .update
    · exact .nothing
  | delete id => exact .delete
  | deleteByCreator user => exact .deleteByCreator
  | listByCreator | listSharedWith | listPublic => exact .nothing

/-- What requests do that respect what belongs to others. -/
structure Moves (mine : String → Prop) (request : StoreRequest) (s s' : Shelf) : Prop where
  tidy : s'.Tidy
  /-- A record stays as it is, or it belongs to the user and is updated or gone. -/
  kept : ∀ r ∈ s.records, r ∈ s'.records ∨
    mine r.createUser ∧ ∀ r' ∈ s'.records, r'.id = r.id → ∃ u : TemplateUpdate, r' = u.apply r
  /-- A record was there before, or it is created for the user. -/
  later : ∀ r' ∈ s'.records, (∃ r ∈ s.records, r.Later r') ∨
    request = .create r' ∧ mine r'.createUser ∧ ∀ r ∈ s.records, r.id ≠ r'.id

section Moves

variable {mine known : String → Prop} {s s' : Shelf} {request : StoreRequest}

theorem Tidy.filter (h : s.Tidy) (p : TemplateRecord → Bool) : Tidy ⟨s.records.filter p⟩ where
  nodup := h.nodup.sublist (List.filter_sublist.map _)
  shares r hr := h.shares r (List.mem_filter.mp hr).1

theorem Tidy.eq_of_id_eq (h : s.Tidy) {r r' : TemplateRecord} (hr : r ∈ s.records)
    (hr' : r' ∈ s.records) (hid : r'.id = r.id) : r' = r :=
  List.inj_on_of_nodup_map h.nodup hr' hr hid

theorem Moves.refl (h : s.Tidy) : Moves mine request s s where
  tidy := h
  kept _ hr := .inl hr
  later r hr := .inl ⟨r, hr, .refl r⟩

/-- Records that satisfy `p` and belong to the user are deleted. -/
theorem Moves.filter (h : s.Tidy) {p : TemplateRecord → Bool}
    (hmine : ∀ r ∈ s.records, p r = true → mine r.createUser) :
    Moves mine request s ⟨s.records.filter fun r => !p r⟩ where
  tidy := h.filter _
  kept r hr := by
    cases hp : p r with
    | false => exact .inl (List.mem_filter.mpr ⟨hr, by simp [hp]⟩)
    | true =>
      refine .inr ⟨hmine r hr hp, fun r' hr' hid => ?_⟩
      obtain ⟨hmem, hkept⟩ := List.mem_filter.mp hr'
      rw [h.eq_of_id_eq hr hmem hid, hp] at hkept
      cases hkept
  later r hr := .inl ⟨r, (List.mem_filter.mp hr).1, .refl r⟩

theorem Moves.create (h : s.Tidy) {r : TemplateRecord} (hmine : mine r.createUser)
    (hshares : r.shareList ≠ [] → r.access = .shared)
    (hnew : ∀ other ∈ s.records, other.id ≠ r.id) :
    Moves mine (.create r) s ⟨s.records ++ [r]⟩ where
  tidy := by
    constructor
    · rw [List.map_append, List.map_singleton]
      refine h.nodup.append (List.nodup_singleton _) ?_
      rw [List.disjoint_singleton]
      rintro hmem
      obtain ⟨other, hother, hid⟩ := List.mem_map.mp hmem
      exact hnew other hother hid
    · intro r' hr'
      rcases List.mem_append.mp hr' with hr' | hr'
      · exact h.shares r' hr'
      · obtain rfl := List.mem_singleton.mp hr'
        exact hshares
  kept _ hr := .inl (List.mem_append_left _ hr)
  later r' hr' := by
    rcases List.mem_append.mp hr' with hr' | hr'
    · exact .inl ⟨r', hr', .refl r'⟩
    · obtain rfl := List.mem_singleton.mp hr'
      exact .inr ⟨rfl, hmine, hnew⟩

theorem Moves.update (h : s.Tidy) {id : String} {u : TemplateUpdate}
    (hmine : ∀ r ∈ s.records, r.id = id → mine r.createUser)
    (hshares : u.shareList ≠ [] → u.access = .shared) (hpublic : u.access ≠ .everyone) :
    Moves mine request s ⟨s.records.map fun r => if r.id = id then u.apply r else r⟩ where
  tidy := by
    constructor
    · have hids : (s.records.map fun r => if r.id = id then u.apply r else r).map
          TemplateRecord.id = s.records.map TemplateRecord.id := by
        rw [List.map_map]
        refine List.map_congr_left fun r _ => ?_
        dsimp only [Function.comp_apply]
        split <;> rfl
      rw [hids]
      exact h.nodup
    · intro r' hr'
      obtain ⟨r, hr, rfl⟩ := List.mem_map.mp hr'
      split
      · exact hshares
      · exact h.shares r hr
  kept r hr := by
    by_cases hid : r.id = id
    · refine .inr ⟨hmine r hr hid, fun r' hr' hsame => ?_⟩
      obtain ⟨other, hother, rfl⟩ := List.mem_map.mp hr'
      have hother_id : other.id = r.id := by
        rw [← hsame]
        split <;> rfl
      obtain rfl := h.eq_of_id_eq hr hother hother_id
      exact ⟨u, if_pos hid⟩
    · exact .inl (List.mem_map.mpr ⟨r, hr, if_neg hid⟩)
  later r' hr' := by
    obtain ⟨r, hr, rfl⟩ := List.mem_map.mp hr'
    refine .inl ⟨r, hr, ?_⟩
    split
    · exact .apply hpublic r
    · exact .refl r

/-- A dialogue that respects what belongs to others moves a store so, if what it knows is right. -/
theorem moves_answer {α : Type} {next : Except QueryError request.Answer → Dialogue α}
    (h : s.Tidy) (hresp : (Dialogue.ask request next).Respects mine known)
    (hknown : ∀ id, known id → ∀ r ∈ s.records, r.id = id → mine r.createUser) :
    Moves mine request s (s.answer request).2 := by
  have hwrites := s.writes_answer request
  generalize hs' : (s.answer request).2 = s' at hwrites
  cases hresp with
  | create hmine hshares =>
    cases hwrites with
    | nothing => exact .refl h
    | create hnew => exact .create h hmine hshares hnew
  | find =>
    cases hwrites with
    | nothing => exact .refl h
  | update hid hshares hpublic =>
    cases hwrites with
    | nothing => exact .refl h
    | update => exact .update h (hknown _ hid) hshares hpublic
  | delete hid =>
    cases hwrites with
    | nothing => exact .refl h
    | delete => exact .filter h fun r hr hp => hknown _ hid r hr (by simpa using hp)
  | deleteByCreator hmine =>
    cases hwrites with
    | nothing => exact .refl h
    | deleteByCreator =>
      refine .filter h fun r _ hp => ?_
      rw [beq_iff_eq.mp hp]
      exact hmine
  | read hread =>
    rw [hread] at hs'
    exact hs' ▸ .refl h

end Moves

end Shelf

/-! ## Runs -/

namespace Traffic

/-- The id of a template was given, and no call can create a template under it any more. -/
def Closed (s : Traffic) (id : String) : Prop :=
  id ∈ s.issued ∧ ∀ p ∈ s.pending, ¬p.2.Creates id

/-- A template, if it is still there, belongs to a user, and none is created under its id again. -/
def BelongsTo (s : Traffic) (mine : String → Prop) (id : String) : Prop :=
  s.Closed id ∧ ∀ r ∈ s.shelf.records, r.id = id → mine r.createUser

/-- The invariant of all runs: the store is tidy, ids are used once, and every call that is under
way respects what belongs to others, where it knows what belongs to its user. -/
structure Orderly (d : TemplateDesk) (s : Traffic) : Prop where
  tidy : s.shelf.Tidy
  closed : ∀ r ∈ s.shelf.records, s.Closed r.id
  issued : ∀ p ∈ s.pending, ∀ id, p.2.Creates id → id ∈ s.issued
  apart : s.pending.Pairwise fun p q => ∀ id, p.2.Creates id → ¬q.2.Creates id
  respects : ∀ p ∈ s.pending, p.2.Respects (d.ActsFor p.1) (s.BelongsTo (d.ActsFor p.1))

variable {d : TemplateDesk} {session : Session} {s s' : Traffic} {id : String}

theorem Closed.step (h : s.Closed id) (hstep : d.Step session s s') : s'.Closed id := by
  obtain ⟨hissued, hpending⟩ := h
  cases hstep with
  | start call hnew =>
    refine ⟨List.mem_append_right _ hissued, ?_⟩
    rw [List.forall_mem_cons]
    exact ⟨fun hc => hnew id (DeskCall.newId?_of_creates hc) hissued, hpending⟩
  | answer request next =>
    refine ⟨hissued, ?_⟩
    simp only [List.forall_mem_append, List.forall_mem_cons] at hpending ⊢
    exact ⟨hpending.1, fun hc => hpending.2.1 (.later hc), hpending.2.2⟩
  | stop rest =>
    refine ⟨hissued, ?_⟩
    simp only [List.forall_mem_append, List.forall_mem_cons] at hpending ⊢
    exact ⟨hpending.1, hpending.2.2⟩

/-- Steps of calls move the store only as far as the user of the call may. -/
theorem Orderly.moves (h : s.Orderly d) (hstep : d.Step session s s') :
    ∃ request, s.shelf.Moves (d.ActsFor session) request s'.shelf ∧
      ∀ r, request = .create r → ∃ p ∈ s.pending, p.2.Creates r.id := by
  cases hstep with
  | start call hnew => exact ⟨.find "", .refl h.tidy, by simp⟩
  | stop rest => exact ⟨.find "", .refl h.tidy, by simp⟩
  | @answer shelf before after issued request next =>
    have hmem : (session, Dialogue.ask request next) ∈
        before ++ (session, Dialogue.ask request next) :: after := by
      simp
    refine ⟨request, Shelf.moves_answer h.tidy (h.respects _ hmem) fun id hid => hid.2, ?_⟩
    rintro r rfl
    exact ⟨_, hmem, .now rfl⟩

/-- A record after a step was there before, or was created by the call, under an id that it was
given. -/
theorem Orderly.later (h : s.Orderly d) (hstep : d.Step session s s') {r' : TemplateRecord}
    (hr' : r' ∈ s'.shelf.records) : (∃ r ∈ s.shelf.records, r.Later r') ∨
      (∃ p ∈ s.pending, p.2.Creates r'.id) ∧ d.ActsFor session r'.createUser ∧
        ∀ r ∈ s.shelf.records, r.id ≠ r'.id := by
  obtain ⟨request, hmoves, hcreates⟩ := h.moves hstep
  exact (hmoves.later r' hr').imp_right fun ⟨hrequest, hmine, hnew⟩ =>
    ⟨hcreates r' hrequest, hmine, hnew⟩

/-- What belongs to a user belongs to this user for ever. -/
theorem BelongsTo.step {mine : String → Prop} (hb : s.BelongsTo mine id) (h : s.Orderly d)
    (hstep : d.Step session s s') : s'.BelongsTo mine id := by
  refine ⟨hb.1.step hstep, ?_⟩
  rintro r' hr' rfl
  rcases h.later hstep hr' with ⟨r, hr, hlater⟩ | ⟨⟨p, hp, hc⟩, -⟩
  · rw [hlater.createUser_eq]
    exact hb.2 r hr hlater.id_eq.symm
  · exact absurd hc (hb.1.2 p hp)

section Answer

variable {shelf : Shelf} {before after : List (Session × Dialogue Unit)} {issued : List String}
  {request : StoreRequest} {next : Except QueryError request.Answer → Dialogue Unit}

/-- A call that is answered goes on to respect what belongs to others: what it has found to belong
to its user does so. -/
theorem Orderly.respects_next
    (h : Orderly d ⟨shelf, before ++ (session, .ask request next) :: after, issued⟩) :
    (next (shelf.answer request).1).Respects (d.ActsFor session)
      (BelongsTo ⟨(shelf.answer request).2,
        before ++ (session, next (shelf.answer request).1) :: after, issued⟩
        (d.ActsFor session)) := by
  have hstep : d.Step session ⟨shelf, before ++ (session, .ask request next) :: after, issued⟩
      ⟨(shelf.answer request).2, before ++ (session, next (shelf.answer request).1) :: after,
        issued⟩ := .answer request next
  have hresp := h.respects (session, .ask request next) (by simp)
  have hknown (i : String) (hi : BelongsTo _ (d.ActsFor session) i) := hi.step h hstep
  cases hresp with
  | create _ _ _ hnext => exact (hnext _).mono hknown
  | update _ _ _ hnext => exact (hnext _).mono hknown
  | delete _ hnext => exact (hnext _).mono hknown
  | deleteByCreator _ hnext => exact (hnext _).mono hknown
  | read _ hnext => exact (hnext _).mono hknown
  | @find _ id _ hmissing hfound =>
    cases hfind : shelf.find? id with
    | none =>
      have hanswer : (shelf.answer (.find id)).1 = .error (.templateNotFound id) := by
        simp [Shelf.answer, hfind]
      rw [hanswer] at hknown ⊢
      exact (hmissing _).mono hknown
    | some r =>
      have hanswer : (shelf.answer (.find id)).1 = .ok r := by simp [Shelf.answer, hfind]
      obtain ⟨hr, hid⟩ := (find?_key_eq_some_iff h.tidy.nodup).mp hfind
      rw [hanswer] at hknown ⊢
      refine (hfound r).mono fun i hi => hknown i ?_
      rcases hi with hi | ⟨rfl, hmine⟩
      · exact hi
      · refine ⟨hid ▸ h.closed r hr, fun r' hr' hid' => ?_⟩
        rw [h.tidy.eq_of_id_eq hr hr' (hid'.trans hid.symm)]
        exact hmine

/-- A call that has created a template creates none under its id again, and neither do others. -/
theorem Orderly.closed_create {r : TemplateRecord} {next : Except QueryError Unit → Dialogue Unit}
    (h : Orderly d ⟨shelf, before ++ (session, .ask (.create r) next) :: after, issued⟩)
    (shelf' : Shelf) (answer : Except QueryError Unit) :
    Closed ⟨shelf', before ++ (session, next answer) :: after, issued⟩ r.id := by
  have hcreates : (Dialogue.ask (.create r) next).Creates r.id := .now rfl
  have hresp := h.respects (session, .ask (.create r) next) (by simp)
  obtain ⟨-, hafter, hbefore⟩ := List.pairwise_append.mp h.apart
  refine ⟨h.issued (session, .ask (.create r) next) (by simp) _ hcreates, ?_⟩
  simp only [List.forall_mem_append, List.forall_mem_cons]
  refine ⟨fun p hp hc => hbefore p hp _ List.mem_cons_self _ hc hcreates, ?_,
    fun p hp hc => (List.pairwise_cons.mp hafter).1 p hp _ hcreates hc⟩
  cases hresp with
  | create _ _ honce => exact honce _ _
  | read hread => cases congrArg Shelf.records (hread .empty)

end Answer

/-- Steps keep the invariant. -/
theorem Orderly.step (h : s.Orderly d) (hstep : d.Step session s s') : s'.Orderly d := by
  have hclosed (i : String) (hi : s.Closed i) : s'.Closed i := hi.step hstep
  have hbelongs {mine : String → Prop} (i : String) (hi : s.BelongsTo mine i) :
      s'.BelongsTo mine i := hi.step h hstep
  cases hstep with
  | start call hnew =>
    have hcreates {i : String} (hc : (call.dialogue d session).Creates i) : i ∉ s.issued :=
      hnew i (DeskCall.newId?_of_creates hc)
    exact {
      tidy := h.tidy
      closed := fun r hr => hclosed _ (h.closed r hr)
      issued := by
        rw [List.forall_mem_cons]
        refine ⟨fun i hc => ?_, fun p hp i hc => List.mem_append_right _ (h.issued p hp i hc)⟩
        exact List.mem_append_left _ (by simp [DeskCall.newId?_of_creates hc])
      apart := .cons (fun p hp i hc hc' => hcreates hc (h.issued p hp i hc')) h.apart
      respects := by
        rw [List.forall_mem_cons]
        exact ⟨call.respects_dialogue d session _, fun p hp => (h.respects p hp).mono hbelongs⟩ }
  | @answer shelf before after issued request next =>
    have hmem : (session, Dialogue.ask request next) ∈
        before ++ (session, Dialogue.ask request next) :: after := by
      simp
    have hmoves := Shelf.moves_answer h.tidy (h.respects _ hmem) fun i hi => hi.2
    exact {
      tidy := hmoves.tidy
      closed := fun r' hr' => by
        rcases hmoves.later r' hr' with ⟨r, hr, hlater⟩ | ⟨rfl, -⟩
        · rw [hlater.id_eq]
          exact hclosed _ (h.closed r hr)
        · exact h.closed_create _ _
      issued := by
        have hissued := h.issued
        simp only [List.forall_mem_append, List.forall_mem_cons] at hissued ⊢
        exact ⟨hissued.1, fun i hc => hissued.2.1 i (.later hc), hissued.2.2⟩
      apart := by
        have hapart := h.apart
        simp only [List.pairwise_append, List.pairwise_cons, List.forall_mem_cons] at hapart ⊢
        obtain ⟨hbefore, ⟨hown, hafter⟩, hother⟩ := hapart
        exact ⟨hbefore, ⟨fun p hp i hc => hown p hp i (.later hc), hafter⟩,
          fun p hp => ⟨fun i hc hc' => (hother p hp).1 i hc (.later hc'), (hother p hp).2⟩⟩
      respects := by
        have hrespects := h.respects
        simp only [List.forall_mem_append, List.forall_mem_cons] at hrespects ⊢
        exact ⟨fun p hp => (hrespects.1 p hp).mono hbelongs, h.respects_next,
          fun p hp => (hrespects.2.2 p hp).mono hbelongs⟩ }
  | @stop shelf before after issued rest =>
    have hsub : List.Sublist (before ++ after) (before ++ (session, rest) :: after) :=
      (List.sublist_cons_self _ _).append_left before
    exact {
      tidy := h.tidy
      closed := fun r hr => hclosed _ (h.closed r hr)
      issued := fun p hp => h.issued p (hsub.subset hp)
      apart := h.apart.sublist hsub
      respects := fun p hp => (h.respects p (hsub.subset hp)).mono hbelongs }

/-- So whole runs keep it. -/
theorem Orderly.run (h : s.Orderly d) (hrun : Relation.ReflTransGen d.Goes s s') :
    s'.Orderly d := by
  induction hrun with
  | refl => exact h
  | tail _ hgoes ih =>
    obtain ⟨session, hstep⟩ := hgoes
    exact ih.step hstep

theorem Closed.run (h : s.Closed id) (hrun : Relation.ReflTransGen d.Goes s s') :
    s'.Closed id := by
  induction hrun with
  | refl => exact h
  | tail _ hgoes ih =>
    obtain ⟨session, hstep⟩ := hgoes
    exact ih.step hstep

/-- Along a run, a record of an id comes from the record that the id had before. -/
theorem Orderly.later_of_run (h : s.Orderly d) (hrun : Relation.ReflTransGen d.Goes s s')
    {r r' : TemplateRecord} (hr : r ∈ s.shelf.records) (hr' : r' ∈ s'.shelf.records)
    (hid : r'.id = r.id) : r.Later r' := by
  induction hrun generalizing r' with
  | refl =>
    rw [h.tidy.eq_of_id_eq hr hr' hid]
    exact .refl r
  | tail hbefore hgoes ih =>
    obtain ⟨session, hstep⟩ := hgoes
    rcases (h.run hbefore).later hstep hr' with ⟨r'', hr'', hlater⟩ | ⟨⟨p, hp, hc⟩, -⟩
    · exact (ih hr'' (hlater.id_eq.symm.trans hid)).trans hlater
    · -- Nobody creates a record under the id again.
      have hclosed := (h.closed r hr).run hbefore
      exact absurd (hid ▸ hc) (hclosed.2 p hp)

/-- Nothing is under way, and the ids of the records were given. -/
theorem orderly_idle {shelf : Shelf} {issued : List String} (h : shelf.Tidy)
    (hissued : ∀ r ∈ shelf.records, r.id ∈ issued) : Orderly d ⟨shelf, [], issued⟩ where
  tidy := h
  closed r hr := ⟨hissued r hr, by simp⟩
  issued := by simp
  apart := .nil
  respects := by simp

/-- A store before anything is asked of it; the ids of its records were given. -/
def opening (shelf : Shelf) : Traffic :=
  ⟨shelf, [], shelf.records.map TemplateRecord.id⟩

theorem orderly_opening {shelf : Shelf} (h : shelf.Tidy) : (opening shelf).Orderly d :=
  orderly_idle h fun _ hr => List.mem_map_of_mem hr

end Traffic

/-! ## Runs of some calls -/

namespace TemplateDesk

/-- A step in which only calls begin that satisfy `p`. -/
structure GoesWith (d : TemplateDesk) (p : DeskCall → Prop) (s s' : Traffic) : Prop where
  goes : d.Goes s s'
  begins : s.pending.length < s'.pending.length → ∃ session call, p call ∧
    s'.pending = (session, call.dialogue d session) :: s.pending

variable {d : TemplateDesk} {session : Session} {p : DeskCall → Prop}

theorem Goes.goesWith {s s' : Traffic} (h : d.Goes s s') (hp : ∀ call, p call) :
    d.GoesWith p s s' := by
  refine ⟨h, fun hlength => ?_⟩
  obtain ⟨session, hstep⟩ := h
  cases hstep with
  | start call => exact ⟨session, call, hp call, rfl⟩
  | answer => simp at hlength
  | stop =>
    simp only [List.length_append, List.length_cons] at hlength
    omega

/-- The requests of a call may be answered without others in between. -/
theorem goesWith_answers (session : Session) (dialogue : Dialogue Unit) (shelf : Shelf)
    (issued : List String) :
    ∃ rest, Relation.ReflTransGen (d.GoesWith p) ⟨shelf, [(session, dialogue)], issued⟩
      ⟨(dialogue.run Shelf.answer shelf).2, [(session, rest)], issued⟩ := by
  induction dialogue generalizing shelf with
  | done result => exact ⟨.done result, .refl⟩
  | ask request next ih =>
    obtain ⟨rest, hrest⟩ := ih (shelf.answer request).1 (shelf.answer request).2
    have hanswer : d.Step session ⟨shelf, [(session, .ask request next)], issued⟩
        ⟨(shelf.answer request).2, [(session, next (shelf.answer request).1)], issued⟩ :=
      @Step.answer d session shelf [] [] issued request next
    exact ⟨rest, .head ⟨⟨session, hanswer⟩, by simp⟩ hrest⟩

/-- So a call on a store that nobody else uses meanwhile is a run. -/
theorem goesWith_call (call : DeskCall) {shelf : Shelf} {issued : List String} (hp : p call)
    (hnew : ∀ id, call.newId? = some id → id ∉ issued) :
    Relation.ReflTransGen (d.GoesWith p) ⟨shelf, [], issued⟩
      ⟨((call.dialogue d session).run Shelf.answer shelf).2, [],
        call.newId?.toList ++ issued⟩ := by
  obtain ⟨rest, hrest⟩ := @goesWith_answers d p session (call.dialogue d session) shelf
    (call.newId?.toList ++ issued)
  have hstop := @Step.stop d session ((call.dialogue d session).run Shelf.answer shelf).2 [] []
    (call.newId?.toList ++ issued) rest
  exact .head ⟨⟨session, .start call hnew⟩, fun _ => ⟨session, call, hp, rfl⟩⟩
    (hrest.tail ⟨⟨session, hstop⟩, by simp⟩)

def recordOf (user : UserInfo) (now : Moment) (id : String) (template : Template) (access : Access)
    (shareList : List String) : TemplateRecord :=
  ⟨id, template.name, template.table, access, user.id, now, now, template.body.encode,
    if access = .shared then shareList else []⟩

section Create

variable {shelf : Shelf} {issued : List String} {now : Moment} {id : String} {template : Template}
  {access : Access} {shareList : List String} {t : Table} {user : UserInfo}

/-- Whoever saves a template that its table accepts asks to put it into the store, and to find it
there. -/
theorem create_eq (ht : d.registry.find template.table = .ok t)
    (hvalid : t.validate template = .ok ()) (huser : d.users.current session = .ok user) :
    d.create session now id template access shareList =
      Dialogue.request (.create (recordOf user now id template access shareList)) >>=
        fun _ => d.find id :=
  (Dialogue.done_bind_eq ht).trans <| (Dialogue.done_bind_eq hvalid).trans <|
    Dialogue.done_bind_eq huser

theorem shelf_create (hnew : shelf.find? id = none)
    (ht : d.registry.find template.table = .ok t) (hvalid : t.validate template = .ok ())
    (huser : d.users.current session = .ok user) :
    (((DeskCall.create now id template access shareList).dialogue d session).run
        Shelf.answer shelf).2 =
      ⟨shelf.records ++ [recordOf user now id template access shareList]⟩ := by
  have hfind : (d.find id).discard.Reads := (d.reads_find id).discard
  rw [DeskCall.dialogue, create_eq ht hvalid huser]
  show ((Dialogue.done (shelf.create _).1 >>= fun _ => d.find id).discard.run Shelf.answer
    (shelf.create _).2).2 = _
  rw [Shelf.create, if_neg (by simp [recordOf, hnew])]
  exact congrArg Prod.snd (hfind.run_eq _)

theorem goesWith_create (hp : p (.create now id template access shareList)) (hissued : id ∉ issued)
    (hnew : shelf.find? id = none) (ht : d.registry.find template.table = .ok t)
    (hvalid : t.validate template = .ok ()) (huser : d.users.current session = .ok user) :
    Relation.ReflTransGen (d.GoesWith p) ⟨shelf, [], issued⟩
      ⟨⟨shelf.records ++ [recordOf user now id template access shareList]⟩, [], id :: issued⟩ := by
  rw [← shelf_create hnew ht hvalid huser]
  exact goesWith_call _ hp fun i hi => Option.some.inj hi ▸ hissued

end Create

theorem goes_of_goesWith {s s' : Traffic} (h : Relation.ReflTransGen (d.GoesWith p) s s') :
    Relation.ReflTransGen d.Goes s s' :=
  Relation.ReflTransGen.mono (fun _ _ hgoes => hgoes.goes) _ _ h

end TemplateDesk

/-- However the calls of users take turns: a record changes or goes only by the call of a session
that acts for the user who created it, and one appears only by a call for this user. Whose it is, on
which table and since when never changes; it is never made public after it was created; and only
shared records have a list of users. -/
theorem TemplateDesk.ownership {d : TemplateDesk} {shelf : Shelf} {s : Traffic} (h : shelf.Tidy)
    (hrun : Relation.ReflTransGen d.Goes (.opening shelf) s) :
    (∀ session s', d.Step session s s' →
      (∀ r ∈ s.shelf.records, r ∈ s'.shelf.records ∨ d.ActsFor session r.createUser ∧
        ∀ r' ∈ s'.shelf.records, r'.id = r.id → ∃ u : TemplateUpdate, r' = u.apply r) ∧
      ∀ r' ∈ s'.shelf.records, (∀ r ∈ s.shelf.records, r.id ≠ r'.id) →
        d.ActsFor session r'.createUser) ∧
    (∀ s', Relation.ReflTransGen d.Goes s s' → ∀ r ∈ s.shelf.records, ∀ r' ∈ s'.shelf.records,
      r'.id = r.id → r'.table = r.table ∧ r'.createUser = r.createUser ∧
        r'.createTime = r.createTime ∧ (r'.access = .everyone → r.access = .everyone)) ∧
    ∀ r ∈ s.shelf.records, r.shareList ≠ [] → r.access = .shared := by
  have horderly := (Traffic.orderly_opening h).run hrun
  refine ⟨fun session s' hstep => ⟨?_, fun r' hr' hnew => ?_⟩, fun s' hnext r hr r' hr' hid => ?_,
    horderly.tidy.shares⟩
  · obtain ⟨request, hmoves, -⟩ := horderly.moves hstep
    exact hmoves.kept
  · rcases horderly.later hstep hr' with ⟨r, hr, hlater⟩ | ⟨-, hacts, -⟩
    · exact absurd hlater.id_eq.symm (hnew r hr)
    · exact hacts
  · have hlater := horderly.later_of_run hnext hr hr' hid
    exact ⟨hlater.table_eq, hlater.createUser_eq, hlater.createTime_eq, hlater.public_of_public⟩

/-! ## Two users and a template -/

namespace Shared

open Sample (ann bob clock users)

def desk : TemplateDesk where
  registry := .empty
  users := users

def record : TemplateRecord :=
  ⟨"t1", "Mine", "Stock", .owner, "ann", clock, clock, "{}", []⟩

def shelf : Shelf := ⟨[record]⟩

def deletes : Dialogue Unit :=
  .ask (.delete "t1") fun (answer : Except QueryError UInt64) =>
    .done answer >>= fun _ => .done (.ok ())

/-- What a user who wants to delete the template does after a look at it. -/
def reply (session : Session) (answer : Except QueryError TemplateRecord) : Dialogue Unit :=
  match answer with
  | .error e => .done (.error e)
  | .ok r =>
    if r.createUser = session.user.getD "" then deletes
    else .done (.error (.operatePermissionDenied "t1"))

theorem dialogue_delete (session : Session) :
    (DeskCall.delete "t1").dialogue desk session = .ask (.find "t1") (reply session) :=
  TemplateDesk.owned_bind (.unnamed (session.user.getD "")) "t1" fun _ => deletes

/-- Both users want to delete the template and have looked at it, and the second one is refused. -/
def refused : Traffic :=
  ⟨shelf, [(bob, .done (.error (.operatePermissionDenied "t1"))), (ann, deletes)], ["t1"]⟩

theorem step_delete (session : Session) (pending : List (Session × Dialogue Unit)) :
    desk.Step session ⟨shelf, pending, ["t1"]⟩
      ⟨shelf, (session, .ask (.find "t1") (reply session)) :: pending, ["t1"]⟩ := by
  rw [← dialogue_delete]
  exact .start (.delete "t1") (by simp [DeskCall.newId?])

theorem run_refused : Relation.ReflTransGen desk.Goes (.opening shelf) refused := by
  have hann : desk.Step ann
      ⟨shelf, [(bob, .ask (.find "t1") (reply bob)), (ann, .ask (.find "t1") (reply ann))], ["t1"]⟩
      ⟨shelf, [(bob, .ask (.find "t1") (reply bob)), (ann, deletes)], ["t1"]⟩ :=
    @TemplateDesk.Step.answer desk ann shelf [(bob, .ask (.find "t1") (reply bob))] [] ["t1"]
      (.find "t1") (reply ann)
  have hbob : desk.Step bob
      ⟨shelf, [(bob, .ask (.find "t1") (reply bob)), (ann, deletes)], ["t1"]⟩ refused :=
    @TemplateDesk.Step.answer desk bob shelf [] [(ann, deletes)] ["t1"] (.find "t1") (reply bob)
  have hbegun : Relation.ReflTransGen desk.Goes (.opening shelf) _ :=
    .tail (.single ⟨ann, step_delete ann []⟩) ⟨bob, step_delete bob _⟩
  exact (hbegun.tail ⟨ann, hann⟩).tail ⟨bob, hbob⟩

/-- The next step can delete the template only for the first user, to whom it belongs, and does. -/
theorem ann_deletes : Relation.ReflTransGen desk.Goes (.opening shelf) refused ∧
    (∀ session s', desk.Step session refused s' → record ∈ s'.shelf.records ∨
      desk.ActsFor session "ann") ∧
    ∃ s', desk.Step ann refused s' ∧ s'.shelf.records = [] := by
  have htidy : shelf.Tidy := ⟨by simp [shelf], by simp [shelf, record]⟩
  have howner := (TemplateDesk.ownership htidy run_refused).1
  refine ⟨run_refused, fun session s' hstep => ?_, ?_⟩
  · exact ((howner session s' hstep).1 record List.mem_cons_self).imp_right And.left
  · exact ⟨_, @TemplateDesk.Step.answer desk ann shelf
      [(bob, .done (.error (.operatePermissionDenied "t1")))] [] ["t1"] (.delete "t1") _, rfl⟩

end Shared

end TableQuery
