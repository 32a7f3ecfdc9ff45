import TableQuery.Proofs.Saved.Returned

/-!
# The filter that was saved

Filter and output are saved as a text. A filter is given back as it was saved if its doubles are
read back from the numbers that they are written as; nothing else of it can change.

## Main results

* `TemplateDesk.exists_saved_of_body` — a record with the text of a filter gives this filter.
* `TemplateDesk.run_create_eq` — saving a template on a store in memory.
* `TemplateDesk.filter_kept` — what is saved is found with the same filter.
-/

namespace TableQuery

namespace TemplateDesk

variable {σ : Type} {answer : σ → (r : StoreRequest) → Except QueryError r.Answer × σ}
  {d : TemplateDesk} {session : Session} {now : Moment} {id : String} {template : Template}
  {access : Access} {shareList : List String} {s s' : σ} {saved : SavedTemplate}

/-! ## Records -/

/-- Of what a record says, its table may add columns to the output. -/
theorem filter_of_templateOf {r : TemplateRecord} {b : Template.Body}
    (hb : Template.Body.decode? r.body = some b) :
    ∃ t, d.templateOf r = .ok t ∧ t.body.filter = b.filter := by
  unfold templateOf
  rw [hb]
  cases d.registry.table? r.table with
  | none => exact ⟨_, rfl, rfl⟩
  | some t => exact ⟨_, rfl, rfl⟩

/-- A record with the text of a filter whose doubles are read back gives this filter. -/
theorem exists_saved_of_body {r : TemplateRecord} {b : Template.Body} (hr : r.body = b.encode)
    (hb : b.RoundTrips) :
    ∃ saved, d.saved r = .ok saved ∧ saved.template.body.filter = b.filter := by
  have hdecode : Template.Body.decode? r.body = some b :=
    hr ▸ Template.Body.decode?_encode_eq_iff.mpr hb
  obtain ⟨t, ht, hfilter⟩ := filter_of_templateOf (d := d) hdecode
  exact ⟨⟨t, some (d.fileInfo r)⟩, saved_eq_ok_iff.mpr ⟨t, ht, rfl⟩, hfilter⟩

/-! ## What is found behind it -/

/-- What a store answers is what is found. -/
theorem run_find_eq {r : TemplateRecord} (h : answer s (.find id) = (.ok r, s)) :
    (d.find id).run answer s = (d.saved r, s) := by
  show (Dialogue.done (answer s (.find id)).1 >>= fun r => Dialogue.done (d.saved r)).run answer
    (answer s (.find id)).2 = _
  rw [h]
  rfl

/-- Who saves a template has found it in the store. -/
theorem run_find_of_create (hstore : Remembers answer)
    (h : (d.create session now id template access shareList).run answer s = (.ok saved, s')) :
    (d.find id).run answer s' = (.ok saved, s') ∧
      ∃ r : TemplateRecord, r.body = template.body.encode ∧ d.saved r = .ok saved := by
  obtain ⟨t, user, r, after, -, -, hcreated, hr, hsaved⟩ := run_create h
  obtain rfl := hstore.find_same hr
  have hrecord := hstore.find_create hcreated hr
  refine ⟨?_, r, congrArg TemplateRecord.body hrecord, hsaved⟩
  rw [run_find_eq hr, hsaved]

/-- A template that its table accepts is put on a store that lacks its id, and found there. -/
theorem run_create_eq {shelf : Shelf} {t : Table} {user : UserInfo} (hnew : shelf.find? id = none)
    (ht : d.registry.find template.table = .ok t) (hvalid : t.validate template = .ok ())
    (huser : d.users.current session = .ok user) :
    (d.create session now id template access shareList).run Shelf.answer shelf =
      (d.saved (recordOf user now id template access shareList),
        ⟨shelf.records ++ [recordOf user now id template access shareList]⟩) := by
  rw [create_eq ht hvalid huser]
  show (Dialogue.done (shelf.create _).1 >>= fun _ => d.find id).run Shelf.answer
    (shelf.create _).2 = _
  rw [Shelf.create, if_neg (by simp [recordOf, hnew])]
  exact run_find_eq (Shelf.answer_find_eq_iff.mpr ⟨Shelf.find?_create hnew, rfl⟩)

/-- The text that filter and output are saved as is read as the same filter and output exactly if
the doubles of the filter are read back from the numbers that they are written as. Let them be. Then
every record with this text is readable and has this filter. Whoever saves a template is given back
its filter, and finds the same again; and on a store in memory that lacks the id, everyone who is
known can save a template that its table accepts. -/
theorem filter_kept (hstore : Remembers answer) (d : TemplateDesk) :
    (∀ b : Template.Body, Template.Body.decode? b.encode = some b ↔ b.RoundTrips) ∧
    (∀ (b : Template.Body) (r : TemplateRecord), b.RoundTrips → r.body = b.encode →
      ∃ saved, d.saved r = .ok saved ∧ saved.template.body.filter = b.filter) ∧
    (∀ session now id template access shareList s saved s', template.body.RoundTrips →
      (d.create session now id template access shareList).run answer s = (.ok saved, s') →
        (d.find id).run answer s' = (.ok saved, s') ∧
          saved.template.body.filter = template.body.filter) ∧
    ∀ session now id template access shareList t user (shelf : Shelf), template.body.RoundTrips →
      d.registry.find template.table = .ok t → t.validate template = .ok () →
      d.users.current session = .ok user → shelf.find? id = none → ∃ saved shelf',
        (d.create session now id template access shareList).run Shelf.answer shelf =
          (.ok saved, shelf') ∧
        (d.find id).run Shelf.answer shelf' = (.ok saved, shelf') ∧
        saved.template.body.filter = template.body.filter := by
  refine ⟨fun b => Template.Body.decode?_encode_eq_iff,
    fun b r hb hr => exists_saved_of_body hr hb, ?_, ?_⟩
  · intro session now id template access shareList s saved s' hb h
    obtain ⟨hfound, r, hr, hsaved⟩ := run_find_of_create hstore h
    obtain ⟨saved', hsaved', hfilter⟩ := exists_saved_of_body (d := d) hr hb
    obtain rfl := Except.ok.inj (hsaved.symm.trans hsaved')
    exact ⟨hfound, hfilter⟩
  · intro session now id template access shareList t user shelf hb ht hvalid huser hnew
    obtain ⟨saved, hsaved, hfilter⟩ := exists_saved_of_body (d := d)
      (r := recordOf user now id template access shareList) rfl hb
    have hrun := @run_create_eq d session now id template access shareList shelf t user hnew ht
      hvalid huser
    rw [hsaved] at hrun
    exact ⟨saved, _, hrun, (run_find_of_create Shelf.remembers hrun).1, hfilter⟩

end TemplateDesk

/-! ## Goods below a price -/

namespace Bargain

open Sample (ann clock)

/-- A value of each variant. -/
def mixed : Template.Body :=
  ⟨[⟨"Größe", "shop.∈", [.null, .string "\"\\\n\t\x00☃𝄞", .bool true, .int (-9223372036854775808),
      .double 0.5, .double (-1e21), .date "2024-05-16", .time "", .choice ⟨-2147483648, "none"⟩]⟩,
    ⟨"", "", []⟩], [⟨"Größe", false, .sum⟩, ⟨"Größe", true, .average⟩]⟩

theorem half_roundTrips : Json.RoundTrips 0.5 :=
  Json.float?_rereadFloat_eq_iff.mp (by decide +kernel)

theorem mixed_roundTrips : mixed.RoundTrips := by
  have hlarge : Json.RoundTrips (-1e21) := Json.float?_rereadFloat_eq_iff.mp (by decide +kernel)
  simp [mixed, Template.Body.RoundTrips, Value.RoundTrips, half_roundTrips, hlarge]

/-- The goods below half a unit are found again, and so is what has values of all variants. -/
theorem half_found : ∃ saved shelf,
    (desk.create ann clock "t1" (below 0.5) .owner []).run Shelf.answer .empty =
      (.ok saved, shelf) ∧
    (desk.find "t1").run Shelf.answer shelf = (.ok saved, shelf) ∧
    saved.template.body.filter = [⟨"Price", Builtin.lt, [.double 0.5]⟩] ∧
    Template.Body.decode? mixed.encode = some mixed := by
  obtain ⟨hread, -, hcreates, hcreate⟩ := TemplateDesk.filter_kept Shelf.remembers desk
  have hhalf : (below 0.5).body.RoundTrips := by
    simp [below, Template.temporary, Template.Body.RoundTrips, Value.RoundTrips, half_roundTrips]
  obtain ⟨saved, shelf, hsaved, -, -⟩ :=
    hcreate ann clock "t1" (below 0.5) .owner [] goods (.unnamed "ann") .empty hhalf rfl
      (by decide +kernel) rfl rfl
  obtain ⟨hfound, hfilter⟩ := hcreates _ _ _ _ _ _ _ _ _ hhalf hsaved
  exact ⟨saved, shelf, hsaved, hfound, hfilter, (hread mixed).mpr mixed_roundTrips⟩

end Bargain

end TableQuery
