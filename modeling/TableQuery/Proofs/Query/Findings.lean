import TableQuery.Proofs.Query.Answered
import TableQuery.Query.Outbound

/-!
# What lookups find

The local values of rows are looked up in another table. A lookup succeeds exactly if all of them
that are not null can be expressed as raw values of the column searched in, and what it finds for a
text is what a row of the other table says about it.

## Main definitions

* `Link.sought?` — the value of a row that is looked up.
* `Engine.Expressible` — the values of rows can be expressed in the column searched in.
* `Engine.Tells` — a row of another table says something about a text.

## Main results

* `Engine.exists_lookup_iff` — which lookups succeed.
* `Engine.tells_of_lookup` — what they find.
-/

namespace TableQuery

namespace Link

/-- The value of a row that is looked up, which is not null. -/
def sought? (l : Link) (row : TableRow) : Option Value :=
  (row.value? l.localColumn).filter fun v => !v.isNull

/-- The values that are looked up are of one type. -/
def Uniform (l : Link) (rows : List TableRow) : Prop :=
  ∃ type, ∀ row ∈ rows, ∀ v, l.sought? row = some v → v.type? = some type

end Link

namespace Engine

/-- The values that are looked up stand for raw values of the column searched in. -/
def Expressible (e : Engine) (l : Link) (rows : List TableRow) : Prop :=
  ∀ remote search, e.registry.table? l.table = some remote →
    remote.column? l.searchColumn = some search →
    ∀ row ∈ rows, ∀ v, l.sought? row = some v → ∃ raw, search.rawOf v = .ok raw

/-- A row of another table says something about a text: it shows the text in the column searched
in, or it comes first where the text alone is looked up. -/
inductive Tells (find : Template → Run TableRows) (l : Link) : String → Value → Prop where
  | shown {keys : List Value} {answer : TableRows} {row : TableRow} {s w : Value}
      (h : (find (l.template Builtin.isIn keys .all)).result = .ok answer)
      (hrow : row ∈ answer.rows) (hs : row.value? l.searchColumn = some s)
      (hw : row.value? l.valueColumn = some w) : Tells find l s.display w
  | first {key : Value} {answer : TableRows} {row : TableRow} {w : Value}
      (h : (find (l.template Builtin.eq [key] ⟨0, 1⟩)).result = .ok answer)
      (hrow : answer.rows.head? = some row) (hw : row.value? l.valueColumn = some w) :
      Tells find l key.display w

variable {e : Engine} {find : Template → Run TableRows} {l : Link} {search : Column}
  {rows : List TableRow} {found : Findings}

/-! ## Local values -/

theorem localKeys_cons {seen : List String} {row : TableRow} :
    localKeys l search seen (row :: rows) =
      match l.sought? row with
      | none => localKeys l search seen rows
      | some v =>
        if seen.contains v.display then localKeys l search seen rows
        else do return (← search.retyped v) :: (← localKeys l search (v.display :: seen) rows) := by
  rw [localKeys, Link.sought?]
  cases row.value? l.localColumn with
  | none => rfl
  | some v => cases hnull : v.isNull <;> simp [Option.filter, hnull]

theorem type?_of_mem_localKeys {seen : List String} {keys : List Value}
    (h : localKeys l search seen rows = .ok keys) : ∀ key ∈ keys, key.type? = some search.type := by
  induction rows generalizing seen keys with
  | nil =>
    cases h
    simp
  | cons row rows ih =>
    rw [localKeys_cons] at h
    split at h
    · exact ih h
    · split at h
      · exact ih h
      · obtain ⟨key, hkey, h⟩ := Except.bind_eq_ok_iff.mp h
        obtain ⟨rest, hrest, h⟩ := Except.bind_eq_ok_iff.mp h
        cases h
        rw [List.forall_mem_cons]
        exact ⟨Column.type?_of_retyped hkey, ih hrest⟩

/-- Each text is looked up once, which is enough because the values of a text stand for the same
raw value. -/
theorem exists_localKeys_iff_of_seen {seen : List String} (hu : l.Uniform rows) :
    (∃ keys, localKeys l search seen rows = .ok keys ∧
        ∀ key ∈ keys, ∃ raw, search.native key = .ok raw) ↔
      ∀ row ∈ rows, ∀ v, l.sought? row = some v → v.display ∉ seen →
        ∃ raw, search.rawOf v = .ok raw := by
  obtain ⟨type, hu⟩ := hu
  induction rows generalizing seen with
  | nil => simp [localKeys]
  | cons row rows ih =>
    rw [List.forall_mem_cons] at hu
    rw [localKeys_cons, List.forall_mem_cons]
    cases hv : l.sought? row with
    | none => simp [ih hu.2]
    | some v =>
      by_cases hseen : v.display ∈ seen
      · simp [hseen, ih hu.2]
      · simp only [List.contains_eq_mem, hseen, decide_false, Bool.false_eq_true, if_false,
          Except.bind_eq_ok_iff, Except.pure_eq_ok, Except.ok.injEq, Option.some.injEq,
          forall_eq', not_false_eq_true, forall_const, Column.rawOf_eq_ok_iff (v := v)]
        constructor
        · rintro ⟨_, ⟨key, hkey, keys, hkeys, rfl⟩, hnative⟩
          obtain ⟨⟨raw, hraw⟩, hnative⟩ := List.forall_mem_cons.mp hnative
          refine ⟨⟨raw, key, hkey, hraw⟩, fun row' hrow' w hw hnew => ?_⟩
          by_cases hsame : w.display = v.display
          · have htype : w.type? = v.type? :=
              (hu.2 row' hrow' w hw).trans (hu.1 v hv).symm
            rw [search.rawOf_eq_of_display htype hsame]
            exact ⟨raw, Column.rawOf_eq_ok_iff.mpr ⟨key, hkey, hraw⟩⟩
          · exact (ih hu.2).mp ⟨keys, hkeys, hnative⟩ row' hrow' w hw (by simp [hsame, hnew])
        · rintro ⟨⟨raw, key, hkey, hraw⟩, hrest⟩
          obtain ⟨keys, hkeys, hnative⟩ := (@ih (v.display :: seen) hu.2).mpr
            fun row' hrow' w hw hnew =>
              hrest row' hrow' w hw fun hmem => hnew (List.mem_cons_of_mem _ hmem)
          exact ⟨_, ⟨key, hkey, keys, hkeys, rfl⟩,
            List.forall_mem_cons.mpr ⟨⟨raw, hraw⟩, hnative⟩⟩

theorem exists_localKeys_iff (hu : l.Uniform rows) :
    (∃ keys, localKeys l search [] rows = .ok keys ∧
        ∀ key ∈ keys, ∃ raw, search.native key = .ok raw) ↔
      ∀ row ∈ rows, ∀ v, l.sought? row = some v → ∃ raw, search.rawOf v = .ok raw := by
  simp [exists_localKeys_iff_of_seen hu]

/-! ## Lookups that succeed -/

/-- All values are looked up at once if all of them stand for raw values. -/
theorem exists_lookupAll_iff (hu : l.Uniform rows)
    (hfind : ∀ keys, keys ≠ [] → (∀ key ∈ keys, key.type? = some search.type) →
      ((∃ answer, (find (l.template Builtin.isIn keys .all)).result = .ok answer) ↔
        ∀ key ∈ keys, ∃ raw, search.native key = .ok raw)) :
    (∃ found, (lookupAll find l search rows).result = .ok found) ↔
      ∀ row ∈ rows, ∀ v, l.sought? row = some v → ∃ raw, search.rawOf v = .ok raw := by
  rw [← exists_localKeys_iff hu]
  simp only [lookupAll, Run.liftM_eq_ofExcept, Run.result_bind_eq_ok_iff,
    Run.result_ofExcept_eq_ok_iff]
  rw [exists_comm]
  refine exists_congr fun keys => ?_
  rw [exists_and_left]
  refine and_congr_right fun hkeys => ?_
  cases keys with
  | nil => simp
  | cons key keys =>
    rw [← hfind _ (List.cons_ne_nil _ _) (type?_of_mem_localKeys hkeys)]
    simp

/-- Values are looked up one after the other if each of them stands for a raw value. -/
theorem exists_lookupEach_iff
    (hfind : ∀ key, key.type? = some search.type →
      ((∃ answer, (find (l.template Builtin.eq [key] ⟨0, 1⟩)).result = .ok answer) ↔
        ∃ raw, search.native key = .ok raw)) :
    (∃ found', (lookupEach find l search found rows).result = .ok found') ↔
      ∀ row ∈ rows, ∀ v, l.sought? row = some v → ∃ raw, search.rawOf v = .ok raw := by
  induction rows generalizing found with
  | nil => simp [lookupEach]
  | cons row rows ih =>
    rw [List.forall_mem_cons, lookupEach, ← Link.sought?]
    cases hv : l.sought? row with
    | none => simpa using ih
    | some v =>
      simp only [Run.liftM_eq_ofExcept, Run.result_bind_eq_ok_iff, Run.result_ofExcept_eq_ok_iff,
        Option.some.injEq, forall_eq', Column.rawOf_eq_ok_iff (v := v)]
      constructor
      · rintro ⟨found', key, hkey, answer, hanswer, h⟩
        obtain ⟨raw, hraw⟩ := (hfind key (Column.type?_of_retyped hkey)).mp ⟨answer, hanswer⟩
        refine ⟨⟨raw, key, hkey, hraw⟩, ?_⟩
        split at h
        · exact ih.mp ⟨found', h⟩
        · exact ih.mp ⟨found', h⟩
      · rintro ⟨⟨raw, key, hkey, hraw⟩, hrest⟩
        obtain ⟨answer, hanswer⟩ := (hfind key (Column.type?_of_retyped hkey)).mpr ⟨raw, hraw⟩
        cases hvalue : answer.rows.head?.bind fun r => r.value? l.valueColumn with
        | none =>
          obtain ⟨found', h⟩ := (@ih found).mpr hrest
          exact ⟨found', key, hkey, answer, hanswer, by simpa [hvalue] using h⟩
        | some w =>
          obtain ⟨found', h⟩ := (@ih ((key.display, w) :: found)).mpr hrest
          exact ⟨found', key, hkey, answer, hanswer, by simpa [hvalue] using h⟩

/-- The column that is searched in tells how values are looked up. -/
theorem lookup_eq {remote : Table} {value : Column}
    (hremote : e.registry.table? l.table = some remote)
    (hsearch : remote.column? l.searchColumn = some search)
    (hvalue : remote.column? l.valueColumn = some value) :
    e.lookup find l rows =
      if search.supports Builtin.isIn then lookupAll find l search rows
      else if search.supports Builtin.eq then lookupEach find l search [] rows
      else Run.stop (.error (.tableColumnNotLinkable remote.id search.id)) := by
  simp only [lookup, Run.liftM_eq_ofExcept]
  rw [Run.bind_ofExcept_ok _ (Registry.find_eq_ok_iff.mpr hremote),
    Run.bind_ofExcept_ok _ (Table.column_eq_ok_iff.mpr hsearch),
    Run.bind_ofExcept_ok _ (Table.column_eq_ok_iff.mpr hvalue)]

/-- The table that a link leads to answers lookups: of several raw values at once and of single
ones. -/
def ProvidesLookups (e : Engine) (now : Moment) (session : Session) (l : Link) : Prop :=
  ∀ remote search, e.registry.table? l.table = some remote →
    remote.column? l.searchColumn = some search →
    (∀ keys raws, Table.nativeValues search keys = .ok raws →
      e.Provides now session (remote.fetchFor (l.template Builtin.isIn keys .all)
        [⟨search.id, Builtin.isIn, raws⟩])) ∧
    ∀ key raw, search.native key = .ok raw →
      e.Provides now session (remote.fetchFor (l.template Builtin.eq [key] ⟨0, 1⟩)
        [⟨search.id, Builtin.eq, [raw]⟩])

/-- It is in the column that is searched in that local values are expressed. -/
theorem expressible_iff {remote : Table} (hremote : e.registry.table? l.table = some remote)
    (hsearch : remote.column? l.searchColumn = some search) :
    e.Expressible l rows ↔ ∀ row ∈ rows, ∀ v, l.sought? row = some v →
      ∃ raw, search.rawOf v = .ok raw := by
  constructor
  · exact fun h => h remote search hremote hsearch
  · intro h remote' search' hremote' hsearch'
    obtain rfl : remote = remote' := Option.some.inj (hremote.symm.trans hremote')
    obtain rfl : search = search' := Option.some.inj (hsearch.symm.trans hsearch')
    exact h

section Lookup

variable {before : Registry} {now : Moment} {session : Session} {t : Table} {id : String}

/-- A lookup in a stored column succeeds exactly if all values that are looked up can be
expressed. -/
theorem exists_lookup_iff {n : Nat} (hn : before.Registered)
    (hlinks : before.validateLinks = .ok e.registry)
    (hsound : ∀ u ∈ e.registry.tables, ∀ c ∈ u.columns, c.Sound)
    (ht : e.registry.table? id = some t) (hl : t.HasLink l)
    (hstored : ∀ remote, e.registry.table? l.table = some remote → remote.Stores l.searchColumn)
    (hprovides : e.ProvidesLookups now session l) (hu : l.Uniform rows) :
    (∃ found, (e.lookup (e.findSimple now session (n + 1)) l rows).result = .ok found) ↔
      e.Expressible l rows := by
  have hr := Registry.linked_of_validateLinks hn hlinks
  obtain ⟨here, remote, search, value, hleads⟩ := hr id t ht l hl
  have hnone := hstored remote hleads.remote_eq search hleads.search_eq
  have hsupports := Registry.supports_of_validateLinks hn hlinks ht hl hleads.remote_eq
    hleads.search_eq hnone
  have hsearch : search.Sound :=
    hsound remote (List.mem_of_find?_eq_some hleads.remote_eq) search
      (Table.mem_of_column? hleads.search_eq)
  obtain ⟨hlist, hsingle⟩ := hprovides remote search hleads.remote_eq hleads.search_eq
  rw [expressible_iff hleads.remote_eq hleads.search_eq,
    lookup_eq hleads.remote_eq hleads.search_eq hleads.value_eq]
  split
  · next hin =>
    rw [Column.supports_eq_isSome_filter?, Option.isSome_iff_exists] at hin
    obtain ⟨op, hop⟩ := hin
    have harity := (Column.arity_of_filter? hsearch hop).2 rfl
    refine exists_lookupAll_iff hu fun keys hne htype =>
      exists_findOnce_iff_of_lookup hr ht hl hleads.remote_eq hleads.search_eq hnone rfl hop ?_
        htype (hlist keys)
    rw [harity]
    cases keys with
    | nil => exact absurd rfl hne
    | cons key keys => simp [Arity.accepts]
  · next hin =>
    have heq : search.supports Builtin.eq = true := by simpa [hin] using hsupports
    rw [if_pos heq]
    rw [Column.supports_eq_isSome_filter?, Option.isSome_iff_exists] at heq
    obtain ⟨op, hop⟩ := heq
    have harity := (Column.arity_of_filter? hsearch hop).1 rfl
    refine exists_lookupEach_iff fun key htype => ?_
    have hraws : ∀ raws, Table.nativeValues search [key] = .ok raws →
        e.Provides now session (remote.fetchFor (l.template Builtin.eq [key] ⟨0, 1⟩)
          [⟨search.id, Builtin.eq, raws⟩]) := by
      intro raws hraws
      obtain ⟨raw, hraw, hraws⟩ := Except.bind_eq_ok_iff.mp hraws
      cases hraws
      exact hsingle key raw hraw
    refine (exists_findOnce_iff_of_lookup hr ht hl hleads.remote_eq hleads.search_eq hnone rfl hop
      (by simp [harity, Arity.accepts]) (by simpa using htype) hraws).trans ?_
    rw [List.forall_mem_singleton]

end Lookup

/-! ## Rows with the same local values -/

section Values

variable {rows' : List TableRow}
  (hv : rows.map (fun row => row.value? l.localColumn) =
    rows'.map fun row => row.value? l.localColumn)

include hv

theorem localKeys_eq_of_values {seen : List String} :
    localKeys l search seen rows = localKeys l search seen rows' := by
  induction rows generalizing rows' seen with
  | nil =>
    obtain rfl : rows' = [] := by simpa using hv.symm
    rfl
  | cons row rows ih =>
    obtain ⟨row', rows', rfl, hrow, hrows⟩ := List.map_eq_cons_iff.mp hv.symm
    simp only [localKeys, hrow, ih hrows.symm]

theorem lookupEach_eq_of_values :
    lookupEach find l search found rows = lookupEach find l search found rows' := by
  induction rows generalizing rows' found with
  | nil =>
    obtain rfl : rows' = [] := by simpa using hv.symm
    rfl
  | cons row rows ih =>
    obtain ⟨row', rows', rfl, hrow, hrows⟩ := List.map_eq_cons_iff.mp hv.symm
    simp only [lookupEach, hrow, ih hrows.symm]

/-- A lookup depends on the local values only. -/
theorem lookup_eq_of_values : e.lookup find l rows = e.lookup find l rows' := by
  simp only [lookup, lookupAll, localKeys_eq_of_values hv, lookupEach_eq_of_values hv]

end Values

theorem lookup_map {f : TableRow → TableRow}
    (hf : ∀ row, (f row).value? l.localColumn = row.value? l.localColumn) :
    e.lookup find l (rows.map f) = e.lookup find l rows := by
  refine lookup_eq_of_values ?_
  rw [List.map_map]
  exact List.map_congr_left fun row _ => hf row

/-! ## What is found -/

theorem tells_of_mem_findings {keys : List Value} {answer : TableRows}
    (h : (find (l.template Builtin.isIn keys .all)).result = .ok answer) :
    ∀ p ∈ findings l answer.rows, Tells find l p.1 p.2 := by
  intro p hp
  simp only [findings, List.mem_reverse, List.mem_filterMap, Option.bind_eq_bind,
    Option.bind_eq_some_iff, Option.some.injEq] at hp
  obtain ⟨row, hrow, s, hs, w, hw, rfl⟩ := hp
  exact .shown h hrow hs hw

theorem tells_of_lookupEach (hfound : ∀ p ∈ found, Tells find l p.1 p.2) {found' : Findings}
    (h : (lookupEach find l search found rows).result = .ok found') :
    ∀ p ∈ found', Tells find l p.1 p.2 := by
  induction rows generalizing found with
  | nil =>
    cases h
    exact hfound
  | cons row rows ih =>
    unfold lookupEach at h
    split at h
    · exact ih hfound h
    · simp only [Run.liftM_eq_ofExcept, Run.result_bind_eq_ok_iff,
        Run.result_ofExcept_eq_ok_iff] at h
      obtain ⟨key, -, answer, hanswer, h⟩ := h
      split at h
      · exact ih hfound h
      · next w hw =>
        obtain ⟨first, hfirst, hw⟩ := Option.bind_eq_some_iff.mp hw
        exact ih (List.forall_mem_cons.mpr ⟨.first hanswer hfirst hw, hfound⟩) h

/-- All values are looked up at once with one question, unless there is nothing to look up. -/
theorem lookupAll_eq_ok_iff :
    (lookupAll find l search rows).result = .ok found ↔
      ∃ keys, localKeys l search [] rows = .ok keys ∧
        ((keys = [] ∧ found = []) ∨ (keys ≠ [] ∧ ∃ answer,
          (find (l.template Builtin.isIn keys .all)).result = .ok answer ∧
            found = findings l answer.rows)) := by
  simp only [lookupAll, Run.liftM_eq_ofExcept, Run.result_bind_eq_ok_iff,
    Run.result_ofExcept_eq_ok_iff]
  refine exists_congr fun keys => and_congr_right fun _ => ?_
  cases keys with
  | nil => simp [eq_comm]
  | cons key keys =>
    simp only [List.isEmpty_cons, Bool.false_eq_true, if_false, Run.result_bind_eq_ok_iff,
      Run.result_pure, Except.ok.injEq, reduceCtorEq, false_and, false_or, ne_eq,
      not_false_eq_true, true_and]
    exact exists_congr fun answer => and_congr_right fun _ => eq_comm

/-- How values are looked up is for the column to say that they are looked up in. -/
theorem lookup_eq_ok_iff :
    (e.lookup find l rows).result = .ok found ↔ ∃ remote search value,
      e.registry.table? l.table = some remote ∧ remote.column? l.searchColumn = some search ∧
      remote.column? l.valueColumn = some value ∧
      ((search.supports Builtin.isIn = true ∧ (lookupAll find l search rows).result = .ok found) ∨
        (search.supports Builtin.isIn = false ∧ search.supports Builtin.eq = true ∧
          (lookupEach find l search [] rows).result = .ok found)) := by
  simp only [lookup, Run.liftM_eq_ofExcept, Run.result_bind_eq_ok_iff,
    Run.result_ofExcept_eq_ok_iff, Registry.find_eq_ok_iff, Table.column_eq_ok_iff]
  constructor
  · rintro ⟨remote, hremote, search, hsearch, value, hvalue, h⟩
    refine ⟨remote, search, value, hremote, hsearch, hvalue, ?_⟩
    split at h
    · next hin => exact .inl ⟨hin, h⟩
    · next hin =>
      split at h
      · next heq => exact .inr ⟨by simpa using hin, heq, h⟩
      · cases h
  · rintro ⟨remote, search, value, hremote, hsearch, hvalue, h⟩
    refine ⟨remote, hremote, search, hsearch, value, hvalue, ?_⟩
    rcases h with ⟨hin, h⟩ | ⟨hin, heq, h⟩
    · rwa [if_pos hin]
    · rwa [if_neg (by simp [hin]), if_pos heq]

/-- A lookup in a known column goes one of the two ways. -/
theorem lookup_cases {remote : Table} (hremote : e.registry.table? l.table = some remote)
    (hsearch : remote.column? l.searchColumn = some search)
    (h : (e.lookup find l rows).result = .ok found) :
    (search.supports Builtin.isIn = true ∧ (lookupAll find l search rows).result = .ok found) ∨
      (search.supports Builtin.isIn = false ∧
        (lookupEach find l search [] rows).result = .ok found) := by
  obtain ⟨remote', search', -, hremote', hsearch', -, h⟩ := lookup_eq_ok_iff.mp h
  obtain rfl := Option.some.inj (hremote.symm.trans hremote')
  obtain rfl := Option.some.inj (hsearch.symm.trans hsearch')
  exact h.imp_right fun h => ⟨h.1, h.2.2⟩

/-- What a lookup finds for a text is what a row of the other table says about it. -/
theorem tells_of_lookup (h : (e.lookup find l rows).result = .ok found) {text : String} {w : Value}
    (hw : found.lookup text = some w) : Tells find l text w := by
  have hall : ∀ p ∈ found, Tells find l p.1 p.2 := by
    obtain ⟨remote, search, value, -, -, -, ⟨-, h⟩ | ⟨-, -, h⟩⟩ := lookup_eq_ok_iff.mp h
    · obtain ⟨keys, -, ⟨-, rfl⟩ | ⟨-, answer, hanswer, rfl⟩⟩ := lookupAll_eq_ok_iff.mp h
      · simp
      · exact tells_of_mem_findings hanswer
    · exact tells_of_lookupEach (by simp) h
  obtain ⟨first, rest, rfl, -⟩ := List.lookup_eq_some_iff.mp hw
  exact hall (text, w) (by simp)

end Engine

end TableQuery
