import TableQuery.Exchange.Template
import TableQuery.Proofs.Json.RoundTrip
import TableQuery.Proofs.Lists

/-!
# Saved templates are read back

Filter and output of a template are saved as a text. Of what the text says only doubles may be
another when it is read, and only doubles that are not finite have no text.

## Main definitions

* `Value.reread?`, `Condition.reread?`, `Template.Body.reread?` — what the text of a value, a
  condition, and filter and output is read as.
* `Value.IsFinite`, `Template.Body.IsFinite` — no double is infinite or no number.
* `Value.RoundTrips`, `Template.Body.RoundTrips` — every double is read back.

## Main results

* `Template.Body.decode?_encode` — how a saved text is read.
* `Template.Body.isSome_decode?_encode` — it is readable exactly if its doubles are finite.
* `Template.Body.decode?_encode_eq_iff` — it is read as what was saved exactly if its doubles are.
-/

namespace TableQuery

open Json (reread rereadItems rereadMembers rereadFloat)

/-! ## Values -/

namespace Value

/-- What the text of a value is read as, if it can be read. -/
def reread? : Value → Option Value
  | .double x => (rereadFloat x).float?.map .double
  | v => some v

/-- No double that is infinite or no number. -/
def IsFinite : Value → Prop
  | .double x => x.isFinite = true
  | _ => True

theorem isSome_reread? {v : Value} : v.reread?.isSome = true ↔ v.IsFinite := by
  cases v with
  | double x =>
    by_cases hx : x.isFinite = true
    · obtain ⟨text, y, htext, hread⟩ := Json.exists_readsNumber_of_isFinite hx
      simp [reread?, rereadFloat, IsFinite, hx, htext, hread.number_eq, Json.float?]
    · simp [reread?, rereadFloat, IsFinite, hx, Json.interchange?_of_not_isFinite hx, Json.float?]
  | _ => simp [reread?, IsFinite]

/-- A double is read back from the number that it is written as. -/
def RoundTrips : Value → Prop
  | .double x => Json.RoundTrips x
  | _ => True

theorem reread?_eq_iff {v : Value} : v.reread? = some v ↔ v.RoundTrips := by
  cases v with
  | double x =>
    rw [reread?, RoundTrips, ← Json.float?_rereadFloat_eq_iff]
    cases (rereadFloat x).float? <;> simp
  | _ => simp [reread?, RoundTrips]

theorem ofJson?_tagged (tag : Tag) (content : Json) :
    ofJson? (tagged tag content) = ofContent? tag (some content) := by
  cases tag <;> rfl

end Value

theorem Choice.ofJson?_toJson (c : Choice) : Choice.ofJson? c.toJson = some c := by
  have hlo := c.id.le_toInt
  have hhi := c.id.toInt_lt
  have hid : Json.int32? (.int c.id.toInt) = some c.id := by
    have hfits : (-Int.pow 2 31 ≤ c.id.toInt && c.id.toInt ≤ Int.pow 2 31 - 1) = true := by
      simp only [Int.pow_eq, Bool.and_eq_true, decide_eq_true_eq]
      omega
    rw [Json.int32?, Json.integer?, if_pos hfits, Option.map_some, Int32.ofInt_toInt]
  show (do some (⟨← Json.int32? (.int c.id.toInt), ← Json.text? (.str c.name)⟩ : Choice)) = _
  rw [hid]
  rfl

theorem Choice.reread_toJson (c : Choice) (depth : Nat) :
    reread (depth + 1) c.toJson = c.toJson := by
  have hlo := c.id.le_toInt
  have hhi := c.id.toInt_lt
  have hid := Json.reread_int (i := c.id.toInt) (by omega) (by omega) depth
  rw [toJson, Json.reread_obj, rereadMembers, rereadMembers, rereadMembers, hid]
  rfl

namespace Value

theorem reread_tagged (tag : Tag) (content : Json) (depth : Nat) :
    reread (depth + 1) (tagged tag content) = tagged tag (reread depth content) := rfl

theorem int64?_int (i : Int64) : Json.int64? (.int i.toInt) = some i := by
  have hlo := i.le_toInt
  have hhi := i.toInt_lt
  have hfits : (-Int.pow 2 63 ≤ i.toInt && i.toInt ≤ Int.pow 2 63 - 1) = true := by
    simp only [Int.pow_eq, Bool.and_eq_true, decide_eq_true_eq]
    omega
  rw [Json.int64?, Json.integer?, if_pos hfits, Option.map_some, Int64.ofInt_toInt]

theorem ofJson?_reread (v : Value) (depth : Nat) :
    ofJson? (reread (depth + 2) v.toJson) = v.reread? := by
  cases v with
  | null => rfl
  | string s | bool b | date s | time s =>
    rw [toJson, reread_tagged, ofJson?_tagged]
    rfl
  | int i =>
    have hlo := i.le_toInt
    have hhi := i.toInt_lt
    rw [toJson, reread_tagged, ofJson?_tagged, Json.reread_int (by omega) (by omega), ofContent?,
      int64?_int]
    rfl
  | double x =>
    rw [toJson, reread_tagged, ofJson?_tagged]
    rfl
  | choice c =>
    rw [toJson, reread_tagged, ofJson?_tagged, c.reread_toJson, ofContent?, c.ofJson?_toJson]
    rfl

end Value

theorem Json.list?_reread {α : Type} {toJson : α → Json} {read : Json → Option α}
    {reread? : α → Option α} {depth : Nat}
    (h : ∀ a, read (reread depth (toJson a)) = reread? a) (as : List α) :
    Json.list? read (reread (depth + 1) (.arr (as.map toJson))) = as.mapM reread? := by
  rw [Json.reread_arr, Json.list?, List.map_map, List.mapM_map]
  congr 1
  funext a
  exact h a

/-! ## Conditions and columns -/

namespace Condition

def reread? (c : Condition) : Option Condition :=
  (c.values.mapM Value.reread?).map fun values => { c with values }

theorem ofJson?_reread (c : Condition) (depth : Nat) :
    ofJson? (reread (depth + 4) c.toJson) = c.reread? := by
  have hvalues := Json.list?_reread (fun v : Value => v.ofJson?_reread depth) c.values
  show (do some (⟨← Json.text? (.str c.column), ← Json.text? (.str c.operator),
    ← Json.list? Value.ofJson? (reread (depth + 3) (.arr (c.values.map Value.toJson)))⟩ :
      Condition)) = _
  rw [hvalues, reread?]
  cases c.values.mapM Value.reread? <;> rfl

theorem isSome_reread? {c : Condition} :
    c.reread?.isSome = true ↔ ∀ v ∈ c.values, v.IsFinite := by
  rw [reread?, Option.isSome_map]
  exact isSome_mapM_iff.trans (forall₂_congr fun _ _ => Value.isSome_reread?)

theorem reread?_eq_iff {c : Condition} :
    c.reread? = some c ↔ ∀ v ∈ c.values, v.RoundTrips := by
  have hvalues : c.values.mapM Value.reread? = some c.values ↔ ∀ v ∈ c.values, v.RoundTrips :=
    mapM_eq_self_iff.trans (forall₂_congr fun _ _ => Value.reread?_eq_iff)
  rw [← hvalues, reread?]
  obtain ⟨column, operator, values⟩ := c
  cases values.mapM Value.reread? <;> simp

end Condition

theorem OutputColumn.ofJson?_reread (c : OutputColumn) (depth : Nat) :
    OutputColumn.ofJson? (reread (depth + 1) c.toJson) = some c := by
  have haggregate : ofName? Aggregate.name Aggregate.all (.str c.aggregate.name) =
      some c.aggregate := by
    cases c.aggregate <;> rfl
  show (do some (⟨← Json.text? (.str c.column), ← Json.bool? (.bool c.visible),
    ← ofName? Aggregate.name Aggregate.all (.str c.aggregate.name)⟩ : OutputColumn)) = _
  rw [haggregate]
  rfl

/-! ## Filter and output -/

namespace Template.Body

def reread? (b : Body) : Option Body :=
  (b.filter.mapM Condition.reread?).map fun filter => { b with filter }

/-- No double among the values of the filter is infinite or no number. -/
def IsFinite (b : Body) : Prop :=
  ∀ c ∈ b.filter, ∀ v ∈ c.values, v.IsFinite

/-- Every double among the values of the filter is read back from the number that it is written
as. -/
def RoundTrips (b : Body) : Prop :=
  ∀ c ∈ b.filter, ∀ v ∈ c.values, v.RoundTrips

theorem ofJson?_reread (b : Body) (depth : Nat) :
    ofJson? (reread (depth + 6) b.toJson) = b.reread? := by
  have hfilter := Json.list?_reread (fun c : Condition => c.ofJson?_reread depth) b.filter
  have houtput := Json.list?_reread (fun c : OutputColumn => c.ofJson?_reread (depth + 3)) b.output
  have hsome : b.output.mapM some = some b.output := by
    simpa using @List.mapM_pure Option _ _ _ _ b.output fun c => c
  show (do some (⟨← Json.list? Condition.ofJson?
      (reread (depth + 5) (.arr (b.filter.map Condition.toJson))),
    ← Json.list? OutputColumn.ofJson?
      (reread (depth + 5) (.arr (b.output.map OutputColumn.toJson)))⟩ : Body)) = _
  rw [hfilter, houtput, hsome, reread?]
  cases b.filter.mapM Condition.reread? <;> rfl

/-- How a saved text is read: with the doubles that their digits mean. -/
theorem decode?_encode (b : Body) : decode? b.encode = b.reread? := by
  rw [decode?, encode, Json.parseLoose?_write]
  exact b.ofJson?_reread 121

/-- A saved text is readable exactly if its doubles are finite. -/
theorem isSome_decode?_encode {b : Body} : (decode? b.encode).isSome = true ↔ b.IsFinite := by
  rw [decode?_encode, reread?, Option.isSome_map]
  exact isSome_mapM_iff.trans (forall₂_congr fun _ _ => Condition.isSome_reread?)

/-- A saved text is read as what was saved exactly if its doubles are read back. -/
theorem decode?_encode_eq_iff {b : Body} : decode? b.encode = some b ↔ b.RoundTrips := by
  have hfilter : b.filter.mapM Condition.reread? = some b.filter ↔
      ∀ c ∈ b.filter, ∀ v ∈ c.values, v.RoundTrips :=
    mapM_eq_self_iff.trans (forall₂_congr fun _ _ => Condition.reread?_eq_iff)
  rw [decode?_encode, reread?, RoundTrips, ← hfilter]
  obtain ⟨filter, output⟩ := b
  cases filter.mapM Condition.reread? <;> simp

end Template.Body

end TableQuery
