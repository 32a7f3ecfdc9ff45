import TableQuery.Sql.Source

/-!
# Spelling of statements

A statement can be spelled from left to right, with something in place of each value as it is met:
a placeholder, when the value is handed over at once, or the value itself. Both come to the
fragments that statements are made of.

## Main definitions

* `Sql.Predicate.spell`, `Sql.spellWhere`, `Sql.spellPage` — clauses spelled from left to right.
* `Sql.Params`, `Sql.Params.push` — values that are handed over on the way.
* `Sql.Fragment.inline` — a fragment with its values written in their places.

## Main results

* `Sql.Predicate.spell_clause`, `Sql.spell_whereText`, `Sql.spell_pageClause` — to spell a clause
  is to spell its fragment.
* `Sql.Fragment.run_spell_push` — to hand over values on the way is to render the fragment and to
  collect its values.
* `Sql.Fragment.run_spell_write` — to write values on the way is to write them in their places.
-/

namespace TableQuery.Sql

/-! ## Spelling -/

section Spelling

variable {m : Type → Type} [Monad m] (operand : Bound → m String)

/-- A fragment, where an action says what stands for a value. -/
def Fragment.spell : Fragment → m String
  | [] => pure ""
  | .text s :: parts => do return s ++ (← spell parts)
  | .value v :: parts => do return (← operand v) ++ (← spell parts)

def Predicate.spell (expression : String) : Predicate → m String
  | compare sign v => do return expression ++ " " ++ sign.text ++ " " ++ (← operand (.raw v))
  | isNull holds => return expression ++ if holds then " IS NULL" else " IS NOT NULL"
  | like negated pattern => do
    return expression ++ (if negated then " NOT LIKE " else " LIKE ") ++
      (← operand (.raw (.text (String.ofList pattern)))) ++ " ESCAPE '\\'"
  | among negated values => do
    return expression ++ (if negated then " NOT IN (" else " IN (") ++
      ", ".intercalate (← values.mapM fun v => operand (.raw v)) ++ ")"
  | within p => do
    return "(" ++ expression ++ " >= " ++ (← operand (.raw (.time p.start))) ++ " AND " ++
      expression ++ " < " ++ (← operand (.raw (.time p.stop))) ++ ")"

/-- All predicates hold; nothing if there are none. -/
def spellWhere (ps : List (Column × Predicate)) : m String :=
  if ps.isEmpty then return ""
  else do
    return " WHERE " ++ " AND ".intercalate (← ps.mapM fun p => p.2.spell operand p.1.expression)

def spellPage (p : PageRequest) : m String :=
  if p.isPaged then do
    return " LIMIT " ++ (← operand (.raw (.int p.size.toInt64))) ++ " OFFSET " ++
      (← operand (.raw (.int p.offset.toInt64)))
  else return ""

/-! To spell is to spell the fragments of a statement. -/

variable [LawfulMonad m]

/-- To put two texts before a text is to put one before it and then the other. -/
theorem append_behind (s r : String) :
    (HAppend.hAppend (s ++ r) : String → String) = fun t => s ++ (r ++ t) :=
  funext fun _ => String.append_assoc

@[simp] theorem Fragment.spell_text (s : String) : (Fragment.text s).spell operand = pure s := by
  simp [text, spell]

@[simp] theorem Fragment.spell_raw (v : Raw) :
    (Fragment.raw v).spell operand = operand (.raw v) := by
  simp [raw, value, spell]

@[simp] theorem Fragment.spell_append (f g : Fragment) :
    (f ++ g).spell operand = do return (← f.spell operand) ++ (← g.spell operand) := by
  have hempty : (HAppend.hAppend "" : String → String) = id := funext fun s => by simp
  induction f with
  | nil => simp [spell, hempty]
  | cons p f ih => cases p <;> simp [spell, ih, append_behind]

theorem Fragment.spell_join {α : Type} (separator : String) (fragment : α → Fragment)
    (as : List α) : (join separator (as.map fragment)).spell operand =
      separator.intercalate <$> as.mapM fun a => (fragment a).spell operand := by
  induction as with
  | nil => simp [join, spell]
  | cons a as ih =>
    cases as with
    | nil => simp [join]
    | cons a' as =>
      rw [List.map_cons, List.map_cons, join_cons_cons, spell_append, spell, ← List.map_cons, ih]
      simp [String.append_assoc]

theorem Predicate.spell_clause (expression : String) (p : Predicate) :
    (p.clause expression).spell operand = p.spell operand expression := by
  cases p with
  | among negated values =>
    simp [clause, spell, Fragment.spell_join, String.append_assoc]
  | _ => simp [clause, spell, String.append_assoc, append_behind]

theorem spell_whereText (ps : List (Column × Predicate)) :
    (whereText ps).spell operand = spellWhere operand ps := by
  unfold whereText spellWhere
  split
  · rfl
  · have hclauses : (fun p : Column × Predicate => (p.2.clause p.1.expression).spell operand) =
        fun p => p.2.spell operand p.1.expression :=
      funext fun p => p.2.spell_clause operand _
    rw [Fragment.spell_append, Fragment.spell_join, hclauses]
    simp

theorem spell_pageClause (p : PageRequest) :
    (pageClause p).spell operand = spellPage operand p := by
  unfold pageClause spellPage
  split
  · simp [String.append_assoc]
  · rfl

end Spelling

/-! ## Values handed over on the way -/

structure Params where
  dialect : Dialect
  values : List Bound

/-- A value is handed over, and a placeholder stands for it. -/
def Params.push (v : Bound) : StateM Params String := fun p =>
  let values := p.values ++ [v]
  (p.dialect.placeholder values.length, { p with values })

namespace Fragment

/-- A fragment with its values written in their places. -/
def inline (write : Bound → String) : Fragment → String
  | [] => ""
  | .text s :: parts => s ++ inline write parts
  | .value v :: parts => write v ++ inline write parts

/-- To hand over the values on the way is to render the text and to collect the values. -/
theorem run_spell_push (d : Dialect) (before : List Bound) (f : Fragment) :
    (f.spell Params.push).run ⟨d, before⟩ =
      (render d before.length f, ⟨d, before ++ values f⟩) := by
  induction f generalizing before with
  | nil => rw [values, List.append_nil]; rfl
  | cons p f ih =>
    cases p with
    | text s =>
      have hstep : (spell Params.push (.text s :: f)).run ⟨d, before⟩ =
          let rest := (spell Params.push f).run ⟨d, before⟩
          (s ++ rest.1, rest.2) := rfl
      rw [hstep, ih]
      rfl
    | value v =>
      have hstep : (spell Params.push (.value v :: f)).run ⟨d, before⟩ =
          let rest := (spell Params.push f).run ⟨d, before ++ [v]⟩
          (d.placeholder (before ++ [v]).length ++ rest.1, rest.2) := rfl
      rw [hstep, ih, List.length_append, List.append_assoc]
      rfl

/-- To write the values on the way is to write them in their places. -/
theorem run_spell_write (write : Bound → String) (f : Fragment) :
    (f.spell (m := Id) write).run = inline write f := by
  induction f with
  | nil => rfl
  | cons p f ih =>
    cases p with
    | text s => exact congrArg (s ++ ·) ih
    | value v => exact congrArg (write v ++ ·) ih

end Fragment

end TableQuery.Sql
