import TableQuery.Proofs.Lists
import TableQuery.Proofs.Sql.Spelling
import TableQuery.Proofs.Text.Integer
import TableQuery.Proofs.Text.Numeral

/-!
# Placeholders in texts

A database reads the text of a statement and finds the placeholders in it. This is how it learns
where the values belong that are handed over beside the text.

## Main definitions

* `Sql.Token`, `Sql.Dialect.tokens` — a text as a database reads it.
* `Sql.Dialect.placeholders` — the placeholders of a text.
* `Sql.Dialect.filled` — a text with values in place of its placeholders.
* `Sql.Fragment.Spaced` — a fragment whose texts and placeholders can be told apart.

## Main results

* `Sql.Dialect.tokens_append` — texts are read one after the other.
* `Sql.Fragment.tokens_render` — a rendered fragment is read piece by piece.
* `Sql.Fragment.placeholders_render`, `Sql.Fragment.filled_render` — it has one placeholder for each
  value, in order, and each stands for its own value.
-/

namespace TableQuery.Sql

/-- What a database reads in a text: a placeholder, or any other character. -/
inductive Token where
  | char (c : Char)
  | placeholder (s : List Char)

def Token.placeholder? : Token → Option (List Char)
  | char _ => none
  | placeholder s => some s

/-- Characters hold no placeholders. -/
theorem Token.filterMap_char (s : List Char) : (s.map char).filterMap placeholder? = [] := by
  rw [List.filterMap_map]
  exact List.filterMap_eq_nil_iff.mpr fun _ _ => rfl

def Token.chars : Token → List Char
  | char c => [c]
  | placeholder s => s

namespace Dialect

/-- Placeholders with numbers: a dollar sign before digits. -/
def numberedTokens : List Char → List Token
  | [] => []
  | c :: s =>
    if c = '$' ∧ s.takeWhile Char.isDigit ≠ [] then
      .placeholder (c :: s.takeWhile Char.isDigit) :: numberedTokens (s.dropWhile Char.isDigit)
    else .char c :: numberedTokens s
termination_by s => s.length
decreasing_by
  · have hle := (List.dropWhile_sublist Char.isDigit (l := s)).length_le
    simp only [List.length_cons]
    omega
  · simp

/-- Placeholders that are all alike. -/
def markTokens (s : List Char) : List Token :=
  s.map fun c => if c = '?' then .placeholder [c] else .char c

/-- A text as a database reads it. -/
def tokens (d : Dialect) (s : List Char) : List Token :=
  match d with
  | .postgres => numberedTokens s
  | _ => markTokens s

def placeholders (d : Dialect) (s : String) : List String :=
  ((d.tokens s.toList).filterMap Token.placeholder?).map String.ofList

/-- Which of the values a placeholder stands for: the one of its number, or the one of its place
among the placeholders. -/
def place? (d : Dialect) (before : Nat) (placeholder : List Char) : Option Nat :=
  match d with
  | .postgres => (Text.readNat? 10 placeholder.tail).map Nat.pred
  | _ => some before

def fill (d : Dialect) (write : Bound → String) (values : List Bound) (before : Nat) :
    List Token → List Char
  | [] => []
  | .char c :: ts => c :: fill d write values before ts
  | .placeholder s :: ts =>
    (match (d.place? before s).bind fun i => values[i]? with
      | some v => (write v).toList
      | none => s) ++ fill d write values (before + 1) ts

/-- The text of a statement with its values in place of the placeholders. -/
def filled (d : Dialect) (write : Bound → String) (st : Statement) : String :=
  String.ofList (d.fill write st.values 0 (d.tokens st.text.toList))

/-! ## Reading texts one after the other -/

variable {d : Dialect}

/-- A text does not begin with a digit, which might be read into a number before it. -/
def Opens (s : List Char) : Prop :=
  ∀ c ∈ s.head?, c.isDigit = false

theorem opens_nil : Opens [] := by
  simp [Opens]

theorem opens_cons {c : Char} {s : List Char} (hc : c.isDigit = false) : Opens (c :: s) := by
  simpa [Opens] using hc

def Begins (s : List Char) : Prop :=
  ∃ c ∈ s.head?, c.isDigit = false

@[simp] theorem begins_cons {c : Char} {s : List Char} : Begins (c :: s) ↔ c.isDigit = false := by
  simp [Begins]

theorem Begins.append {s : List Char} (hs : Begins s) (r : List Char) : Begins (s ++ r) := by
  obtain ⟨c, hc, hdigit⟩ := hs
  exact ⟨c, by rw [List.head?_append, Option.mem_def.mp hc]; rfl, hdigit⟩

theorem Begins.opens {s : List Char} (hs : Begins s) : Opens s := by
  obtain ⟨c, hc, hdigit⟩ := hs
  intro c' hc'
  rwa [Option.mem_unique hc' hc]

theorem Opens.append {s r : List Char} (hs : Opens s) (hr : Opens r) : Opens (s ++ r) := by
  cases s with
  | nil => exact hr
  | cons c s => exact opens_cons (hs c rfl)

theorem Opens.takeWhile_append {r : List Char} (hr : Opens r) (s : List Char) :
    (s ++ r).takeWhile Char.isDigit = s.takeWhile Char.isDigit := by
  cases r with
  | nil => rw [List.append_nil]
  | cons c r => exact takeWhile_append_stop (hr c rfl)

theorem Opens.dropWhile_append {r : List Char} (hr : Opens r) (s : List Char) :
    (s ++ r).dropWhile Char.isDigit = s.dropWhile Char.isDigit ++ r := by
  cases r with
  | nil => rw [List.append_nil, List.append_nil]
  | cons c r => exact dropWhile_append_stop (hr c rfl)

theorem numberedTokens_append {s r : List Char} (hr : Opens r) :
    numberedTokens (s ++ r) = numberedTokens s ++ numberedTokens r := by
  fun_induction numberedTokens s with
  | case1 => rfl
  | case2 c s h ih =>
    rw [List.cons_append, numberedTokens, hr.takeWhile_append, if_pos h, hr.dropWhile_append, ih,
      List.cons_append]
  | case3 c s h ih =>
    rw [List.cons_append, numberedTokens, hr.takeWhile_append, if_neg h, ih, List.cons_append]

theorem tokens_nil : d.tokens [] = [] := by
  cases d with
  | postgres => exact numberedTokens.eq_1
  | mysql | sqlite => rfl

theorem tokens_append {s r : List Char} (hr : Opens r) :
    d.tokens (s ++ r) = d.tokens s ++ d.tokens r := by
  cases d with
  | postgres => exact numberedTokens_append hr
  | mysql | sqlite => exact List.map_append

/-- A character that begins no placeholder is read as it is. -/
theorem tokens_cons {c : Char} (hc : c ≠ '$' ∧ c ≠ '?') (s : List Char) :
    d.tokens (c :: s) = .char c :: d.tokens s := by
  cases d with
  | postgres =>
    show numberedTokens (c :: s) = _
    rw [numberedTokens, if_neg fun h => hc.1 h.1]
    rfl
  | mysql | sqlite => simp [tokens, markTokens, hc.2]

/-! ## Texts without placeholders -/

def Plain (d : Dialect) (s : String) : Prop :=
  d.placeholders s = []

/-- A text in which neither of the characters occurs that begin placeholders. -/
def Quiet (s : List Char) : Prop :=
  ∀ c ∈ s, c ≠ '$' ∧ c ≠ '?'

@[simp] theorem quiet_nil : Quiet [] := by
  simp [Quiet]

@[simp] theorem quiet_cons {c : Char} {s : List Char} :
    Quiet (c :: s) ↔ (c ≠ '$' ∧ c ≠ '?') ∧ Quiet s :=
  List.forall_mem_cons

@[simp] theorem quiet_append {s r : List Char} : Quiet (s ++ r) ↔ Quiet s ∧ Quiet r :=
  List.forall_mem_append

/-- A text that is read as its characters, whatever comes behind it. -/
def Clear (d : Dialect) (s : List Char) : Prop :=
  ∀ r, d.tokens (s ++ r) = s.map .char ++ d.tokens r

theorem Quiet.clear {s : List Char} (h : Quiet s) : d.Clear s := by
  intro r
  induction s with
  | nil => rfl
  | cons c s ih =>
    obtain ⟨hc, hs⟩ := List.forall_mem_cons.mp h
    rw [List.cons_append, tokens_cons hc, ih hs, List.map_cons, List.cons_append]

theorem Clear.append {s s' : List Char} (h : d.Clear s) (h' : d.Clear s') : d.Clear (s ++ s') := by
  intro r
  rw [List.append_assoc, h, h', List.map_append, List.append_assoc]

/-- Nothing is lost in reading. -/
theorem flatMap_tokens (s : List Char) : (d.tokens s).flatMap Token.chars = s := by
  cases d with
  | postgres =>
    show (numberedTokens s).flatMap Token.chars = s
    fun_induction numberedTokens s with
    | case1 => rfl
    | case2 c s h ih =>
      rw [List.flatMap_cons, ih, Token.chars, List.cons_append, List.takeWhile_append_dropWhile]
    | case3 c s h ih => rw [List.flatMap_cons, ih, Token.chars, List.singleton_append]
  | mysql | sqlite =>
    show (markTokens s).flatMap Token.chars = s
    induction s with
    | nil => rfl
    | cons c s ih =>
      rw [markTokens, List.map_cons, List.flatMap_cons, ← markTokens, ih]
      split <;> rfl

theorem tokens_of_plain {s : String} (h : d.Plain s) : d.tokens s.toList = s.toList.map .char := by
  have hnone : (d.tokens s.toList).filterMap Token.placeholder? = [] := List.map_eq_nil_iff.mp h
  have hchars (ts : List Token) (hts : ts.filterMap Token.placeholder? = []) :
      ts = (ts.flatMap Token.chars).map .char := by
    induction ts with
    | nil => rfl
    | cons t ts ih =>
      cases t with
      | char c => exact congrArg (List.cons _) (ih hts)
      | placeholder p => cases hts
  rw [hchars _ hnone, flatMap_tokens]

theorem fill_chars (write : Bound → String) (values : List Bound) (before : Nat) (s : List Char)
    (ts : List Token) :
    d.fill write values before (s.map .char ++ ts) = s ++ d.fill write values before ts := by
  induction s with
  | nil => rfl
  | cons c s ih => rw [List.map_cons, List.cons_append, fill, ih, List.cons_append]

theorem placeholders_empty : d.placeholders "" = [] := by
  rw [placeholders, String.toList_empty, tokens_nil]
  rfl

theorem placeholders_append {s r : String} (hr : Opens r.toList) :
    d.placeholders (s ++ r) = d.placeholders s ++ d.placeholders r := by
  rw [placeholders, String.toList_append, tokens_append hr, List.filterMap_append, List.map_append]
  rfl

theorem placeholders_clear_append {s r : String} (hs : d.Clear s.toList) :
    d.placeholders (s ++ r) = d.placeholders r := by
  rw [placeholders, String.toList_append, hs, List.filterMap_append, Token.filterMap_char,
    List.nil_append]
  rfl

theorem Clear.plain {s : String} (h : d.Clear s.toList) : d.Plain s := by
  have hread := placeholders_clear_append (r := "") h
  rwa [String.append_empty, placeholders_empty] at hread

/-- A text that divides what stands before it from what stands behind it. -/
structure Divides (s : String) : Prop where
  quiet : Quiet s.toList
  begins : Begins s.toList

@[simp] theorem divides_iff {s : String} : Divides s ↔ Quiet s.toList ∧ Begins s.toList :=
  ⟨fun h => ⟨h.quiet, h.begins⟩, fun h => ⟨h.1, h.2⟩⟩

theorem Divides.opens_append {s : String} (hs : Divides s) (r : String) :
    Opens (s ++ r).toList := by
  rw [String.toList_append]
  exact (hs.begins.append _).opens

/-- The placeholders of texts that are divided. -/
theorem placeholders_divided {separator : String} (h : Divides separator) (s r : String) :
    d.placeholders (s ++ (separator ++ r)) = d.placeholders s ++ d.placeholders r := by
  rw [placeholders_append (h.opens_append r), placeholders_clear_append h.quiet.clear]

/-- Behind a text without placeholders stands a text that divides it from the rest. -/
theorem Plain.clear_append {s r : String} (h : d.Plain s) (hr : Divides r) :
    d.Clear (s ++ r).toList := by
  intro rest
  rw [String.toList_append, List.append_assoc, tokens_append (hr.begins.append rest).opens,
    tokens_of_plain h, hr.quiet.clear, List.map_append, List.append_assoc]

/-! ## Placeholders in texts -/

theorem toList_numbered (n : Nat) :
    (Dialect.postgres.placeholder n).toList = '$' :: Text.digits 10 n := by
  simp [placeholder, Text.ofInt, Text.signed]

theorem toList_mark (hd : d ≠ .postgres) (n : Nat) : (d.placeholder n).toList = ['?'] := by
  cases d with
  | postgres => exact absurd rfl hd
  | mysql | sqlite => simp [placeholder]

theorem opens_placeholder (n : Nat) (r : List Char) : Opens ((d.placeholder n).toList ++ r) := by
  cases d with
  | postgres =>
    rw [toList_numbered]
    exact opens_cons (by decide)
  | mysql | sqlite =>
    rw [toList_mark (by decide)]
    exact opens_cons (by decide)

theorem tokens_placeholder {r : List Char} (hr : Opens r) (n : Nat) :
    d.tokens ((d.placeholder n).toList ++ r) =
      .placeholder (d.placeholder n).toList :: d.tokens r := by
  cases d with
  | postgres =>
    have hdigits : (Text.digits 10 n ++ r).takeWhile Char.isDigit = Text.digits 10 n := by
      rw [hr.takeWhile_append]
      exact List.takeWhile_eq_self_iff.mpr fun c hc => Text.isDigit_of_mem_digits hc
    have hrest : (Text.digits 10 n ++ r).dropWhile Char.isDigit = r := by
      rw [hr.dropWhile_append, List.dropWhile_eq_nil_iff.mpr fun c hc =>
        Text.isDigit_of_mem_digits hc, List.nil_append]
    show numberedTokens _ = _ :: numberedTokens r
    rw [toList_numbered, List.cons_append, numberedTokens, hdigits, hrest,
      if_pos ⟨rfl, Nat.toDigits_ne_nil⟩]
  | mysql | sqlite =>
    rw [toList_mark (by decide)]
    rfl

theorem place?_placeholder (n : Nat) : d.place? n (d.placeholder (n + 1)).toList = some n := by
  cases d with
  | postgres =>
    have hread := Text.readNat?_digits (by decide : 1 < 10) (by decide) 0 (n + 1)
    rw [List.replicate_zero, List.nil_append] at hread
    rw [place?, toList_numbered, List.tail_cons, hread]
    rfl
  | mysql | sqlite => rfl

end Dialect

/-! ## Fragments -/

namespace Fragment

open Dialect (Opens Clear)

variable {d : Dialect} {f g : Fragment}

/-- A fragment behind a number of values, as a database reads it if texts and placeholders can be
told apart. -/
def tokens (d : Dialect) (before : Nat) : Fragment → List Token
  | [] => []
  | .text s :: parts => s.toList.map .char ++ tokens d before parts
  | .value _ :: parts =>
    .placeholder (d.placeholder (before + 1)).toList :: tokens d (before + 1) parts

def Opens (d : Dialect) (f : Fragment) : Prop :=
  ∀ before, Dialect.Opens (render d before f).toList

/-- Texts and placeholders of a fragment can be told apart. -/
inductive Spaced (d : Dialect) : Fragment → Prop where
  | nil : Spaced d []
  | text {s : String} {f : Fragment} (hs : d.Clear s.toList) (hf : Spaced d f) :
      Spaced d (.text s :: f)
  | value {v : Bound} {f : Fragment} (hopens : f.Opens d) (hf : Spaced d f) :
      Spaced d (.value v :: f)

theorem opens_nil : Opens d [] :=
  fun _ => Dialect.opens_nil

theorem opens_text {s : String} (hs : Dialect.Begins s.toList) (f : Fragment) :
    Opens d (.text s :: f) := by
  intro before
  rw [render, String.toList_append]
  exact (hs.append _).opens

theorem opens_value (v : Bound) (f : Fragment) : Opens d (.value v :: f) := by
  intro before
  rw [render, String.toList_append]
  exact Dialect.opens_placeholder _ _

theorem Opens.append (hf : f.Opens d) (hg : g.Opens d) : (f ++ g).Opens d := by
  intro before
  rw [render_append, String.toList_append]
  exact (hf before).append (hg _)

theorem Spaced.append (hf : Spaced d f) (hg : Spaced d g) (h : g.Opens d) : Spaced d (f ++ g) := by
  induction hf with
  | nil => exact hg
  | text hs _ ih => exact .text hs ih
  | value hopens _ ih => exact .value (hopens.append h) ih

/-- A rendered fragment is read piece by piece. -/
theorem tokens_render (h : Spaced d f) (before : Nat) :
    d.tokens (render d before f).toList = f.tokens d before := by
  induction h generalizing before with
  | nil => exact Dialect.tokens_nil
  | text hs _ ih => rw [render, String.toList_append, hs, ih, tokens]
  | value hopens _ ih =>
    rw [render, String.toList_append, Dialect.tokens_placeholder (hopens _), ih, tokens]

/-- The placeholders of a fragment that is read piece by piece. -/
theorem placeholders_tokens (d : Dialect) (f : Fragment) (before : Nat) :
    ((f.tokens d before).filterMap Token.placeholder?).map String.ofList =
      (List.range' (before + 1) (values f).length).map d.placeholder := by
  induction f generalizing before with
  | nil => rfl
  | cons p f ih =>
    cases p with
    | text s =>
      rw [tokens, List.filterMap_append, Token.filterMap_char, List.nil_append, ih, values]
    | value v =>
      have hfirst : Token.placeholder? (.placeholder (d.placeholder (before + 1)).toList) =
          some (d.placeholder (before + 1)).toList := rfl
      rw [tokens, values, List.filterMap_cons_some hfirst, List.map_cons, ih, List.length_cons,
        List.range'_succ, List.map_cons, String.ofList_toList]

/-- A rendered fragment has a placeholder for each value, in order. -/
theorem placeholders_render (h : Spaced d f) (before : Nat) :
    d.placeholders (render d before f) =
      (List.range' (before + 1) (values f).length).map d.placeholder := by
  rw [Dialect.placeholders, tokens_render h, placeholders_tokens]

/-- In a fragment that is read piece by piece each placeholder stands for its own value, whatever
values there are before and behind. -/
theorem fill_tokens (d : Dialect) (write : Bound → String) (f : Fragment) (vs ws : List Bound) :
    d.fill write (vs ++ values f ++ ws) vs.length (f.tokens d vs.length) =
      (inline write f).toList := by
  induction f generalizing vs with
  | nil => rfl
  | cons p f ih =>
    cases p with
    | text s => rw [tokens, Dialect.fill_chars, values, ih, inline, String.toList_append]
    | value v =>
      have hvalue : (vs ++ values (.value v :: f) ++ ws)[vs.length]? = some v := by
        simp [values]
      have hrest := ih (vs ++ [v])
      rw [List.length_append, List.length_singleton, List.append_assoc vs] at hrest
      rw [tokens, Dialect.fill, Dialect.place?_placeholder, Option.bind_some, hvalue, inline,
        String.toList_append, ← hrest]
      rfl

/-- Behind a text without placeholders each placeholder stands for its own value. -/
theorem filled_render {head : String} (hhead : d.Plain head) (h : Spaced d f) (hopens : f.Opens d)
    (write : Bound → String) :
    d.filled write ⟨head ++ render d 0 f, values f⟩ = head ++ inline write f := by
  have hfill := fill_tokens d write f [] []
  rw [List.nil_append, List.append_nil, List.length_nil] at hfill
  rw [Dialect.filled, String.toList_append, Dialect.tokens_append (hopens 0),
    Dialect.tokens_of_plain hhead, tokens_render h, Dialect.fill_chars, hfill,
    String.ofList_append, String.ofList_toList, String.ofList_toList]

end Fragment

end TableQuery.Sql
