import TableQuery.Json.Reader
import TableQuery.Proofs.Json.Range

/-!
# Written JSON is read back

Every value is written as a text that can be read. Texts, truth values and what holds them are read
back as they are; a number is read as the number that its digits mean, and what has no text as null.

## Main definitions

* `Json.reread` — what the text of a value is read as.
* `Json.RoundTrips` — a double is read back.

## Main results

* `Json.readString?_escaped` — the escapes of a text are read back.
* `Json.readValue?_write` — so is a value at the start of a text.
* `Json.parseLoose?_write` — the text of a value, read as a whole.
-/

namespace TableQuery.Json

/-! ## Texts -/

section Strings

variable {c : Char} {cs rest : List Char}

/-- Behind the backslash of its escape, a character is read back. -/
theorem readEscape?_of_escaped (h : c = '"' ∨ c = '\\' ∨ c.toNat < 32) :
    ∃ e, escaped c = '\\' :: e ∧ ∀ s, readEscape? (e ++ s) = some (some c, s) := by
  rcases h with rfl | rfl | h
  · exact ⟨_, rfl, fun s => rfl⟩
  · exact ⟨_, rfl, fun s => rfl⟩
  · obtain ⟨n, hn, rfl⟩ : ∃ n < 32, c = Char.ofNat n := ⟨c.toNat, h, (Char.ofNat_toNat c).symm⟩
    interval_cases n <;> exact ⟨_, rfl, fun s => rfl⟩

theorem readStringOnto?_escaped (c : Char) (acc s : List Char) (fuel : Nat) :
    readStringOnto? (some acc) (fuel + 1) (escaped c ++ s) =
      readStringOnto? (some (c :: acc)) fuel s := by
  by_cases h : c = '"' ∨ c = '\\' ∨ c.toNat < 32
  · obtain ⟨e, he, hread⟩ := readEscape?_of_escaped h
    rw [he, List.cons_append, readStringOnto?]
    simp [hread]
  · simp only [not_or] at h
    obtain ⟨hquote, hslash, hcontrol⟩ := h
    have hplain : escaped c = [c] := by
      have hne {n : Nat} (hn : n < 32) : c ≠ Char.ofNat n := by
        rintro rfl
        exact hcontrol (by interval_cases n <;> decide)
      simp only [escaped, hquote, hslash, hcontrol, if_false,
        show c ≠ '\x08' from hne (by norm_num : 8 < 32),
        show c ≠ '\x0c' from hne (by norm_num : 12 < 32),
        show c ≠ '\n' from hne (by norm_num : 10 < 32),
        show c ≠ '\r' from hne (by norm_num : 13 < 32),
        show c ≠ '\t' from hne (by norm_num : 9 < 32)]
    rw [hplain, List.singleton_append, readStringOnto?, if_neg hquote, if_neg hslash,
      if_neg hcontrol]
    rfl

theorem readStringOnto?_quoted (cs rest acc : List Char) {fuel : Nat} (h : cs.length < fuel) :
    readStringOnto? (some acc) fuel (cs.flatMap escaped ++ '"' :: rest) =
      some (some (String.ofList (acc.reverse ++ cs)), rest) := by
  induction cs generalizing acc fuel with
  | nil =>
    obtain ⟨fuel, rfl⟩ := Nat.exists_eq_succ_of_ne_zero h.ne_bot
    simp [readStringOnto?]
  | cons c cs ih =>
    obtain ⟨fuel, rfl⟩ := Nat.exists_eq_succ_of_ne_zero (Nat.ne_zero_of_lt h)
    rw [List.flatMap_cons, List.append_assoc, readStringOnto?_escaped, ih]
    · simp
    · simpa using h

theorem length_le_escaped (cs : List Char) : cs.length ≤ (cs.flatMap escaped).length := by
  have hpos (c : Char) : 1 ≤ (escaped c).length := by
    unfold escaped
    split_ifs <;> simp
  induction cs with
  | nil => simp
  | cons c cs ih =>
    have := hpos c
    rw [List.flatMap_cons, List.length_append, List.length_cons]
    omega

/-- Behind the opening quote, a text with its escapes is read back. -/
theorem readString?_escaped (s : String) (rest : List Char) :
    readString? (s.toList.flatMap escaped ++ '"' :: rest) = some (some s, rest) := by
  have hle := length_le_escaped s.toList
  rw [readString?, readStringOnto?_quoted]
  · simp
  · rw [List.length_append, List.length_cons]
    omega

end Strings

/-! ## What is read back -/

/-- The number at the start of a text, or null. -/
def number (text : List Char) : Json :=
  ((readNumber? text).map Prod.fst).getD .null

theorem ReadsNumber.number_eq {text : List Char} {j : Json} (h : ReadsNumber text j) :
    number text = j := by
  have hread := h.read [] trivial
  rw [List.append_nil] at hread
  rw [number, hread]
  rfl

theorem readsNumber_number_signed (i : ℤ) :
    ReadsNumber (Text.signed i) (number (Text.signed i)) := by
  obtain ⟨j, h⟩ := exists_readsNumber_signed i
  rwa [h.number_eq]

/-- What the text of a double is read as. -/
def rereadFloat (x : Float) : Json :=
  ((Decimal.interchange? x).map number).getD .null

/-- A double is read back from the number that it is written as. -/
def RoundTrips (x : Float) : Prop :=
  ∃ text, Decimal.interchange? x = some text ∧ readNumber? text = some (.float x, [])

theorem float?_rereadFloat_eq_iff {x : Float} :
    (rereadFloat x).float? = some x ↔ RoundTrips x := by
  by_cases hx : x.isFinite = true
  · obtain ⟨text, y, htext, hread⟩ := exists_readsNumber_of_isFinite hx
    have hnumber := hread.read [] trivial
    rw [List.append_nil] at hnumber
    simp [rereadFloat, RoundTrips, htext, hread.number_eq, hnumber, float?]
  · simp [rereadFloat, RoundTrips, interchange?_of_not_isFinite hx, float?]

-- The quotient that is computed from these digits is rounded twice, and is the next double.
example : (rereadFloat 31.245270191439438).float? ≠ some 31.245270191439438 := by
  decide +kernel

mutual

/-- What the text of a value is read as, where `depth` arrays and objects inside each other are
readable. -/
def reread (depth : Nat) : Json → Json
  | .null | .unreadable => .null
  | .bool b => .bool b
  | .int i => number (Text.signed i)
  | .float x => rereadFloat x
  | .str s => .str s
  | .arr items => within depth (.arr (rereadItems (depth - 1) items))
  | .obj members => within depth (.obj (rereadMembers (depth - 1) members))

def rereadItems (depth : Nat) : List Json → List Json
  | [] => []
  | item :: items => reread depth item :: rereadItems depth items

def rereadMembers (depth : Nat) : List (String × Json) → List (String × Json)
  | [] => []
  | (name, value) :: members => (name, reread depth value) :: rereadMembers depth members

end

@[simp] theorem rereadItems_eq_map (depth : Nat) (items : List Json) :
    rereadItems depth items = items.map (reread depth) := by
  induction items with
  | nil => rfl
  | cons item items ih => rw [rereadItems, ih, List.map_cons]

@[simp] theorem reread_arr (depth : Nat) (items : List Json) :
    reread (depth + 1) (.arr items) = .arr (items.map (reread depth)) := by
  rw [← rereadItems_eq_map]
  rfl

@[simp] theorem reread_obj (depth : Nat) (members : List (String × Json)) :
    reread (depth + 1) (.obj members) = .obj (rereadMembers depth members) := rfl

theorem reread_int {i : ℤ} (hlo : -2 ^ 63 ≤ i) (hhi : i < 2 ^ 64) (depth : Nat) :
    reread depth (.int i) = .int i :=
  (readsNumber_signed hlo hhi).number_eq

theorem ofMembers?_named (members : List (String × Json)) :
    ofMembers? (members.map fun m => (some m.1, m.2)) = .obj members := by
  have hnames : (members.map fun m => (some m.1, m.2)).mapM
      (fun (m : Option String × Json) => m.1.map fun name => (name, m.2)) = some members := by
    induction members with
    | nil => rfl
    | cons m members ih => simp [ih]
  unfold ofMembers?
  rw [hnames]

/-! ## The beginning of a text -/

/-- A text that neither begins with a gap nor closes what holds it. -/
def Begins (s : List Char) : Prop :=
  ∃ c t, s = c :: t ∧ isGap c = false ∧ c ≠ ']' ∧ c ≠ '\x7d'

theorem Begins.append {s : List Char} (h : Begins s) (t : List Char) : Begins (s ++ t) := by
  obtain ⟨c, u, rfl, h⟩ := h
  exact ⟨c, u ++ t, rfl, h⟩

theorem Begins.skipGap_eq {s : List Char} (h : Begins s) : skipGap s = s := by
  obtain ⟨c, t, rfl, hgap, -⟩ := h
  simp [skipGap, hgap]

theorem ReadsNumber.begins {text : List Char} {j : Json} (h : ReadsNumber text j) :
    Begins text := by
  obtain ⟨c, t, rfl, hc⟩ := h.head
  refine ⟨c, t, rfl, ?_, ?_, ?_⟩
  · rcases hc with hc | rfl
    · have hne {d : Char} (hd : d.isDigit = false) : (c == d) = false := by
        rw [beq_eq_false_iff_ne]
        rintro rfl
        rw [hc] at hd
        cases hd
      simp [isGap, hne]
    · rfl
  all_goals
    rintro rfl
    revert hc
    decide

theorem begins_writeChars (j : Json) : Begins (writeChars j) := by
  have hliteral (c : Char) (t : List Char) (hgap : isGap c = false) (hc : c ≠ ']')
      (hc' : c ≠ '\x7d') : Begins (c :: t) := ⟨c, t, rfl, hgap, hc, hc'⟩
  cases j with
  | null | unreadable | str | arr | obj =>
    exact hliteral _ _ rfl (by decide) (by decide)
  | bool b => cases b <;> exact hliteral _ _ rfl (by decide) (by decide)
  | int i => exact (readsNumber_number_signed i).begins
  | float x =>
    rw [writeChars]
    by_cases hx : x.isFinite = true
    · obtain ⟨text, y, htext, hread⟩ := exists_readsNumber_of_isFinite hx
      rw [htext]
      exact hread.begins
    · rw [interchange?_of_not_isFinite hx]
      exact hliteral _ _ rfl (by decide) (by decide)

/-! ## Reading what was written -/

section Read

variable {fuel depth : Nat} {rest text : List Char} {j : Json}

/-- A number is read where a value is expected. -/
theorem ReadsNumber.readValue? (h : ReadsNumber text j) (hrest : EndsNumber rest) :
    readValue? (fuel + 1) depth (text ++ rest) = some (j, rest) := by
  have hread := h.read rest hrest
  obtain ⟨c, t, rfl, hc⟩ := h.head
  have hne {d : Char} (hd : d.isDigit = false) (hd' : d ≠ '-') : c ≠ d := by
    rintro rfl
    rcases hc with hc | hc
    · rw [hd] at hc
      cases hc
    · exact hd' hc
  rw [List.cons_append] at hread ⊢
  rw [Json.readValue?.eq_def]
  dsimp only
  split
  · next heq => exact absurd (List.cons.inj heq).1 (hne rfl (by decide))
  · next heq => exact absurd (List.cons.inj heq).1 (hne rfl (by decide))
  · next heq => exact absurd (List.cons.inj heq).1 (hne rfl (by decide))
  · next heq => exact absurd (List.cons.inj heq).1 (hne rfl (by decide))
  · next heq => exact absurd (List.cons.inj heq).1 (hne rfl (by decide))
  · next heq => exact absurd (List.cons.inj heq).1 (hne rfl (by decide))
  · exact hread

theorem quoted_append (s : String) (rest : List Char) :
    quoted s ++ rest = '"' :: (s.toList.flatMap escaped ++ '"' :: rest) := by
  simp [quoted]

theorem readValue?_quoted (s : String) :
    readValue? (fuel + 1) depth (quoted s ++ rest) = some (.str s, rest) := by
  rw [quoted_append, readValue?, readString?_escaped]
  rfl

theorem begins_writeItems {items : List Json} (h : items ≠ []) : Begins (writeItems items) := by
  match items, h with
  | [item], _ => exact begins_writeChars item
  | item :: next :: items, _ => exact (begins_writeChars item).append _

theorem begins_writeMembers {members : List (String × Json)} (h : members ≠ []) :
    Begins (writeMembers members) := by
  match members, h with
  | [(name, value)], _ => exact ⟨'"', _, rfl, rfl, by decide, by decide⟩
  | (name, value) :: next :: members, _ => exact ⟨'"', _, rfl, rfl, by decide, by decide⟩

theorem readValue?_bracket {s : List Char} {items : List Json} (hs : Begins s)
    (h : readItems? fuel (depth - 1) s = some (items, rest)) :
    readValue? (fuel + 1) depth ('[' :: s) = some (within depth (.arr items), rest) := by
  rw [readValue?, hs.skipGap_eq]
  obtain ⟨c, t, rfl, -, hc, -⟩ := hs
  split
  · next heq => exact absurd (List.cons.inj heq).1 hc
  · rw [h]
    rfl

theorem readValue?_brace {s : List Char} {members : List (String × Json)} (hs : Begins s)
    (h : readMembers? fuel (depth - 1) s =
      some (members.map fun m => (some m.1, m.2), rest)) :
    readValue? (fuel + 1) depth ('\x7b' :: s) = some (within depth (.obj members), rest) := by
  rw [readValue?, hs.skipGap_eq]
  obtain ⟨c, t, rfl, -, -, hc⟩ := hs
  split
  · next heq => exact absurd (List.cons.inj heq).1 hc
  · rw [h, Option.map_some]
    dsimp only
    rw [ofMembers?_named]

end Read

theorem skipGap_comma (s : List Char) : skipGap (',' :: s) = ',' :: s := rfl

theorem skipGap_colon (s : List Char) : skipGap (':' :: s) = ':' :: s := rfl

theorem skipGap_brace (s : List Char) : skipGap ('\x7d' :: s) = '\x7d' :: s := rfl

theorem endsNumber_comma (s : List Char) : EndsNumber (',' :: s) :=
  ⟨rfl, by decide, by decide, by decide⟩

theorem endsNumber_bracket (s : List Char) : EndsNumber (']' :: s) :=
  ⟨rfl, by decide, by decide, by decide⟩

theorem endsNumber_brace (s : List Char) : EndsNumber ('\x7d' :: s) :=
  ⟨rfl, by decide, by decide, by decide⟩

theorem writeItems_cons_cons (item next : Json) (items : List Json) :
    writeItems (item :: next :: items) = writeChars item ++ ',' :: writeItems (next :: items) :=
  rfl

theorem writeMembers_cons_cons (name : String) (value : Json) (next : String × Json)
    (members : List (String × Json)) :
    writeMembers ((name, value) :: next :: members) =
      quoted name ++ ':' :: writeChars value ++ ',' :: writeMembers (next :: members) :=
  rfl

mutual

/-- A value at the start of a text is read back, as far as its text tells it. -/
theorem readValue?_write (depth : Nat) : ∀ (j : Json) {fuel : Nat} {rest : List Char},
    2 * (writeChars j).length ≤ fuel → EndsNumber rest →
      readValue? fuel depth (writeChars j ++ rest) = some (reread depth j, rest)
  | .null, fuel + 1, rest, _, _ => rfl
  | .unreadable, fuel + 1, rest, _, _ => rfl
  | .bool true, fuel + 1, rest, _, _ => rfl
  | .bool false, fuel + 1, rest, _, _ => rfl
  | .int i, fuel + 1, rest, _, hrest => (readsNumber_number_signed i).readValue? hrest
  | .float x, fuel + 1, rest, _, hrest => by
    rw [writeChars, reread, rereadFloat]
    by_cases hx : x.isFinite = true
    · obtain ⟨text, y, htext, hread⟩ := exists_readsNumber_of_isFinite hx
      rw [htext, Option.map_some, hread.number_eq]
      exact hread.readValue? hrest
    · rw [interchange?_of_not_isFinite hx]
      rfl
  | .str s, fuel + 1, rest, _, _ => readValue?_quoted s
  | .arr [], fuel + 1, rest, _, _ => rfl
  | .arr (item :: items), fuel + 1, rest, hfuel, _ => by
    have hne : item :: items ≠ [] := List.cons_ne_nil _ _
    rw [writeChars, List.length_append, List.length_cons] at hfuel
    have hitems := @readItems?_write (depth - 1) (item :: items) hne fuel rest (by omega)
    rw [writeChars, List.append_assoc, List.cons_append, List.singleton_append]
    exact readValue?_bracket ((begins_writeItems hne).append _) hitems
  | .obj [], fuel + 1, rest, _, _ => rfl
  | .obj (member :: members), fuel + 1, rest, hfuel, _ => by
    have hne : member :: members ≠ [] := List.cons_ne_nil _ _
    rw [writeChars, List.length_append, List.length_cons] at hfuel
    have hmembers := @readMembers?_write (depth - 1) (member :: members) hne fuel rest (by omega)
    rw [writeChars, List.append_assoc, List.cons_append, List.singleton_append]
    exact readValue?_brace ((begins_writeMembers hne).append _) hmembers
  | j, 0, rest, hfuel, _ => by
    obtain ⟨c, t, hj, -⟩ := begins_writeChars j
    rw [hj] at hfuel
    simp at hfuel

theorem readItems?_write (depth : Nat) : ∀ (items : List Json), items ≠ [] → ∀ {fuel : Nat}
    {rest : List Char}, 2 * (writeItems items).length + 1 ≤ fuel →
      readItems? fuel depth (writeItems items ++ ']' :: rest) =
        some (rereadItems depth items, rest)
  | [item], _, fuel + 1, rest, hfuel => by
    rw [writeItems] at hfuel ⊢
    rw [readItems?, readValue?_write depth item (by omega) (endsNumber_bracket rest)]
    rfl
  | item :: next :: items, _, fuel + 1, rest, hfuel => by
    have hne : next :: items ≠ [] := List.cons_ne_nil _ _
    rw [writeItems_cons_cons, List.length_append, List.length_cons] at hfuel
    have hitem := @readValue?_write depth item fuel
      (',' :: (writeItems (next :: items) ++ ']' :: rest)) (by omega) (endsNumber_comma _)
    have hitems := @readItems?_write depth (next :: items) hne fuel rest (by omega)
    rw [writeItems_cons_cons, List.append_assoc, List.cons_append, readItems?, hitem]
    simp only [Option.bind_eq_bind, Option.bind_some, skipGap_comma,
      ((begins_writeItems hne).append _).skipGap_eq, hitems, rereadItems]

theorem readMembers?_write (depth : Nat) : ∀ (members : List (String × Json)), members ≠ [] →
    ∀ {fuel : Nat} {rest : List Char}, 2 * (writeMembers members).length + 1 ≤ fuel →
      readMembers? fuel depth (writeMembers members ++ '\x7d' :: rest) =
        some ((rereadMembers depth members).map fun m => (some m.1, m.2), rest)
  | [(name, value)], _, fuel + 1, rest, hfuel => by
    rw [writeMembers, List.length_append, List.length_cons] at hfuel
    have hvalue := @readValue?_write depth value fuel ('\x7d' :: rest) (by omega)
      (endsNumber_brace rest)
    rw [writeMembers, List.append_assoc, quoted_append, readMembers?, readString?_escaped]
    simp only [Option.bind_eq_bind, Option.bind_some, List.cons_append, skipGap_colon,
      ((begins_writeChars value).append _).skipGap_eq, hvalue, skipGap_brace, rereadMembers,
      List.map_cons, List.map_nil]
  | (name, value) :: next :: members, _, fuel + 1, rest, hfuel => by
    have hne : next :: members ≠ [] := List.cons_ne_nil _ _
    rw [writeMembers_cons_cons, List.length_append, List.length_append, List.length_cons,
      List.length_cons] at hfuel
    have hvalue := @readValue?_write depth value fuel
      (',' :: (writeMembers (next :: members) ++ '\x7d' :: rest)) (by omega) (endsNumber_comma _)
    have hmembers := @readMembers?_write depth (next :: members) hne fuel rest (by omega)
    rw [writeMembers_cons_cons, List.append_assoc, List.append_assoc, quoted_append, readMembers?,
      readString?_escaped]
    simp only [Option.bind_eq_bind, Option.bind_some, List.cons_append, skipGap_colon,
      ((begins_writeChars value).append _).skipGap_eq, hvalue, skipGap_comma,
      ((begins_writeMembers hne).append _).skipGap_eq, hmembers, rereadMembers, List.map_cons]

end

/-- The text of a value, read as a whole. -/
theorem parseLoose?_write (j : Json) : parseLoose? j.write = some (reread 127 j) := by
  have hread := @readValue?_write 127 j (2 * (writeChars j).length + 2) [] (by omega) trivial
  rw [List.append_nil] at hread
  rw [parseLoose?, write, String.toList_ofList, parseChars?, (begins_writeChars j).skipGap_eq,
    hread]
  rfl

end TableQuery.Json
