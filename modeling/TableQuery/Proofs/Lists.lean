import Mathlib.Data.List.Forall2
import Mathlib.Data.List.Nodup
import Mathlib.Data.String.Basic
import TableQuery.Operator.Basic

/-!
# Lists side by side

## Main results

* `forall₂_exists_right`, `forall₂_exists_left` — every item has its counterpart.
* `exists_forall₂`, `forall₂_trans` — lists of counterparts.
* `forall₂_map_eq`, `forall_mem_iff_of_forall₂` — what counterparts agree on.
* `mapM_eq_some_iff`, `isSome_mapM_iff`, `mapM_eq_self_iff` — what a partial function makes of a
  list.
* `forall₂_find?_right`, `forall₂_find?_left` — so has the first item that satisfies a test.
* `forall₂_find?_bind` — what is read off this item.
* `find?_reverse_bind` — the same item is found from both ends.
* `pairwise_of_forall₂` — what holds along one list holds of the counterparts.
* `find?_key_eq_some_iff`, `find?_key_of_perm` — where keys are different, the item of a key is
  found by it, in whatever order.
* `lookup_of_forall₂` — where keys are different, a lookup finds the counterpart.
* `nodup_firstByKey`, `firstByKey_eq_self`, `filter_firstByKey_cons` — the first items of their
  keys.
* `pairwise_sortByKey`, `eq_of_increasing` — items in strict order of their keys.
* `takeWhile_append_stop`, `dropWhile_append_stop` — an item that fails a test stops it.
-/

namespace TableQuery

variable {α β : Type} {R : α → β → Prop} {as : List α} {bs : List β}

theorem forall₂_exists_right (h : List.Forall₂ R as bs) {a : α} (ha : a ∈ as) :
    ∃ b ∈ bs, R a b := by
  induction h with
  | nil => cases ha
  | cons hab _ ih =>
    rcases List.mem_cons.mp ha with rfl | ha
    · exact ⟨_, List.mem_cons_self, hab⟩
    · obtain ⟨b, hb, h⟩ := ih ha
      exact ⟨b, List.mem_cons_of_mem _ hb, h⟩

theorem forall₂_exists_left (h : List.Forall₂ R as bs) {b : β} (hb : b ∈ bs) :
    ∃ a ∈ as, R a b :=
  forall₂_exists_right h.flip hb

theorem exists_forall₂ (h : ∀ a ∈ as, ∃ b, R a b) : ∃ bs, List.Forall₂ R as bs := by
  induction as with
  | nil => exact ⟨[], .nil⟩
  | cons a as ih =>
    rw [List.forall_mem_cons] at h
    obtain ⟨b, hb⟩ := h.1
    obtain ⟨bs, hbs⟩ := ih h.2
    exact ⟨b :: bs, .cons hb hbs⟩

theorem forall₂_trans {γ : Type} {S : β → γ → Prop} {T : α → γ → Prop} {cs : List γ}
    (h : List.Forall₂ R as bs) (h' : List.Forall₂ S bs cs)
    (hT : ∀ a ∈ as, ∀ b c, R a b → S b c → T a c) : List.Forall₂ T as cs := by
  induction h generalizing cs with
  | nil =>
    cases h'
    exact .nil
  | cons hab _ ih =>
    obtain ⟨c, rest, hbc, hrest, rfl⟩ := List.forall₂_cons_left_iff.mp h'
    rw [List.forall_mem_cons] at hT
    exact .cons (hT.1 _ c hab hbc) (ih hrest hT.2)

/-- What counterparts agree on is the same along both lists. -/
theorem forall₂_map_eq {γ : Type} {f : α → γ} {g : β → γ} (h : List.Forall₂ R as bs)
    (hfg : ∀ a b, R a b → f a = g b) : as.map f = bs.map g := by
  induction h with
  | nil => rfl
  | cons hab _ ih => rw [List.map_cons, List.map_cons, hfg _ _ hab, ih]

/-- Where counterparts agree about a property, all items of both lists have it or not. -/
theorem forall_mem_iff_of_forall₂ {p : α → Prop} {q : β → Prop} (h : List.Forall₂ R as bs)
    (hpq : ∀ a b, R a b → (p a ↔ q b)) : (∀ a ∈ as, p a) ↔ ∀ b ∈ bs, q b := by
  induction h with
  | nil => simp
  | cons hab _ ih => rw [List.forall_mem_cons, List.forall_mem_cons, hpq _ _ hab, ih]

theorem mapM_eq_some_iff {f : α → Option β} :
    as.mapM f = some bs ↔ List.Forall₂ (fun a b => f a = some b) as bs := by
  induction as generalizing bs with
  | nil => simp [eq_comm]
  | cons a as ih =>
    simp only [List.mapM_cons, Option.pure_def, Option.bind_eq_bind, Option.bind_eq_some_iff,
      Option.some.injEq, List.forall₂_cons_left_iff, ih]
    exact ⟨fun ⟨b, hb, rest, hrest, hbs⟩ => ⟨b, rest, hb, hrest, hbs.symm⟩,
      fun ⟨b, rest, hb, hrest, hbs⟩ => ⟨b, hb, rest, hrest, hbs.symm⟩⟩

theorem isSome_mapM_iff {f : α → Option β} :
    (as.mapM f).isSome = true ↔ ∀ a ∈ as, (f a).isSome = true := by
  simp only [Option.isSome_iff_exists, mapM_eq_some_iff]
  refine ⟨fun ⟨bs, h⟩ a ha => ?_, exists_forall₂⟩
  obtain ⟨b, -, hb⟩ := forall₂_exists_right h ha
  exact ⟨b, hb⟩

theorem mapM_eq_self_iff {f : α → Option α} : as.mapM f = some as ↔ ∀ a ∈ as, f a = some a := by
  rw [mapM_eq_some_iff, List.forall₂_same]

/-- What holds along a list, two by two, holds of the counterparts. -/
theorem pairwise_of_forall₂ {S : α → α → Prop} {T : β → β → Prop} (h : List.Forall₂ R as bs)
    (hT : bs.Pairwise T) (hST : ∀ a a' b b', R a b → R a' b' → T b b' → S a a') :
    as.Pairwise S := by
  induction h with
  | nil => exact .nil
  | @cons a b as bs hab hrest ih =>
    rw [List.pairwise_cons] at hT
    refine .cons (fun a' ha' => ?_) (ih hT.2)
    obtain ⟨b', hb', hab'⟩ := forall₂_exists_right hrest ha'
    exact hST a a' b b' hab hab' (hT.1 b' hb')

theorem forall₂_find?_right {p : α → Bool} {q : β → Bool} (h : List.Forall₂ R as bs)
    (hpq : ∀ a b, R a b → p a = q b) {a : α} (ha : as.find? p = some a) :
    ∃ b, bs.find? q = some b ∧ R a b := by
  induction h with
  | nil => cases ha
  | @cons first second as bs hfirst _ ih =>
    have heq := hpq first second hfirst
    cases hp : p first with
    | true =>
      rw [List.find?_cons_of_pos hp] at ha
      obtain rfl := Option.some.inj ha
      exact ⟨second, List.find?_cons_of_pos (heq ▸ hp), hfirst⟩
    | false =>
      rw [List.find?_cons_of_neg (by simp [hp])] at ha
      rw [List.find?_cons_of_neg (by simp [← heq, hp])]
      exact ih ha

theorem forall₂_find?_left {p : α → Bool} {q : β → Bool} (h : List.Forall₂ R as bs)
    (hpq : ∀ a b, R a b → p a = q b) {b : β} (hb : bs.find? q = some b) :
    ∃ a, as.find? p = some a ∧ R a b :=
  forall₂_find?_right h.flip (fun b a hab => (hpq a b hab).symm) hb

/-- What is read off the first items that satisfy a test is the same on both sides. -/
theorem forall₂_find?_bind {γ : Type} {p : α → Bool} {q : β → Bool} {f : α → Option γ}
    {g : β → Option γ} (h : List.Forall₂ R as bs) (hpq : ∀ a b, R a b → p a = q b)
    (hfg : ∀ a b, R a b → f a = g b) : (as.find? p).bind f = (bs.find? q).bind g := by
  induction h with
  | nil => rfl
  | @cons a b as bs hab _ ih =>
    rw [List.find?_cons, List.find?_cons, ← hpq a b hab]
    cases p a with
    | true => exact hfg a b hab
    | false => exact ih

/-- Where items that satisfy a test agree, it does not matter from which end the first is found. -/
theorem find?_reverse_bind {γ : Type} {p : α → Bool} {f : α → Option γ}
    (h : ∀ a ∈ as, p a = true → ∀ b ∈ as, p b = true → f a = f b) :
    (as.reverse.find? p).bind f = (as.find? p).bind f := by
  cases hlast : as.reverse.find? p with
  | none =>
    have hnone : as.find? p = none := by
      rw [List.find?_eq_none] at hlast ⊢
      exact fun a ha => hlast a (List.mem_reverse.mpr ha)
    rw [hnone]
  | some b =>
    have hb := List.mem_reverse.mp (List.mem_of_find?_eq_some hlast)
    have hpb := List.find?_some hlast
    cases hfirst : as.find? p with
    | none => exact absurd hpb (List.find?_eq_none.mp hfirst b hb)
    | some a => exact h b hb hpb a (List.mem_of_find?_eq_some hfirst) (List.find?_some hfirst)

/-- Where keys are different, the item of a key is found by it. -/
theorem find?_key_eq_some_iff {key : α → String} (hn : (as.map key).Nodup) {k : String} {a : α} :
    as.find? (fun b => key b == k) = some a ↔ a ∈ as ∧ key a = k := by
  constructor
  · intro h
    exact ⟨List.mem_of_find?_eq_some h, by simpa using List.find?_some h⟩
  · rintro ⟨ha, rfl⟩
    cases h : as.find? fun b => key b == key a with
    | none =>
      rw [List.find?_eq_none] at h
      exact absurd (h a ha) (by simp)
    | some b =>
      have hkey : key b = key a := by simpa using List.find?_some h
      rw [List.inj_on_of_nodup_map hn (List.mem_of_find?_eq_some h) ha hkey]

/-- Where keys are different, it does not matter in which order items are searched. -/
theorem find?_key_of_perm {key : α → String} {as' : List α} (h : as.Perm as')
    (hn : (as.map key).Nodup) (k : String) :
    as.find? (fun a => key a == k) = as'.find? fun a => key a == k := by
  have hn' : (as'.map key).Nodup := (h.map key).nodup_iff.mp hn
  apply Option.ext
  intro a
  rw [find?_key_eq_some_iff hn, find?_key_eq_some_iff hn', h.mem_iff]

/-- Where keys are different, what is looked up by the key of an item is its counterpart. -/
theorem lookup_of_forall₂ {key : α → String} {P : α → β → Prop} {bs : List (String × β)} {a : α}
    (hn : (as.map key).Nodup) (h : List.Forall₂ (fun a b => b.1 = key a ∧ P a b.2) as bs)
    (ha : a ∈ as) : ∃ b, P a b ∧ bs.lookup (key a) = some b := by
  induction h with
  | nil => cases ha
  | @cons a' b as bs hb _ ih =>
    obtain ⟨name, b⟩ := b
    obtain ⟨rfl, hb⟩ := hb
    rw [List.map_cons, List.nodup_cons] at hn
    rw [List.lookup_cons]
    rcases List.mem_cons.mp ha with rfl | ha
    · exact ⟨b, hb, by simp⟩
    · have hne : ¬ key a = key a' := fun heq => hn.1 (heq ▸ List.mem_map_of_mem ha)
      rw [beq_false_of_ne hne]
      exact ih hn.2 ha

theorem mem_of_mem_firstByKey {key : α → String} {a : α}
    (h : a ∈ firstByKey key as) : a ∈ as := by
  induction as with
  | nil => simp [firstByKey] at h
  | cons b as ih =>
    simp only [firstByKey, List.mem_cons, List.mem_filter] at h
    rcases h with rfl | ⟨h, -⟩
    · exact List.mem_cons_self
    · exact List.mem_cons_of_mem _ (ih h)

theorem exists_mem_firstByKey (key : α → String) {a : α} (ha : a ∈ as) :
    ∃ b ∈ firstByKey key as, key b = key a := by
  induction as with
  | nil => cases ha
  | cons b as ih =>
    rw [firstByKey]
    by_cases hkey : key b = key a
    · exact ⟨b, List.mem_cons_self, hkey⟩
    · rcases List.mem_cons.mp ha with rfl | ha
      · exact absurd rfl hkey
      · obtain ⟨c, hc, hcb⟩ := ih ha
        refine ⟨c, List.mem_cons_of_mem b (List.mem_filter.mpr ⟨hc, ?_⟩), hcb⟩
        simpa [hcb] using Ne.symm hkey

theorem nodup_firstByKey (key : α → String) (as : List α) :
    ((firstByKey key as).map key).Nodup := by
  induction as with
  | nil => exact List.nodup_nil
  | cons a as ih =>
    rw [firstByKey, List.map_cons, List.nodup_cons]
    refine ⟨fun hmem => ?_, ih.sublist (List.filter_sublist.map _)⟩
    obtain ⟨b, hb, hkey⟩ := List.mem_map.mp hmem
    simpa [hkey] using (List.mem_filter.mp hb).2

theorem firstByKey_eq_self {key : α → String}
    (h : (as.map key).Nodup) : firstByKey key as = as := by
  induction as with
  | nil => rfl
  | cons a as ih =>
    rw [List.map_cons, List.nodup_cons] at h
    rw [firstByKey, ih h.2, List.filter_eq_self.mpr]
    intro b hb
    have hne : key b ≠ key a := fun heq => h.1 (heq ▸ List.mem_map_of_mem hb)
    simpa using hne

/-- Of a list with one item more, what is left of the first items where some keys were seen. -/
theorem filter_firstByKey_cons (key : α → String) (seen : List String) (a : α) (as : List α) :
    (firstByKey key (a :: as)).filter (fun b => !seen.contains (key b)) =
      if seen.contains (key a) then (firstByKey key as).filter fun b => !seen.contains (key b)
      else a :: (firstByKey key as).filter fun b => !(key a :: seen).contains (key b) := by
  rw [firstByKey]
  split
  · next hseen =>
    rw [List.filter_cons_of_neg (by simpa using hseen), List.filter_filter]
    refine List.filter_congr fun b _ => ?_
    grind
  · next hseen =>
    rw [List.filter_cons_of_pos (by simpa using hseen), List.filter_filter]
    congr 1
    refine List.filter_congr fun b _ => ?_
    grind

theorem sortByKey_perm (key : α → String) (as : List α) : (sortByKey key as).Perm as :=
  List.mergeSort_perm as _

theorem mem_of_mem_sortByKey {key : α → String} {a : α}
    (h : a ∈ sortByKey key as) : a ∈ as :=
  (sortByKey_perm key as).mem_iff.mp h

/-- Items with different keys are sorted strictly. -/
theorem pairwise_sortByKey {key : α → String} (hn : (as.map key).Nodup) :
    (sortByKey key as).Pairwise fun a b => key a < key b := by
  have hsorted : (sortByKey key as).Pairwise fun a b => decide (key a ≤ key b) = true := by
    apply List.pairwise_mergeSort
    · intro a b c hab hbc
      simp only [decide_eq_true_eq] at hab hbc ⊢
      exact String.le_trans hab hbc
    · intro a b
      simpa using String.le_total (key a) (key b)
  have hdistinct : (sortByKey key as).Pairwise fun a b => key a ≠ key b :=
    List.pairwise_map.mp (((sortByKey_perm key as).map key).nodup_iff.mpr hn)
  refine (hsorted.and hdistinct).imp fun h => ?_
  exact lt_of_le_of_ne (of_decide_eq_true h.1) h.2

/-- Items can be put in strict order in one way only. -/
theorem eq_of_increasing {key : α → String} {as' : List α}
    (h : as.Pairwise fun a b => key a < key b) (h' : as'.Pairwise fun a b => key a < key b)
    (hperm : as.Perm as') : as = as' :=
  hperm.eq_of_pairwise (fun _ _ _ _ hab hba => absurd hba (lt_asymm hab)) h h'

section Stop

variable {p : α → Bool} {s t : List α} {c : α}

theorem takeWhile_append_stop (hc : p c = false) :
    (s ++ c :: t).takeWhile p = s.takeWhile p := by
  induction s with
  | nil => simp [hc]
  | cons d s ih => by_cases hd : p d <;> simp [hd, ih]

theorem takeWhile_append_of_head (hs : ∀ d ∈ s, p d = true) (ht : ∀ d ∈ t.head?, p d = false) :
    (s ++ t).takeWhile p = s := by
  rw [List.takeWhile_append_of_pos hs]
  cases t with
  | nil => simp
  | cons c t => simp [ht c rfl]

theorem dropWhile_append_stop (hc : p c = false) :
    (s ++ c :: t).dropWhile p = s.dropWhile p ++ c :: t := by
  induction s with
  | nil => simp [hc]
  | cons d s ih => by_cases hd : p d <;> simp [hd, ih]

theorem dropWhile_append_of_head (hs : ∀ d ∈ s, p d = true) (ht : ∀ d ∈ t.head?, p d = false) :
    (s ++ t).dropWhile p = t := by
  rw [List.dropWhile_append_of_pos hs]
  cases t with
  | nil => rfl
  | cons c t => simp [ht c rfl]

end Stop

end TableQuery
