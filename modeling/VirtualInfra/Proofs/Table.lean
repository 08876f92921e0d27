import Mathlib.Data.List.Pairwise
import Mathlib.Data.List.Sort
import VirtualInfra.Table

namespace VirtualInfra.Table

variable {α β : Type}

theorem insertEntry_of_lt {k : String} {a : α} {es : List (String × α)}
    (h : ∀ e ∈ es, e.1 < k) : insertEntry k a es = es ++ [(k, a)] := by
  induction es with
  | nil => rfl
  | cons e es ih =>
      have he := h e List.mem_cons_self
      rw [insertEntry, if_neg fun hk => String.lt_irrefl _ (String.lt_trans hk he),
        if_neg fun hk => String.lt_irrefl _ (hk ▸ he),
        ih fun e he => h e (List.mem_cons_of_mem _ he)]
      rfl

theorem map_insertEntry (f : α → β) (k : String) (a : α) (es : List (String × α)) :
    (insertEntry k a es).map (fun e => (e.1, f e.2)) =
      insertEntry k (f a) (es.map fun e => (e.1, f e.2)) := by
  induction es with
  | nil => rfl
  | cons e es ih =>
      rw [insertEntry, List.map_cons, insertEntry]
      split
      · rfl
      · split
        · rfl
        · rw [List.map_cons, ih]

theorem foldl_insert (t t' : Table α) (es : List (String × α)) (h : t'.entries = t.entries ++ es) :
    es.foldl (fun t e => t.insert e.1 e.2) t = t' := by
  induction es generalizing t with
  | nil =>
      rw [List.append_nil] at h
      cases t
      cases t'
      cases h
      rfl
  | cons e es ih =>
      rw [List.foldl_cons]
      apply ih _
      have hs := t'.sorted
      rw [h, List.pairwise_append] at hs
      change _ = insertEntry e.1 e.2 t.entries ++ es
      rw [h, insertEntry_of_lt fun x hx => hs.2.2 x hx e List.mem_cons_self, List.append_assoc]
      rfl

theorem ofList_entries (t : Table α) : ofList t.entries = t :=
  foldl_insert empty t t.entries rfl

theorem get?_eq_some_iff_mem {t : Table α} {k : String} {a : α} :
    t.get? k = some a ↔ (k, a) ∈ t.entries := by
  rcases t with ⟨es, hs⟩
  change es.lookup k = some a ↔ (k, a) ∈ es
  induction es with
  | nil => simp
  | cons e es ih =>
      have he := List.pairwise_cons.1 hs
      rw [lookup_cons_eq_ite, List.mem_cons]
      split
      · next hk =>
          constructor
          · intro h
            cases h
            exact .inl (by rw [hk])
          · rintro (h | h)
            · rw [← h]
            · exact absurd (he.1 _ h) (hk ▸ String.lt_irrefl _)
      · next hk =>
          rw [ih he.2]
          exact ⟨.inr, fun h => h.resolve_left fun h => hk (by rw [← h])⟩

theorem filter_insertEntry (k : String) (a : α) (es : List (String × α)) :
    (insertEntry k a es).filter (·.1 ≠ k) = es.filter (·.1 ≠ k) := by
  induction es with
  | nil => simp [insertEntry]
  | cons e es ih =>
      rw [insertEntry]
      split
      · rw [List.filter_cons_of_neg (by simp)]
      · split
        · next hk => rw [List.filter_cons_of_neg (by simp), List.filter_cons_of_neg (by simp [hk])]
        · next hk =>
            rw [List.filter_cons_of_pos (by simpa using Ne.symm hk),
              List.filter_cons_of_pos (by simpa using Ne.symm hk), ih]

theorem filter_of_lookup_eq_none {k : String} {es : List (String × α)} (h : es.lookup k = none) :
    es.filter (·.1 ≠ k) = es := by
  rw [List.filter_eq_self]
  intro e he
  simpa using Ne.symm (bne_iff_ne.1 (List.lookup_eq_none_iff.1 h e he))

/-- An entry that is put where there was none and is taken away again leaves no trace. -/
theorem erase_insert {t : Table α} {k : String} (h : t.get? k = none) (a : α) :
    (t.insert k a).erase k = t := by
  rcases t with ⟨es, hs⟩
  have hentries : (insertEntry k a es).filter (·.1 ≠ k) = es :=
    (filter_insertEntry k a es).trans (filter_of_lookup_eq_none h)
  unfold erase insert
  simp only [hentries]

theorem erase_of_none {t : Table α} {k : String} (h : t.get? k = none) : t.erase k = t := by
  rcases t with ⟨es, hs⟩
  have hentries : es.filter (·.1 ≠ k) = es := filter_of_lookup_eq_none h
  unfold erase
  simp only [hentries]

theorem get?_insert_self (t : Table α) (k : String) (a : α) : (t.insert k a).get? k = some a := by
  rw [get?_insert, if_pos rfl]

theorem get?_insert_insert (t : Table α) (k k' : String) (a : α) :
    ((t.insert k a).insert k a).get? k' = (t.insert k a).get? k' := by
  rw [get?_insert, get?_insert]
  split
  · rfl
  · rfl

theorem mem_values_iff {t : Table α} {a : α} : a ∈ t.values ↔ ∃ k, t.get? k = some a := by
  simp only [values, List.mem_map, get?_eq_some_iff_mem]
  constructor
  · rintro ⟨⟨k, _⟩, h, rfl⟩
    exact ⟨k, h⟩
  · rintro ⟨k, h⟩
    exact ⟨(k, a), h, rfl⟩

/-- Of the values with a property the one under the least key is found. -/
theorem find?_values_eq_some_iff {t : Table α} {p : α → Bool} {a : α} :
    t.values.find? p = some a ↔ ∃ k, t.get? k = some a ∧ p a = true ∧
      ∀ k' a', k' < k → t.get? k' = some a' → p a' = false := by
  have hfirst : ∀ a, t.values.find? p = some a → ∃ k, t.get? k = some a ∧ p a = true ∧
      ∀ k' a', k' < k → t.get? k' = some a' → p a' = false := by
    intro a h
    rw [values, List.find?_map, Option.map_eq_some_iff] at h
    obtain ⟨⟨k, _⟩, h, rfl⟩ := h
    obtain ⟨hp, before, after, hsplit, hb⟩ := List.find?_eq_some_iff_append.1 h
    refine ⟨k, get?_eq_some_iff_mem.2 (List.mem_of_find?_eq_some h), hp, ?_⟩
    intro k' a' hlt hk'
    have hmem := get?_eq_some_iff_mem.1 hk'
    have hsorted := t.sorted
    rw [hsplit] at hmem hsorted
    rcases List.mem_append.1 hmem with hmem | hmem
    · simpa using hb _ hmem
    · exfalso
      rcases List.mem_cons.1 hmem with heq | hmem
      · cases heq
        exact String.lt_irrefl _ hlt
      · have hgt := (List.pairwise_cons.1 (List.pairwise_append.1 hsorted).2.1).1 _ hmem
        exact String.lt_irrefl _ (String.lt_trans hlt hgt)
  refine ⟨hfirst a, ?_⟩
  rintro ⟨k, hk, hp, hmin⟩
  have hsome : (t.values.find? p).isSome = true :=
    List.find?_isSome.2 ⟨a, mem_values_iff.2 ⟨k, hk⟩, hp⟩
  obtain ⟨a₁, ha₁⟩ := Option.isSome_iff_exists.1 hsome
  obtain ⟨k₁, hk₁, hp₁, hmin₁⟩ := hfirst a₁ ha₁
  have hge : ¬ k₁ < k := by
    intro hlt
    rw [hmin k₁ a₁ hlt hk₁] at hp₁
    cases hp₁
  have hle : ¬ k < k₁ := by
    intro hlt
    rw [hmin₁ k a hlt hk] at hp
    cases hp
  have heq : k₁ = k := Std.le_antisymm (Std.not_lt.1 hle) (Std.not_lt.1 hge)
  rw [heq, hk] at hk₁
  rw [ha₁, hk₁]
theorem contains_iff {t : Table α} {k : String} : t.contains k = true ↔ ∃ a, t.get? k = some a :=
  Option.isSome_iff_exists

theorem mem_keys_iff {t : Table α} {k : String} : k ∈ t.keys ↔ t.contains k = true := by
  rw [contains_iff, keys, List.mem_map]
  constructor
  · rintro ⟨⟨_, a⟩, he, rfl⟩
    exact ⟨a, get?_eq_some_iff_mem.2 he⟩
  · rintro ⟨a, ha⟩
    exact ⟨(k, a), get?_eq_some_iff_mem.1 ha, rfl⟩

theorem pairwise_values_iff {R : α → α → Prop} (hR : ∀ a b, R a b → R b a) {t : Table α} :
    t.values.Pairwise R ↔
      ∀ k a k' a', t.get? k = some a → t.get? k' = some a' → k ≠ k' → R a a' := by
  simp only [values, List.pairwise_map, get?_eq_some_iff_mem]
  constructor
  · intro h k a k' a' ha ha' hne
    have hsymm : Std.Symm fun e e' : String × α => R e.2 e'.2 := ⟨fun _ _ => hR _ _⟩
    exact h.forall ha ha' fun he => hne (congrArg Prod.fst he)
  · intro h
    refine t.sorted.imp_of_mem fun {e e'} he he' hlt => h e.1 e.2 e'.1 e'.2 he he' ?_
    exact fun heq => String.lt_irrefl _ (heq ▸ hlt)

def Within (t t' : Table α) : Prop :=
  ∀ k a, t.get? k = some a → t'.get? k = some a

theorem Within.refl (t : Table α) : t.Within t := fun _ _ h => h

theorem within_insert {t : Table α} {k : String} (h : t.get? k = none) (a : α) :
    t.Within (t.insert k a) := by
  intro k' a' ha'
  rw [get?_insert, if_neg, ha']
  rintro rfl
  rw [h] at ha'
  cases ha'

section Rel

variable {β : Type} {R : String → α → β → Prop} {t : Table α} {l : Table β} {k : String} {a : α}
  {b : β}

/-- The tables have the same keys, and the values under a key are related. -/
def Rel (R : String → α → β → Prop) (t : Table α) (l : Table β) : Prop :=
  ∀ k, Option.Rel (R k) (t.get? k) (l.get? k)

namespace Rel

theorem empty : Rel R ∅ ∅ := fun _ => .none

theorem insert (h : Rel R t l) (hR : R k a b) : Rel R (t.insert k a) (l.insert k b) := by
  intro other
  rw [get?_insert, get?_insert]
  split
  · next he => exact .some (he ▸ hR)
  · exact h other

theorem erase (h : Rel R t l) (k : String) : Rel R (t.erase k) (l.erase k) := by
  intro other
  rw [get?_erase, get?_erase]
  split
  · exact .none
  · exact h other

theorem exists_left (h : Rel R t l) (hb : l.get? k = some b) : ∃ a, t.get? k = some a ∧ R k a b := by
  have hk := h k
  rw [hb] at hk
  cases ha : t.get? k with
  | none =>
      rw [ha] at hk
      cases hk
  | some a =>
      rw [ha] at hk
      cases hk with
      | some hR => exact ⟨a, rfl, hR⟩

theorem exists_right (h : Rel R t l) (ha : t.get? k = some a) : ∃ b, l.get? k = some b ∧ R k a b := by
  have hk := h k
  rw [ha] at hk
  cases hb : l.get? k with
  | none =>
      rw [hb] at hk
      cases hk
  | some b =>
      rw [hb] at hk
      cases hk with
      | some hR => exact ⟨b, rfl, hR⟩

theorem contains_eq (h : Rel R t l) (k : String) : t.contains k = l.contains k := by
  have hk := h k
  unfold Table.contains
  generalize t.get? k = a at hk ⊢
  generalize l.get? k = b at hk ⊢
  cases hk with
  | some => rfl
  | none => rfl

theorem get?_eq_none_iff (h : Rel R t l) (k : String) : t.get? k = none ↔ l.get? k = none := by
  have hk := h.contains_eq k
  unfold Table.contains at hk
  rw [← Option.not_isSome_iff_eq_none, ← Option.not_isSome_iff_eq_none, hk]

theorem keys_eq (h : Rel R t l) : t.keys = l.keys := by
  have hirrefl : Std.Irrefl fun a b : String => a < b := ⟨String.lt_irrefl⟩
  have hantisymm : Std.Antisymm fun a b : String => a < b :=
    ⟨fun a b hab hba => absurd (String.lt_trans hab hba) (String.lt_irrefl a)⟩
  apply List.Pairwise.eq_of_mem_iff (r := fun a b : String => a < b)
  · exact List.pairwise_map.2 t.sorted
  · exact List.pairwise_map.2 l.sorted
  · intro k
    rw [mem_keys_iff, mem_keys_iff, h.contains_eq k]

theorem entries (h : Rel R t l) :
    List.Forall₂ (fun e e' => e.1 = e'.1 ∧ R e.1 e.2 e'.2) t.entries l.entries := by
  have hkeys : t.entries.map (·.1) = l.entries.map (·.1) := h.keys_eq
  rw [← List.forall₂_eq_eq_eq, List.forall₂_map_left_iff, List.forall₂_map_right_iff,
    List.forall₂_iff_zip] at hkeys
  refine List.forall₂_iff_zip.2 ⟨hkeys.1, fun {e e'} hzip => ?_⟩
  have hkey : e.1 = e'.1 := hkeys.2 hzip
  obtain ⟨he, he'⟩ := List.of_mem_zip hzip
  obtain ⟨b, hb, hR⟩ := h.exists_right (get?_eq_some_iff_mem.2 he)
  rw [hkey, get?_eq_some_iff_mem.2 he'] at hb
  cases hb
  exact ⟨hkey, hR⟩

end Rel

theorem ext {t t' : Table α} (h : ∀ k, t.get? k = t'.get? k) : t = t' := by
  have hrel : Rel (fun _ => Eq) t t' := by
    intro k
    rw [h k]
    cases t'.get? k with
    | none => exact .none
    | some a => exact .some rfl
  have hentries : t.entries = t'.entries := by
    rw [← List.forall₂_eq_eq_eq]
    exact hrel.entries.imp fun _ _ he => Prod.ext he.1 he.2
  cases t
  cases t'
  cases hentries
  rfl

end Rel

end VirtualInfra.Table
