namespace VirtualInfra

section Lookup

variable {κ α : Type} [BEq κ] [LawfulBEq κ] [DecidableEq κ]

theorem lookup_cons_eq_ite (k k₁ : κ) (a₁ : α) (es : List (κ × α)) :
    ((k₁, a₁) :: es).lookup k = if k = k₁ then some a₁ else es.lookup k := by
  by_cases h : k = k₁
  · rw [List.lookup_cons, beq_iff_eq.2 h, if_pos h]
  · rw [List.lookup_cons, beq_eq_false_iff_ne.2 h, if_neg h]

theorem lookup_filter_ne (k k' : κ) (es : List (κ × α)) :
    (es.filter (·.1 ≠ k)).lookup k' = if k' = k then none else es.lookup k' := by
  induction es with
  | nil => simp
  | cons e es ih =>
    rw [lookup_cons_eq_ite]
    by_cases h : e.1 = k
    · rw [List.filter_cons_of_neg (by simp [h]), ih, h]
      split <;> rfl
    · rw [List.filter_cons_of_pos (by simp [h]), lookup_cons_eq_ite, ih]
      by_cases h' : k' = e.1
      · simp [h', h]
      · simp [h']

end Lookup

/-- Entries in strictly increasing order of their keys, so that a table is determined by what
`get?` answers. -/
structure Table (α : Type) where
  entries : List (String × α)
  sorted : entries.Pairwise (·.1 < ·.1)
deriving DecidableEq

namespace Table

variable {α β : Type}

def insertEntry (k : String) (a : α) : List (String × α) → List (String × α)
  | [] => [(k, a)]
  | e :: es =>
    if k < e.1 then (k, a) :: e :: es
    else if k = e.1 then (k, a) :: es
    else e :: insertEntry k a es

theorem mem_insertEntry {k : String} {a : α} {e : String × α} {es : List (String × α)}
    (h : e ∈ insertEntry k a es) : e = (k, a) ∨ e ∈ es := by
  induction es with
  | nil => simpa [insertEntry] using h
  | cons e' es ih =>
    rw [insertEntry] at h
    split at h
    · simpa using h
    · split at h
      · rcases List.mem_cons.1 h with h | h
        · exact .inl h
        · exact .inr (List.mem_cons_of_mem _ h)
      · rcases List.mem_cons.1 h with h | h
        · exact .inr (h ▸ List.mem_cons_self)
        · exact (ih h).imp id (List.mem_cons_of_mem _)

theorem sorted_insertEntry (k : String) (a : α) {es : List (String × α)}
    (h : es.Pairwise (·.1 < ·.1)) : (insertEntry k a es).Pairwise (·.1 < ·.1) := by
  induction es with
  | nil => simp [insertEntry]
  | cons e es ih =>
    have hs := List.pairwise_cons.1 h
    rw [insertEntry]
    split
    case isTrue hk =>
      refine List.pairwise_cons.2 ⟨fun x hx => ?_, h⟩
      rcases List.mem_cons.1 hx with hx | hx
      · exact hx ▸ hk
      · exact String.lt_trans hk (hs.1 x hx)
    case isFalse hk =>
      split
      case isTrue he => exact List.pairwise_cons.2 ⟨fun x hx => he ▸ hs.1 x hx, hs.2⟩
      case isFalse he =>
        refine List.pairwise_cons.2 ⟨fun x hx => ?_, ih hs.2⟩
        rcases mem_insertEntry hx with hx | hx
        · subst hx
          exact Std.lt_of_le_of_ne (Std.not_lt.1 hk) (Ne.symm he)
        · exact hs.1 x hx

def empty : Table α := ⟨[], .nil⟩

instance : Inhabited (Table α) := ⟨empty⟩

instance : EmptyCollection (Table α) := ⟨empty⟩

def insert (t : Table α) (k : String) (a : α) : Table α :=
  ⟨insertEntry k a t.entries, sorted_insertEntry k a t.sorted⟩

def erase (t : Table α) (k : String) : Table α :=
  ⟨t.entries.filter (·.1 ≠ k), t.sorted.sublist List.filter_sublist⟩

def get? (t : Table α) (k : String) : Option α :=
  t.entries.lookup k

def contains (t : Table α) (k : String) : Bool :=
  (t.get? k).isSome

def size (t : Table α) : Nat := t.entries.length

def isEmpty (t : Table α) : Bool := t.entries.isEmpty

def keys (t : Table α) : List String := t.entries.map (·.1)

def values (t : Table α) : List α := t.entries.map (·.2)

def ofList (es : List (String × α)) : Table α :=
  es.foldl (fun t e => t.insert e.1 e.2) empty

theorem lookup_insertEntry (k k' : String) (a : α) (es : List (String × α)) :
    (insertEntry k a es).lookup k' = if k' = k then some a else es.lookup k' := by
  induction es with
  | nil => rw [insertEntry, lookup_cons_eq_ite]
  | cons e es ih =>
    rw [insertEntry]
    split
    · rw [lookup_cons_eq_ite]
    · split
      case isTrue he =>
        rw [lookup_cons_eq_ite, lookup_cons_eq_ite, ← he]
        split <;> rfl
      case isFalse he =>
        rw [lookup_cons_eq_ite, lookup_cons_eq_ite, ih]
        by_cases h : k' = e.1
        · simp [h, Ne.symm he]
        · simp [h]

theorem get?_empty (k : String) : (empty : Table α).get? k = none := rfl

theorem get?_insert (t : Table α) (k k' : String) (a : α) :
    (t.insert k a).get? k' = if k' = k then some a else t.get? k' :=
  lookup_insertEntry k k' a t.entries

theorem get?_erase (t : Table α) (k k' : String) :
    (t.erase k).get? k' = if k' = k then none else t.get? k' :=
  lookup_filter_ne k k' t.entries

end Table

end VirtualInfra
