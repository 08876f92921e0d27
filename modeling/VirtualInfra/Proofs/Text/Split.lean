import Mathlib.Data.List.DropRight

namespace VirtualInfra.Text

variable {α : Type} {a : α} {front as before after rest : List α}

theorem exists_append_of_notMem (ha : a ∉ front) (h : front ++ as = before ++ a :: after) :
    ∃ between, before = front ++ between ∧ as = between ++ a :: after := by
  rcases List.append_eq_append_iff.1 h with ⟨between, hbefore, has⟩ | ⟨rest, hfront, hafter⟩
  · exact ⟨between, hbefore, has⟩
  · cases rest with
    | nil =>
        rw [List.append_nil] at hfront
        exact ⟨[], by rw [hfront, List.append_nil], hafter.symm⟩
    | cons b rest =>
        obtain ⟨rfl, -⟩ := List.cons.inj hafter
        rw [hfront] at ha
        exact absurd (List.mem_append_right _ List.mem_cons_self) ha

theorem drop_length_takeWhile (p : α → Bool) (as : List α) :
    as.drop (as.takeWhile p).length = as.dropWhile p := by
  have h := congrArg (List.drop (as.takeWhile p).length)
    (List.takeWhile_append_dropWhile (p := p) (l := as))
  rw [List.drop_left] at h
  exact h.symm

theorem dropWhile_append_cons {p : α → Bool} (ha : p a = false) (front rest : List α) :
    (front ++ a :: rest).dropWhile p = front.dropWhile p ++ a :: rest := by
  induction front with
  | nil => simp [ha]
  | cons b front ih => by_cases hb : p b <;> simp [hb, ih]

theorem rdropWhile_append_cons {p : α → Bool} (ha : p a = false) (front rest : List α) :
    (front ++ a :: rest).rdropWhile p = front ++ a :: rest.rdropWhile p := by
  unfold List.rdropWhile
  rw [List.reverse_append, List.reverse_cons, List.append_assoc, List.singleton_append,
    dropWhile_append_cons ha, List.reverse_append, List.reverse_cons, List.reverse_reverse,
    List.append_assoc, List.singleton_append]

theorem rdropWhile_append_of_pos {p : α → Bool} (h : ∀ b ∈ rest, p b = true) (as : List α) :
    (as ++ rest).rdropWhile p = as.rdropWhile p := by
  unfold List.rdropWhile
  rw [List.reverse_append, List.dropWhile_append_of_pos fun b hb => h b (List.mem_reverse.1 hb)]

section FirstSeparator

variable [DecidableEq α]

theorem all_ne_of_notMem (h : a ∉ front) : ∀ b ∈ front, decide (b ≠ a) = true :=
  fun _ hb => decide_eq_true fun he => h (he ▸ hb)

theorem takeWhile_ne_of_notMem (h : a ∉ front) : front.takeWhile (· ≠ a) = front :=
  List.takeWhile_eq_self_iff.2 (all_ne_of_notMem h)

theorem dropWhile_ne_of_notMem (h : a ∉ front) : front.dropWhile (· ≠ a) = [] :=
  List.dropWhile_eq_nil_iff.2 (all_ne_of_notMem h)

theorem takeWhile_ne_append (h : a ∉ front) (rest : List α) :
    (front ++ a :: rest).takeWhile (· ≠ a) = front := by
  rw [List.takeWhile_append_of_pos (all_ne_of_notMem h), List.takeWhile_cons_of_neg (by simp),
    List.append_nil]

theorem dropWhile_ne_append (h : a ∉ front) (rest : List α) :
    (front ++ a :: rest).dropWhile (· ≠ a) = a :: rest := by
  rw [List.dropWhile_append_of_pos (all_ne_of_notMem h), List.dropWhile_cons_of_neg (by simp)]

/-- The first separator of a text says what stands in front of it and what behind. -/
theorem append_cons_inj {front' rest rest' : List α} (h : a ∉ front) (h' : a ∉ front')
    (he : front ++ a :: rest = front' ++ a :: rest') : front = front' ∧ rest = rest' := by
  have hfront := congrArg (List.takeWhile (· ≠ a)) he
  have hrest := congrArg (List.dropWhile (· ≠ a)) he
  rw [takeWhile_ne_append h, takeWhile_ne_append h'] at hfront
  rw [dropWhile_ne_append h, dropWhile_ne_append h'] at hrest
  exact ⟨hfront, (List.cons.inj hrest).2⟩

end FirstSeparator

theorem intercalate_cons (a : α) (front : List α) (pieces : List (List α)) :
    [a].intercalate (front :: pieces) = front ++ pieces.flatMap (a :: ·) := by
  induction pieces generalizing front with
  | nil => rw [List.intercalate_singleton, List.flatMap_nil, List.append_nil]
  | cons next pieces ih =>
      rw [List.intercalate_cons_cons, ih, List.flatMap_cons, List.append_assoc]
      rfl

theorem infix_intercalate {piece : List α} {pieces : List (List α)} (h : piece ∈ pieces)
    (separator : List α) : piece <:+: separator.intercalate pieces := by
  induction pieces with
  | nil => cases h
  | cons first pieces ih =>
      cases pieces with
      | nil => simp only [List.mem_singleton.1 h, List.intercalate_singleton, List.infix_rfl]
      | cons next pieces =>
          rw [List.intercalate_cons_cons]
          rcases List.mem_cons.1 h with rfl | h
          · rw [List.append_assoc]
            exact (List.prefix_append _ _).isInfix
          · exact (ih h).trans (List.suffix_append _ _).isInfix

end VirtualInfra.Text
