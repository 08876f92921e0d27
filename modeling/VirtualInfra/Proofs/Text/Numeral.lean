import Mathlib.Data.List.Induction
import VirtualInfra.Text.Numeral

namespace VirtualInfra.Text

theorem digit?_ten_digitChar : ∀ d < 10, digit? 10 (Nat.digitChar d) = some d := by decide

theorem numberOf_toDigits_ten (n : Nat) : numberOf 10 (Nat.toDigits 10 n) = n := by
  induction n using Nat.strongRecOn with
  | ind n ih =>
      rw [Nat.toDigits_eq_if (by decide)]
      split
      · next h => simp [numberOf, digit?_ten_digitChar n h]
      · next h =>
          rw [numberOf_append_singleton, ih _ (by omega), digit?_ten_digitChar _ (by omega)]
          simp only [Option.getD_some]
          omega

theorem numberOf_replicate_append (k : Nat) (cs : List Char) :
    numberOf 10 (List.replicate k '0' ++ cs) = numberOf 10 cs := by
  induction k with
  | zero => rfl
  | succ k ih => exact ih

theorem isAlphanum_of_isDigitOf {base : Nat} {c : Char} (h : isDigitOf base c = true) :
    c.isAlphanum = true := by
  rw [isDigitOf, digit?] at h
  refine Bool.or_eq_true_iff.2 ?_
  split at h
  · next hdigit => exact .inr hdigit
  · refine .inl (Bool.or_eq_true_iff.2 ?_)
    split at h
    · next hlower =>
        exact .inr (Bool.and_eq_true_iff.2 ⟨decide_eq_true hlower.1, decide_eq_true hlower.2⟩)
    · split at h
      · next hupper => exact .inl (decide_eq_true hupper)
      · cases h

theorem isDigit_of_mem_toDigits {n : Nat} {c : Char} (h : c ∈ Nat.toDigits 10 n) :
    c.isDigit = true :=
  Nat.isDigit_of_mem_toDigits (by decide) (by decide) h

theorem exists_cons_toDigits (n : Nat) :
    ∃ c cs, Nat.toDigits 10 n = c :: cs ∧ ∀ d ∈ c :: cs, d.isDigit = true := by
  obtain ⟨c, cs, hdigits⟩ := List.exists_cons_of_ne_nil (Nat.toDigits_ne_nil (n := n) (b := 10))
  refine ⟨c, cs, hdigits, fun d hd => isDigit_of_mem_toDigits (n := n) ?_⟩
  rw [hdigits]
  exact hd

theorem exists_digitChar_of_isDigit {c : Char} (h : c.isDigit = true) :
    ∃ d < 10, Nat.digitChar d = c := by
  simp only [Char.isDigit, Bool.and_eq_true, decide_eq_true_eq, ge_iff_le,
    UInt32.le_iff_toNat_le] at h
  have hc : 48 ≤ c.toNat ∧ c.toNat ≤ 57 := h
  refine ⟨c.toNat - 48, by omega, ?_⟩
  apply Char.toNat_inj.1
  rw [Nat.toNat_digitChar_of_lt_ten (by omega)]
  omega

theorem exists_zeros_of_isDigit {cs : List Char} (hne : cs ≠ []) (h : ∀ c ∈ cs, c.isDigit = true) :
    ∃ zeros, cs = List.replicate zeros '0' ++ Nat.toDigits 10 (numberOf 10 cs) := by
  induction cs using List.reverseRecOn with
  | nil => exact absurd rfl hne
  | append_singleton cs c ih =>
      obtain ⟨d, hd, rfl⟩ := exists_digitChar_of_isDigit (h c (by simp))
      rw [numberOf_append_singleton, digit?_ten_digitChar d hd, Option.getD_some]
      have hone : Nat.toDigits 10 (10 * 0 + d) = [Nat.digitChar d] := by
        rw [Nat.mul_zero, Nat.zero_add, Nat.toDigits_of_lt_base hd]
      by_cases hcs : cs = []
      · subst hcs
        exact ⟨0, hone.symm⟩
      · obtain ⟨zeros, hz⟩ := ih hcs fun c hc => h c (List.mem_append_left _ hc)
        by_cases hn : numberOf 10 cs = 0
        · rw [hn] at hz ⊢
          refine ⟨zeros + 1, ?_⟩
          rw [hone, hz, List.replicate_succ']
          rfl
        · refine ⟨zeros, ?_⟩
          rw [Nat.toDigits_eq_if (by decide), if_neg (by omega),
            show (10 * numberOf 10 cs + d) / 10 = numberOf 10 cs by omega,
            show (10 * numberOf 10 cs + d) % 10 = d by omega, ← List.append_assoc, ← hz]

/-- The first digit is a zero only when it is the only one. -/
theorem length_toDigits_of_head?_zero (n : Nat) (h : (Nat.toDigits 10 n).head? = some '0') :
    (Nat.toDigits 10 n).length = 1 := by
  induction n using Nat.strongRecOn with
  | ind n ih =>
      rw [Nat.toDigits_eq_if (by decide)] at h ⊢
      split at h
      · next hn => rw [if_pos hn, List.length_singleton]
      · next hn =>
          obtain ⟨c, cs, hc⟩ := List.exists_cons_of_ne_nil (Nat.toDigits_ne_nil (n := n / 10) (b := 10))
          rw [hc, List.cons_append, List.head?_cons] at h
          have hone := ih (n / 10) (by omega) (by rw [hc, List.head?_cons, h])
          have hlt := (Nat.length_toDigits_le_iff (n := n / 10) (b := 10) (by decide)
            (by decide : 0 < 1)).1 (Nat.le_of_eq hone)
          rw [Nat.toDigits_of_lt_base hlt, List.cons.injEq] at hc
          have hc0 := hc.1.trans (Option.some.inj h)
          rw [Nat.digitChar_eq_zero] at hc0
          omega

section Runs

variable {p : Char → Bool} {run rest : List Char}

theorem takeWhile_append_of_head (hrun : ∀ c ∈ run, p c = true)
    (hrest : ∀ c ∈ rest.head?, p c = false) : (run ++ rest).takeWhile p = run := by
  rw [List.takeWhile_append_of_pos hrun]
  cases rest with
  | nil => rw [List.takeWhile_nil, List.append_nil]
  | cons c rest =>
      rw [List.takeWhile_cons, hrest c rfl, if_neg Bool.false_ne_true, List.append_nil]

theorem dropWhile_append_of_head (hrun : ∀ c ∈ run, p c = true)
    (hrest : ∀ c ∈ rest.head?, p c = false) : (run ++ rest).dropWhile p = rest := by
  rw [List.dropWhile_append_of_pos hrun]
  cases rest with
  | nil => rfl
  | cons c rest => rw [List.dropWhile_cons, hrest c rfl, if_neg Bool.false_ne_true]

theorem head?_dropWhile (p : Char → Bool) (cs : List Char) :
    ∀ c ∈ (cs.dropWhile p).head?, p c = false := by
  intro c hc
  have hnot := List.head?_dropWhile_not p cs
  rw [hc] at hnot
  exact hnot

theorem takeWhile_append_of_dropWhile_ne_nil {cs : List Char} (h : cs.dropWhile p ≠ [])
    (rest : List Char) : (cs ++ rest).takeWhile p = cs.takeWhile p := by
  have hsplit := congrArg List.length (List.takeWhile_append_dropWhile (p := p) (l := cs))
  rw [List.length_append] at hsplit
  rw [List.takeWhile_append, if_neg]
  intro hlen
  exact h (List.eq_nil_of_length_eq_zero (by omega))

theorem dropWhile_append_of_dropWhile_ne_nil {cs : List Char} (h : cs.dropWhile p ≠ [])
    (rest : List Char) : (cs ++ rest).dropWhile p = cs.dropWhile p ++ rest := by
  rw [List.dropWhile_append, if_neg]
  simpa using h

end Runs

end VirtualInfra.Text
