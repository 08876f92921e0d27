import VirtualInfra.Kdl.Scalar
import VirtualInfra.Proofs.Text.Blank
import VirtualInfra.Proofs.Text.Numeral

namespace VirtualInfra.Kdl

open Text

structure Ends (rest : List Char) : Prop where
  head : ∀ c ∈ rest.head?, isBareChar c = false
  mark : endsHere rest = true

example : Ends ['\n', '}'] := by
  refine ⟨?_, rfl⟩
  rintro c ⟨⟩
  rfl

variable {c : Char} {cs rest : List Char} {n : Nat}

theorem isBareChar_of_isAlphanum (h : c.isAlphanum = true) : isBareChar c = true := by
  have hmarks : c ∉ ['\\', '/', '(', ')', '{', '}', ';', '[', ']', '"', '#', '='] := by
    intro hc
    simp only [List.mem_cons, List.not_mem_nil, or_false] at hc
    rcases hc with rfl | rfl | rfl | rfl | rfl | rfl | rfl | rfl | rfl | rfl | rfl | rfl <;>
      exact absurd h (by decide)
  have hc := toNat_of_isAlphanum h
  simp only [isBareChar, isSpace, isNewline, isDisallowed, hmarks]
  simp
  omega

theorem ne_of_isDigit {d : Char} (h : c.isDigit = true) (hd : d.isDigit = false) : c ≠ d := by
  rintro rfl
  rw [h] at hd
  cases hd

theorem isAlpha_of_isDigit (h : c.isDigit = true) : c.isAlpha = false := by
  have hdigits : ∀ d < 10, (Nat.digitChar d).isAlpha = false := by decide
  obtain ⟨d, hd, rfl⟩ := exists_digitChar_of_isDigit h
  exact hdigits d hd

theorem isDigitOf_ten_of_isDigit (h : c.isDigit = true) : isDigitOf 10 c = true := by
  obtain ⟨d, hd, rfl⟩ := exists_digitChar_of_isDigit h
  rw [isDigitOf, digit?_ten_digitChar d hd]
  rfl

theorem lookup_bases_eq_none (h : c.isAlpha = false) : bases.lookup c.toLower = none := by
  have hupper : c.isUpper = false := (Bool.or_eq_false_iff.1 h).1
  have hsame : c.toLower = c := dif_neg (of_decide_eq_false hupper)
  have hletters : ∀ e ∈ bases, e.1.isAlpha = true := by decide
  rw [hsame, List.lookup_eq_none_iff]
  intro e he
  rw [bne_iff_ne]
  rintro rfl
  rw [hletters e he] at h
  cases h

theorem readText_of_isDigit (h : c.isDigit = true) (cs : List Char) :
    readText (c :: cs) = none := by
  have hquoted : readQuoted (c :: cs) = none := by
    unfold readQuoted
    split
    · next heq => exact absurd (List.cons.inj heq).1 (ne_of_isDigit h (by decide))
    · next heq => exact absurd (List.cons.inj heq).1 (ne_of_isDigit h (by decide))
    · rfl
  have hraw : readRaw (c :: cs) = none := by
    have hhash : (c :: cs).takeWhile (· = '#') = [] := by
      rw [List.takeWhile_cons, if_neg]
      exact fun he => ne_of_isDigit h (by decide) (of_decide_eq_true he)
    simp only [readRaw, hhash, if_true]
  have hbare : readBare (c :: cs) = none := by
    have htake : (c :: cs).takeWhile isBareChar = c :: cs.takeWhile isBareChar := by
      rw [List.takeWhile_cons, if_pos]
      exact isBareChar_of_isAlphanum (Bool.or_eq_true_iff.2 (.inr h))
    have hplus : c ≠ '+' := ne_of_isDigit h (by decide)
    have hminus : c ≠ '-' := ne_of_isDigit h (by decide)
    have hdot : c ≠ '.' := ne_of_isDigit h (by decide)
    simp [readBare, htake, isBareText, hplus, hminus, hdot, h]
  rw [readText, hquoted, hraw, hbare]
  rfl

namespace Ends

theorem ne_of_isBareChar (h : Ends rest) (hc : isBareChar c = true) : ∀ d ∈ rest.head?, d ≠ c := by
  rintro d hd rfl
  rw [h.head d hd] at hc
  cases hc

theorem isAlpha_head (h : Ends rest) : ∀ d ∈ rest.head?, d.isAlpha = false := by
  intro d hd
  refine Bool.eq_false_iff.2 fun halpha => ?_
  have halphanum : d.isAlphanum = true := Bool.or_eq_true_iff.2 (.inl halpha)
  exact h.ne_of_isBareChar (isBareChar_of_isAlphanum halphanum) d hd rfl

theorem afterFraction?_eq_none (h : Ends rest) : afterFraction? rest = none := by
  unfold afterFraction?
  split
  · next r => exact absurd rfl (h.ne_of_isBareChar (by decide) '.' rfl)
  · rfl

theorem afterExponent?_eq_none (h : Ends rest) : afterExponent? rest = none := by
  unfold afterExponent?
  split
  · next e r =>
      have hne : ¬(e = 'e' ∨ e = 'E') := by
        rintro (rfl | rfl)
        · exact h.ne_of_isBareChar (by decide) 'e' rfl rfl
        · exact h.ne_of_isBareChar (by decide) 'E' rfl rfl
      rw [if_neg hne]
  · rfl

theorem readDigits_toDigits (h : Ends rest) (hn : n ≤ maxMagnitude) :
    readDigits 10 (Nat.toDigits 10 n ++ rest) = some (n, rest) := by
  have hdigit : ∀ c ∈ Nat.toDigits 10 n, isDigitOf 10 c = true :=
    fun c hc => isDigitOf_ten_of_isDigit (isDigit_of_mem_toDigits hc)
  have hpart : ∀ c ∈ Nat.toDigits 10 n, (isDigitOf 10 c || c = '_') = true :=
    fun c hc => by rw [hdigit c hc, Bool.true_or]
  have hrest : ∀ c ∈ rest.head?, (isDigitOf 10 c || c = '_') = false := by
    intro c hc
    rw [Bool.or_eq_false_iff, decide_eq_false_iff_not]
    refine ⟨Bool.eq_false_iff.2 fun hdigit => ?_, h.ne_of_isBareChar (by decide) c hc⟩
    exact h.ne_of_isBareChar (isBareChar_of_isAlphanum (isAlphanum_of_isDigitOf hdigit)) c hc rfl
  have hfilter : (Nat.toDigits 10 n).filter (· ≠ '_') = Nat.toDigits 10 n := by
    rw [List.filter_eq_self]
    intro c hc
    rw [decide_eq_true_eq]
    rintro rfl
    exact absurd (hdigit '_' hc) (by decide)
  have hhead : (Nat.toDigits 10 n ++ rest).head?.any (isDigitOf 10) = true := by
    obtain ⟨c, cs, hdigits, hcs⟩ := exists_cons_toDigits n
    rw [hdigits]
    exact isDigitOf_ten_of_isDigit (hcs c List.mem_cons_self)
  simp only [readDigits, takeWhile_append_of_head hpart hrest,
    dropWhile_append_of_head hpart hrest, hfilter, numberOf_toDigits_ten, hhead, hn, and_self,
    if_true]

end Ends

theorem readNumber_toDigits (hn : n ≤ maxMagnitude) (h : Ends rest) :
    readNumber (Nat.toDigits 10 n ++ rest) = some (.int n, rest) := by
  obtain ⟨c, cs, hdigits, hdigit⟩ := exists_cons_toDigits n
  have hplus : c ≠ '+' := ne_of_isDigit (hdigit c List.mem_cons_self) (by decide)
  have hminus : c ≠ '-' := ne_of_isDigit (hdigit c List.mem_cons_self) (by decide)
  -- behind a leading zero there is no letter that could tell a base
  have hnext : ∀ d ∈ (cs ++ rest).head?, bases.lookup d.toLower = none := by
    intro d hd
    cases cs with
    | nil => exact lookup_bases_eq_none (h.isAlpha_head d hd)
    | cons _ _ =>
        cases hd
        exact lookup_bases_eq_none (isAlpha_of_isDigit (hdigit d (by simp)))
  have hread := h.readDigits_toDigits hn
  rw [hdigits, List.cons_append] at hread ⊢
  unfold readNumber
  simp only [List.cons.injEq, hplus, hminus, false_and, imp_self, implies_true, Bool.false_eq_true,
    if_false, Option.pure_def, Option.bind_eq_bind, Option.bind_some, hread,
    h.afterFraction?_eq_none, h.afterExponent?_eq_none, Option.getD_none]
  split
  · next number heq =>
      split at heq
      · next letter r hcs =>
          rw [hnext letter (by rw [(List.cons.inj hcs).2]; rfl)] at heq
          cases heq
      · cases heq
  · rfl

theorem readScalar_toDigits (hn : n ≤ maxMagnitude) (h : Ends rest) :
    readScalar (Nat.toDigits 10 n ++ rest) = some (.int n, rest) := by
  have htext : readText (Nat.toDigits 10 n ++ rest) = none := by
    obtain ⟨c, cs, hdigits, hdigit⟩ := exists_cons_toDigits n
    rw [hdigits]
    exact readText_of_isDigit (hdigit c List.mem_cons_self) _
  rw [readScalar, htext, readNumber_toDigits hn h]
  simp [h.mark]

end VirtualInfra.Kdl
