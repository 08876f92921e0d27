import Mathlib.Algebra.Group.Nat.Defs
import VirtualInfra.Proofs.Text.Blank
import VirtualInfra.Proofs.Text.Numeral
import VirtualInfra.Timestamp

namespace VirtualInfra.Timestamp

open Text

theorem skipBlanks_cons {c : Char} (h : isBlank c = false) (cs : List Char) :
    skipBlanks (c :: cs) = c :: cs := by
  rw [skipBlanks, List.dropWhile_cons, h, if_neg Bool.false_ne_true]

def Ends (rest : List Char) : Prop := ∀ c ∈ rest.head?, c.isDigit = false

section Digits

variable {width n : Nat} {rest : List Char}

theorem toList_padded : (padded width n).toList =
    List.replicate (width - (Nat.toDigits 10 n).length) '0' ++ Nat.toDigits 10 n :=
  String.toList_ofList

theorem isDigit_of_mem_padded {c : Char} (h : c ∈ (padded width n).toList) : c.isDigit = true := by
  rw [toList_padded] at h
  rcases List.mem_append.1 h with h | h
  · rw [List.eq_of_mem_replicate h]
    rfl
  · exact isDigit_of_mem_toDigits h

theorem numberOf_padded : numberOf 10 (padded width n).toList = n := by
  rw [toList_padded, numberOf_replicate_append, numberOf_toDigits_ten]

theorem length_padded (hw : 0 < width) (hn : n < 10 ^ width) :
    (padded width n).toList.length = width := by
  have hlen := (Nat.length_toDigits_le_iff (by decide) hw).2 hn
  rw [toList_padded, List.length_append, List.length_replicate]
  omega

theorem exists_cons_padded (width n : Nat) :
    ∃ c cs, c.isDigit = true ∧ (padded width n).toList = c :: cs := by
  have hne : (padded width n).toList ≠ [] := by
    rw [toList_padded]
    exact List.append_ne_nil_of_right_ne_nil _ Nat.toDigits_ne_nil
  obtain ⟨c, cs, hc⟩ := List.exists_cons_of_ne_nil hne
  exact ⟨c, cs, isDigit_of_mem_padded (by rw [hc]; exact List.mem_cons_self), hc⟩

theorem skipBlanks_padded :
    skipBlanks ((padded width n).toList ++ rest) = (padded width n).toList ++ rest := by
  obtain ⟨c, cs, hc, hcs⟩ := exists_cons_padded width n
  rw [hcs]
  exact skipBlanks_cons (isBlank_of_isDigit hc) _

theorem readDigits_padded {limit : Nat} (hl : (padded width n).toList.length ≤ limit)
    (hr : Ends rest) : readDigits limit ((padded width n).toList ++ rest) = some (n, rest) := by
  have htake : ((padded width n).toList ++ rest).takeWhile Char.isDigit =
      (padded width n).toList :=
    takeWhile_append_of_head (fun _ => isDigit_of_mem_padded) hr
  obtain ⟨c, cs, -, hcs⟩ := exists_cons_padded width n
  rw [readDigits]
  simp only [htake, List.take_of_length_le hl, List.drop_left, numberOf_padded]
  rw [if_neg (by rw [hcs]; exact List.cons_ne_nil _ _)]

theorem readField_padded (hn : n < 100) (hr : Ends rest) :
    readField ((padded 2 n).toList ++ rest) = some (n, rest) := by
  rw [readField, skipBlanks_padded,
    readDigits_padded (Nat.le_of_eq (length_padded (by decide) hn)) hr]

end Digits

theorem readMark_cons {c : Char} (h : isBlank c = false) (cs : List Char) :
    readMark c (c :: cs) = some cs := by
  rw [readMark, skipBlanks_cons h]
  exact if_pos rfl

theorem readDigits_length {n : Nat} {rest : List Char} (hr : Ends rest) :
    readDigits ((padded 4 n).toList ++ rest).length ((padded 4 n).toList ++ rest) =
      some (n, rest) :=
  readDigits_padded (by rw [List.length_append]; exact Nat.le_add_right _ _) hr

theorem readYear_yearText (year : Int) {rest : List Char} (hr : Ends rest) :
    readYear ((yearText year).toList ++ rest) = some (year, rest) := by
  rw [yearText]
  split
  · next h =>
      have hlen : (padded 4 year.toNat).toList.length ≤ 4 :=
        Nat.le_of_eq (length_padded (by decide) (by omega))
      have hread := readDigits_padded hlen hr
      obtain ⟨c, cs, hc, hcs⟩ := exists_cons_padded 4 year.toNat
      rw [readYear]
      rw [skipBlanks_padded]
      rw [hcs, List.cons_append] at hread ⊢
      split
      · next heq =>
          rw [(List.cons.inj heq).1] at hc
          cases hc
      · next heq =>
          rw [(List.cons.inj heq).1] at hc
          cases hc
      · rw [hread]
        simp only [Option.map_some, Option.some.injEq, Prod.mk.injEq, and_true]
        omega
  · next h =>
      split
      · next hneg =>
          rw [String.toList_append, (by decide : "-".toList = ['-']), List.append_assoc,
            List.singleton_append]
          rw [readYear]
          rw [skipBlanks_cons (by decide)]
          simp only [readDigits_length hr, Option.map_some, Option.some.injEq, Prod.mk.injEq,
            and_true]
          omega
      · next hpos =>
          rw [String.toList_append, (by decide : "+".toList = ['+']), List.append_assoc,
            List.singleton_append]
          rw [readYear]
          rw [skipBlanks_cons (by decide)]
          simp only [readDigits_length hr, Option.map_some, Option.some.injEq, Prod.mk.injEq,
            and_true]
          omega

theorem numberOf_append_replicate (cs : List Char) (k : Nat) :
    numberOf 10 (cs ++ List.replicate k '0') = numberOf 10 cs * 10 ^ k := by
  induction k with
  | zero => rw [List.replicate_zero, List.append_nil, Nat.pow_zero, Nat.mul_one]
  | succ k ih =>
      rw [List.replicate_succ', ← List.append_assoc, numberOf_append_singleton, ih, Nat.pow_succ]
      change 10 * _ + 0 = _
      rw [Nat.add_zero, Nat.mul_comm, Nat.mul_assoc]

theorem readFraction_padded {width n : Nat} (hw : 0 < width) (hw9 : width ≤ 9)
    (hn : n < 10 ^ width) {rest : List Char} (hr : Ends rest) :
    readFraction ('.' :: ((padded width n).toList ++ rest)) =
      some (n * 10 ^ (9 - width), rest) := by
  have hlen := length_padded hw hn
  have htake : ((padded width n).toList ++ rest).takeWhile Char.isDigit =
      (padded width n).toList :=
    takeWhile_append_of_head (fun _ => isDigit_of_mem_padded) hr
  have hdrop : ((padded width n).toList ++ rest).dropWhile Char.isDigit = rest :=
    dropWhile_append_of_head (fun _ => isDigit_of_mem_padded) hr
  obtain ⟨c, cs, -, hcs⟩ := exists_cons_padded width n
  rw [readFraction]
  simp only [htake, hdrop]
  rw [if_neg (by rw [hcs]; exact List.cons_ne_nil _ _),
    List.take_of_length_le (Nat.le_trans (Nat.le_of_eq hlen) hw9), List.rightpad, hlen,
    numberOf_append_replicate, numberOf_padded]

theorem toList_point_append (cs : List Char) (t : String) :
    ("." ++ t).toList ++ cs = '.' :: (t.toList ++ cs) := by
  rw [String.toList_append, (by decide : ".".toList = ['.']), List.append_assoc,
    List.singleton_append]

theorem readFraction_fractionText {nano : Nat} (hn : nano < nanosInSecond) (cs : List Char) :
    readFraction ((fractionText nano).toList ++ 'Z' :: cs) = some (nano, 'Z' :: cs) := by
  have hr : Ends ('Z' :: cs) := by
    rintro c ⟨⟩
    decide
  have hn : nano < 1000000000 := hn
  rw [fractionText]
  split
  · next h =>
      rw [h]
      rfl
  split
  · next h =>
      rw [toList_point_append, readFraction_padded (by decide) (by decide) (by omega) hr,
        show nano / 1000000 * 10 ^ (9 - 3) = nano by omega]
  split
  · next h =>
      rw [toList_point_append, readFraction_padded (by decide) (by decide) (by omega) hr,
        show nano / 1000 * 10 ^ (9 - 6) = nano by omega]
  · next h =>
      rw [toList_point_append, readFraction_padded (by decide) (by decide) (by omega) hr,
        Nat.sub_self, Nat.pow_zero, Nat.mul_one]

theorem of?_fields (t : Timestamp) :
    of? t.year t.month t.day t.hour t.minute t.second t.nano = some t :=
  dif_pos t.isValid

theorem text_toList (t : Timestamp) : t.text.toList =
    (yearText t.year).toList ++ '-' :: ((padded 2 t.month).toList ++ '-' ::
      ((padded 2 t.day).toList ++ 'T' :: ((padded 2 t.hour).toList ++ ':' ::
        ((padded 2 t.minute).toList ++ ':' :: ((padded 2 t.second).toList ++
          ((fractionText t.nano).toList ++ ['Z'])))))) := by
  unfold text dateText timeText
  simp only [String.toList_append, List.append_assoc, (by decide : "-".toList = ['-']),
    (by decide : "T".toList = ['T']), (by decide : ":".toList = [':']),
    (by decide : "Z".toList = ['Z']), List.cons_append, List.nil_append]

theorem ends_cons {c : Char} (h : c.isDigit = false) (cs : List Char) : Ends (c :: cs) := by
  rintro d ⟨⟩
  exact h

theorem ends_fractionText (nano : Nat) : Ends ((fractionText nano).toList ++ ['Z']) := by
  have hpoint (t : String) : Ends (("." ++ t).toList ++ ['Z']) := by
    rw [toList_point_append]
    exact ends_cons (by decide) _
  rw [fractionText]
  split
  · exact ends_cons (by decide) []
  split
  · exact hpoint _
  split
  · exact hpoint _
  · exact hpoint _

theorem ofText?_text (t : Timestamp) : ofText? t.text = some t := by
  obtain ⟨-, -, -, hmonth, -, hday, hhour, hminute, hsecond, hnano⟩ := t.isValid
  have hdays : daysInMonth t.year t.month ≤ 31 := by
    rw [daysInMonth]
    split
    · split <;> omega
    · split <;> omega
  rw [ofText?]
  simp only [text_toList, Option.bind_eq_bind,
    readYear_yearText t.year (ends_cons (c := '-') (by decide) _), Option.bind_some,
    readMark_cons (c := '-') (by decide),
    readField_padded (n := t.month) (by omega) (ends_cons (c := '-') (by decide) _),
    readField_padded (n := t.day) (by omega) (ends_cons (c := 'T') (by decide) _),
    readField_padded (n := t.hour) (by omega) (ends_cons (c := ':') (by decide) _),
    readMark_cons (c := ':') (by decide),
    readField_padded (n := t.minute) (by omega) (ends_cons (c := ':') (by decide) _),
    readField_padded (n := t.second) (by omega) (ends_fractionText t.nano),
    readFraction_fractionText hnano]
  have hzone : readZone ['Z'] = some (0, []) := by decide
  have hrest : skipBlanks [] = [] := rfl
  rw [if_neg (fun h => h.1 rfl), hzone]
  simp only [Option.bind_some, hrest, ne_eq, not_true, if_false, of?_fields]
  exact if_pos rfl

end VirtualInfra.Timestamp
