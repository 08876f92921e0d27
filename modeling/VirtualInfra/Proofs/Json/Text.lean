import Mathlib.Data.List.DropRight
import Mathlib.Data.List.Forall2
import VirtualInfra.Proofs.Json.Strings
import VirtualInfra.Proofs.Text.Numeral

namespace VirtualInfra.Json

open Text

section Numbers

def Ends (rest : List Char) : Prop :=
  ∀ c ∈ rest.head?, c.isDigit = false ∧ c ≠ '.' ∧ c ≠ 'e' ∧ c ≠ 'E'

theorem readSign_minus (negative : Bool) {cs : List Char} (h : cs.head? ≠ some '-') :
    readSign ['-'] ((if negative then ['-'] else []) ++ cs) =
      (if negative then ['-'] else [], cs) := by
  cases negative with
  | true => rfl
  | false =>
      cases cs with
      | nil => rfl
      | cons c cs =>
          have hc : c ∉ ['-'] := fun hmem => h (congrArg some (List.mem_singleton.1 hmem))
          change readSign ['-'] (c :: cs) = _
          rw [readSign, if_neg hc]
          rfl

theorem readPart_of_head {begins : Char → Bool}
    (read : Char → List Char → Option (List Char × List Char)) {rest : List Char}
    (h : ∀ c ∈ rest.head?, begins c = false) : readPart begins read rest = some ([], rest) := by
  cases rest with
  | nil => rfl
  | cons c rest => rw [readPart, h c rfl, if_neg Bool.false_ne_true]

theorem readNumber_whole (negative : Bool) {whole rest : List Char} (hr : Ends rest)
    (hfirst : (whole ++ rest).head? ≠ some '-')
    (htake : (whole ++ rest).takeWhile Char.isDigit = whole)
    (hdrop : (whole ++ rest).dropWhile Char.isDigit = rest)
    (hwhole : whole ≠ []) (hzero : ¬ (whole.head? = some '0' ∧ whole.length ≠ 1))
    (hneg : ¬ (negative = true ∧ numberOf 10 whole = 0)) :
    readNumber ((if negative then ['-'] else []) ++ whole ++ rest) =
      some (.int (if negative then -numberOf 10 whole else numberOf 10 whole), rest) := by
  have hdigits : readDigits (whole ++ rest) = some (whole, rest) := by
    rw [readDigits, htake, hdrop, if_neg hwhole]
  have hfraction : readFraction rest = some ([], rest) :=
    readPart_of_head _ fun c hc => decide_eq_false (hr c hc).2.1
  have hexponent : readExponent rest = some ([], rest) :=
    readPart_of_head _ fun c hc => decide_eq_false (not_or.2 (hr c hc).2.2)
  rw [List.append_assoc, readNumber, readSign_minus negative hfirst]
  simp only [hdigits, finishNumber, hfraction, hexponent, Option.bind_eq_bind, Option.bind_some,
    if_neg hzero]
  cases negative with
  | true =>
      have hn : numberOf 10 whole ≠ 0 := fun h => hneg ⟨rfl, h⟩
      simp [ofParts, hn]
  | false => rfl

theorem readNumber_toDigits (negative : Bool) {n : Nat} (h : negative = true → n ≠ 0)
    {rest : List Char} (hr : Ends rest) :
    readNumber ((if negative then ['-'] else []) ++ Nat.toDigits 10 n ++ rest) =
      some (.int (if negative then -n else n), rest) := by
  have hdigits : ∀ c ∈ Nat.toDigits 10 n, c.isDigit = true := fun _ => isDigit_of_mem_toDigits
  have hrest : ∀ c ∈ rest.head?, c.isDigit = false := fun c hc => (hr c hc).1
  rw [readNumber_whole negative hr, numberOf_toDigits_ten]
  · obtain ⟨c, cs, hc, hd⟩ := exists_cons_toDigits n
    have hfirst := hd c List.mem_cons_self
    rw [hc]
    rintro ⟨⟩
    cases hfirst
  · exact takeWhile_append_of_head hdigits hrest
  · exact dropWhile_append_of_head hdigits hrest
  · exact Nat.toDigits_ne_nil
  · exact fun ⟨hhead, hlen⟩ => hlen (length_toDigits_of_head?_zero n hhead)
  · rw [numberOf_toDigits_ten]
    exact fun hc => h hc.1 hc.2

theorem toList_toString_int (i : Int) :
    (toString i).toList = (if i < 0 then ['-'] else []) ++ Nat.toDigits 10 i.natAbs := by
  cases i with
  | ofNat n => exact Nat.toList_repr
  | negSucc n =>
      change ("-" ++ Nat.repr n.succ).toList = _
      rw [String.toList_append, Nat.toList_repr, if_pos (Int.negSucc_lt_zero n)]
      rfl

end Numbers

section Values

theorem skipSpace_append {blanks : List Char} (h : ∀ c ∈ blanks, isSpace c = true)
    (cs : List Char) : skipSpace (blanks ++ cs) = skipSpace cs :=
  List.dropWhile_append_of_pos h

theorem skipSpace_cons {c : Char} (h : isSpace c = false) (cs : List Char) :
    skipSpace (c :: cs) = c :: cs := by
  rw [skipSpace, List.dropWhile_cons, h, if_neg Bool.false_ne_true]

theorem isSpace_of_mem_newLine {level : Nat} {c : Char} (h : c ∈ newLine level) :
    isSpace c = true := by
  rcases List.mem_cons.1 h with rfl | h
  · rfl
  · rw [List.eq_of_mem_replicate h]
    rfl

theorem readValue_append {blanks : List Char} (h : ∀ c ∈ blanks, isSpace c = true) (fuel : Nat)
    (cs : List Char) : readValue fuel (blanks ++ cs) = readValue fuel cs := by
  cases fuel with
  | zero => rfl
  | succ fuel => rw [readValue, skipSpace_append h, ← readValue]

theorem readValue_number {c : Char} (h : c = '-' ∨ c.isDigit = true) (fuel : Nat)
    (cs : List Char) : readValue (fuel + 1) (c :: cs) = readNumber (c :: cs) := by
  have hne : ∀ d : Char, (d ≠ '-' ∧ d.isDigit = false) → c ≠ d := by
    rintro d ⟨hm, hd⟩ rfl
    rcases h with h | h
    · exact hm h
    · rw [hd] at h
      cases h
  have hspace : isSpace c = false := by
    rw [isSpace]
    simp only [hne ' ' (by decide), hne '\t' (by decide), hne '\n' (by decide),
      hne '\r' (by decide), decide_false, Bool.or_self]
  rw [readValue, skipSpace_cons hspace]
  split
  · next heq => exact absurd (List.cons.inj heq).1 (hne 'n' (by decide))
  · next heq => exact absurd (List.cons.inj heq).1 (hne 't' (by decide))
  · next heq => exact absurd (List.cons.inj heq).1 (hne 'f' (by decide))
  · next heq => exact absurd (List.cons.inj heq).1 (hne '"' (by decide))
  · next heq => exact absurd (List.cons.inj heq).1 (hne '[' (by decide))
  · next heq => exact absurd (List.cons.inj heq).1 (hne '\x7b' (by decide))
  · rfl

/-- The value is read from the text, whatever follows, with fuel for every character. -/
def Reads (j : Json) (cs : List Char) : Prop :=
  ∀ (fuel : Nat) (rest : List Char), cs.length ≤ fuel → Ends rest →
    readValue fuel (cs ++ rest) = some (j, rest)

theorem Reads.append {j : Json} {blanks cs : List Char} (hb : ∀ c ∈ blanks, isSpace c = true)
    (h : j.Reads cs) : j.Reads (blanks ++ cs) := by
  intro fuel rest hf hr
  rw [List.length_append] at hf
  rw [List.append_assoc, readValue_append hb]
  exact h fuel rest (by omega) hr

theorem ends_append {blanks cs : List Char} (hb : ∀ c ∈ blanks, isSpace c = true)
    (h : Ends cs) : Ends (blanks ++ cs) := by
  cases blanks with
  | nil => exact h
  | cons b blanks =>
      rintro c ⟨⟩
      have hspace := hb b List.mem_cons_self
      simp only [isSpace, Bool.or_eq_true, decide_eq_true_eq] at hspace
      rcases hspace with ((rfl | rfl) | rfl) | rfl <;> decide

theorem ends_comma (cs : List Char) : Ends (',' :: cs) := by
  rintro c ⟨⟩
  decide

theorem ends_bracket (cs : List Char) : Ends (']' :: cs) := by
  rintro c ⟨⟩
  decide

theorem ends_brace (cs : List Char) : Ends ('\x7d' :: cs) := by
  rintro c ⟨⟩
  decide

theorem reads_null : Reads .null "null".toList := by
  intro fuel rest hf _
  cases fuel with
  | zero => cases hf
  | succ fuel => rfl

theorem reads_bool (b : Bool) : Reads (.bool b) (if b then "true" else "false").toList := by
  intro fuel rest hf _
  cases fuel with
  | zero => cases b <;> cases hf
  | succ fuel => cases b <;> rfl

theorem reads_int (i : Int) : Reads (.int i) (toString i).toList := by
  intro fuel rest hf hr
  have htext : (toString i).toList =
      (if decide (i < 0) then ['-'] else []) ++ Nat.toDigits 10 i.natAbs := by
    rw [toList_toString_int]
    simp only [decide_eq_true_eq]
  have hnum := readNumber_toDigits (decide (i < 0)) (n := i.natAbs)
    (fun hneg => by simp only [decide_eq_true_eq] at hneg; omega) hr
  have hi : (if decide (i < 0) = true then -(i.natAbs : Int) else i.natAbs) = i := by
    simp only [decide_eq_true_eq]
    omega
  obtain ⟨c, cs, hc, hcs⟩ : ∃ c cs, (c = '-' ∨ c.isDigit = true) ∧
      (if decide (i < 0) then ['-'] else []) ++ Nat.toDigits 10 i.natAbs = c :: cs := by
    split
    · exact ⟨'-', _, .inl rfl, rfl⟩
    · obtain ⟨c, cs, hc⟩ :=
        List.exists_cons_of_ne_nil (Nat.toDigits_ne_nil (n := i.natAbs) (b := 10))
      exact ⟨c, cs, .inr (isDigit_of_mem_toDigits (by rw [hc]; exact List.mem_cons_self)), hc⟩
  rw [htext, hcs] at hf ⊢
  rw [hcs, hi] at hnum
  cases fuel with
  | zero => cases hf
  | succ fuel => exact (readValue_number hc fuel _).trans hnum

theorem reads_str {s : String} {cs : List Char} (h : ReadsText s cs) :
    Reads (.str s) ('"' :: cs ++ ['"']) := by
  intro fuel rest hf _
  cases fuel with
  | zero => cases hf
  | succ fuel =>
      rw [List.append_assoc, List.cons_append, readValue, skipSpace_cons (by decide)]
      simp only [List.singleton_append, h rest]
      rfl

theorem skipSpace_skipSpace (cs : List Char) : skipSpace (skipSpace cs) = skipSpace cs :=
  List.dropWhile_idempotent isSpace cs

theorem readValue_bracket (fuel : Nat) (cs : List Char) : readValue fuel (']' :: cs) = none := by
  cases fuel with
  | zero => rfl
  | succ fuel => rfl

theorem readValue_skipSpace (fuel : Nat) (cs : List Char) :
    readValue fuel (skipSpace cs) = readValue fuel cs := by
  cases fuel with
  | zero => rfl
  | succ fuel => rw [readValue, skipSpace_skipSpace, ← readValue]

theorem readItems_skipSpace (fuel : Nat) (cs : List Char) :
    readItems fuel (skipSpace cs) = readItems fuel cs := by
  cases fuel with
  | zero => rfl
  | succ fuel => rw [readItems, readItems, readValue_skipSpace]

theorem readMembers_skipSpace (fuel : Nat) (cs : List Char) :
    readMembers fuel (skipSpace cs) = readMembers fuel cs := by
  cases fuel with
  | zero => rfl
  | succ fuel => rw [readMembers, readMembers, skipSpace_skipSpace]

theorem readValue_array (fuel : Nat) (cs : List Char) :
    readValue (fuel + 1) ('[' :: cs) =
      match skipSpace cs with
      | ']' :: r => some (.arr [], r)
      | r => (readItems fuel r).map fun (js, r) => (.arr js, r) := by
  rw [readValue, skipSpace_cons (by decide)]
  rfl

theorem readValue_object (fuel : Nat) (cs : List Char) :
    readValue (fuel + 1) ('\x7b' :: cs) =
      match skipSpace cs with
      | '\x7d' :: r => some (.obj [], r)
      | r => (readMembers fuel r).map fun (ms, r) => (ms.elim .unreadable .obj, r) := by
  rw [readValue, skipSpace_cons (by decide)]
  rfl

theorem readValue_items {fuel : Nat} {cs rest : List Char} {items : List Json}
    (h : readItems fuel cs = some (items, rest)) :
    readValue (fuel + 1) ('[' :: cs) = some (.arr items, rest) := by
  rw [readValue_array]
  rw [← readItems_skipSpace] at h
  split
  · next r heq =>
      rw [heq] at h
      cases fuel with
      | zero => cases h
      | succ fuel =>
          rw [readItems, readValue_bracket] at h
          cases h
  · rw [h]
    rfl

theorem readValue_members {fuel : Nat} {cs rest : List Char}
    {members : Option (List (String × Json))} (h : readMembers fuel cs = some (members, rest)) :
    readValue (fuel + 1) ('\x7b' :: cs) = some (members.elim .unreadable .obj, rest) := by
  rw [readValue_object]
  rw [← readMembers_skipSpace] at h
  split
  · next r heq =>
      rw [heq] at h
      cases fuel with
      | zero => cases h
      | succ fuel => cases h
  · rw [h]
    rfl

variable {blanks : List Char}

theorem readItems_of_reads {items : List Json} {texts : List (List Char)}
    (h : List.Forall₂ Reads items texts) (hne : items ≠ []) (hb : ∀ c ∈ blanks, isSpace c = true)
    (fuel : Nat) (rest : List Char) (hf : ([','].intercalate texts).length < fuel) :
    readItems fuel ([','].intercalate texts ++ (blanks ++ ']' :: rest)) = some (items, rest) := by
  induction h generalizing fuel with
  | nil => exact absurd rfl hne
  | @cons j cs items texts hj hjs ih =>
      obtain ⟨fuel, rfl⟩ := Nat.exists_eq_add_one_of_ne_zero (Nat.ne_zero_of_lt hf)
      rw [readItems]
      cases hjs with
      | nil =>
          rw [List.intercalate_singleton] at hf ⊢
          rw [hj fuel _ (by omega) (ends_append hb (ends_bracket rest))]
          simp only [Option.bind_eq_bind, Option.bind_some]
          rw [skipSpace_append hb, skipSpace_cons (by decide)]
          rfl
      | cons hj' hjs =>
          rw [List.intercalate_cons_cons, List.length_append, List.length_append,
            List.length_singleton] at hf
          have hrest := ih (List.cons_ne_nil _ _) fuel (by omega)
          rw [List.intercalate_cons_cons, List.append_assoc, List.append_assoc,
            List.singleton_append, hj fuel _ (by omega) (ends_comma _)]
          simp only [Option.bind_eq_bind, Option.bind_some]
          rw [skipSpace_cons (by decide)]
          simp only [hrest]
          rfl

theorem reads_arr {items : List Json} {texts : List (List Char)}
    (h : List.Forall₂ Reads items texts) (hne : items ≠ []) (hb : ∀ c ∈ blanks, isSpace c = true) :
    Reads (.arr items) ('[' :: ([','].intercalate texts ++ (blanks ++ [']']))) := by
  intro fuel rest hf _
  simp only [List.length_cons, List.length_append, List.length_nil] at hf
  obtain ⟨fuel, rfl⟩ := Nat.exists_eq_add_one_of_ne_zero (by omega : fuel ≠ 0)
  have hread := readItems_of_reads h hne hb fuel rest (by omega)
  rw [List.cons_append, List.append_assoc, List.append_assoc, List.singleton_append]
  exact readValue_items hread

inductive ReadsMember (m : String × Json) : List Char → Prop
  | mk {blanks name cs : List Char} (hb : ∀ c ∈ blanks, isSpace c = true)
      (hname : ReadsText m.1 name) (h : m.2.Reads cs) :
      ReadsMember m (blanks ++ ('"' :: name ++ ['"'] ++ ':' :: cs))

theorem readMembers_name (hb : ∀ c ∈ blanks, isSpace c = true) {k : String} {name : List Char}
    (hname : ReadsText k name) (fuel : Nat) (cs : List Char) :
    readMembers (fuel + 1) (blanks ++ '"' :: (name ++ '"' :: ':' :: cs)) =
      (do
        let (j, r) ← readValue fuel cs
        match skipSpace r with
        | ',' :: r => (readMembers fuel r).map fun (ms, r) => (ms.map ((k, j) :: ·), r)
        | '\x7d' :: r => some (some [(k, j)], r)
        | _ => none) := by
  rw [readMembers, skipSpace_append hb, skipSpace_cons (by decide)]
  simp only [hname (':' :: cs), Option.bind_eq_bind, Option.bind_some]
  rw [skipSpace_cons (by decide)]
  rfl

theorem readMembers_of_reads {members : List (String × Json)} {texts : List (List Char)}
    (h : List.Forall₂ ReadsMember members texts) (hne : members ≠ [])
    (hb : ∀ c ∈ blanks, isSpace c = true) (fuel : Nat) (rest : List Char)
    (hf : ([','].intercalate texts).length < fuel) :
    readMembers fuel ([','].intercalate texts ++ (blanks ++ '\x7d' :: rest)) =
      some (some members, rest) := by
  induction h generalizing fuel with
  | nil => exact absurd rfl hne
  | @cons m text members texts hm hms ih =>
      obtain ⟨fuel, rfl⟩ := Nat.exists_eq_add_one_of_ne_zero (Nat.ne_zero_of_lt hf)
      obtain ⟨hbefore, hname, hj⟩ := hm
      cases hms with
      | nil =>
          rw [List.intercalate_singleton] at hf ⊢
          simp only [List.length_append, List.length_cons] at hf
          simp only [List.append_assoc, List.cons_append, List.nil_append]
          rw [readMembers_name hbefore hname,
            hj fuel _ (by omega) (ends_append hb (ends_brace rest))]
          simp only [Option.bind_eq_bind, Option.bind_some]
          rw [skipSpace_append hb, skipSpace_cons (by decide)]
          rfl
      | cons hm' hms =>
          rw [List.intercalate_cons_cons] at hf ⊢
          simp only [List.length_append, List.length_cons, List.length_nil] at hf
          have hrest := ih (List.cons_ne_nil _ _) fuel (by omega)
          simp only [List.append_assoc, List.cons_append, List.nil_append]
          rw [readMembers_name hbefore hname, hj fuel _ (by omega) (ends_comma _)]
          simp only [Option.bind_eq_bind, Option.bind_some]
          rw [skipSpace_cons (by decide)]
          simp only [hrest]
          rfl

theorem reads_obj {members : List (String × Json)} {texts : List (List Char)}
    (h : List.Forall₂ ReadsMember members texts) (hne : members ≠ [])
    (hb : ∀ c ∈ blanks, isSpace c = true) :
    Reads (.obj members) ('\x7b' :: ([','].intercalate texts ++ (blanks ++ ['\x7d']))) := by
  intro fuel rest hf _
  simp only [List.length_cons, List.length_append, List.length_nil] at hf
  obtain ⟨fuel, rfl⟩ := Nat.exists_eq_add_one_of_ne_zero (by omega : fuel ≠ 0)
  have hread := readMembers_of_reads h hne hb fuel rest (by omega)
  rw [List.cons_append, List.append_assoc, List.append_assoc, List.singleton_append]
  exact readValue_members hread

theorem reads_arr_nil : Reads (.arr []) ['[', ']'] := by
  intro fuel rest hf _
  cases fuel with
  | zero => cases hf
  | succ fuel => rfl

theorem reads_obj_nil : Reads (.obj []) ['\x7b', '\x7d'] := by
  intro fuel rest hf _
  cases fuel with
  | zero => cases hf
  | succ fuel => rfl

end Values

/-- Built from values other than decimals and what is unreadable. -/
inductive Plain : Json → Prop
  | null : Plain .null
  | bool (b : Bool) : Plain (.bool b)
  | int (i : Int) : Plain (.int i)
  | str (s : String) : Plain (.str s)
  | arr {items : List Json} (h : ∀ j ∈ items, Plain j) : Plain (.arr items)
  | obj {members : List (String × Json)} (h : ∀ m ∈ members, Plain m.2) : Plain (.obj members)

section Printing

/-- Texts that are written one after the other, with commas between them. -/
theorem eq_intercalate {α : Type} {write : List α → List Char} {text : α → List Char}
    {closing : List Char} (hone : ∀ a, write [a] = text a ++ closing)
    (hmore : ∀ a b as, write (a :: b :: as) = text a ++ ',' :: write (b :: as)) (a : α)
    (as : List α) : write (a :: as) = [','].intercalate ((a :: as).map text) ++ closing := by
  induction as generalizing a with
  | nil => rw [hone, List.map_cons, List.map_nil, List.intercalate_singleton]
  | cons b as ih =>
      rw [hmore, ih, List.map_cons, List.map_cons, List.map_cons, List.intercalate_cons_cons]
      simp only [List.append_assoc, List.cons_append, List.nil_append]

theorem prettyItems_eq (level : Nat) (j : Json) (items : List Json) :
    prettyItems level (j :: items) =
      [','].intercalate ((j :: items).map fun j => newLine level ++ prettyChars level j) := by
  rw [← List.append_nil (List.intercalate _ _)]
  refine eq_intercalate (fun j => ?_) (fun j j' items => ?_) j items
  · rw [prettyItems, List.append_nil]
  · rw [prettyItems]
    simp

theorem prettyMembers_eq (level : Nat) (m : String × Json) (members : List (String × Json)) :
    prettyMembers level (m :: members) = [','].intercalate ((m :: members).map fun m =>
      newLine level ++ (quoted m.1 ++ ':' :: ([' '] ++ prettyChars level m.2))) := by
  rw [← List.append_nil (List.intercalate _ _)]
  refine eq_intercalate (fun m => ?_) (fun m m' members => ?_) m members
  · rw [prettyMembers]
    simp only [List.append_assoc, List.append_nil, List.singleton_append]
  · rw [prettyMembers]
    · simp only [List.append_assoc, List.cons_append, List.nil_append]
    · simp

theorem reads_pretty {j : Json} (h : j.Plain) (level : Nat) : j.Reads (prettyChars level j) := by
  have hblank : ∀ c ∈ [' '], isSpace c = true := List.forall_mem_singleton.2 (by decide)
  induction h generalizing level with
  | null => exact reads_null
  | bool b => exact reads_bool b
  | int i => exact reads_int i
  | str s => exact reads_str (readsText_escaped s)
  | @arr items _ ih =>
      cases items with
      | nil => exact reads_arr_nil
      | cons j items =>
          rw [prettyChars, prettyItems_eq, List.cons_append, List.cons_append, List.append_assoc]
          · refine reads_arr (List.forall₂_map_right_iff.2 (List.forall₂_same.2 fun j hj => ?_))
              (List.cons_ne_nil _ _) fun _ => isSpace_of_mem_newLine
            exact (ih j hj (level + 1)).append fun _ => isSpace_of_mem_newLine
          · simp
  | @obj members _ ih =>
      cases members with
      | nil => exact reads_obj_nil
      | cons m members =>
          rw [prettyChars, prettyMembers_eq, List.cons_append, List.cons_append, List.append_assoc]
          · refine reads_obj (List.forall₂_map_right_iff.2 (List.forall₂_same.2 fun m hm => ?_))
              (List.cons_ne_nil _ _) fun _ => isSpace_of_mem_newLine
            exact .mk (fun _ => isSpace_of_mem_newLine) (readsText_escaped m.1)
              ((ih m hm (level + 1)).append hblank)
          · simp

section Lines

variable {f : Char → List Char} (hf : Conveys f)

include hf

theorem flatMap_quoted (s : String) : (quoted s).flatMap f =
    '"' :: (s.toList.flatMap escapeChar).flatMap f ++ ['"'] := by
  rw [quoted, List.flatMap_append, List.flatMap_cons, List.flatMap_singleton, hf.ascii _ (by decide)]
  rfl

theorem flatMap_compactItems (j : Json) (items : List Json) :
    (compactItems (j :: items)).flatMap f =
      [','].intercalate ((j :: items).map fun j => (compactChars j).flatMap f) ++ [']'] := by
  refine @eq_intercalate _ (fun items => (compactItems items).flatMap f) _ _ (fun j => ?_)
    (fun j j' items => ?_) j items
  · rw [compactItems, List.flatMap_append, List.flatMap_singleton, hf.ascii _ (by decide)]
  · rw [compactItems, List.flatMap_append, List.flatMap_cons, hf.ascii _ (by decide)]
    · rfl
    · simp

theorem flatMap_compactMembers (m : String × Json) (members : List (String × Json)) :
    (compactMembers (m :: members)).flatMap f =
      [','].intercalate ((m :: members).map fun m =>
        (quoted m.1).flatMap f ++ ':' :: (compactChars m.2).flatMap f) ++ ['\x7d'] := by
  refine @eq_intercalate _ (fun members => (compactMembers members).flatMap f) _ _ (fun m => ?_)
    (fun m m' members => ?_) m members
  · rw [compactMembers, List.append_assoc, List.flatMap_append, List.cons_append, List.flatMap_cons,
      List.flatMap_append, List.flatMap_singleton, hf.ascii _ (by decide), hf.ascii _ (by decide)]
    simp
  · rw [compactMembers]
    · simp only [List.flatMap_append, List.flatMap_cons, hf.ascii ':' (by decide),
        hf.ascii ',' (by decide), List.append_assoc, List.cons_append, List.nil_append]
    · simp

/-- The compact text of a value is read back from any line that carries it. -/
theorem reads_line {j : Json} (h : j.Plain) : j.Reads ((compactChars j).flatMap f) := by
  have hnone : ∀ c ∈ ([] : List Char), isSpace c = true := nofun
  induction h with
  | null =>
      rw [compactChars, flatMap_eq_self hf.ascii (by decide)]
      exact reads_null
  | bool b =>
      rw [compactChars, flatMap_eq_self hf.ascii (by cases b <;> decide)]
      exact reads_bool b
  | int i =>
      rw [compactChars, flatMap_eq_self hf.ascii (List.all_eq_true.2 fun c hc => ?_)]
      · exact reads_int i
      · rw [toList_toString_int] at hc
        refine decide_eq_true ?_
        rcases List.mem_append.1 hc with hsign | hdigit
        · split at hsign
          · rw [List.mem_singleton.1 hsign]
            decide
          · cases hsign
        · have h := isDigit_of_mem_toDigits hdigit
          simp only [Char.isDigit, Bool.and_eq_true, decide_eq_true_eq] at h
          exact Nat.lt_of_le_of_lt h.2 (by decide)
  | str s =>
      rw [compactChars, flatMap_quoted hf]
      exact reads_str (hf.text s)
  | @arr items _ ih =>
      cases items with
      | nil =>
          rw [compactChars, compactItems, flatMap_eq_self hf.ascii (by decide)]
          exact reads_arr_nil
      | cons j items =>
          rw [compactChars, List.flatMap_cons, hf.ascii _ (by decide), flatMap_compactItems hf]
          exact reads_arr (List.forall₂_map_right_iff.2 (List.forall₂_same.2 ih))
            (List.cons_ne_nil _ _) hnone
  | @obj members _ ih =>
      cases members with
      | nil =>
          rw [compactChars, compactMembers, flatMap_eq_self hf.ascii (by decide)]
          exact reads_obj_nil
      | cons m members =>
          rw [compactChars, List.flatMap_cons, hf.ascii _ (by decide), flatMap_compactMembers hf]
          refine reads_obj (List.forall₂_map_right_iff.2 (List.forall₂_same.2 fun m hm => ?_))
            (List.cons_ne_nil _ _) hnone
          rw [flatMap_quoted hf]
          exact .mk hnone (hf.text m.1) (ih m hm)

end Lines

theorem ofText?_of_reads {j : Json} {cs : List Char} (h : j.Reads cs) :
    ofText? (.ofList cs) = some j := by
  have hread := h (cs.length + 1) [] (Nat.le_succ _) nofun
  rw [List.append_nil] at hread
  unfold ofText?
  simp only [String.toList_ofList, hread, Option.bind_eq_bind, Option.bind_some]
  rfl

theorem ofText?_pretty {j : Json} (h : j.Plain) : ofText? j.pretty = some j :=
  ofText?_of_reads (reads_pretty h 0)

theorem ofText?_compact {j : Json} (h : j.Plain) : ofText? j.compact = some j := by
  have hread := reads_line conveys_singleton h
  rw [List.flatMap_singleton'] at hread
  exact ofText?_of_reads hread

/-- Nothing is lost when other characters than those of ASCII are escaped. -/
theorem ofText?_compactAscii {j : Json} (h : j.Plain) : ofText? j.compactAscii = some j :=
  ofText?_of_reads (reads_line conveys_asciiChars h)

end Printing

end VirtualInfra.Json
