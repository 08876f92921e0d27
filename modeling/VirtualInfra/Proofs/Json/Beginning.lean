import VirtualInfra.Proofs.Json.Text

namespace VirtualInfra.Json

open Text

/-- What one reader takes from a text without reaching its end, another one takes from it whatever
follows there. -/
def Continues {α : Type} (read read' : List Char → Option (α × List Char)) : Prop :=
  ∀ ⦃cs a r⦄, read cs = some (a, r) → r ≠ [] →
    cs ≠ [] ∧ ∀ t, read' (cs ++ t) = some (a, r ++ t)

namespace Continues

variable {α β : Type}

theorem pure (a : α) : Continues (fun r => some (a, r)) fun r => some (a, r) := by
  intro cs b r h hr
  cases h
  exact ⟨hr, fun _ => rfl⟩

theorem bind {read read' : List Char → Option (α × List Char)}
    {next next' : α → List Char → Option (β × List Char)} (h : Continues read read')
    (hn : ∀ a, Continues (next a) (next' a)) :
    Continues (fun cs => (read cs).bind fun (a, r) => next a r)
      fun cs => (read' cs).bind fun (a, r) => next' a r := by
  intro cs b r hb hr
  obtain ⟨⟨a, r'⟩, ha, hb⟩ := Option.bind_eq_some_iff.1 hb
  obtain ⟨hr', hnext⟩ := hn a hb hr
  obtain ⟨hcs, hread⟩ := h ha hr'
  refine ⟨hcs, fun t => ?_⟩
  simp only [hread t, Option.bind_some, hnext t]

end Continues

section Numbers

theorem continues_readDigits : Continues readDigits readDigits := by
  intro cs digits r h hr
  unfold readDigits at h ⊢
  split at h
  · cases h
  · next hd =>
      cases h
      refine ⟨fun hcs => hr (by rw [hcs]; rfl), fun t => ?_⟩
      rw [takeWhile_append_of_dropWhile_ne_nil hr, dropWhile_append_of_dropWhile_ne_nil hr,
        if_neg hd]

theorem continues_of_sign {α : Type} (signs : List Char)
    {next : List Char → List Char → Option (α × List Char)}
    (hn : ∀ sign, Continues (next sign) (next sign)) :
    Continues (fun cs => next (readSign signs cs).1 (readSign signs cs).2)
      fun cs => next (readSign signs cs).1 (readSign signs cs).2 := by
  intro cs a r h hr
  obtain ⟨hne, hnext⟩ := hn _ h hr
  cases cs with
  | nil => exact absurd rfl hne
  | cons c cs =>
      refine ⟨List.cons_ne_nil _ _, fun t => ?_⟩
      have hsign : readSign signs (c :: cs ++ t) =
          ((readSign signs (c :: cs)).1, (readSign signs (c :: cs)).2 ++ t) := by
        simp only [List.cons_append, readSign]
        split
        · rfl
        · rfl
      simp only [hsign, hnext t]

theorem continues_readPart {begins : Char → Bool}
    {read : Char → List Char → Option (List Char × List Char)}
    (h : ∀ c, Continues (read c) (read c)) :
    Continues (readPart begins read) (readPart begins read) := by
  intro cs part r ha hr
  cases cs with
  | nil =>
      cases ha
      exact absurd rfl hr
  | cons c cs =>
      refine ⟨List.cons_ne_nil _ _, fun t => ?_⟩
      rw [readPart] at ha
      rw [List.cons_append, readPart]
      split at ha
      · next hc =>
          rw [if_pos hc]
          exact (h c ha hr).2 t
      · next hc =>
          cases ha
          rw [if_neg hc]
          rfl

theorem continues_readFraction : Continues readFraction readFraction :=
  continues_readPart fun point => continues_readDigits.bind fun digits => .pure (point :: digits)

theorem continues_readExponent : Continues readExponent readExponent :=
  continues_readPart fun letter => continues_of_sign ['+', '-'] fun sign =>
    continues_readDigits.bind fun digits => .pure (letter :: sign ++ digits)

theorem continues_finishNumber (sign whole : List Char) :
    Continues (finishNumber sign whole) (finishNumber sign whole) := by
  unfold finishNumber
  by_cases hzero : whole.head? = some '0' ∧ whole.length ≠ 1
  · simp only [if_pos hzero]
    intro _ _ _ h
    cases h
  · simp only [if_neg hzero]
    exact continues_readFraction.bind fun fraction =>
      continues_readExponent.bind fun exponent => .pure (ofParts sign whole fraction exponent)

theorem continues_readNumber : Continues readNumber readNumber :=
  continues_of_sign ['-'] fun sign => continues_readDigits.bind (continues_finishNumber sign)

theorem head_of_readNumber {cs r : List Char} {j : Json} (h : readNumber cs = some (j, r)) :
    ∃ c rest, cs = c :: rest ∧ (c = '-' ∨ c.isDigit = true) := by
  cases cs with
  | nil => cases h
  | cons c rest =>
      refine ⟨c, rest, rfl, ?_⟩
      by_contra hc
      obtain ⟨hminus, hdigit⟩ := not_or.1 hc
      have hsign : readSign ['-'] (c :: rest) = ([], c :: rest) := by
        rw [readSign, if_neg (by simpa using hminus)]
      have hdigits : readDigits (c :: rest) = none := by
        rw [readDigits, List.takeWhile_cons, if_neg hdigit, if_pos rfl]
      rw [readNumber, hsign] at h
      simp only [hdigits] at h
      cases h

end Numbers

section Strings

theorem pieces_escape {c e : Char} (h : shortEscape? c = some e) (cs : List Char) :
    pieces ('\\' :: c :: cs) = (pieces cs).map fun (ps, r) => (.char e :: ps, r) := by
  have hu : c ≠ 'u' := by
    rintro rfl
    cases h
  rw [pieces, h]
  rintro _ _ _ _ _ rfl
  exact absurd rfl hu

theorem map_append {cs r t : List Char}
    (ih : ∀ {ps}, pieces cs = some (ps, r) → pieces (cs ++ t) = some (ps, r ++ t)) {p : Piece}
    {ps : List Piece} (h : (pieces cs).map (fun (ps, r) => (p :: ps, r)) = some (ps, r)) :
    (pieces (cs ++ t)).map (fun (ps, r) => (p :: ps, r)) = some (ps, r ++ t) := by
  obtain ⟨⟨qs, r'⟩, hqs, heq⟩ := Option.map_eq_some_iff.1 h
  cases heq
  rw [ih hqs]
  rfl

theorem pieces_append {cs r : List Char} {ps : List Piece} (h : pieces cs = some (ps, r))
    (t : List Char) : pieces (cs ++ t) = some (ps, r ++ t) := by
  fun_induction pieces cs generalizing ps with
  | case1 => cases h
  | case2 cs =>
      cases h
      rfl
  | case3 a b c d cs hall ih => exact (pieces_unit hall (cs ++ t)).trans (map_append ih h)
  | case4 => cases h
  | case5 c cs hu e he ih => exact (pieces_escape he (cs ++ t)).trans (map_append ih h)
  | case6 => cases h
  | case7 => cases h
  | case8 c cs hq hu hs hc ih =>
      have hne : c ≠ '\\' := by
        rintro rfl
        cases cs with
        | nil => cases h
        | cons d cs => exact hs d cs rfl rfl
      exact (pieces_char hq hne hc (cs ++ t)).trans (map_append ih h)

theorem readText_append {cs r : List Char} {text : Option String}
    (h : readText cs = some (text, r)) (t : List Char) :
    readText (cs ++ t) = some (text, r ++ t) := by
  unfold readText at h ⊢
  obtain ⟨⟨ps, r'⟩, hps, heq⟩ := Option.map_eq_some_iff.1 h
  cases heq
  rw [pieces_append hps t]
  rfl

end Strings

section Values

variable {cs r : List Char} {j : Json}

theorem skipSpace_append_of_ne_nil (h : skipSpace cs ≠ []) (t : List Char) :
    skipSpace (cs ++ t) = skipSpace cs ++ t := dropWhile_append_of_dropWhile_ne_nil h t

theorem skipSpace_append_of_eq_cons {c : Char} (h : skipSpace cs = c :: r) (t : List Char) :
    skipSpace (cs ++ t) = c :: (r ++ t) := by
  rw [skipSpace_append_of_ne_nil (by rw [h]; exact List.cons_ne_nil _ _), h, List.cons_append]

/-- The same for a reader that stops at a bracket, and so may have reached the end. -/
def Closes {α : Type} (read read' : List Char → Option (α × List Char)) : Prop :=
  ∀ ⦃cs a r⦄, read cs = some (a, r) → ∀ t, read' (cs ++ t) = some (a, r ++ t)

variable {fuel n : Nat}

theorem closes_readItems_succ (hv : Continues (readValue fuel) (readValue n))
    (hi : Closes (readItems fuel) (readItems n)) :
    Closes (readItems (fuel + 1)) (readItems (n + 1)) := by
  intro cs js r h t
  rw [readItems] at h ⊢
  obtain ⟨⟨j, r'⟩, hj, h⟩ := Option.bind_eq_some_iff.1 h
  have hr' : r' ≠ [] := by
    rintro rfl
    cases h
  rw [(hv hj hr').2 t]
  simp only [Option.bind_eq_bind, Option.bind_some] at h ⊢
  split at h
  · next heq =>
      rw [skipSpace_append_of_eq_cons heq]
      obtain ⟨⟨js', r''⟩, hjs, h⟩ := Option.map_eq_some_iff.1 h
      cases h
      simp only [hi hjs t, Option.map_some]
  · next heq =>
      cases h
      rw [skipSpace_append_of_eq_cons heq]
      rfl
  · cases h

theorem closes_readMembers_succ (hv : Continues (readValue fuel) (readValue n))
    (hm : Closes (readMembers fuel) (readMembers n)) :
    Closes (readMembers (fuel + 1)) (readMembers (n + 1)) := by
  intro cs ms r h t
  rw [readMembers] at h ⊢
  split at h
  · next r₁ hquote =>
      rw [skipSpace_append_of_eq_cons hquote]
      obtain ⟨⟨name, r₂⟩, hname, h⟩ := Option.bind_eq_some_iff.1 h
      simp only [readText_append hname t, Option.bind_eq_bind, Option.bind_some] at h ⊢
      split at h
      · next r₃ hcolon =>
          rw [skipSpace_append_of_eq_cons hcolon]
          obtain ⟨⟨j, r₄⟩, hj, h⟩ := Option.bind_eq_some_iff.1 h
          have hr₄ : r₄ ≠ [] := by
            rintro rfl
            cases h
          simp only [(hv hj hr₄).2 t, Option.bind_some] at h ⊢
          split at h
          · next heq =>
              rw [skipSpace_append_of_eq_cons heq]
              obtain ⟨⟨ms', r₅⟩, hms, h⟩ := Option.map_eq_some_iff.1 h
              cases h
              simp only [hm hms t, Option.map_some]
          · next heq =>
              cases h
              rw [skipSpace_append_of_eq_cons heq]
              rfl
          · cases h
      · cases h
  · cases h

theorem readValue_array_append (hi : Closes (readItems fuel) (readItems n))
    (h : readValue (fuel + 1) ('[' :: cs) = some (j, r)) (t : List Char) :
    readValue (n + 1) ('[' :: (cs ++ t)) = some (j, r ++ t) := by
  rw [readValue_array] at h
  split at h
  · next heq =>
      cases h
      rw [readValue_array, skipSpace_append_of_eq_cons heq]
      rfl
  · rw [readItems_skipSpace] at h
    obtain ⟨⟨js, r'⟩, hjs, h⟩ := Option.map_eq_some_iff.1 h
    cases h
    exact readValue_items (hi hjs t)

theorem readValue_object_append (hm : Closes (readMembers fuel) (readMembers n))
    (h : readValue (fuel + 1) ('\x7b' :: cs) = some (j, r)) (t : List Char) :
    readValue (n + 1) ('\x7b' :: (cs ++ t)) = some (j, r ++ t) := by
  rw [readValue_object] at h
  split at h
  · next heq =>
      cases h
      rw [readValue_object, skipSpace_append_of_eq_cons heq]
      rfl
  · rw [readMembers_skipSpace] at h
    obtain ⟨⟨ms, r'⟩, hms, h⟩ := Option.map_eq_some_iff.1 h
    cases h
    exact readValue_members (hm hms t)

theorem continues_readValue_succ (hi : Closes (readItems fuel) (readItems n))
    (hm : Closes (readMembers fuel) (readMembers n)) :
    Continues (readValue (fuel + 1)) (readValue (n + 1)) := by
  intro cs j r h hr
  refine ⟨?_, fun t => ?_⟩
  · rintro rfl
    cases h
  rw [readValue] at h
  split at h
  · next heq =>
      cases h
      rw [readValue, skipSpace_append_of_eq_cons heq]
      rfl
  · next heq =>
      cases h
      rw [readValue, skipSpace_append_of_eq_cons heq]
      rfl
  · next heq =>
      cases h
      rw [readValue, skipSpace_append_of_eq_cons heq]
      rfl
  · next heq =>
      obtain ⟨⟨text, r'⟩, htext, h⟩ := Option.map_eq_some_iff.1 h
      cases h
      rw [readValue, skipSpace_append_of_eq_cons heq]
      simp only [readText_append htext t, Option.map_some]
  · next r₁ heq =>
      rw [← readValue_skipSpace, skipSpace_append_of_eq_cons heq]
      exact readValue_array_append hi ((readValue_array fuel r₁).trans h) t
  · next r₁ heq =>
      rw [← readValue_skipSpace, skipSpace_append_of_eq_cons heq]
      exact readValue_object_append hm ((readValue_object fuel r₁).trans h) t
  · obtain ⟨c, rest, heq, hc⟩ := head_of_readNumber h
    rw [heq] at h
    rw [← readValue_skipSpace, skipSpace_append_of_eq_cons heq, readValue_number hc]
    exact (continues_readNumber h hr).2 t

/-- Reading goes on alike when the text goes on, by induction on the fuel of the shorter text. -/
theorem reading_continues (fuel extra : Nat) :
    Continues (readValue fuel) (readValue (fuel + extra)) ∧
      Closes (readItems fuel) (readItems (fuel + extra)) ∧
      Closes (readMembers fuel) (readMembers (fuel + extra)) := by
  induction fuel with
  | zero => exact ⟨nofun, nofun, nofun⟩
  | succ fuel ih =>
      obtain ⟨hv, hi, hm⟩ := ih
      rw [Nat.add_right_comm]
      exact ⟨continues_readValue_succ hi hm, closes_readItems_succ hv hi,
        closes_readMembers_succ hv hm⟩

end Values

theorem exists_chars_obj (members : List (String × Json)) :
    ∃ cs, prettyChars 0 (.obj members) = '\x7b' :: cs := by
  cases members with
  | nil => exact ⟨_, rfl⟩
  | cons m members =>
      refine ⟨prettyMembers 1 (m :: members) ++ newLine 0 ++ ['\x7d'], ?_⟩
      rw [prettyChars]
      · rfl
      · simp

/-- What is cut off before its last brace is not read. -/
theorem ofText?_of_beginning {members : List (String × Json)} (hp : (obj members).Plain)
    {text : String} (h : text.toList <+: (obj members).pretty.toList)
    (hne : text ≠ (obj members).pretty) : ofText? text = none := by
  obtain ⟨t, ht⟩ := h
  have ht' : t ≠ [] := by
    rintro rfl
    rw [List.append_nil] at ht
    exact hne (String.toList_injective ht)
  obtain ⟨cs, hcs⟩ := exists_chars_obj members
  rw [pretty, String.toList_ofList, hcs] at ht
  rw [Option.eq_none_iff_forall_not_mem]
  intro j hj
  obtain ⟨⟨j', r⟩, hread, -⟩ := Option.bind_eq_some_iff.1 hj
  cases htext : text.toList with
  | nil =>
      rw [htext] at hread
      cases hread
  | cons c front =>
      rw [htext, List.cons_append, List.cons.injEq] at ht
      rw [htext, List.length_cons] at hread
      obtain ⟨rfl, rfl⟩ := ht
      have hwhole := readValue_object_append (reading_continues _ t.length).2.2 hread t
      have hlen : (prettyChars 0 (obj members)).length ≤ front.length + 1 + t.length + 1 := by
        rw [hcs, List.length_cons, List.length_append]
        omega
      have hplain := reads_pretty hp 0 _ [] hlen nofun
      rw [List.append_nil, hcs, hwhole, Option.some.injEq, Prod.mk.injEq] at hplain
      exact ht' (List.append_eq_nil_iff.1 hplain.2).2

end VirtualInfra.Json
