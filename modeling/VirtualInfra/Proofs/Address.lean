import Mathlib.Data.List.TakeWhile
import VirtualInfra.Address
import VirtualInfra.Proofs.Text.Blank
import VirtualInfra.Proofs.Text.Numeral
import VirtualInfra.Proofs.Text.Split

namespace VirtualInfra.Address

open Text

variable {n : Nat} {a b c d : Nat} {cs rest : List Char}

section Quads

theorem readOctet_toDigits (hn : n < 256) (hr : ∀ c ∈ rest.head?, c.isDigit = false) :
    readOctet (Nat.toDigits 10 n ++ rest) = some (.ofNat n, rest) := by
  have htake : (Nat.toDigits 10 n ++ rest).takeWhile Char.isDigit = Nat.toDigits 10 n :=
    takeWhile_append_of_head (fun _ => isDigit_of_mem_toDigits) hr
  have hshort : (Nat.toDigits 10 n).length ≤ 3 :=
    (Nat.length_toDigits_le_iff (by decide) (by decide)).2 (by omega)
  have hdigits : ¬ (Nat.toDigits 10 n = [] ∨ 3 < (Nat.toDigits 10 n).length ∨
      (Nat.toDigits 10 n).head? = some '0' ∧ (Nat.toDigits 10 n).length ≠ 1) := by
    rintro (hnil | hlong | ⟨hzero, hone⟩)
    · exact Nat.toDigits_ne_nil hnil
    · omega
    · exact hone (length_toDigits_of_head?_zero n hzero)
  rw [readOctet]
  simp only [htake, if_neg hdigits, numberOf_toDigits_ten, if_pos hn, List.drop_left]

theorem readOctet_dot (hn : n < 256) (rest : List Char) :
    readOctet (Nat.toDigits 10 n ++ '.' :: rest) = some (.ofNat n, '.' :: rest) := by
  apply readOctet_toDigits hn
  rintro c ⟨⟩
  rfl

theorem toList_quadText (a b c d : Nat) : (quadText a b c d).toList =
    Nat.toDigits 10 a ++ '.' :: (Nat.toDigits 10 b ++ '.' ::
      (Nat.toDigits 10 c ++ '.' :: Nat.toDigits 10 d)) := by
  have hdigits (n : Nat) : (toString n).toList = Nat.toDigits 10 n := Nat.toList_repr
  simp only [quadText, String.toList_append, hdigits, List.append_assoc]
  rfl

theorem readQuad_quadText (ha : a < 256) (hb : b < 256) (hc : c < 256) (hd : d < 256) :
    readQuad (quadText a b c d).toList = some ((.ofNat a, .ofNat b, .ofNat c, .ofNat d), []) := by
  have hlast : readOctet (Nat.toDigits 10 d) = some (.ofNat d, []) := by
    have hnone : ∀ c ∈ ([] : List Char).head?, c.isDigit = false := nofun
    have h := readOctet_toDigits hd hnone
    rwa [List.append_nil] at h
  rw [toList_quadText, readQuad]
  simp only [readOctet_dot ha, readOctet_dot hb, readOctet_dot hc, hlast, readChar, if_true,
    Option.bind_eq_bind, Option.bind_some]
  rfl

theorem eq_dropWhile_of_readOctet {o : UInt8} (h : readOctet cs = some (o, rest)) :
    rest = cs.dropWhile Char.isDigit := by
  rw [readOctet] at h
  split at h
  · cases h
  · split at h
    · cases h
      exact drop_length_takeWhile ..
    · cases h

/-- No quad stands where no dot comes behind the digits. -/
theorem readQuad_eq_none (h : ∀ c ∈ (cs.dropWhile Char.isDigit).head?, c ≠ '.') :
    readQuad cs = none := by
  rw [readQuad]
  cases ho : readOctet cs with
  | none => rfl
  | some o =>
      obtain ⟨o, rest⟩ := o
      rw [← eq_dropWhile_of_readOctet ho] at h
      cases rest with
      | nil => rfl
      | cons c rest =>
          simp only [Option.bind_eq_bind, Option.bind_some, readChar, if_neg (h c rfl)]
          rfl

end Quads

section Groups

def groupChars (g : UInt16) : List Char := Nat.toDigits 16 g.toNat

theorem isDigitOf_of_mem_toDigits {c : Char} (h : c ∈ Nat.toDigits 16 n) :
    isDigitOf 16 c = true := by
  have hdigit : ∀ d < 16, isDigitOf 16 (Nat.digitChar d) = true := by decide
  induction n using Nat.strongRecOn with
  | ind n ih =>
      rw [Nat.toDigits_eq_if (by decide)] at h
      split at h
      · next hn =>
          rw [List.mem_singleton.1 h]
          exact hdigit n hn
      · rcases List.mem_append.1 h with h | h
        · exact ih (n / 16) (by omega) h
        · rw [List.mem_singleton.1 h]
          exact hdigit _ (by omega)

def Ends (cs : List Char) : Prop := ∀ c ∈ cs.head?, c = ':'

theorem ends_colon (cs : List Char) : Ends (':' :: cs) := by
  rintro c ⟨⟩
  rfl

theorem readGroup_groupChars (g : UInt16) (hr : Ends rest) :
    readGroup (groupChars g ++ rest) = some (g, rest) := by
  have hrest : ∀ c ∈ rest.head?, isDigitOf 16 c = false := by
    intro c hc
    rw [hr c hc]
    decide
  have htake : (groupChars g ++ rest).takeWhile (isDigitOf 16) = groupChars g :=
    takeWhile_append_of_head (fun _ => isDigitOf_of_mem_toDigits) hrest
  have hshort : (groupChars g).length ≤ 4 :=
    (Nat.length_toDigits_le_iff (by decide) (by decide)).2 g.toNat_lt
  have hdigits : ¬ (groupChars g = [] ∨ 4 < (groupChars g).length) := by
    rintro (hnil | hlong)
    · exact Nat.toDigits_ne_nil hnil
    · omega
  have hnumber : numberOf 16 (groupChars g) = g.toNat := numberOf_toDigits_sixteen g.toNat
  rw [readGroup]
  simp only [htake, if_neg hdigits, hnumber, UInt16.ofNat_toNat, List.drop_left]

theorem readQuad_groupChars (g : UInt16) (hr : Ends rest) :
    readQuad (groupChars g ++ rest) = none := by
  have hrest : rest.dropWhile Char.isDigit = rest := by
    cases rest with
    | nil => rfl
    | cons c rest =>
        rw [hr c rfl]
        rfl
  apply readQuad_eq_none
  intro c hc
  rw [List.dropWhile_append, hrest] at hc
  split at hc
  · rw [hr c hc]
    decide
  · next hne =>
      -- what is left of the digits begins with a letter
      have hne : (groupChars g).dropWhile Char.isDigit ≠ [] := by
        rintro hnil
        rw [hnil] at hne
        exact hne rfl
      rw [List.head?_append_of_ne_nil _ hne] at hc
      have hmem : c ∈ groupChars g := (List.dropWhile_sublist _).mem (List.mem_of_mem_head? hc)
      rintro rfl
      have hdot := isDigitOf_of_mem_toDigits hmem
      exact absurd hdot (by decide)

theorem readQuad_of_ends (h : Ends cs) : readQuad cs = none := by
  cases cs with
  | nil => rfl
  | cons c cs =>
      rw [h c rfl]
      rfl

theorem readGroup_of_ends (h : Ends cs) : readGroup cs = none := by
  cases cs with
  | nil => rfl
  | cons c cs =>
      rw [h c rfl]
      rfl

inductive Stops : List Char → Prop
  | nil : Stops []
  | colons (cs : List Char) : Stops (':' :: ':' :: cs)

theorem Stops.ends (h : Stops cs) : Ends cs := by
  cases h with
  | nil => nofun
  | colons cs => exact ends_colon (':' :: cs)

theorem ends_later (gs : List UInt16) (h : Stops rest) :
    Ends (gs.flatMap (':' :: groupChars ·) ++ rest) := by
  cases gs with
  | nil => exact h.ends
  | cons g gs => exact ends_colon _

theorem readGroups_of_ends (limit : Nat) (h : Ends cs) :
    readGroups limit true cs = ([], false, cs) := by
  cases limit with
  | zero => rfl
  | succ limit =>
      rw [readGroups]
      simp only [if_true, readQuad_of_ends h, readGroup_of_ends h, ite_self]

theorem readGroups_of_stops (limit : Nat) (h : Stops rest) :
    readGroups limit false rest = ([], false, rest) := by
  cases limit with
  | zero => rfl
  | succ limit =>
      cases h with
      | nil => rfl
      | colons cs =>
          rw [readGroups]
          simp only [Bool.false_eq_true, if_false, readChar, if_true,
            readQuad_of_ends (ends_colon cs), readGroup_of_ends (ends_colon cs), ite_self]

theorem readGroups_groupChars (limit : Nat) {first : Bool} {g : UInt16}
    (hc : (if first then some cs else readChar ':' cs) = some (groupChars g ++ rest))
    (hr : Ends rest) :
    readGroups (limit + 1) first cs =
      let (gs, dotted, r) := readGroups limit false rest
      (g :: gs, dotted, r) := by
  rw [readGroups, hc]
  simp only [readQuad_groupChars g hr, readGroup_groupChars g hr, ite_self]

theorem readGroups_later {gs : List UInt16} {limit : Nat} (hlimit : gs.length ≤ limit)
    (hr : Stops rest) :
    readGroups limit false (gs.flatMap (':' :: groupChars ·) ++ rest) = (gs, false, rest) := by
  induction gs generalizing limit with
  | nil => exact readGroups_of_stops limit hr
  | cons g gs ih =>
      obtain ⟨limit, rfl⟩ := Nat.exists_eq_add_one_of_ne_zero (Nat.ne_zero_of_lt hlimit)
      rw [List.flatMap_cons, List.append_assoc,
        readGroups_groupChars limit rfl (ends_later gs hr), ih (Nat.le_of_succ_le_succ hlimit)]

def runChars (gs : List UInt16) : List Char := [':'].intercalate (gs.map groupChars)

theorem toList_groupsText (gs : List UInt16) : (groupsText gs).toList = runChars gs := by
  have hgroups : gs.map (String.toList ∘ fun g => hexadecimal g.toNat) = gs.map groupChars :=
    List.map_congr_left fun g _ => String.toList_ofList
  rw [groupsText, String.toList_intercalate, List.map_map, hgroups]
  rfl

theorem runChars_cons (g : UInt16) (gs : List UInt16) :
    runChars (g :: gs) = groupChars g ++ gs.flatMap (':' :: groupChars ·) := by
  rw [runChars, List.map_cons, intercalate_cons, List.flatMap_map]

theorem readGroups_runChars {gs : List UInt16} {limit : Nat} (hlimit : gs.length ≤ limit)
    (hr : Stops rest) : readGroups limit true (runChars gs ++ rest) = (gs, false, rest) := by
  cases gs with
  | nil => exact readGroups_of_ends limit hr.ends
  | cons g gs =>
      obtain ⟨limit, rfl⟩ := Nat.exists_eq_add_one_of_ne_zero (Nat.ne_zero_of_lt hlimit)
      rw [runChars_cons, List.append_assoc, readGroups_groupChars limit rfl (ends_later gs hr),
        readGroups_later (Nat.le_of_succ_le_succ hlimit) hr]

theorem readQuad_runChars (gs : List UInt16) (hr : Stops rest) :
    readQuad (runChars gs ++ rest) = none := by
  cases gs with
  | nil => exact readQuad_of_ends hr.ends
  | cons g gs =>
      rw [runChars_cons, List.append_assoc]
      exact readQuad_groupChars g (ends_later gs hr)

end Groups

section Runs

variable {gs front back : List UInt16}

theorem ofGroups?_eq_some (h : gs.length = 8) : ofGroups? gs = some (.v6 gs h) := dif_pos h

theorem readV6_runChars (h : gs.length = 8) : readV6 (runChars gs) = some (.v6 gs h) := by
  have hread := readGroups_runChars (Nat.le_of_eq h) .nil
  rw [List.append_nil] at hread
  rw [readV6]
  simp only [hread, if_pos h, if_true, ofGroups?_eq_some h]

/-- Two colons stand for the groups of zeros that are missing. -/
theorem readV6_of_readGroups {dotted : Bool}
    (hfront : readGroups 8 true cs = (front, false, ':' :: ':' :: rest))
    (hshort : front.length ≠ 8)
    (hback : readGroups (7 - front.length) true rest = (back, dotted, [])) :
    readV6 cs = ofGroups? (front ++ List.replicate (8 - front.length - back.length) 0 ++ back) := by
  rw [readV6]
  simp only [hfront, hback, if_neg hshort, Bool.false_eq_true, if_false]

theorem readV6_colons (h : front.length + back.length < 8) :
    readV6 (runChars front ++ ':' :: ':' :: runChars back) =
      ofGroups? (front ++ List.replicate (8 - front.length - back.length) 0 ++ back) := by
  have hfit : front.length ≤ 8 := by omega
  have hrest : back.length ≤ 7 - front.length := by omega
  have hback := readGroups_runChars hrest .nil
  rw [List.append_nil] at hback
  exact readV6_of_readGroups (readGroups_runChars hfit (.colons (runChars back))) (by omega) hback

theorem takeWhile_zero (gs : List UInt16) :
    gs.takeWhile (· = 0) = List.replicate (gs.takeWhile (· = 0)).length 0 :=
  List.eq_replicate_length.2 fun _ hg =>
    of_decide_eq_true (List.mem_takeWhile_imp (p := fun g => decide (g = 0)) hg)

theorem eq_of_longestZeroRun (gs : List UInt16) {start length : Nat}
    (h : longestZeroRun gs = (start, length)) :
    gs.take start ++ List.replicate length 0 ++ gs.drop (start + length) = gs := by
  induction gs generalizing start length with
  | nil =>
      cases h
      rfl
  | cons g gs ih =>
      rcases hrun : longestZeroRun gs with ⟨s, l⟩
      rw [longestZeroRun, hrun] at h
      simp only at h
      split at h
      · -- the run that is found starts here
        cases h
        have hfront := List.takeWhile_append_dropWhile (p := (· = (0 : UInt16))) (l := g :: gs)
        have hdrop := congrArg (List.drop ((g :: gs).takeWhile (· = 0)).length) hfront
        rw [List.drop_left] at hdrop
        rw [List.take_zero, List.nil_append, Nat.zero_add, ← takeWhile_zero, ← hdrop, hfront]
      · cases h
        rw [Nat.add_right_comm, List.take_succ_cons, List.drop_succ_cons, List.cons_append,
          List.cons_append, ih hrun]

end Runs

section Forms

theorem ofText?_of_readQuad_eq_none {s : String} (h : readQuad s.toList = none) :
    ofText? s = readV6 s.toList := by
  rw [ofText?, h]

theorem ofText?_quadText (a b c d : UInt8) :
    ofText? (quadText a.toNat b.toNat c.toNat d.toNat) = some (.v4 a b c d) := by
  rw [ofText?, readQuad_quadText a.toNat_lt b.toNat_lt c.toNat_lt d.toNat_lt]
  simp only [UInt8.ofNat_toNat, if_true]

theorem joined_halves (g : UInt16) :
    joined (.ofNat (g.toNat / 256)) (.ofNat (g.toNat % 256)) = g := by
  have hlt : g.toNat < 65536 := g.toNat_lt
  have hhigh : (UInt8.ofNat (g.toNat / 256)).toNat = g.toNat / 256 :=
    Nat.mod_eq_of_lt (by omega)
  have hlow : (UInt8.ofNat (g.toNat % 256)).toNat = g.toNat % 256 := Nat.mod_eq_of_lt (by omega)
  have hsum : g.toNat / 256 * 256 + g.toNat % 256 = g.toNat := Nat.div_add_mod' g.toNat 256
  rw [joined, hhigh, hlow, hsum, UInt16.ofNat_toNat]

/-- Four octets with a colon before them are the last two groups. -/
theorem readGroups_quad {limit : Nat} (hlimit : limit ≠ 0) {cs : List Char} {a b c d : UInt8}
    (h : readQuad cs = some ((a, b, c, d), [])) :
    readGroups (limit + 1) false (':' :: cs) = ([joined a b, joined c d], true, []) := by
  rw [readGroups]
  simp only [Bool.false_eq_true, if_false, readChar, if_true, if_neg hlimit, h]

theorem ofText?_mapped (g h : UInt16) :
    ofText? ("::ffff:" ++ quadText (g.toNat / 256) (g.toNat % 256) (h.toNat / 256)
      (h.toNat % 256)) = some (.v6 [0, 0, 0, 0, 0, 0xFFFF, g, h] rfl) := by
  have hg : g.toNat < 65536 := g.toNat_lt
  have hh : h.toNat < 65536 := h.toNat_lt
  have hquad := readQuad_quadText (a := g.toNat / 256) (b := g.toNat % 256)
    (c := h.toNat / 256) (d := h.toNat % 256) (by omega) (by omega) (by omega) (by omega)
  generalize (quadText (g.toNat / 256) (g.toNat % 256) (h.toNat / 256) (h.toNat % 256)) = quad
    at hquad ⊢
  have hchars : ("::ffff:" ++ quad).toList =
      ':' :: ':' :: (groupChars 0xFFFF ++ ':' :: quad.toList) := by
    rw [String.toList_append]
    rfl
  have hends : Ends ("::ffff:" ++ quad).toList := hchars ▸ ends_colon _
  have hback : readGroups 7 true (groupChars 0xFFFF ++ ':' :: quad.toList) =
      ([0xFFFF, g, h], true, []) := by
    rw [readGroups_groupChars 6 rfl (ends_colon _), readGroups_quad (by decide) hquad,
      joined_halves, joined_halves]
  have hfront : readGroups 8 true ("::ffff:" ++ quad).toList =
      ([], false, ':' :: ':' :: (groupChars 0xFFFF ++ ':' :: quad.toList)) := by
    rw [readGroups_of_ends 8 hends, hchars]
  rw [ofText?_of_readQuad_eq_none (readQuad_of_ends hends),
    readV6_of_readGroups hfront (by decide) hback]
  rfl

theorem ofText?_groupsText {gs : List UInt16} (h : gs.length = 8) :
    ofText? (groupsText gs) = some (.v6 gs h) := by
  have hquad := readQuad_runChars gs .nil
  rw [List.append_nil, ← toList_groupsText] at hquad
  rw [ofText?_of_readQuad_eq_none hquad, toList_groupsText, readV6_runChars h]

theorem ofText?_colons {front back : List UInt16} (h : front.length + back.length < 8) :
    ofText? (groupsText front ++ "::" ++ groupsText back) =
      ofGroups? (front ++ List.replicate (8 - front.length - back.length) 0 ++ back) := by
  have hchars : (groupsText front ++ "::" ++ groupsText back).toList =
      runChars front ++ ':' :: ':' :: runChars back := by
    rw [String.toList_append, String.toList_append, toList_groupsText, toList_groupsText,
      List.append_assoc]
    rfl
  have hquad := readQuad_runChars front (.colons (runChars back))
  rw [← hchars] at hquad
  rw [ofText?_of_readQuad_eq_none hquad, hchars, readV6_colons h]

/-- The longest run of zeros is found again between the groups around it. -/
theorem ofText?_shortened {gs : List UInt16} (h : gs.length = 8) {start length : Nat}
    (hrun : longestZeroRun gs = (start, length)) (hlong : 1 < length) :
    ofText? (groupsText (gs.take start) ++ "::" ++ groupsText (gs.drop (start + length))) =
      some (.v6 gs h) := by
  have hgs := eq_of_longestZeroRun gs hrun
  have hlength := congrArg List.length hgs
  have hfront : (gs.take start).length = min start 8 := by rw [List.length_take, h]
  have hback : (gs.drop (start + length)).length = 8 - (start + length) := by
    rw [List.length_drop, h]
  rw [List.length_append, List.length_append, List.length_replicate, hfront, hback, h] at hlength
  have hshort : (gs.take start).length + (gs.drop (start + length)).length < 8 := by omega
  have hzeros : 8 - (gs.take start).length - (gs.drop (start + length)).length = length := by
    omega
  rw [ofText?_colons hshort, hzeros, hgs, ofGroups?_eq_some h]

theorem ofText?_text (a : Address) : ofText? a.text = some a := by
  cases a with
  | v4 a b c d => exact ofText?_quadText a b c d
  | v6 gs h =>
      by_cases hmapped : ∃ g h, gs = [0, 0, 0, 0, 0, 0xFFFF, g, h]
      · obtain ⟨g, k, rfl⟩ := hmapped
        rw [text]
        exact ofText?_mapped g k
      · rw [text.eq_3 _ _ fun g k _ hgs _ => hmapped ⟨g, k, hgs⟩]
        rcases hrun : longestZeroRun gs with ⟨start, length⟩
        simp only
        split
        · next hlong => exact ofText?_shortened h hrun hlong
        · exact ofText?_groupsText h

end Forms

section Characters

def IsMark (c : Char) : Prop :=
  c.isAlphanum = true ∨ c = '.' ∨ c = ':'

def Consumes (cs rest : List Char) : Prop :=
  ∃ front, cs = front ++ rest ∧ ∀ c ∈ front, IsMark c

variable {rest' : List Char}

theorem Consumes.refl (cs : List Char) : Consumes cs cs :=
  ⟨[], rfl, nofun⟩

theorem Consumes.trans (h : Consumes cs rest) (h' : Consumes rest rest') : Consumes cs rest' := by
  obtain ⟨front, rfl, hfront⟩ := h
  obtain ⟨front', rfl, hfront'⟩ := h'
  refine ⟨front ++ front', (List.append_assoc ..).symm, fun c hc => ?_⟩
  exact (List.mem_append.1 hc).elim (hfront c) (hfront' c)

theorem consumes_cons {c : Char} (h : IsMark c) (rest : List Char) : Consumes (c :: rest) rest :=
  ⟨[c], rfl, fun _ hd => List.mem_singleton.1 hd ▸ h⟩

theorem consumes_drop {p : Char → Bool} (hp : ∀ c, p c = true → IsMark c) (cs : List Char) :
    Consumes cs (cs.drop (cs.takeWhile p).length) := by
  refine ⟨cs.takeWhile p, ?_, fun c hc => hp c (List.mem_takeWhile_imp hc)⟩
  rw [drop_length_takeWhile, List.takeWhile_append_dropWhile]

theorem consumes_of_readOctet {o : UInt8} (h : readOctet cs = some (o, rest)) :
    Consumes cs rest := by
  unfold readOctet at h
  simp only at h
  split at h
  · cases h
  · split at h
    · cases h
      exact consumes_drop (fun c hc => .inl (Bool.or_eq_true_iff.2 (.inr hc))) cs
    · cases h

theorem consumes_of_readChar {c : Char} (hc : IsMark c) (h : readChar c cs = some rest) :
    Consumes cs rest := by
  cases cs with
  | nil => cases h
  | cons d cs =>
      rw [readChar] at h
      split at h
      · next hd =>
          cases h
          exact consumes_cons (hd ▸ hc) _
      · cases h

theorem consumes_of_readQuad {q : UInt8 × UInt8 × UInt8 × UInt8}
    (h : readQuad cs = some (q, rest)) : Consumes cs rest := by
  have hpoint : IsMark '.' := .inr (.inl rfl)
  unfold readQuad at h
  simp only [Option.bind_eq_bind, Option.bind_eq_some_iff] at h
  obtain ⟨⟨a, cs₁⟩, ha, cs₂, h₁, ⟨b, cs₃⟩, hb, cs₄, h₂, ⟨c, cs₅⟩, hc, cs₆, h₃, ⟨d, cs₇⟩, hd, h⟩ := h
  cases h
  have hoctets {o : UInt8} {cs rest rest' : List Char} (ho : readOctet cs = some (o, rest))
      (hr : readChar '.' rest = some rest') : Consumes cs rest' :=
    (consumes_of_readOctet ho).trans (consumes_of_readChar hpoint hr)
  exact (hoctets ha h₁).trans ((hoctets hb h₂).trans ((hoctets hc h₃).trans (consumes_of_readOctet hd)))

theorem consumes_of_readGroup {g : UInt16} (h : readGroup cs = some (g, rest)) :
    Consumes cs rest := by
  unfold readGroup at h
  simp only at h
  split at h
  · cases h
  · cases h
    exact consumes_drop (fun c hc => .inl (isAlphanum_of_isDigitOf hc)) cs

theorem consumes_readGroups (limit : Nat) (first : Bool) (cs : List Char) :
    Consumes cs (readGroups limit first cs).2.2 := by
  have hcolon : IsMark ':' := .inr (.inr rfl)
  induction limit generalizing first cs with
  | zero => exact .refl cs
  | succ limit ih =>
      rw [readGroups]
      split
      · exact .refl cs
      · next here hhere =>
          have hfirst : Consumes cs here := by
            cases first with
            | true => exact Option.some.inj hhere ▸ .refl cs
            | false => exact consumes_of_readChar hcolon hhere
          split
          · next hquad =>
              split at hquad
              · cases hquad
              · exact hfirst.trans (consumes_of_readQuad hquad)
          · split
            · exact .refl cs
            · next hgroup => exact hfirst.trans ((consumes_of_readGroup hgroup).trans (ih false _))

theorem isMark_of_consumes (h : Consumes cs []) {c : Char} (hc : c ∈ cs) : IsMark c := by
  obtain ⟨front, rfl, hfront⟩ := h
  rw [List.append_nil] at hc
  exact hfront c hc

theorem consumes_of_readV6 {a : Address} (h : readV6 cs = some a) : Consumes cs [] := by
  have hcolon : IsMark ':' := .inr (.inr rfl)
  have hfront := consumes_readGroups 8 true cs
  unfold readV6 at h
  split at h
  next front dotted rest hgroups =>
  rw [hgroups] at hfront
  split at h
  · split at h
    · next hrest => exact hrest ▸ hfront
    · cases h
  · split at h
    · cases h
    · split at h
      · next rest =>
          have hback := consumes_readGroups (7 - front.length) true rest
          split at h
          · next hgroups' =>
              rw [hgroups'] at hback
              exact hfront.trans ((consumes_cons hcolon _).trans ((consumes_cons hcolon _).trans hback))
          · cases h
      · cases h

/-- An address is written without blanks and commas. -/
theorem isMark_of_ofText? {s : String} {a : Address} (h : ofText? s = some a) {c : Char}
    (hc : c ∈ s.toList) : IsMark c := by
  refine isMark_of_consumes ?_ hc
  unfold ofText? at h
  split at h
  · next hquad =>
      split at h
      · next hrest => exact hrest ▸ consumes_of_readQuad hquad
      · cases h
  · exact consumes_of_readV6 h

theorem IsMark.not_blank {c : Char} (h : IsMark c) : isBlank c = false := by
  rcases h with h | rfl | rfl
  · exact isBlank_of_isAlphanum h
  · decide
  · decide

end Characters

end VirtualInfra.Address
