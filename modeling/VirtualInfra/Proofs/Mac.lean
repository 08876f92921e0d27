import VirtualInfra.Mac
import VirtualInfra.Proofs.Except
import VirtualInfra.Proofs.Text.Blank
import VirtualInfra.Proofs.Text.Numeral
import VirtualInfra.Proofs.Text.Split

namespace VirtualInfra.Mac

open Text

def IsPair (high low : Char) (b : UInt8) : Prop :=
  ∃ x y, digit? 16 high = some x ∧ digit? 16 low = some y ∧ b = .ofNat (16 * x + y)

/-- Pairs of digits, some of them with the separator in front. -/
inductive Pairs (sep : Char) : List Char → List UInt8 → Prop
  | nil : Pairs sep [] []
  | bare {high low : Char} {b : UInt8} {cs : List Char} {bs : List UInt8} (hp : IsPair high low b)
      (h : Pairs sep cs bs) : Pairs sep (high :: low :: cs) (b :: bs)
  | separated {high low : Char} {b : UInt8} {cs : List Char} {bs : List UInt8}
      (hp : IsPair high low b) (h : Pairs sep cs bs) : Pairs sep (sep :: high :: low :: cs) (b :: bs)

def separators : List Char := ['-', ':', '.']

/-- The text spells the address: a separator may stand before each pair, the same one everywhere. -/
def Spells (text : String) (m : Mac) : Prop :=
  ∃ sep ∈ separators, Pairs sep text.toList m.octets

structure IsCanonical (text : String) : Prop where
  length : text.length = 17
  pairs : ∃ pairs : List (List Char), pairs.length = 6 ∧ text.toList = [':'].intercalate pairs ∧
    ∀ p ∈ pairs, p.length = 2 ∧ ∀ c ∈ p, c ∈ "0123456789abcdef".toList

variable {c sep : Char} {b : UInt8} {cs : List Char} {d n : Nat} {cur cur' : Cursor}
  {octets r : List UInt8} {text text' : String} {m m' : Mac}

section Bytes

def byteOf (c : Char) : UInt8 := .ofNat c.toNat

theorem toNat_byteChar (b : UInt8) : (byteChar b).toNat = b.toNat := by
  have hb := b.toNat_lt
  rw [byteChar, Char.ofNat, dif_pos (.inl (by omega))]
  rfl

theorem byteOf_byteChar (b : UInt8) : byteOf (byteChar b) = b := by
  rw [byteOf, toNat_byteChar, UInt8.ofNat_toNat]

theorem byteChar_byteOf (h : c.toNat < 128) : byteChar (byteOf c) = c := by
  rw [byteOf, byteChar, UInt8.toNat_ofNat', Nat.mod_eq_of_lt (by omega), Char.ofNat_toNat]

theorem utf8_ofList (h : ∀ c ∈ cs, c.toNat < 128) : utf8 (.ofList cs) = cs.map byteOf := by
  rw [utf8, String.toList_ofList]
  induction cs with
  | nil => rfl
  | cons c cs ih =>
      have hc : String.utf8EncodeChar c = [byteOf c] :=
        if_pos (Nat.le_of_lt_succ (h c List.mem_cons_self))
      rw [List.flatMap_cons, hc, ih fun c hc => h c (List.mem_cons_of_mem _ hc)]
      rfl

theorem lt_of_digit? (h : digit? 16 c = some d) : c.toNat < 128 := by
  have hc := toNat_of_isAlphanum (isAlphanum_of_isDigitOf (Option.isSome_of_eq_some h))
  omega

theorem mem_separators_iff : sep ∈ separators ↔ sep = '-' ∨ sep = ':' ∨ sep = '.' := by
  simp only [separators, List.mem_cons, List.not_mem_nil, or_false]

theorem lt_of_separator (h : sep ∈ separators) : sep.toNat < 128 := by
  rcases mem_separators_iff.1 h with rfl | rfl | rfl <;> decide

theorem digit?_of_separator (h : sep ∈ separators) : digit? 16 sep = none := by
  rcases mem_separators_iff.1 h with rfl | rfl | rfl <;> decide

end Bytes

section Reading

theorem readDigit_byteOf (h : digit? 16 c = some d) (r : List UInt8) (n : Nat) :
    readDigit ⟨byteOf c :: r, n⟩ = .ok (d, ⟨r, n + 1⟩) := by
  simp only [readDigit, byteChar_byteOf (lt_of_digit? h), h]

theorem exists_of_readDigit (h : readDigit cur = .ok (d, cur')) :
    ∃ c, digit? 16 c = some d ∧ cur.rest = byteOf c :: cur'.rest := by
  rcases cur with ⟨_ | ⟨b, r⟩, n⟩
  · cases h
  · cases hd : digit? 16 (byteChar b) with
    | none => simp [readDigit, hd] at h
    | some x =>
        simp only [readDigit, hd, Except.ok.injEq, Prod.mk.injEq] at h
        obtain ⟨rfl, rfl⟩ := h
        exact ⟨byteChar b, hd, by rw [byteOf_byteChar]⟩

theorem isDelimiter_byteOf (h : c.toNat < 128) :
    isDelimiter (byteOf c) = decide (c ∈ separators) := by
  rw [isDelimiter, byteChar_byteOf h]
  rfl

theorem skipDelimiter_digit (h : digit? 16 c = some d) (seen : Option UInt8) (r : List UInt8)
    (n : Nat) : skipDelimiter seen ⟨byteOf c :: r, n⟩ = .ok (seen, ⟨byteOf c :: r, n⟩) := by
  have hc : c ∉ separators := by
    intro hsep
    rw [digit?_of_separator hsep] at h
    cases h
  rw [skipDelimiter]
  simp only [isDelimiter_byteOf (lt_of_digit? h), hc, decide_false, if_neg Bool.false_ne_true]

theorem skipDelimiter_separator (h : sep ∈ separators) {seen : Option UInt8}
    (hseen : ∀ b ∈ seen, b = byteOf sep) (r : List UInt8) (n : Nat) :
    skipDelimiter seen ⟨byteOf sep :: r, n⟩ = .ok (some (byteOf sep), ⟨r, n + 1⟩) := by
  have hall : seen.all (· = byteOf sep) = true := by
    rw [Option.all_eq_true]
    exact fun b hb => decide_eq_true (hseen b hb)
  rw [skipDelimiter]
  simp only [isDelimiter_byteOf (lt_of_separator h), h, decide_true, hall, if_pos]

theorem cases_of_skipDelimiter {seen seen' : Option UInt8}
    (h : skipDelimiter seen cur = .ok (seen', cur')) :
    (seen' = seen ∧ cur' = cur) ∨ ∃ sep ∈ separators, (∀ b ∈ seen, b = byteOf sep) ∧
      seen' = some (byteOf sep) ∧ cur.rest = byteOf sep :: cur'.rest := by
  rcases cur with ⟨_ | ⟨b, r⟩, n⟩
  · cases h
    exact .inl ⟨rfl, rfl⟩
  · rw [skipDelimiter] at h
    simp only at h
    split at h
    · next hb =>
        split at h
        · next hseen =>
            cases h
            refine .inr ⟨byteChar b, of_decide_eq_true hb, ?_⟩
            rw [byteOf_byteChar]
            exact ⟨fun a ha => of_decide_eq_true ((Option.all_eq_true _ _).1 hseen a ha), rfl, rfl⟩
        · cases h
    · cases h
      exact .inl ⟨rfl, rfl⟩

theorem readGroups_of_pairs (h : Pairs sep cs octets) (hsep : sep ∈ separators)
    {seen : Option UInt8} (hseen : ∀ b ∈ seen, b = byteOf sep) (r : List UInt8) (n : Nat) :
    ∃ n', readGroups octets.length seen ⟨cs.map byteOf ++ r, n⟩ = .ok (octets, ⟨r, n'⟩) := by
  induction h generalizing seen n with
  | nil => exact ⟨n, rfl⟩
  | @bare high low _ cs _ hp _ ih =>
      obtain ⟨x, y, hx, hy, rfl⟩ := hp
      obtain ⟨n', hn⟩ := ih hseen (n + 2)
      refine ⟨n', ?_⟩
      rw [List.length_cons, readGroups]
      simp only [List.map_cons, List.cons_append, skipDelimiter_digit hx, readDigit_byteOf hx,
        readDigit_byteOf hy, Except.ok_bind, hn]
      rfl
  | @separated high low _ cs _ hp _ ih =>
      obtain ⟨x, y, hx, hy, rfl⟩ := hp
      have hagree : ∀ b ∈ some (byteOf sep), b = byteOf sep := fun b hb => (Option.some.inj hb).symm
      obtain ⟨n', hn⟩ := ih hagree (n + 3)
      refine ⟨n', ?_⟩
      rw [List.length_cons, readGroups]
      simp only [List.map_cons, List.cons_append, skipDelimiter_separator hsep hseen,
        readDigit_byteOf hx, readDigit_byteOf hy, Except.ok_bind, hn]
      rfl

theorem pairs_of_readGroups {seen : Option UInt8}
    (hseen : ∀ b ∈ seen, ∃ sep ∈ separators, b = byteOf sep)
    (h : readGroups n seen cur = .ok (octets, cur')) :
    ∃ sep ∈ separators, (∀ b ∈ seen, b = byteOf sep) ∧
      ∃ cs, cur.rest = cs.map byteOf ++ cur'.rest ∧ Pairs sep cs octets := by
  induction n generalizing seen cur octets with
  | zero =>
      cases h
      cases seen with
      | none => exact ⟨':', by decide, nofun, [], rfl, .nil⟩
      | some b =>
          obtain ⟨sep, hsep, hb⟩ := hseen b rfl
          refine ⟨sep, hsep, fun a ha => ?_, [], rfl, .nil⟩
          rw [← Option.some.inj ha, hb]
  | succ n ih =>
      rw [readGroups] at h
      obtain ⟨⟨seen', cur₁⟩, hskip, h⟩ := Except.bind_eq_ok_iff.1 h
      obtain ⟨⟨x, cur₂⟩, hx, h⟩ := Except.bind_eq_ok_iff.1 h
      obtain ⟨⟨y, cur₃⟩, hy, h⟩ := Except.bind_eq_ok_iff.1 h
      obtain ⟨⟨bs, cur₄⟩, hbs, h⟩ := Except.bind_eq_ok_iff.1 h
      cases h
      obtain ⟨high, hhigh, hr₁⟩ := exists_of_readDigit hx
      obtain ⟨low, hlow, hr₂⟩ := exists_of_readDigit hy
      have hpair : IsPair high low (.ofNat (16 * x + y)) := ⟨x, y, hhigh, hlow, rfl⟩
      rcases cases_of_skipDelimiter hskip with ⟨rfl, rfl⟩ | ⟨sep, hsep, hagree, rfl, hr₀⟩
      · obtain ⟨sep, hsep, hagree, cs, hr₃, hcs⟩ := ih hseen hbs
        refine ⟨sep, hsep, hagree, high :: low :: cs, ?_, .bare hpair hcs⟩
        rw [hr₁, hr₂, hr₃]
        rfl
      · have hknown : ∀ b ∈ some (byteOf sep), ∃ sep ∈ separators, b = byteOf sep :=
          fun b hb => ⟨sep, hsep, (Option.some.inj hb).symm⟩
        obtain ⟨sep', hsep', hsame, cs, hr₃, hcs⟩ := ih hknown hbs
        have hbyte := congrArg byteChar (hsame _ rfl)
        rw [byteChar_byteOf (lt_of_separator hsep),
          byteChar_byteOf (lt_of_separator hsep')] at hbyte
        subst hbyte
        refine ⟨sep, hsep, hagree, sep :: high :: low :: cs, ?_, .separated hpair hcs⟩
        rw [hr₀, hr₁, hr₂, hr₃]
        rfl

theorem Pairs.characters (h : Pairs sep cs octets) :
    ∀ c ∈ cs, c = sep ∨ ∃ d, digit? 16 c = some d := by
  induction h with
  | nil => nofun
  | bare hp _ ih =>
      obtain ⟨x, y, hx, hy, -⟩ := hp
      exact List.forall_mem_cons.2 ⟨.inr ⟨x, hx⟩, List.forall_mem_cons.2 ⟨.inr ⟨y, hy⟩, ih⟩⟩
  | separated hp _ ih =>
      obtain ⟨x, y, hx, hy, -⟩ := hp
      exact List.forall_mem_cons.2 ⟨.inl rfl, List.forall_mem_cons.2 ⟨.inr ⟨x, hx⟩,
        List.forall_mem_cons.2 ⟨.inr ⟨y, hy⟩, ih⟩⟩⟩

theorem Pairs.ascii (h : Pairs sep cs octets) (hsep : sep ∈ separators) :
    ∀ c ∈ cs, c.toNat < 128 := by
  intro c hc
  rcases h.characters c hc with rfl | ⟨d, hd⟩
  · exact lt_of_separator hsep
  · exact lt_of_digit? hd

theorem ofText_eq_ok_iff_readGroups : ofText text = .ok m ↔
    ∃ cur, readGroups 6 none ⟨utf8 text, 0⟩ = .ok (m.octets, cur) ∧ cur.rest = [] := by
  unfold ofText
  split
  · next hread =>
      rw [hread]
      exact ⟨nofun, fun ⟨_, h, _⟩ => nomatch h⟩
  · next octets cur hread =>
      split
      · next hrest =>
          constructor
          · rintro ⟨⟩
            exact ⟨cur, hread, hrest⟩
          · rintro ⟨_, h, -⟩
            cases hread.symm.trans h
            rfl
      · next hrest =>
          refine ⟨nofun, ?_⟩
          rintro ⟨_, h, hrest'⟩
          cases hread.symm.trans h
          exact absurd hrest' hrest

/-- Exactly the spellings of an address are read as the address. -/
theorem ofText_eq_ok_iff : ofText text = .ok m ↔ Spells text m := by
  rw [ofText_eq_ok_iff_readGroups]
  constructor
  · rintro ⟨cur, hread, hrest⟩
    have hnone : ∀ b ∈ (none : Option UInt8), ∃ sep ∈ separators, b = byteOf sep := nofun
    obtain ⟨sep, hsep, -, cs, hcs, hpairs⟩ := pairs_of_readGroups hnone hread
    rw [hrest, List.append_nil] at hcs
    refine ⟨sep, hsep, ?_⟩
    -- the characters are those of the text, as their bytes are the same
    have htext : ofUtf8? (utf8 text) = ofUtf8? (utf8 (.ofList cs)) :=
      congrArg ofUtf8? (hcs.trans (utf8_ofList (hpairs.ascii hsep)).symm)
    rw [ofUtf8?_utf8, ofUtf8?_utf8] at htext
    rw [Option.some.inj htext, String.toList_ofList]
    exact hpairs
  · rintro ⟨sep, hsep, hpairs⟩
    have hbytes := utf8_ofList (hpairs.ascii hsep)
    rw [String.ofList_toList] at hbytes
    have hnone : ∀ b ∈ (none : Option UInt8), b = byteOf sep := nofun
    obtain ⟨n, hread⟩ := readGroups_of_pairs hpairs hsep hnone [] 0
    rw [m.length_eq, List.append_nil, ← hbytes] at hread
    exact ⟨_, hread, rfl⟩

end Reading

section Writing

def digits (b : UInt8) : List Char :=
  [Nat.digitChar (b.toNat / 16), Nat.digitChar (b.toNat % 16)]

theorem isPair_digits (b : UInt8) :
    IsPair (Nat.digitChar (b.toNat / 16)) (Nat.digitChar (b.toNat % 16)) b := by
  have hb := b.toNat_lt
  refine ⟨b.toNat / 16, b.toNat % 16, digit?_digitChar _ (by omega), digit?_digitChar _ (by omega),
    ?_⟩
  rw [Nat.div_add_mod, UInt8.ofNat_toNat]

theorem toList_text (m : Mac) : m.text.toList = [':'].intercalate (m.octets.map digits) := by
  have hdigits : m.octets.map (String.toList ∘ octetText) = m.octets.map digits :=
    List.map_congr_left fun b _ => String.toList_ofList
  rw [text, String.toList_intercalate, List.map_map, hdigits]
  rfl

theorem spells_text (m : Mac) : Spells m.text m := by
  have hlater (bs : List UInt8) : Pairs ':' ((bs.map digits).flatMap (':' :: ·)) bs := by
    induction bs with
    | nil => exact .nil
    | cons b bs ih => exact .separated (isPair_digits b) ih
  refine ⟨':', by decide, ?_⟩
  rw [toList_text]
  cases m.octets with
  | nil => exact .nil
  | cons b bs =>
      rw [List.map_cons, intercalate_cons]
      exact .bare (isPair_digits b) (hlater bs)

theorem isCanonical_text (m : Mac) : IsCanonical m.text where
  length := by
    have hlater (bs : List UInt8) :
        ((bs.map digits).flatMap (':' :: ·)).length = 3 * bs.length := by
      induction bs with
      | nil => rfl
      | cons b bs ih =>
          rw [List.map_cons, List.flatMap_cons, List.length_append, ih, List.length_cons,
            List.length_cons, Nat.mul_succ, Nat.add_comm]
          rfl
    have hlength := m.length_eq
    rw [← String.length_toList, toList_text]
    cases ho : m.octets with
    | nil =>
        rw [ho] at hlength
        cases hlength
    | cons b bs =>
        rw [ho, List.length_cons] at hlength
        rw [List.map_cons, intercalate_cons, List.length_append, hlater, Nat.succ.inj hlength]
        rfl
  pairs := by
    refine ⟨m.octets.map digits, by rw [List.length_map, m.length_eq], toList_text m, ?_⟩
    have hlower : ∀ d < 16, Nat.digitChar d ∈ "0123456789abcdef".toList := by decide
    intro p hp
    obtain ⟨b, -, rfl⟩ := List.mem_map.1 hp
    have hb := b.toNat_lt
    exact ⟨rfl, List.forall_mem_cons.2 ⟨hlower _ (by omega),
      List.forall_mem_cons.2 ⟨hlower _ (by omega), nofun⟩⟩⟩

theorem isBlank_of_separator (h : sep ∈ separators) : isBlank sep = false := by
  rcases mem_separators_iff.1 h with rfl | rfl | rfl <;> decide

/-- Nothing is trimmed off a text that spells an address. -/
theorem Spells.nonBlank?_eq (h : Spells text m) : nonBlank? text = some text := by
  obtain ⟨sep, hsep, hpairs⟩ := h
  apply nonBlank?_eq_self
  · intro hnil
    rw [hnil] at hpairs
    have hlength := m.length_eq
    generalize m.octets = octets at hpairs hlength
    cases hpairs
    cases hlength
  · intro c hc
    rcases hpairs.characters c hc with rfl | ⟨d, hd⟩
    · exact isBlank_of_separator hsep
    · exact isBlank_of_isAlphanum (isAlphanum_of_isDigitOf (Option.isSome_of_eq_some hd))

theorem Spells.unique (h : Spells text m) (h' : Spells text m') : m = m' :=
  Except.ok.inj ((ofText_eq_ok_iff.2 h).symm.trans (ofText_eq_ok_iff.2 h'))

theorem text_inj : m.text = m'.text ↔ m = m' :=
  ⟨fun h => (spells_text m).unique (h ▸ spells_text m'), fun h => h ▸ rfl⟩

end Writing

end VirtualInfra.Mac
