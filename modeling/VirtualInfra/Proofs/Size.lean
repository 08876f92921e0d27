import Mathlib.Algebra.Ring.Int.Defs
import Mathlib.Algebra.Ring.Nat
import Mathlib.Data.List.TakeWhile
import VirtualInfra.Catalogue.Document
import VirtualInfra.Proofs.Except
import VirtualInfra.Proofs.Kdl.Numeral
import VirtualInfra.Proofs.Text.Blank
import VirtualInfra.Proofs.Text.Numeral

namespace VirtualInfra

open Text

namespace Size

def unitLetters : List Char := ['K', 'M', 'G', 'T']

inductive IsUnit : String → Nat → Prop
  | byte : IsUnit "" 1
  | binary {k : Nat} {c : Char} (h : unitLetters[k]? = some c) :
      IsUnit (.ofList [c, 'i']) (1024 ^ (k + 1))
  | decimal {k : Nat} {c : Char} (h : unitLetters[k]? = some c) :
      IsUnit (.ofList [c]) (1000 ^ (k + 1))

def Written (s : String) (bytes : Nat) : Prop :=
  ∃ zeros count unit scale, IsUnit unit scale ∧
    s = .ofList (List.replicate zeros '0' ++ Nat.toDigits 10 count) ++ unit ∧
    bytes = count * scale

variable {s unit : String} {n scale : Nat} {bytes : UInt64}

theorem word?_eq_some_iff : word? n = some bytes ↔ bytes.toNat = n := by
  constructor
  · exact toNat_of_word?
  · rintro rfl
    rw [word?, if_pos bytes.toNat_lt_size, UInt64.ofNat_toNat]

theorem lookup_units_eq_some_iff : units.lookup unit = some scale ↔ IsUnit unit scale := by
  constructor
  · intro h
    obtain ⟨front, back, hunits, -⟩ := List.lookup_eq_some_iff.1 h
    have hmem : (unit, scale) ∈ units := by
      rw [hunits]
      exact List.mem_append_right _ List.mem_cons_self
    simp only [units, List.mem_cons, Prod.mk.injEq, List.not_mem_nil, or_false] at hmem
    rcases hmem with ⟨rfl, rfl⟩ | ⟨rfl, rfl⟩ | ⟨rfl, rfl⟩ | ⟨rfl, rfl⟩ | ⟨rfl, rfl⟩ | ⟨rfl, rfl⟩ |
      ⟨rfl, rfl⟩ | ⟨rfl, rfl⟩ | ⟨rfl, rfl⟩
    · exact .byte
    · exact @IsUnit.binary 0 'K' rfl
    · exact @IsUnit.binary 1 'M' rfl
    · exact @IsUnit.binary 2 'G' rfl
    · exact @IsUnit.binary 3 'T' rfl
    · exact @IsUnit.decimal 0 'K' rfl
    · exact @IsUnit.decimal 1 'M' rfl
    · exact @IsUnit.decimal 2 'G' rfl
    · exact @IsUnit.decimal 3 'T' rfl
  · intro h
    cases h with
    | byte => rfl
    | @binary k c h =>
        rcases k with _ | _ | _ | _ | k <;> cases h <;> decide +kernel
    | @decimal k c h =>
        rcases k with _ | _ | _ | _ | k <;> cases h <;> decide +kernel

namespace IsUnit

theorem pos (h : IsUnit unit scale) : 0 < scale := by
  cases h with
  | byte => decide
  | binary | decimal => exact Nat.pow_pos (by decide)

theorem isDigit_head (h : IsUnit unit scale) : ∀ c ∈ unit.toList.head?, c.isDigit = false := by
  have hletters : ∀ c ∈ unitLetters, c.isDigit = false := by simp [unitLetters]
  intro c hc
  cases h with
  | byte => cases hc
  | binary h | decimal h =>
      rw [String.toList_ofList] at hc
      cases hc
      exact hletters _ (List.mem_of_getElem? h)

end IsUnit

section Text

variable {digits rest : List Char}

theorem ofText_eq_ok_iff_of_split (hs : (trim s).toList = digits ++ rest)
    (hdigits : ∀ c ∈ digits, c.isDigit = true) (hrest : ∀ c ∈ rest.head?, c.isDigit = false) :
    ofText s = .ok bytes ↔ digits ≠ [] ∧ ∃ count scale, word? (numberOf 10 digits) = some count ∧
      units.lookup (.ofList rest) = some scale ∧ word? (count.toNat * scale) = some bytes := by
  have hthrow : ∀ p : Problem, (throw p : Except Problem UInt64) ≠ .ok bytes := nofun
  rw [ofText]
  simp only [hs, takeWhile_append_of_head hdigits hrest, dropWhile_append_of_head hdigits hrest]
  by_cases hne : digits = []
  · rw [if_pos hne]
    exact ⟨fun h => absurd h (by simp [bind, Except.bind, throw, throwThe, MonadExceptOf.throw]),
      fun h => absurd hne h.1⟩
  · rw [if_neg hne]
    cases word? (numberOf 10 digits) with
    | none => simp [hthrow]
    | some count =>
        cases units.lookup (.ofList rest) with
        | none => simp [hthrow]
        | some scale =>
            cases hbytes : word? (count.toNat * scale) with
            | none => simp [hthrow, hbytes]
            | some bytes' => simp [hne, hbytes]

/-- Only sizes that are written properly are read, and the number of bytes is exact. -/
theorem ofText_eq_ok_iff : ofText s = .ok bytes ↔ Written (trim s) bytes.toNat := by
  constructor
  · intro h
    have hdigits : ∀ c ∈ (trim s).toList.takeWhile Char.isDigit, c.isDigit = true :=
      fun c hc => List.mem_takeWhile_imp hc
    have hrest : ∀ c ∈ ((trim s).toList.dropWhile Char.isDigit).head?, c.isDigit = false :=
      head?_dropWhile _ _
    obtain ⟨hne, count, scale, hcount, hunit, hbytes⟩ :=
      (ofText_eq_ok_iff_of_split List.takeWhile_append_dropWhile.symm hdigits hrest).1 h
    rw [word?_eq_some_iff] at hcount hbytes
    obtain ⟨zeros, hzeros⟩ := exists_zeros_of_isDigit hne hdigits
    refine ⟨zeros, count.toNat, _, scale, lookup_units_eq_some_iff.1 hunit, ?_, hbytes⟩
    rw [hcount, ← hzeros]
    apply String.toList_inj.1
    rw [String.toList_append, String.toList_ofList, String.toList_ofList,
      List.takeWhile_append_dropWhile]
  · rintro ⟨zeros, count, unit, scale, hunit, hs, hbytes⟩
    have hlist : (trim s).toList =
        (List.replicate zeros '0' ++ Nat.toDigits 10 count) ++ unit.toList := by
      rw [hs, String.toList_append, String.toList_ofList]
    have hdigits : ∀ c ∈ List.replicate zeros '0' ++ Nat.toDigits 10 count, c.isDigit = true := by
      intro c hc
      rcases List.mem_append.1 hc with hc | hc
      · rw [List.eq_of_mem_replicate hc]
        rfl
      · exact isDigit_of_mem_toDigits hc
    -- the count by itself fits in 64 bits, as no unit is smaller than a byte
    have hfits : count < UInt64.size :=
      (Nat.le_mul_of_pos_right count hunit.pos).trans_lt (hbytes ▸ bytes.toNat_lt_size)
    have hcount : (UInt64.ofNat count).toNat = count := UInt64.toNat_ofNat_of_lt hfits
    refine (ofText_eq_ok_iff_of_split hlist hdigits hunit.isDigit_head).2
      ⟨?_, .ofNat count, scale, ?_, ?_, ?_⟩
    · exact List.append_ne_nil_of_right_ne_nil _ Nat.toDigits_ne_nil
    · rw [word?_eq_some_iff, numberOf_replicate_append, numberOf_toDigits_ten, hcount]
    · rw [String.ofList_toList, lookup_units_eq_some_iff]
      exact hunit
    · rw [word?_eq_some_iff, hcount, hbytes]

end Text

example : ofText "16777216Ti" = .error .sizeTooLarge := by decide

theorem ofText_toString (bytes : UInt64) : ofText (toString bytes.toNat) = .ok bytes := by
  have htrim : trim (toString bytes.toNat) = toString bytes.toNat := by
    rw [trim, Nat.toString_eq_ofList_toDigits, String.toList_ofList, strip_eq_self]
    exact fun c hc => isBlank_of_isDigit (isDigit_of_mem_toDigits hc)
  rw [ofText_eq_ok_iff, htrim, Nat.toString_eq_ofList_toDigits]
  refine ⟨0, bytes.toNat, "", 1, .byte, ?_, (Nat.mul_one _).symm⟩
  rw [List.replicate_zero, List.nil_append, String.append_empty]

end Size

namespace Catalogue

structure ReadsSizes (owner : String) : Prop where
  text : ∀ s bytes, size owner (.text s) = .ok bytes ↔ Size.Written (trim s) bytes.toNat
  illegible : ∀ s, (∀ bytes : UInt64, ¬Size.Written (trim s) bytes.toNat) →
    ∃ problem, size owner (.text s) = .error (.size s problem)
  count : ∀ i bytes, size owner (.int i) = .ok bytes ↔ i = bytes.toNat
  outside : ∀ i, ¬(0 ≤ i ∧ i < 2 ^ 64) → size owner (.int i) = .error (.negativeSize i owner)
  printed : ∀ bytes : UInt64, size owner (.text (toString bytes.toNat)) = .ok bytes
  numeral : ∀ (bytes : UInt64) rest, Kdl.Ends rest →
    ∃ v, Kdl.readScalar ((toString bytes.toNat).toList ++ rest) = some (v, rest) ∧
      size owner v = .ok bytes

variable {owner s : String} {i : Int} {bytes : UInt64}

theorem size_text_eq_ok_iff :
    size owner (.text s) = .ok bytes ↔ Size.Written (trim s) bytes.toNat := by
  rw [← Size.ofText_eq_ok_iff, size]
  cases Size.ofText s <;> simp [Except.mapError]

theorem ite_word?_eq_some_iff :
    (if 0 ≤ i then Size.word? i.toNat else none) = some bytes ↔ i = bytes.toNat := by
  by_cases hi : 0 ≤ i
  · rw [if_pos hi, Size.word?_eq_some_iff]
    omega
  · rw [if_neg hi]
    exact ⟨nofun, by omega⟩

theorem size_int_eq_ok_iff : size owner (.int i) = .ok bytes ↔ i = bytes.toNat := by
  rw [size, ← ite_word?_eq_some_iff]
  cases (if 0 ≤ i then Size.word? i.toNat else none) <;> simp

theorem size_int_of_outside (h : ¬(0 ≤ i ∧ i < 2 ^ 64)) :
    size owner (.int i) = .error (.negativeSize i owner) := by
  rw [size]
  split
  · next bytes hbytes =>
      have hi := ite_word?_eq_some_iff.1 hbytes
      have hlt := bytes.toNat_lt
      exact absurd ⟨by omega, by omega⟩ h
  · rfl

theorem readsSizes (owner : String) : ReadsSizes owner where
  text _ _ := size_text_eq_ok_iff
  illegible s h := by
    cases hs : Size.ofText s with
    | ok bytes => exact absurd (Size.ofText_eq_ok_iff.1 hs) (h bytes)
    | error problem =>
        refine ⟨problem, ?_⟩
        rw [size, hs]
        rfl
  count _ _ := size_int_eq_ok_iff
  outside _ := size_int_of_outside
  printed bytes := by
    rw [size, Size.ofText_toString]
    rfl
  numeral bytes rest hrest := by
    have hfits : bytes.toNat ≤ Kdl.maxMagnitude :=
      (Nat.le_of_lt bytes.toNat_lt).trans (by decide)
    refine ⟨.int bytes.toNat, ?_, size_int_eq_ok_iff.2 rfl⟩
    rw [Nat.toString_eq_ofList_toDigits, String.toList_ofList]
    exact Kdl.readScalar_toDigits hfits hrest

end Catalogue

end VirtualInfra
