import VirtualInfra.Text.Numeral
import VirtualInfra.Text.Utf8

namespace VirtualInfra

open Text

structure Mac where
  octets : List UInt8
  length_eq : octets.length = 6
deriving DecidableEq

namespace Mac

inductive Problem where
  | length (read : Nat)
  | character (c : Char) (position : Nat)
deriving DecidableEq

def Problem.message : Problem → String
  | .length n => s!"Invalid length of {n} characters"
  | .character c n => s!"Unexpected character '{c}' at position {n}"

structure Cursor where
  rest : List UInt8
  position : Nat

def byteChar (b : UInt8) : Char :=
  .ofNat b.toNat

def isDelimiter (b : UInt8) : Bool :=
  byteChar b ∈ ['-', ':', '.']

def readDigit (cur : Cursor) : Except Problem (Nat × Cursor) :=
  match cur.rest with
  | [] => .error (.length cur.position)
  | b :: r =>
    match digit? 16 (byteChar b) with
    | some d => .ok (d, ⟨r, cur.position + 1⟩)
    | none => .error (.character (byteChar b) (cur.position + 1))

def skipDelimiter (seen : Option UInt8) (cur : Cursor) : Except Problem (Option UInt8 × Cursor) :=
  match cur.rest with
  | b :: r =>
    if isDelimiter b then
      if seen.all (· = b) then .ok (some b, ⟨r, cur.position + 1⟩)
      else .error (.character (byteChar b) cur.position)
    else .ok (seen, cur)
  | [] => .ok (seen, cur)

def readGroups : Nat → Option UInt8 → Cursor → Except Problem (List UInt8 × Cursor)
  | 0, _, cur => .ok ([], cur)
  | n + 1, seen, cur => do
    let (seen, cur) ← skipDelimiter seen cur
    let (high, cur) ← readDigit cur
    let (low, cur) ← readDigit cur
    let (octets, cur) ← readGroups n seen cur
    return (.ofNat (16 * high + low) :: octets, cur)

theorem length_of_readGroups {n : Nat} {seen : Option UInt8} {c c' : Cursor} {octets : List UInt8}
    (h : readGroups n seen c = .ok (octets, c')) : octets.length = n := by
  induction n generalizing seen c octets with
  | zero =>
    simp only [readGroups, Except.ok.injEq, Prod.mk.injEq] at h
    simp [← h.1]
  | succ n ih =>
    simp only [readGroups, bind, Except.bind] at h
    repeat' split at h
    all_goals cases h
    next heq => simp [ih heq]

def ofText (s : String) : Except Problem Mac :=
  match h : readGroups 6 none ⟨utf8 s, 0⟩ with
  | .error problem => .error problem
  | .ok (octets, cur) =>
    if cur.rest = [] then .ok ⟨octets, length_of_readGroups h⟩
    else .error (.length (utf8 s).length)

def octetText (b : UInt8) : String :=
  .ofList [Nat.digitChar (b.toNat / 16), Nat.digitChar (b.toNat % 16)]

def text (m : Mac) : String :=
  ":".intercalate (m.octets.map octetText)

end Mac

end VirtualInfra
