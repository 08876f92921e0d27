import VirtualInfra.Text.Numeral

namespace VirtualInfra

open Text

inductive Address where
  | v4 (a b c d : UInt8)
  | v6 (groups : List UInt16) (length_eq : groups.length = 8)
deriving DecidableEq

namespace Address

def readOctet (cs : List Char) : Option (UInt8 × List Char) :=
  let digits := cs.takeWhile Char.isDigit
  if digits = [] ∨ 3 < digits.length ∨ (digits.head? = some '0' ∧ digits.length ≠ 1) then none
  else if numberOf 10 digits < 256 then
    some (.ofNat (numberOf 10 digits), cs.drop digits.length)
  else none

def readChar (c : Char) : List Char → Option (List Char)
  | [] => none
  | d :: r => if d = c then some r else none

def readQuad (cs : List Char) : Option ((UInt8 × UInt8 × UInt8 × UInt8) × List Char) := do
  let (a, cs) ← readOctet cs
  let (b, cs) ← readOctet (← readChar '.' cs)
  let (c, cs) ← readOctet (← readChar '.' cs)
  let (d, cs) ← readOctet (← readChar '.' cs)
  return ((a, b, c, d), cs)

def readGroup (cs : List Char) : Option (UInt16 × List Char) :=
  let digits := cs.takeWhile (isDigitOf 16)
  if digits = [] ∨ 4 < digits.length then none
  else some (.ofNat (numberOf 16 digits), cs.drop digits.length)

def joined (high low : UInt8) : UInt16 :=
  .ofNat (high.toNat * 256 + low.toNat)

/-- At most `limit` groups with colons between them. Two of them may be written as four octets,
which end the run; the flag tells whether they did. -/
def readGroups : (limit : Nat) → (first : Bool) → List Char → List UInt16 × Bool × List Char
  | 0, _, cs => ([], false, cs)
  | limit + 1, first, cs =>
    match if first then some cs else readChar ':' cs with
    | none => ([], false, cs)
    | some here =>
      match if limit = 0 then none else readQuad here with
      | some ((a, b, c, d), r) => ([joined a b, joined c d], true, r)
      | none =>
        match readGroup here with
        | none => ([], false, cs)
        | some (g, r) =>
          let (gs, dotted, r) := readGroups limit false r
          (g :: gs, dotted, r)

def ofGroups? (gs : List UInt16) : Option Address :=
  if h : gs.length = 8 then some (.v6 gs h) else none

def readV6 (cs : List Char) : Option Address :=
  match readGroups 8 true cs with
  | (front, dotted, rest) =>
    if front.length = 8 then if rest = [] then ofGroups? front else none
    else if dotted then none
    else
      match rest with
      | ':' :: ':' :: rest =>
        match readGroups (7 - front.length) true rest with
        | (back, _, []) =>
          ofGroups? (front ++ List.replicate (8 - front.length - back.length) 0 ++ back)
        | _ => none
      | _ => none

def ofText? (s : String) : Option Address :=
  match readQuad s.toList with
  | some ((a, b, c, d), rest) => if rest = [] then some (.v4 a b c d) else none
  | none => readV6 s.toList

def longestZeroRun : List UInt16 → Nat × Nat
  | [] => (0, 0)
  | g :: gs =>
    let here := ((g :: gs).takeWhile (· = 0)).length
    let (start, length) := longestZeroRun gs
    if length ≤ here then (0, here) else (start + 1, length)

def groupsText (gs : List UInt16) : String :=
  ":".intercalate (gs.map fun g => hexadecimal g.toNat)

def quadText (a b c d : Nat) : String :=
  s!"{a}.{b}.{c}.{d}"

/-- An IPv4 address mapped into IPv6 is written with dots; of any other address the longest run of
two or more zero groups is written `::`. -/
def text : Address → String
  | .v4 a b c d => quadText a.toNat b.toNat c.toNat d.toNat
  | .v6 gs _ =>
    match gs with
    | [0, 0, 0, 0, 0, 0xFFFF, g, h] =>
      "::ffff:" ++ quadText (g.toNat / 256) (g.toNat % 256) (h.toNat / 256) (h.toNat % 256)
    | gs =>
      let (start, length) := longestZeroRun gs
      if 1 < length then
        groupsText (gs.take start) ++ "::" ++ groupsText (gs.drop (start + length))
      else groupsText gs

end Address

end VirtualInfra
