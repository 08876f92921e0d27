import VirtualInfra.Json
import VirtualInfra.Text.Numeral

namespace VirtualInfra.Json

open Text

def isSpace (c : Char) : Bool :=
  c = ' ' || c = '\t' || c = '\n' || c = '\r'

def skipSpace (cs : List Char) : List Char :=
  cs.dropWhile isSpace

/-- A piece of a string: a character as it stands, or a UTF-16 unit that was escaped. -/
inductive Piece where
  | char (c : Char)
  | unit (n : Nat)

def shortEscape? : Char → Option Char
  | '"' => some '"'
  | '\\' => some '\\'
  | '/' => some '/'
  | 'b' => some '\x08'
  | 'f' => some '\x0c'
  | 'n' => some '\n'
  | 'r' => some '\r'
  | 't' => some '\t'
  | _ => none

def pieces : List Char → Option (List Piece × List Char)
  | [] => none
  | '"' :: r => some ([], r)
  | '\\' :: 'u' :: a :: b :: c :: d :: r =>
    if [a, b, c, d].all (isDigitOf 16) then
      (pieces r).map fun (ps, r) => (.unit (numberOf 16 [a, b, c, d]) :: ps, r)
    else none
  | '\\' :: c :: r =>
    match shortEscape? c with
    | some e => (pieces r).map fun (ps, r) => (.char e :: ps, r)
    | none => none
  | c :: r =>
    if c.toNat < 0x20 then none
    else (pieces r).map fun (ps, r) => (.char c :: ps, r)

/-- The text of the pieces. Escaped units of a surrogate pair join to one character; a surrogate
without its partner has no text. -/
def joinPieces : List Piece → Option (List Char)
  | [] => some []
  | .char c :: ps => (joinPieces ps).map (c :: ·)
  | .unit high :: .unit low :: ps =>
    if 0xD800 ≤ high ∧ high < 0xDC00 then
      if 0xDC00 ≤ low ∧ low < 0xE000 then
        (joinPieces ps).map (.ofNat (0x10000 + (high - 0xD800) * 0x400 + (low - 0xDC00)) :: ·)
      else none
    else if 0xDC00 ≤ high ∧ high < 0xE000 then none
    else (joinPieces (.unit low :: ps)).map (.ofNat high :: ·)
  | .unit n :: ps =>
    if 0xD800 ≤ n ∧ n < 0xE000 then none else (joinPieces ps).map (.ofNat n :: ·)

def readText (cs : List Char) : Option (Option String × List Char) :=
  (pieces cs).map fun (ps, r) => ((joinPieces ps).map String.ofList, r)

def readDigits (cs : List Char) : Option (List Char × List Char) :=
  if cs.takeWhile Char.isDigit = [] then none
  else some (cs.takeWhile Char.isDigit, cs.dropWhile Char.isDigit)

def readSign (signs : List Char) : List Char → List Char × List Char
  | [] => ([], [])
  | c :: r => if c ∈ signs then ([c], r) else ([], c :: r)

def readPart (begins : Char → Bool) (read : Char → List Char → Option (List Char × List Char)) :
    List Char → Option (List Char × List Char)
  | [] => some ([], [])
  | c :: r => if begins c then read c r else some ([], c :: r)

def readFraction : List Char → Option (List Char × List Char) :=
  readPart (· = '.') fun point r => do
    let (digits, r) ← readDigits r
    return (point :: digits, r)

def readExponent : List Char → Option (List Char × List Char) :=
  readPart (fun c => c = 'e' ∨ c = 'E') fun letter r => do
    let (sign, r) := readSign ['+', '-'] r
    let (digits, r) ← readDigits r
    return (letter :: sign ++ digits, r)

def ofParts (sign whole fraction exponent : List Char) : Json :=
  let n := numberOf 10 whole
  if fraction = [] ∧ exponent = [] ∧ ¬ (sign ≠ [] ∧ n = 0) then
    .int (if sign = [] then n else -n)
  else .decimal (.ofList (sign ++ whole ++ fraction ++ exponent))

def finishNumber (sign whole cs : List Char) : Option (Json × List Char) := do
  if whole.head? = some '0' ∧ whole.length ≠ 1 then none
  else
    let (fraction, r) ← readFraction cs
    let (exponent, r) ← readExponent r
    return (ofParts sign whole fraction exponent, r)

def readNumber (cs : List Char) : Option (Json × List Char) := do
  let (sign, r) := readSign ['-'] cs
  let (whole, r) ← readDigits r
  finishNumber sign whole r

mutual

/-- One value and what follows it, with fuel for every step into a value. -/
def readValue : Nat → List Char → Option (Json × List Char)
  | 0, _ => none
  | fuel + 1, cs =>
    match skipSpace cs with
    | 'n' :: 'u' :: 'l' :: 'l' :: r => some (.null, r)
    | 't' :: 'r' :: 'u' :: 'e' :: r => some (.bool true, r)
    | 'f' :: 'a' :: 'l' :: 's' :: 'e' :: r => some (.bool false, r)
    | '"' :: r => (readText r).map fun (t, r) => (t.elim .unreadable .str, r)
    | '[' :: r =>
      match skipSpace r with
      | ']' :: r => some (.arr [], r)
      | r => (readItems fuel r).map fun (js, r) => (.arr js, r)
    | '{' :: r =>
      match skipSpace r with
      | '}' :: r => some (.obj [], r)
      | r => (readMembers fuel r).map fun (ms, r) => (ms.elim .unreadable .obj, r)
    | r => readNumber r

def readItems : Nat → List Char → Option (List Json × List Char)
  | 0, _ => none
  | fuel + 1, cs => do
    let (j, r) ← readValue fuel cs
    match skipSpace r with
    | ',' :: r => (readItems fuel r).map fun (js, r) => (j :: js, r)
    | ']' :: r => some ([j], r)
    | _ => none

def readMembers : Nat → List Char → Option (Option (List (String × Json)) × List Char)
  | 0, _ => none
  | fuel + 1, cs => do
    let '"' :: r := skipSpace cs | none
    let (name, r) ← readText r
    let ':' :: r := skipSpace r | none
    let (j, r) ← readValue fuel r
    let here := name.map fun name => (name, j)
    match skipSpace r with
    | ',' :: r =>
      (readMembers fuel r).map fun (ms, r) => (here.bind fun m => ms.map (m :: ·), r)
    | '}' :: r => some (here.map fun m => [m], r)
    | _ => none

end

def ofText? (s : String) : Option Json := do
  let cs := s.toList
  let (j, r) ← readValue (cs.length + 1) cs
  if skipSpace r = [] then some j else none

end VirtualInfra.Json
