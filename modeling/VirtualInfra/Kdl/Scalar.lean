import VirtualInfra.Kdl
import VirtualInfra.Kdl.Space
import VirtualInfra.Text.Numeral

namespace VirtualInfra.Kdl

open Text

def isBareChar (c : Char) : Bool :=
  !isSpace c && !isNewline c && !isDisallowed c
    && !(c ∈ ['\\', '/', '(', ')', '{', '}', ';', '[', ']', '"', '#', '='])

def reservedWords : List String := ["true", "false", "null", "inf", "nan"]

def isBareText (cs : List Char) : Bool :=
  let unsigned := match cs with
    | '+' :: r => r
    | '-' :: r => r
    | r => r
  let start := match unsigned with
    | '.' :: r => r
    | r => r
  cs ≠ [] && !start.head?.any Char.isDigit && !reservedWords.contains (.ofList cs)

def readBare (cs : List Char) : Option (String × List Char) :=
  let text := cs.takeWhile isBareChar
  if isBareText text then some (.ofList text, cs.dropWhile isBareChar) else none

def escape? : Char → Option Char
  | '"' => some '"'
  | '\\' => some '\\'
  | 'b' => some '\x08'
  | 'f' => some '\x0c'
  | 'n' => some '\n'
  | 'r' => some '\r'
  | 't' => some '\t'
  | 's' => some ' '
  | _ => none

def charOf? (n : Nat) : Option Char :=
  if h : n.isValidChar then some (.ofNatAux n h) else none

inductive Piece where
  | literal (c : Char)
  | escaped (c : Char)
  | newline

/-- What is being read inside a quoted text: after a backslash, among the blanks it hides, at the
brace of a numeric escape, or behind some of its digits. -/
inductive Mode where
  | plain
  | escape
  | hidden
  | brace
  | digits (read : List Char)

def pieces (many : Bool) : Mode → List Char → Option (List Piece × List Char)
  | _, [] => none
  | .escape, c :: r =>
    if isSpace c || isNewline c then pieces many .hidden r
    else if c = 'u' then pieces many .brace r
    else
      match escape? c with
      | some e => (pieces many .plain r).map fun (ps, r) => (.escaped e :: ps, r)
      | none => none
  | .brace, c :: r => if c = '{' then pieces many (.digits []) r else none
  | .digits read, c :: r =>
    if isDigitOf 16 c && read.length < 6 then pieces many (.digits (read ++ [c])) r
    else if c = '}' && read ≠ [] then
      match charOf? (numberOf 16 read) with
      | some e => (pieces many .plain r).map fun (ps, r) => (.escaped e :: ps, r)
      | none => none
    else none
  | .plain, '"' :: '"' :: '"' :: r =>
    if many then some ([], r) else some ([], '"' :: '"' :: r)
  | .hidden, '"' :: '"' :: '"' :: r =>
    if many then some ([], r) else some ([], '"' :: '"' :: r)
  | .plain, '\r' :: '\n' :: r =>
    if many then (pieces many .plain r).map fun (ps, r) => (.newline :: ps, r) else none
  | mode, c :: r =>
    if c = '"' && !many then some ([], r)
    else if c = '\\' then pieces many .escape r
    else if isNewline c then
      match mode with
      | .hidden => pieces many .hidden r
      | _ => if many then (pieces many .plain r).map fun (ps, r) => (.newline :: ps, r) else none
    else if isDisallowed c then none
    else
      match mode, isSpace c with
      | .hidden, true => pieces many .hidden r
      | _, _ => (pieces many .plain r).map fun (ps, r) => (.literal c :: ps, r)

def Piece.char : Piece → Char
  | .literal c => c
  | .escaped c => c
  | .newline => '\n'

def pieceLines : List Piece → List (List Piece)
  | [] => [[]]
  | .newline :: ps => [] :: pieceLines ps
  | p :: ps =>
    match pieceLines ps with
    | line :: lines => (p :: line) :: lines
    | [] => [[p]]

def Piece.isBlank : Piece → Bool
  | .literal c => isSpace c
  | _ => false

def unindent? (indentation : List Char) (line : List Piece) : Option (List Char) :=
  if line.all Piece.isBlank then some []
  else
    let front := line.take indentation.length
    if front.all Piece.isBlank && front.map Piece.char = indentation then
      some ((line.drop indentation.length).map Piece.char)
    else none

/-- The text of many lines. The first line is empty and the last one holds the indentation of all
the others. -/
def joinLines? (ps : List Piece) : Option String := do
  let lines := pieceLines ps
  let first :: rest := lines | none
  let last ← rest.getLast?
  if first.isEmpty && last.all Piece.isBlank then
    let body ← rest.dropLast.mapM (unindent? (last.map Piece.char))
    return .ofList (['\n'].intercalate body)
  else none

def readQuoted (cs : List Char) : Option (String × List Char) :=
  match cs with
  | '"' :: '"' :: '"' :: r =>
    match pieces true .plain r with
    | some (ps, r) => (joinLines? ps).map fun s => (s, r)
    | none => none
  | '"' :: r => (pieces false .plain r).map fun (ps, r) => (.ofList (ps.map Piece.char), r)
  | _ => none

def after? : List Char → List Char → Option (List Char)
  | [], cs => some cs
  | _ :: _, [] => none
  | m :: ms, c :: cs => if c = m then after? ms cs else none

def rawPieces (many : Bool) (mark : List Char) : List Char → Option (List Piece × List Char)
  | [] => none
  | c :: cs =>
    match after? mark (c :: cs) with
    | some r => some ([], r)
    | none =>
      if isDisallowed c then none
      else if isNewline c then
        if !many then none
        else if c = '\r' && cs.head? = some '\n' then rawPieces many mark cs
        else (rawPieces many mark cs).map fun (ps, r) => (.newline :: ps, r)
      else (rawPieces many mark cs).map fun (ps, r) => (.literal c :: ps, r)

/-- Three quotes begin a text of many lines only at the end of a line. What stands between single
quotes may be any text but a quote alone. -/
def readRaw (cs : List Char) : Option (String × List Char) :=
  let hashes := cs.takeWhile (· = '#')
  if hashes = [] then none
  else do
    let r ← after? ['"'] (cs.dropWhile (· = '#'))
    let lines? := (after? ['"', '"'] r).filter fun r => (afterNewline? r).isSome
    match lines? with
    | some r =>
      let (ps, r) ← rawPieces true (['"', '"', '"'] ++ hashes) r
      return (← joinLines? ps, r)
    | none =>
      let (ps, r) ← rawPieces false ('"' :: hashes) r
      let text := ps.map Piece.char
      if text = ['"'] then none
      return (.ofList text, r)

def endsHere (cs : List Char) : Bool := (after? ['/', '-'] cs).isNone

def readText (cs : List Char) : Option (String × List Char) :=
  ((readQuoted cs).or ((readRaw cs).or (readBare cs))).filter fun t => endsHere t.2

def maxMagnitude : Nat := (1 <<< 127) - 1

def readDigits (base : Nat) (cs : List Char) : Option (Nat × List Char) :=
  let isPart (c : Char) : Bool := isDigitOf base c || c = '_'
  let n := numberOf base ((cs.takeWhile isPart).filter (· ≠ '_'))
  if cs.head?.any (isDigitOf base) ∧ n ≤ maxMagnitude then some (n, cs.dropWhile isPart) else none

def afterFraction? : List Char → Option (List Char)
  | '.' :: r => (readDigits 10 r).map (·.2)
  | _ => none

def afterExponent? : List Char → Option (List Char)
  | e :: r =>
    if e = 'e' ∨ e = 'E' then
      let r := match r with
        | '+' :: r => r
        | '-' :: r => r
        | r => r
      (readDigits 10 r).map (·.2)
    else none
  | [] => none

def bases : List (Char × Nat) := [('x', 16), ('o', 8), ('b', 2)]

def readNumber (cs : List Char) : Option (Value × List Char) := do
  let (negative, cs) := match cs with
    | '+' :: r => (false, r)
    | '-' :: r => (true, r)
    | r => (false, r)
  let signed (n : Nat) : Value := .int (if negative then -n else n)
  let marked? : Option (Value × List Char) := do
    let '0' :: letter :: r := cs | none
    let (n, r) ← readDigits (← bases.lookup letter.toLower) r
    return (signed n, r)
  match marked? with
  | some number => return number
  | none =>
    let (n, r) ← readDigits 10 cs
    let r' := (afterFraction? r).getD r
    let r' := (afterExponent? r').getD r'
    return (if r'.length = r.length then signed n else .fractional, r')

def keywords : List (String × Value) :=
  [("true", .bool true), ("false", .bool false), ("null", .null), ("inf", .fractional),
   ("-inf", .fractional), ("nan", .fractional)]

def readKeyword : List Char → Option (Value × List Char)
  | '#' :: r =>
    (keywords.lookup (.ofList (r.takeWhile isBareChar))).map fun v => (v, r.dropWhile isBareChar)
  | _ => none

def readScalar (cs : List Char) : Option (Value × List Char) :=
  let other := ((readNumber cs).or (readKeyword cs)).filter fun v => endsHere v.2
  ((readText cs).map fun (s, r) => (.text s, r)).or other

end VirtualInfra.Kdl
