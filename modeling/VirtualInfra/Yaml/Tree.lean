import VirtualInfra.Json
import VirtualInfra.Text.Utf8
import VirtualInfra.Yaml.Cursor
import VirtualInfra.Yaml.Plain

namespace VirtualInfra.Yaml

open Text

inductive Tree where
  | word (s : String)
  | text (s : String)
  | list (items : List Tree)
  | table (entries : List (String × Tree))
  | tagged (tag : String) (t : Tree)
deriving Inhabited

mutual

def Tree.ofJson : Json → Tree
  | .null => .word "null"
  | .bool b => .word (if b then "true" else "false")
  | .int i => .word (toString i)
  | .decimal t => .word t
  | .str s => .text s
  | .arr items => .list (ofItems items)
  | .obj members => .table (ofMembers members)
  | .unreadable => .word "null"

def Tree.ofItems : List Json → List Tree
  | [] => []
  | j :: js => ofJson j :: ofItems js

def Tree.ofMembers : List (String × Json) → List (String × Tree)
  | [] => []
  | (k, j) :: ms => (k, ofJson j) :: ofMembers ms

end

inductive Style where
  | plain
  | singleQuoted
  | doubleQuoted
  | literal
deriving DecidableEq

namespace Style

def isPrintable (c : Char) : Bool :=
  let n := c.toNat
  n = 0x0A || (0x20 ≤ n && n ≤ 0x7E) || (0xA0 ≤ n && n ≤ 0xFFFD && n ≠ 0xFEFF) || 0x10000 ≤ n

def hasPair (p q : Char → Bool) : List Char → Bool
  | a :: b :: cs => p a && q b || hasPair p q (b :: cs)
  | _ => false

def hasInnerMark : List Char → Bool
  | a :: b :: cs => b = ':' && atGap cs || b = '#' && atGap [a] || hasInnerMark (b :: cs)
  | _ => false

def hasMark (cs : List Char) : Bool :=
  let first :=
    match cs with
    | c :: r => "#,[]\x7b\x7d&*!|>'\"%@\x60".toList.contains c || "?:-".toList.contains c && atGap r
    | [] => false
  first || cs.take 3 = ['-', '-', '-'] || cs.take 3 = ['.', '.', '.'] || hasInnerMark cs

def isSpace (c : Char) : Bool := c = ' '

def isBlankOrBreak (c : Char) : Bool := isSpace c || isBreak c

def hasSpecial (cs : List Char) : Bool :=
  cs.any (!isPrintable ·) || hasPair isSpace isBreak cs

def allowsSingleQuotes (cs : List Char) : Bool :=
  !hasSpecial cs && !hasPair isBreak isSpace cs

def allowsPlain (cs : List Char) : Bool :=
  allowsSingleQuotes cs && !cs.any isBreak && !hasMark cs
    && !cs.head?.any isSpace && !cs.getLast?.any isSpace

def allowsLiteral (cs : List Char) : Bool :=
  !hasSpecial cs && !cs.getLast?.any isSpace

/-- A text of several lines is written as such where that is possible. One that would not be read
back as a text is quoted. -/
def ofText (s : String) : Style :=
  let cs := s.toList
  if '\n' ∈ cs then if allowsLiteral cs then literal else doubleQuoted
  else if !isAmbiguous s && allowsPlain cs then plain
  else if allowsSingleQuotes cs then singleQuoted
  else doubleQuoted

end Style

def pad (n : Nat) : List Char := List.replicate n ' '

def indentLines (indent : Nat) : Bool → List Char → List Char
  | _, [] => []
  | fresh, c :: cs =>
    if isBreak c then c :: indentLines indent true cs
    else (if fresh then pad indent else []) ++ c :: indentLines indent false cs

def codeDigits (width n : Nat) : List Char :=
  let digits := (Nat.toDigits 16 n).map Char.toUpper
  List.replicate (width - digits.length) '0' ++ digits

def escapeName? : Char → Option Char
  | '\x00' => some '0'
  | '\x07' => some 'a'
  | '\x08' => some 'b'
  | '\t' => some 't'
  | '\n' => some 'n'
  | '\x0b' => some 'v'
  | '\x0c' => some 'f'
  | '\r' => some 'r'
  | '\x1b' => some 'e'
  | '"' => some '"'
  | '\\' => some '\\'
  | '\u0085' => some 'N'
  | '\u00a0' => some '_'
  | '\u2028' => some 'L'
  | '\u2029' => some 'P'
  | _ => none

def escaped (c : Char) : List Char :=
  if Style.isPrintable c ∧ ¬ isBreak c ∧ c ≠ '"' ∧ c ≠ '\\' then [c]
  else
    match escapeName? c with
    | some e => ['\\', e]
    | none =>
      let n := c.toNat
      if n ≤ 0xFF then '\\' :: 'x' :: codeDigits 2 n
      else if n ≤ 0xFFFF then '\\' :: 'u' :: codeDigits 4 n
      else '\\' :: 'U' :: codeDigits 8 n

def literalHeader (cs : List Char) : List Char :=
  let indentation := if cs.head?.any Style.isBlankOrBreak then ['2'] else []
  let chomping :=
    match cs.reverse with
    | a :: b :: _ => if !isBreak a then ['-'] else if isBreak b then ['+'] else []
    | [a] => if isBreak a then ['+'] else ['-']
    | [] => ['-']
  '|' :: indentation ++ chomping

def written (indent : Nat) (s : String) : List Char :=
  let cs := s.toList
  match Style.ofText s with
  | .plain => cs
  | .singleQuoted =>
    let body := cs.flatMap fun c => if c = '\'' then ['\'', '\''] else [c]
    let closing := if cs.getLast?.any isBreak then pad indent else []
    '\'' :: indentLines indent false body ++ closing ++ ['\'']
  | .doubleQuoted => '"' :: cs.flatMap escaped ++ ['"']
  | .literal => literalHeader cs ++ '\n' :: indentLines indent true cs

def closed (cs : List Char) : List Char :=
  if cs.getLast?.any isBreak then cs else cs ++ ['\n']

def isSimpleKey (s : String) : Bool :=
  s.utf8ByteSize ≤ 128 && !s.toList.any isBreak

mutual

/-- A value behind its key, which is indented by `n`. The items of a list are not indented further,
the entries of a table are. -/
def valueChars (n : Nat) : Tree → List Char
  | .word s => ' ' :: s.toList ++ ['\n']
  | .text s => ' ' :: closed (written (n + 2) s)
  | .list [] => " []\n".toList
  | .list (t :: ts) => '\n' :: itemsChars n (t :: ts)
  | .table [] => " \x7b\x7d\n".toList
  | .table (e :: es) => '\n' :: entriesChars (n + 2) (e :: es)
  | .tagged tag t => ' ' :: '!' :: tag.toList ++ valueChars n t

def inlineChars (n : Nat) : Tree → List Char
  | .list (t :: ts) => ' ' :: (itemsChars (n + 2) (t :: ts)).drop (n + 2)
  | .table (e :: es) => ' ' :: (entriesChars (n + 2) (e :: es)).drop (n + 2)
  | t => valueChars n t

def itemsChars (n : Nat) : List Tree → List Char
  | [] => []
  | t :: ts => pad n ++ '-' :: inlineChars n t ++ itemsChars n ts

def entriesChars (n : Nat) : List (String × Tree) → List Char
  | [] => []
  | (k, t) :: es =>
    let entry :=
      if isSimpleKey k then written (n + 2) k ++ ':' :: valueChars n t
      else '?' :: ' ' :: closed (written (n + 2) k) ++ pad n ++ ':' :: inlineChars n t
    pad n ++ entry ++ entriesChars n es

end

def Tree.render : Tree → String
  | .list (t :: ts) => .ofList (itemsChars 0 (t :: ts))
  | .table (e :: es) => .ofList (entriesChars 0 (e :: es))
  | t => .ofList ((valueChars 0 t).drop 1)

end VirtualInfra.Yaml
