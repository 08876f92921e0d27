namespace VirtualInfra.Yaml

def isBreak (c : Char) : Bool :=
  c = '\n' || c = '\r' || c = '\u0085' || c = '\u2028' || c = '\u2029'

def isIndentation (c : Char) : Bool :=
  c = ' ' || c = '\t'

def atGap (cs : List Char) : Bool :=
  match cs with
  | [] => true
  | c :: _ => isIndentation c || isBreak c

def atLineEnd (cs : List Char) : Bool :=
  match cs with
  | [] => true
  | c :: _ => isBreak c

def isAllowed (c : Char) : Bool :=
  let n := c.toNat
  n = 0x09 || n = 0x0A || n = 0x0D || (0x20 ≤ n && n ≤ 0x7E) || n = 0x85
    || (0xA0 ≤ n && n ≤ 0xFFFD) || 0x10000 ≤ n

structure Cursor where
  rest : List Char
  line : Nat := 0
  column : Nat := 0
  index : Nat := 0

namespace Cursor

def skip (n : Nat) (cur : Cursor) : Cursor :=
  { cur with
    rest := cur.rest.drop n
    column := cur.column + n
    index := (cur.rest.take n).foldl (fun k c => k + c.utf8Size) cur.index }

def skipWhile (p : Char → Bool) (cur : Cursor) : Cursor :=
  cur.skip (cur.rest.takeWhile p).length

def next? (cur : Cursor) : Option Char := cur.rest.head?

def atBreak (cur : Cursor) : Bool := cur.next?.any isBreak

def takeBreak (cur : Cursor) : List Char × Cursor :=
  let after (rest : List Char) (n : Nat) : Cursor :=
    { rest, line := cur.line + 1, column := 0, index := cur.index + n }
  match cur.rest with
  | '\r' :: '\n' :: r => (['\n'], after r 2)
  | c :: r =>
    if c = '\u2028' ∨ c = '\u2029' then ([c], after r c.utf8Size)
    else if isBreak c then (['\n'], after r c.utf8Size)
    else ([], cur)
  | [] => ([], cur)

def skipBreak (cur : Cursor) : Cursor := cur.takeBreak.2

def skipComment (cur : Cursor) : Cursor :=
  if cur.next? = some '#' then cur.skipWhile (!isBreak ·) else cur

def atSeparator (c : Char) (cur : Cursor) : Bool :=
  cur.column = 0 && cur.rest.take 3 = [c, c, c] && atGap (cur.rest.drop 3)

def atDocumentMark (cur : Cursor) : Bool :=
  cur.atSeparator '-' || cur.atSeparator '.'

end Cursor

end VirtualInfra.Yaml
