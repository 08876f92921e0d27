namespace VirtualInfra.Kdl

def isSpace (c : Char) : Bool :=
  let n := c.toNat
  n = 0x09 || n = 0x20 || n = 0xA0 || n = 0x1680 || (0x2000 ≤ n && n ≤ 0x200A) || n = 0x202F
    || n = 0x205F || n = 0x3000

def isNewline (c : Char) : Bool :=
  let n := c.toNat
  (0x0A ≤ n && n ≤ 0x0D) || n = 0x85 || n = 0x2028 || n = 0x2029

def isDisallowed (c : Char) : Bool :=
  let n := c.toNat
  n ≤ 0x08 || (0x0E ≤ n && n ≤ 0x1F) || n = 0x200E || n = 0x200F
    || (0x202A ≤ n && n ≤ 0x202E) || (0x2066 ≤ n && n ≤ 0x2069) || n = 0xFEFF

def afterNewline? : List Char → Option (List Char)
  | '\r' :: '\n' :: r => some r
  | c :: r => if isNewline c then some r else none
  | [] => none

def afterComment? : Nat → List Char → Option (List Char)
  | _, [] => none
  | depth, '/' :: '*' :: r => afterComment? (depth + 1) r
  | 0, '*' :: '/' :: r => some r
  | depth + 1, '*' :: '/' :: r => afterComment? depth r
  | depth, _ :: r => afterComment? depth r

def afterLine (cs : List Char) : List Char :=
  let r := cs.dropWhile (!isNewline ·)
  (afterNewline? r).getD r

def skipBlanks : Nat → List Char → List Char
  | fuel + 1, '/' :: '*' :: r =>
    match afterComment? 0 r with
    | some r => skipBlanks fuel r
    | none => '/' :: '*' :: r
  | fuel + 1, c :: r => if isSpace c then skipBlanks fuel r else c :: r
  | _, cs => cs

def afterEmptyLine? : List Char → Option (List Char)
  | [] => some []
  | '/' :: '/' :: r => some (afterLine r)
  | cs => afterNewline? cs

/-- Drops what may separate the entries of a node: blanks, block comments, and line ends after a
backslash. With `lines` also line ends and line comments. -/
def skipSpace (lines : Bool) : Nat → List Char → List Char
  | fuel + 1, cs =>
    match skipBlanks fuel cs with
    | '\\' :: r =>
      match afterEmptyLine? (skipBlanks fuel r) with
      | some r => skipSpace lines fuel r
      | none => '\\' :: r
    | '/' :: '/' :: r => if lines then skipSpace lines fuel (afterLine r) else '/' :: '/' :: r
    | c :: r => if lines && isNewline c then skipSpace lines fuel r else c :: r
    | [] => []
  | 0, cs => cs

end VirtualInfra.Kdl
