import VirtualInfra.Json
import VirtualInfra.Text.Numeral

namespace VirtualInfra.Json

open Text

def escapeChar (c : Char) : List Char :=
  if c = '"' then ['\\', '"']
  else if c = '\\' then ['\\', '\\']
  else if c = '\x08' then ['\\', 'b']
  else if c = '\x0c' then ['\\', 'f']
  else if c = '\n' then ['\\', 'n']
  else if c = '\r' then ['\\', 'r']
  else if c = '\t' then ['\\', 't']
  else if c.toNat < 0x20 then
    ['\\', 'u', '0', '0', Nat.digitChar (c.toNat / 16), Nat.digitChar (c.toNat % 16)]
  else [c]

def quoted (s : String) : List Char :=
  '"' :: s.toList.flatMap escapeChar ++ ['"']

mutual

def compactChars : Json → List Char
  | .null => "null".toList
  | .bool b => (if b then "true" else "false").toList
  | .int i => (toString i).toList
  | .decimal t => t.toList
  | .str s => quoted s
  | .arr items => '[' :: compactItems items
  | .obj members => '\x7b' :: compactMembers members
  | .unreadable => "null".toList

def compactItems : List Json → List Char
  | [] => [']']
  | [j] => compactChars j ++ [']']
  | j :: js => compactChars j ++ ',' :: compactItems js

def compactMembers : List (String × Json) → List Char
  | [] => ['\x7d']
  | [(k, j)] => quoted k ++ ':' :: compactChars j ++ ['\x7d']
  | (k, j) :: ms => quoted k ++ ':' :: compactChars j ++ ',' :: compactMembers ms

end

def compact (j : Json) : String :=
  .ofList j.compactChars

def unitEscape (n : Nat) : List Char :=
  ['\\', 'u', Nat.digitChar (n / 0x1000), Nat.digitChar (n / 0x100 % 16),
    Nat.digitChar (n / 0x10 % 16), Nat.digitChar (n % 16)]

def asciiChars (c : Char) : List Char :=
  let n := c.toNat
  if n < 0x7F then [c]
  else if n < 0x10000 then unitEscape n
  else unitEscape (0xD7C0 + n / 0x400) ++ unitEscape (0xDC00 + n % 0x400)

/-- The compact text for a line that carries ASCII only. Just texts and names hold other
characters. -/
def compactAscii (j : Json) : String :=
  .ofList (j.compactChars.flatMap asciiChars)

def newLine (level : Nat) : List Char :=
  '\n' :: List.replicate (2 * level) ' '

mutual

def prettyChars (level : Nat) : Json → List Char
  | .arr [] => ['[', ']']
  | .arr items => '[' :: prettyItems (level + 1) items ++ newLine level ++ [']']
  | .obj [] => ['\x7b', '\x7d']
  | .obj members => '\x7b' :: prettyMembers (level + 1) members ++ newLine level ++ ['\x7d']
  | j => compactChars j

def prettyItems (level : Nat) : List Json → List Char
  | [] => []
  | [j] => newLine level ++ prettyChars level j
  | j :: js => newLine level ++ prettyChars level j ++ ',' :: prettyItems level js

def prettyMembers (level : Nat) : List (String × Json) → List Char
  | [] => []
  | [(k, j)] => newLine level ++ quoted k ++ ':' :: ' ' :: prettyChars level j
  | (k, j) :: ms =>
    newLine level ++ quoted k ++ ':' :: ' ' :: prettyChars level j ++ ',' :: prettyMembers level ms

end

def pretty (j : Json) : String :=
  .ofList (j.prettyChars 0)

end VirtualInfra.Json
