import VirtualInfra.Text.Utf8
import VirtualInfra.Yaml.Scalar

namespace VirtualInfra.Yaml

open Text

structure RawTag where
  handle : String
  suffix : String
deriving DecidableEq

inductive Token where
  | versionDirective
  | tagDirective (handle replacement : String)
  | documentStart
  | documentEnd
  | blockSequence
  | blockMapping
  | blockEnd
  | flowSequence
  | flowSequenceEnd
  | flowMapping
  | flowMappingEnd
  | entry
  | comma
  | key
  | value
  | reference (name : String)
  | anchor (name : String)
  | tag (t : RawTag)
  | scalar (plain : Bool) (text : String)
deriving DecidableEq

namespace Token

/-- The place of a token that turns out to be a key if a colon follows it on the same line. -/
structure Candidate where
  position : Nat
  required : Bool
  line : Nat
  column : Nat
  index : Nat

structure Lexer where
  cursor : Cursor
  tokens : List Token := []
  indents : List Nat := []
  /-- What may be a key, outside of brackets and inside of each that is open, the innermost first. -/
  candidates : List (Option Candidate) := [none]
  keyAllowed : Bool := true

namespace Lexer

def inFlow (l : Lexer) : Bool := 1 < l.candidates.length

def column (l : Lexer) : Nat := l.cursor.column

def push (t : Token) (l : Lexer) : Lexer := { l with tokens := t :: l.tokens }

def allow (allowed : Bool) (l : Lexer) : Lexer := { l with keyAllowed := allowed }

def goTo (cursor : Cursor) (l : Lexer) : Lexer := { l with cursor }

def insert (position : Nat) (t : Token) (l : Lexer) : Lexer :=
  let later := l.tokens.length - position
  { l with tokens := l.tokens.take later ++ t :: l.tokens.drop later }

def abandon (c : Option Candidate) : Option (Option Candidate) :=
  if c.any (·.required) then none else some none

def setCandidate (c : Option Candidate) (l : Lexer) : Lexer :=
  { l with candidates := c :: l.candidates.tail }

def dropCandidate (l : Lexer) : Option Lexer := do
  return l.setCandidate (← abandon l.candidates.head?.join)

def offerCandidate (l : Lexer) : Option Lexer :=
  if l.keyAllowed then do
    let l ← l.dropCandidate
    return l.setCandidate (some {
      position := l.tokens.length
      required := !l.inFlow && l.indents.head? = some l.column
      line := l.cursor.line
      column := l.column
      index := l.cursor.index })
  else some l

/-- A key ends on the line it begins on, and takes at most 1024 bytes. -/
def expire (l : Lexer) : Option Lexer := do
  let candidates ← l.candidates.mapM fun c =>
    if c.any fun c => c.line < l.cursor.line ∨ c.index + 1024 < l.cursor.index then abandon c
    else some c
  return { l with candidates }

def openBlock (t : Token) (column : Nat) (position : Nat) (l : Lexer) : Lexer :=
  if !l.inFlow && l.indents.head?.all (· < column) then
    { l.insert position t with indents := column :: l.indents }
  else l

def closeBlocks (column : Option Nat) (l : Lexer) : Lexer :=
  if l.inFlow then l
  else
    let deeper (indent : Nat) : Bool := column.all (· < indent)
    let closed := l.indents.takeWhile deeper
    { l with
      tokens := closed.map (fun _ => blockEnd) ++ l.tokens
      indents := l.indents.drop closed.length }

/-- Goes past blanks, comments and line breaks, and at the beginning of a line past a byte order
mark, which takes a column. A tab may not indent a line of a block. -/
def skipGap : Nat → Lexer → Lexer
  | 0, l => l
  | fuel + 1, l =>
    let cur := if l.column = 0 ∧ l.cursor.next? = some '\ufeff' then l.cursor.skip 1 else l.cursor
    let cur := cur.skipWhile fun c => c = ' ' || (l.inFlow || !l.keyAllowed) && c = '\t'
    let cur := cur.skipComment
    if cur.atBreak then
      skipGap fuel { l with cursor := cur.skipBreak, keyAllowed := l.keyAllowed || !l.inFlow }
    else { l with cursor := cur }

def isNameChar (c : Char) : Bool :=
  c.isAlphanum || c = '_' || c = '-'

def readName (cur : Cursor) : Option (String × Cursor) :=
  let name := cur.rest.takeWhile isNameChar
  let after := cur.skip name.length
  if name ≠ [] ∧ (atGap after.rest ∨ after.next?.any ("?:,]\x7d%@\x60".toList.contains ·)) then
    some (.ofList name, after)
  else none

def isTagChar (verbatim : Bool) (c : Char) : Bool :=
  isNameChar c || ";/?:@&=+$.!~*'()".toList.contains c || verbatim && ",[]".toList.contains c

def readTagText (verbatim : Bool) : Nat → Cursor → Option (List UInt8 × Cursor)
  | 0, _ => none
  | fuel + 1, cur =>
    match cur.rest with
    | '%' :: a :: b :: _ =>
      if isDigitOf 16 a ∧ isDigitOf 16 b then
        (readTagText verbatim fuel (cur.skip 3)).map fun (bytes, cur) =>
          (.ofNat (numberOf 16 [a, b]) :: bytes, cur)
      else none
    | '%' :: _ => none
    | c :: _ =>
      if isTagChar verbatim c then
        (readTagText verbatim fuel (cur.skip 1)).map fun (bytes, cur) =>
          (utf8 c.toString ++ bytes, cur)
      else some ([], cur)
    | [] => some ([], cur)

def readTagString (verbatim : Bool) (cur : Cursor) : Option (String × Cursor) := do
  let (bytes, cur) ← readTagText verbatim (cur.rest.length + 1) cur
  return (← ofUtf8? bytes, cur)

def readHandle (cur : Cursor) : Option (String × Bool × Cursor) :=
  match cur.rest with
  | '!' :: r =>
    let name := r.takeWhile isNameChar
    let closed := (r.drop name.length).head? = some '!'
    let handle := '!' :: name ++ if closed then ['!'] else []
    some (.ofList handle, closed, cur.skip handle.length)
  | _ => none

def readTag (flow : Bool) (cur : Cursor) : Option (RawTag × Cursor) := do
  let (raw, cur) ←
    if cur.rest.take 2 = ['!', '<'] then do
      let (suffix, cur) ← readTagString true (cur.skip 2)
      if suffix = "" ∨ cur.next? ≠ some '>' then none
      pure ((⟨"", suffix⟩ : RawTag), cur.skip 1)
    else do
      let (handle, closed, cur) ← readHandle cur
      let (suffix, cur) ← readTagString false cur
      if closed then
        if suffix = "" then none
        pure ((⟨handle, suffix⟩ : RawTag), cur)
      else
        let suffix := (handle.drop 1).toString ++ suffix
        pure ((if suffix = "" then ⟨"", "!"⟩ else ⟨"!", suffix⟩ : RawTag), cur)
  if atGap cur.rest ∨ flow ∧ cur.next? = some ',' then some (raw, cur) else none

def readVersion (cur : Cursor) : Option (Token × Cursor) := do
  let cur := cur.skipWhile isIndentation
  let major := cur.rest.takeWhile Char.isDigit
  let '.' :: r := cur.rest.drop major.length | none
  let minor := r.takeWhile Char.isDigit
  if major = [] ∨ minor = [] ∨ 9 < major.length ∨ 9 < minor.length then none
  if numberOf 10 major ≠ 1 ∨ ¬ (numberOf 10 minor = 1 ∨ numberOf 10 minor = 2) then none
  return (versionDirective, cur.skip (major.length + 1 + minor.length))

def readTagDirective (cur : Cursor) : Option (Token × Cursor) := do
  let (handle, closed, cur) ← readHandle (cur.skipWhile isIndentation)
  if !closed ∧ handle ≠ "!" then none
  if !cur.next?.any isIndentation then none
  let (replacement, cur) ← readTagString true (cur.skipWhile isIndentation)
  if replacement = "" ∨ !atGap cur.rest then none
  return (tagDirective handle replacement, cur)

def readDirective (cur : Cursor) : Option (Token × Cursor) := do
  let name := cur.rest.takeWhile isNameChar
  let cur := cur.skip name.length
  if !atGap cur.rest then none
  let (t, cur) ←
    if name = ['Y', 'A', 'M', 'L'] then readVersion cur
    else if name = ['T', 'A', 'G'] then readTagDirective cur
    else none
  let cur := (cur.skipWhile isIndentation).skipComment
  if atLineEnd cur.rest then some (t, cur.skipBreak) else none

def markBlock (t : Token) (l : Lexer) : Option Lexer :=
  if l.inFlow then some l
  else if l.keyAllowed then some (l.openBlock t l.column l.tokens.length)
  else none

def takeMark (t : Token) (allowed : Bool) (l : Lexer) : Lexer :=
  ((l.push t).goTo (l.cursor.skip 1)).allow allowed

def openFlow (t : Token) (l : Lexer) : Option Lexer := do
  let l ← l.offerCandidate
  return { l.takeMark t true with candidates := none :: l.candidates }

def closeFlow (t : Token) (l : Lexer) : Option Lexer := do
  let l ← l.dropCandidate
  let candidates := if l.inFlow then l.candidates.tail else l.candidates
  return { l.takeMark t false with candidates }

def takeEntry (l : Lexer) : Option Lexer := do
  let l ← (← l.markBlock blockSequence).dropCandidate
  return l.takeMark entry true

def takeKey (l : Lexer) : Option Lexer := do
  let l ← (← l.markBlock blockMapping).dropCandidate
  return l.takeMark key (!l.inFlow)

/-- A colon makes a key of what may be one, or follows a key that was marked. -/
def takeValue (l : Lexer) : Option Lexer :=
  match l.candidates.head?.join with
  | some c =>
    let l := (l.insert c.position key).openBlock blockMapping c.column c.position
    some ((l.setCandidate none).takeMark value false)
  | none => do
    let l ← l.markBlock blockMapping
    return l.takeMark value (!l.inFlow)

def takeName (t : String → Token) (l : Lexer) : Option Lexer := do
  let l ← l.offerCandidate
  let (name, cur) ← readName (l.cursor.skip 1)
  return ((l.push (t name)).goTo cur).allow false

def takeTag (l : Lexer) : Option Lexer := do
  let l ← l.offerCandidate
  let (t, cur) ← readTag l.inFlow l.cursor
  return ((l.push (tag t)).goTo cur).allow false

def takeBlockScalar (folded : Bool) (l : Lexer) : Option Lexer := do
  let l ← l.dropCandidate
  let (text, cur) ← readBlock folded l.indents.head? (l.cursor.skip 1)
  return ((l.push (scalar false (.ofList text))).goTo cur).allow true

def takeQuoted (quote : Char) (l : Lexer) : Option Lexer := do
  let l ← l.offerCandidate
  let (text, cur) ← readQuoted quote (l.cursor.rest.length + 1) [] (l.cursor.skip 1)
  return ((l.push (scalar false (.ofList text))).goTo cur).allow false

def takePlain (l : Lexer) : Option Lexer := do
  let l ← l.offerCandidate
  let indent := l.indents.head?.elim 0 (· + 1)
  let (text, broken, cur) ← readPlain l.inFlow indent (l.cursor.rest.length + 1) [] {} l.cursor
  return ((l.push (scalar true (.ofList text))).goTo cur).allow broken

def closeDocument (l : Lexer) : Option Lexer := do
  let l ← (l.closeBlocks none).dropCandidate
  return l.allow false

def takeSeparator (t : Token) (l : Lexer) : Option Lexer := do
  let l ← l.closeDocument
  return (l.push t).goTo (l.cursor.skip 3)

def takeDirective (l : Lexer) : Option Lexer := do
  let l ← l.closeDocument
  let (t, cur) ← readDirective (l.cursor.skip 1)
  return (l.push t).goTo cur

def beginsPlain (flow : Bool) (c : Char) (after : List Char) : Bool :=
  if c = '-' then !after.head?.any isIndentation
  else if c = '?' || c = ':' then !flow && !atGap after
  else !",[]\x7b\x7d#&*!|>'\"%@\x60\t".toList.contains c

def takeNext (l : Lexer) (c : Char) (after : List Char) : Option Lexer :=
  if l.column = 0 ∧ c = '%' then l.takeDirective
  else if l.cursor.atSeparator '-' then l.takeSeparator documentStart
  else if l.cursor.atSeparator '.' then l.takeSeparator documentEnd
  else if c = '[' then l.openFlow flowSequence
  else if c = '{' then l.openFlow flowMapping
  else if c = ']' then l.closeFlow flowSequenceEnd
  else if c = '}' then l.closeFlow flowMappingEnd
  else if c = ',' then (l.dropCandidate).map (·.takeMark comma true)
  else if c = '-' ∧ atGap after then l.takeEntry
  else if c = '?' ∧ (l.inFlow ∨ atGap after) then l.takeKey
  else if c = ':' ∧ (l.inFlow ∨ atGap after) then l.takeValue
  else if c = '*' then l.takeName .reference
  else if c = '&' then l.takeName anchor
  else if c = '!' then l.takeTag
  else if c = '|' ∧ !l.inFlow then l.takeBlockScalar false
  else if c = '>' ∧ !l.inFlow then l.takeBlockScalar true
  else if c = '\'' ∨ c = '"' then l.takeQuoted c
  else if beginsPlain l.inFlow c after then l.takePlain
  else none

def run : Nat → Lexer → Option (List Token)
  | 0, _ => none
  | fuel + 1, l => do
    let l := l.skipGap (l.cursor.rest.length + 1)
    let l ← l.expire
    let l := l.closeBlocks (some l.column)
    match l.cursor.rest with
    | [] => return (← l.closeDocument).tokens.reverse
    | c :: after => run fuel (← l.takeNext c after)

end Lexer

def ofText? (s : String) : Option (List Token) :=
  let rest := s.toList
  if rest.all isAllowed then Lexer.run (rest.length + 1) { cursor := { rest } } else none

end Token

end VirtualInfra.Yaml
