import VirtualInfra.Text.Numeral
import VirtualInfra.Yaml.Cursor

namespace VirtualInfra.Yaml

open Text

/-- Blanks and line breaks between two words of a scalar. Blanks next to a line break do not count. -/
structure Gap where
  blanks : List Char := []
  breaks : List (List Char) := []

namespace Gap

def text (g : Gap) : List Char :=
  match g.breaks with
  | [] => g.blanks
  | [['\n']] => [' ']
  | ['\n'] :: more => more.flatten
  | breaks => breaks.flatten

def escapedText (g : Gap) : List Char := g.breaks.flatten

def read (indent : Nat) : Nat → Gap → Cursor → Option (Gap × Cursor)
  | 0, _, _ => none
  | fuel + 1, g, cur =>
    match cur.next? with
    | some c =>
      if isIndentation c then
        if g.breaks = [] then read indent fuel { g with blanks := g.blanks ++ [c] } (cur.skip 1)
        else if c = '\t' ∧ cur.column < indent then none
        else read indent fuel g (cur.skip 1)
      else if isBreak c then
        let (b, cur) := cur.takeBreak
        read indent fuel ⟨[], g.breaks ++ [b]⟩ cur
      else some (g, cur)
    | none => some (g, cur)

end Gap

def isFlowMark (c : Char) : Bool :=
  c = ',' || c = '[' || c = ']' || c = '{' || c = '}'

def plainWord (flow : Bool) : List Char → Option (List Char)
  | [] => some []
  | c :: cs =>
    if isIndentation c || isBreak c then some []
    else if flow && c = ':' && cs.head?.any fun d => isFlowMark d || d = '?' then none
    else if c = ':' && atGap cs || flow && isFlowMark c then some []
    else (plainWord flow cs).map (c :: ·)

def readPlain (flow : Bool) (indent : Nat) : Nat → List Char → Gap → Cursor →
    Option (List Char × Bool × Cursor)
  | 0, _, _, _ => none
  | fuel + 1, text, gap, cur => do
    let done := some (text, !gap.breaks.isEmpty, cur)
    if cur.atDocumentMark ∨ cur.next? = some '#' then done
    else
      let word ← plainWord flow cur.rest
      if word = [] then done
      else
        let text := text ++ gap.text ++ word
        let cur := cur.skip word.length
        let (gap, after) ← Gap.read indent (cur.rest.length + 1) {} cur
        if after.index = cur.index then some (text, false, cur)
        else if !flow ∧ after.column < indent then some (text, !gap.breaks.isEmpty, after)
        else readPlain flow indent fuel text gap after

def escape? : Char → Option Char
  | '0' => some '\x00'
  | 'a' => some '\x07'
  | 'b' => some '\x08'
  | 't' => some '\t'
  | '\t' => some '\t'
  | 'n' => some '\n'
  | 'v' => some '\x0b'
  | 'f' => some '\x0c'
  | 'r' => some '\r'
  | 'e' => some '\x1b'
  | ' ' => some ' '
  | '"' => some '"'
  | '/' => some '/'
  | '\\' => some '\\'
  | 'N' => some '\u0085'
  | '_' => some '\u00a0'
  | 'L' => some '\u2028'
  | 'P' => some '\u2029'
  | _ => none

def escapeWidth? : Char → Option Nat
  | 'x' => some 2
  | 'u' => some 4
  | 'U' => some 8
  | _ => none

def readEscape : List Char → Option (Char × Nat)
  | [] => none
  | c :: cs =>
    match escapeWidth? c with
    | some width =>
      let digits := cs.take width
      let n := numberOf 16 digits
      if digits.length = width ∧ digits.all (isDigitOf 16) ∧ n.isValidChar then
        some (.ofNat n, width + 1)
      else none
    | none => (escape? c).map (·, 1)

def readQuoted (quote : Char) : Nat → List Char → Cursor → Option (List Char × Cursor)
  | 0, _, _ => none
  | fuel + 1, text, cur =>
    if cur.atDocumentMark then none
    else
      match cur.rest with
      | [] => none
      | c :: r =>
        if isIndentation c || isBreak c then do
          let (gap, after) ← Gap.read 0 (cur.rest.length + 1) {} cur
          readQuoted quote fuel (text ++ gap.text) after
        else if c = quote then
          if quote = '\'' ∧ r.head? = some '\'' then
            readQuoted quote fuel (text ++ ['\'']) (cur.skip 2)
          else some (text, cur.skip 1)
        else if quote = '"' ∧ c = '\\' then
          if r.head?.any isBreak then do
            let (gap, after) ← Gap.read 0 (cur.rest.length + 1) {} (cur.skip 1).skipBreak
            readQuoted quote fuel (text ++ gap.escapedText) after
          else do
            let (e, n) ← readEscape r
            readQuoted quote fuel (text ++ [e]) (cur.skip (n + 1))
        else readQuoted quote fuel (text ++ [c]) (cur.skip 1)

inductive Chomping where
  | strip
  | clip
  | keep
deriving DecidableEq

def Chomping.ofChar? : Char → Option Chomping
  | '-' => some .strip
  | '+' => some .keep
  | _ => none

def readHeader (cur : Cursor) : Option (Chomping × Option Nat × Cursor) :=
  let chomping (cur : Cursor) : Chomping × Cursor :=
    match cur.next? >>= Chomping.ofChar? with
    | some c => (c, cur.skip 1)
    | none => (.clip, cur)
  let increment (cur : Cursor) : Option (Option Nat × Cursor) :=
    match cur.next? >>= digit? 10 with
    | some 0 => none
    | some n => some (some n, cur.skip 1)
    | none => some (none, cur)
  if (cur.next? >>= Chomping.ofChar?).isSome then do
    let (c, cur) := chomping cur
    let (n, cur) ← increment cur
    return (c, n, cur)
  else do
    let (n, cur) ← increment cur
    let (c, cur) := if n.isSome then chomping cur else (.clip, cur)
    return (c, n, cur)

def readEmptyLines (indent : Option Nat) : Nat → Nat → List (List Char) → Cursor →
    Option (Nat × List (List Char) × Cursor)
  | 0, _, _, _ => none
  | fuel + 1, reached, breaks, cur =>
    let blanks := (cur.rest.takeWhile (· = ' ')).length
    let cur := cur.skip (indent.elim blanks fun n => min blanks (n - cur.column))
    let reached := max reached cur.column
    if cur.next? = some '\t' ∧ indent.all (cur.column < ·) then none
    else if cur.atBreak then
      let (b, cur) := cur.takeBreak
      readEmptyLines indent fuel reached (breaks ++ [b]) cur
    else some (reached, breaks, cur)

/-- The lines of a block scalar, with the break that ended the last one and those that follow it. In
a folded scalar a break between two lines that begin with no blank becomes a blank. -/
def readLines (folded : Bool) (indent : Nat) :
    Nat → List Char → List Char → List (List Char) → Bool → Cursor →
    Option (List Char × List Char × List (List Char) × Cursor)
  | 0, _, _, _, _, _ => none
  | fuel + 1, text, last, more, afterBlank, cur =>
    if cur.column = indent ∧ cur.rest ≠ [] then do
      let blank := cur.next?.any isIndentation
      let joint :=
        if folded ∧ last = ['\n'] ∧ !afterBlank ∧ !blank then
          if more.flatten = [] then [' '] else []
        else last
      let line := cur.rest.takeWhile (!isBreak ·)
      let (last, after) := (cur.skip line.length).takeBreak
      let (_, empty, after) ← readEmptyLines (some indent) (after.rest.length + 1) 0 [] after
      readLines folded indent fuel (text ++ joint ++ more.flatten ++ line) last empty blank after
    else some (text, last, more, cur)

/-- A block scalar behind its mark. Without an indicator its first line that is not empty tells how
far it is indented, at least one column more than what it belongs to. -/
def readBlock (folded : Bool) (parent : Option Nat) (cur : Cursor) :
    Option (List Char × Cursor) := do
  let (chomping, increment, cur) ← readHeader cur
  let cur := (cur.skipWhile isIndentation).skipComment
  if !atLineEnd cur.rest then none
  let cur := cur.skipBreak
  let fixed := increment.map (parent.getD 0 + ·)
  let (reached, empty, cur) ← readEmptyLines fixed (cur.rest.length + 1) 0 [] cur
  let indent := fixed.getD (max (max reached (parent.elim 0 (· + 1))) 1)
  let (text, last, more, cur) ←
    readLines folded indent (cur.rest.length + 1) [] [] empty false cur
  let tail :=
    match chomping with
    | .strip => []
    | .clip => last
    | .keep => last ++ more.flatten
  return (text ++ tail, cur)

end VirtualInfra.Yaml
