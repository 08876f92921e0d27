import VirtualInfra.Yaml.Token

namespace VirtualInfra.Yaml

/-- A plain scalar may stand for something other than its text. An alias stands for the node with
the anchor of that number. -/
inductive Node where
  | scalar (tag : Option String) (plain : Bool) (text : String)
  | sequence (items : List Node)
  | mapping (entries : List (Node × Node))
  | reference (anchor : Nat)
deriving Inhabited

structure Document where
  root : Node
  anchored : List (Nat × Node)

namespace Node

def empty (tag : Option String) : Node := scalar tag true ""

mutual

def size : Node → Nat
  | .scalar .. => 1
  | .reference _ => 1
  | .sequence items => 2 + itemsSize items
  | .mapping entries => 2 + entriesSize entries

def itemsSize : List Node → Nat
  | [] => 0
  | n :: ns => size n + itemsSize ns

def entriesSize : List (Node × Node) → Nat
  | [] => 0
  | (k, v) :: es => size k + size v + entriesSize es

end

def standardHandles : List (String × String) :=
  [("!", "!"), ("!!", "tag:yaml.org,2002:")]

structure Reading where
  tokens : List Token
  handles : List (String × String) := []
  names : List (String × Nat) := []
  anchored : List (Nat × Node) := []

abbrev Reader := StateT Reading Option

def peek : Reader (Option Token) := do return (← get).tokens.head?

def skip : Reader Unit := modify fun r => { r with tokens := r.tokens.tail }

def expect (t : Token) : Reader Unit := do
  if (← peek) = some t then skip else failure

def before (ts : List Token) : Reader Bool := do
  return (← peek).any ts.contains

structure Properties where
  anchor : Option Nat := none
  tag : Option String := none

/-- The number of an anchor tells how many names there are before it. A name that stands again gets a
new number but counts once, so that the next new name shares its number. -/
def readAnchor : Reader (Option Nat) := do
  match ← peek with
  | some (.anchor name) =>
    skip
    let n := (← get).names.length
    modify fun r => { r with names := (name, n) :: r.names.filter (·.1 ≠ name) }
    return some n
  | _ => return none

def keep (earlier anchor : Nat) (n : Node) : Reader Unit := modify fun r =>
  let inner := r.anchored.length - earlier
  { r with anchored := r.anchored.take inner ++ (anchor, n) :: r.anchored.drop inner }

def readTag : Reader (Option String) := do
  match ← peek with
  | some (.tag t) =>
    skip
    if t.handle = "" then return some t.suffix
    let some replacement := ((← get).handles ++ standardHandles).lookup t.handle | failure
    return some (replacement ++ t.suffix)
  | _ => return none

def readProperties : Reader Properties := do
  let anchor ← readAnchor
  let tag ← readTag
  if anchor.isSome then return { anchor, tag }
  return { anchor := ← readAnchor, tag }

mutual

/-- A node. Blocks are read only where they may stand, and entries without a block of their own only
as the value of a key. -/
def read : Nat → Bool → Bool → Reader Node
  | 0, _, _ => failure
  | fuel + 1, block, entries => do
    if let some (.reference name) ← peek then
      skip
      let some anchor := (← get).names.lookup name | failure
      return .reference anchor
    let p ← readProperties
    let earlier := (← get).anchored.length
    let n ← readContent fuel block entries p
    if let some anchor := p.anchor then keep earlier anchor n
    return n

def readContent : Nat → Bool → Bool → Properties → Reader Node
  | 0, _, _, _ => failure
  | fuel + 1, block, entries, p => do
    match ← peek with
    | some (.scalar plain text) =>
      skip
      return .scalar (p.tag.filter (· ≠ "!")) plain text
    | some .flowSequence =>
      skip
      return .sequence (← readFlowItems fuel true)
    | some .flowMapping =>
      skip
      return .mapping (← readFlowEntries fuel true)
    | some .entry =>
      if entries then return .sequence (← readEntries fuel) else nothing p
    | some .blockSequence =>
      if block then
        skip
        return .sequence (← readItems fuel)
      else nothing p
    | some .blockMapping =>
      if block then
        skip
        return .mapping (← readPairs fuel)
      else nothing p
    | _ => nothing p
where
  nothing (p : Properties) : Reader Node :=
    if p.anchor.isSome || p.tag.isSome then return empty p.tag else failure

def readUnless : Nat → List Token → Bool → Bool → Reader Node
  | 0, _, _, _ => failure
  | fuel + 1, ends, block, entries => do
    if ← before ends then return empty none else read fuel block entries

def readItems : Nat → Reader (List Node)
  | 0 => failure
  | fuel + 1 => do
    if ← before [.blockEnd] then
      skip
      return []
    expect .entry
    let n ← readUnless fuel [.entry, .blockEnd] true false
    return n :: (← readItems fuel)

def readEntries : Nat → Reader (List Node)
  | 0 => failure
  | fuel + 1 => do
    if ← before [.entry] then
      skip
      let n ← readUnless fuel [.entry, .key, .value, .blockEnd] true false
      return n :: (← readEntries fuel)
    return []

def readPairs : Nat → Reader (List (Node × Node))
  | 0 => failure
  | fuel + 1 => do
    if ← before [.blockEnd] then
      skip
      return []
    expect .key
    let ends : List Token := [.key, .value, .blockEnd]
    let k ← readUnless fuel ends true true
    let v ← readValue fuel ends true
    return (k, v) :: (← readPairs fuel)

def readValue : Nat → List Token → Bool → Reader Node
  | 0, _, _ => failure
  | fuel + 1, ends, block => do
    if ← before [.value] then
      skip
      readUnless fuel ends block block
    else return empty none

/-- The key of an item that is a pair. A mark that stands in its place is taken for it. -/
def readFlowKey : Nat → Reader Node
  | 0 => failure
  | fuel + 1 => do
    if ← before [.value, .comma, .flowSequenceEnd] then
      skip
      return empty none
    else read fuel false false

def readFlowItems : Nat → Bool → Reader (List Node)
  | 0, _ => failure
  | fuel + 1, first => do
    if !first ∧ !(← before [.flowSequenceEnd]) then expect .comma
    if ← before [.flowSequenceEnd] then
      skip
      return []
    let n ←
      if ← before [.key] then do
        skip
        let k ← readFlowKey fuel
        pure (.mapping [(k, ← readValue fuel [.comma, .flowSequenceEnd] false)])
      else read fuel false false
    return n :: (← readFlowItems fuel false)

def readFlowEntries : Nat → Bool → Reader (List (Node × Node))
  | 0, _ => failure
  | fuel + 1, first => do
    if !first ∧ !(← before [.flowMappingEnd]) then expect .comma
    if ← before [.flowMappingEnd] then
      skip
      return []
    let (k, v) ←
      if ← before [.key] then do
        skip
        let k ← readUnless fuel [.value, .comma, .flowMappingEnd] false false
        pure (k, ← readValue fuel [.comma, .flowMappingEnd] false)
      else do
        pure (← read fuel false false, empty none)
    return (k, v) :: (← readFlowEntries fuel false)

end

def readDirectives : Nat → Bool → Reader Unit
  | 0, _ => failure
  | fuel + 1, versioned => do
    match ← peek with
    | some .versionDirective =>
      if versioned then failure
      skip
      readDirectives fuel true
    | some (.tagDirective handle replacement) =>
      if ((← get).handles.lookup handle).isSome then failure
      skip
      modify fun r => { r with handles := (handle, replacement) :: r.handles }
      readDirectives fuel versioned
    | _ => return

def skipDocumentEnds : Nat → Reader Unit
  | 0 => return
  | fuel + 1 => do
    if ← before [.documentEnd] then
      skip
      skipDocumentEnds fuel

def readRoot (fuel : Nat) : Reader Node := do
  let root ←
    match ← peek with
    | none => pure (empty none)
    | some .versionDirective | some (.tagDirective ..) | some .documentStart => do
      readDirectives fuel false
      expect .documentStart
      match ← peek with
      | none | some .versionDirective | some (.tagDirective ..) | some .documentStart
      | some .documentEnd => pure (empty none)
      | _ => read fuel true false
    | _ => read fuel true false
  skipDocumentEnds fuel
  if (← peek).isSome then failure
  return root

end Node

namespace Document

def ofText? (s : String) : Option Document := do
  let tokens ← Token.ofText? s
  let (root, r) ← (Node.readRoot (2 * tokens.length + 4)).run { tokens }
  return { root, anchored := r.anchored }

/-- How many aliases may be followed, so that a short document does not stand for a huge one. -/
def allowance (d : Document) : Nat := 100 * d.root.size

abbrev Look := StateT Nat Option

def follow (d : Document) (n : Node) : Look Node := do
  let .reference anchor := n | return n
  let left ← get
  if left = 0 then failure
  set (left - 1)
  return (d.anchored.lookup anchor).getD n

def nullTexts : List String := ["~", "null", "Null", "NULL"]

def nullTag : String := "tag:yaml.org,2002:null"

def text? (d : Document) (n : Node) : Look String := do
  let .scalar _ _ text ← d.follow n | failure
  return text

def isNull? : Node → Option Bool
  | .scalar none true text => some (text = "" ∨ text ∈ nullTexts)
  | .scalar (some tag) true text =>
    if tag = nullTag then if text ∈ nullTexts then some true else none else some false
  | _ => some false

def nullable? {α : Type} (d : Document) (value : Node → Look α) (n : Node) : Look (Option α) := do
  let n ← d.follow n
  if ← isNull? n then return none
  return some (← value n)

def list? {α : Type} (d : Document) (item : Node → Look α) (n : Node) : Look (List α) := do
  match ← d.follow n with
  | .sequence items => items.mapM item
  | .scalar _ true "" => return []
  | _ => failure

def members? (d : Document) (n : Node) : Look (List (String × Node)) := do
  match ← d.follow n with
  | .mapping entries => entries.mapM fun (k, v) => do return (← d.text? k, v)
  | .scalar _ true "" => return []
  | _ => failure

end Document

end VirtualInfra.Yaml
