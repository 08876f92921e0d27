import VirtualInfra.Kdl.Scalar

namespace VirtualInfra.Kdl

def skipGap (cs : List Char) : List Char := skipSpace false (cs.length + 1) cs

def skipLines (cs : List Char) : List Char := skipSpace true (cs.length + 1) cs

def afterGap? (cs : List Char) : Option (List Char) :=
  let r := skipGap cs
  if r.length < cs.length then some r else none

def skipType : List Char → Option (List Char)
  | '(' :: r => do
    let (_, r) ← readText (skipGap r)
    match skipGap r with
    | ')' :: r => some (skipGap r)
    | _ => none
  | cs => some cs

def readValue (cs : List Char) : Option (Value × List Char) := do
  readScalar (← skipType cs)

def readPropertyOrValue (cs : List Char) : Option (Entry × List Char) :=
  match readText cs with
  | some (name, r) =>
    match skipGap r with
    | '=' :: r => (readValue (skipGap r)).map fun (v, r) => (⟨some name, v⟩, r)
    | _ => some (⟨none, .text name⟩, r)
  | none => (readValue cs).map fun (v, r) => (⟨none, v⟩, r)

mutual

def readEntry : Nat → List Char → Option (Entry × List Char)
  | 0, _ => none
  | fuel + 1, cs =>
    let r := skipGap cs
    readPropertyOrValue ((skipEntries fuel r >>= afterGap?).getD r)

/-- Entries that are left out, with space between them. The mark stands before an entry as a whole,
those included that the entry itself leaves out. -/
def skipEntries : Nat → List Char → Option (List Char)
  | fuel + 1, '/' :: '-' :: r => do
    let (_, r) ← readEntry fuel (skipLines r)
    return (afterGap? r >>= skipEntries fuel).getD r
  | _, _ => none

end

def readEntries : Nat → List Char → List Entry × List Char
  | 0, cs => ([], cs)
  | fuel + 1, cs =>
    match afterGap? cs >>= readEntry fuel with
    | some (e, r) =>
      let (es, r) := readEntries fuel r
      (e :: es, r)
    | none => ([], cs)

def afterNode? : List Char → Option (List Char)
  | ';' :: r => some r
  | cs => afterEmptyLine? cs

mutual

/-- Nodes, with the nodes among them that are left out. Those need nothing that ends them, and the
last one of the others does not either. -/
def readNodes : Nat → List Char → List Node × List Char
  | 0, cs => ([], cs)
  | fuel + 1, cs =>
    let r := skipNodes fuel cs
    match readNode fuel r with
    | none => ([], r)
    | some (n, r) =>
      match afterNode? r with
      | none => ([n], skipNodes fuel r)
      | some r =>
        let (ns, r) := readNodes fuel r
        (n :: ns, r)

def skipNodes : Nat → List Char → List Char
  | 0, cs => cs
  | fuel + 1, cs =>
    match skipLines cs with
    | '/' :: '-' :: r =>
      match readNode fuel (skipLines r) with
      | some (_, r) => skipNodes fuel r
      | none => '/' :: '-' :: r
    | r => r

/-- A node with the space behind it. There is at most one block of children that is not left out. -/
def readNode : Nat → List Char → Option (Node × List Char)
  | 0, _ => none
  | fuel + 1, cs => do
    let (name, r) ← readText (← skipType cs)
    let (entries, r) := readEntries fuel r
    let r := skipToBlock fuel r
    if r.head? = some '{' then
      let (children, r) ← readBlock fuel r
      return (.mk name entries children, skipGap ((skipBlocks fuel r).getD r))
    else return (.mk name entries [], r)

def skipToBlock : Nat → List Char → List Char
  | 0, cs => cs
  | fuel + 1, cs =>
    let left? : Option (List Char) := do
      let r ← afterGap? cs
      match skipEntries fuel r with
      | some r => return (afterGap? r >>= skipBlocks fuel).getD r
      | none => skipBlocks fuel r
    skipGap (left?.getD cs)

def skipBlocks : Nat → List Char → Option (List Char)
  | 0, _ => none
  | fuel + 1, cs =>
    match skipGap cs with
    | '/' :: '-' :: r => do
      let (_, r) ← readBlock fuel (skipLines r)
      return (afterGap? r >>= skipBlocks fuel).getD r
    | _ => none

def readBlock : Nat → List Char → Option (List Node × List Char)
  | fuel + 1, '{' :: r =>
    match readNodes fuel r with
    | (ns, '}' :: r) => some (ns, r)
    | _ => none
  | _, _ => none

end

def ofText? (s : String) : Option (List Node) :=
  let cs := match s.toList with
    | '\uFEFF' :: r => r
    | r => r
  match readNodes (4 * cs.length + 8) cs with
  | (ns, []) => some ns
  | _ => none

end VirtualInfra.Kdl
