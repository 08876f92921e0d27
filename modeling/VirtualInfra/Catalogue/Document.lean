import VirtualInfra.Catalogue
import VirtualInfra.Disk.Location
import VirtualInfra.Kdl.Parser

namespace VirtualInfra

open Kdl Text

namespace Catalogue

def recordId (n : Node) : Except Error String :=
  match n.firstArgument? >>= Value.text? with
  | some id => if isBlankText id then .error (.flaw (.idMissing n.name)) else .ok id
  | none => .error (.flaw (.idMissing n.name))

def size (owner : String) (v : Value) : Except Error UInt64 :=
  match v with
  | .int i =>
    match (if 0 ≤ i then Size.word? i.toNat else none) with
    | some bytes => .ok bytes
    | none => .error (.negativeSize i owner)
  | .text s => (Size.ofText s).mapError (.size s)
  | _ => .error (.flaw (.sizeNotNumber owner))

def metadata (n : Node) : Metadata :=
  .ofList (n.children.filterMap fun c =>
    (c.firstValue? >>= Value.text?).map fun value => (c.name, value))

def flavourPart (f : Flavour) (n : Node) : Except Error Flavour :=
  match n.name with
  | "vcpu" =>
    match n.firstValue? >>= Value.int? with
    | some i =>
      let fits := 0 ≤ i ∧ i < UInt32.size
      .ok { f with processors := if fits then some (.ofNat i.toNat) else none }
    | none => .ok f
  | "memory" =>
    match n.firstArgument? with
    | some v => (size f.id v).map fun bytes => { f with memory := some bytes }
    | none => .ok f
  | "metadata" => .ok { f with metadata := metadata n }
  | _ => .ok f

def flavourOfNode (n : Node) : Except Error Flavour := do
  let id ← recordId n
  n.children.foldlM flavourPart { id, processors := none, memory := none, metadata := ∅ }

def imageSource (image : String) (n : Node) : Except Error Image.Source :=
  let kind := (n.firstArgument? >>= Value.text?).getD ""
  let part (key : String) : Except Error String :=
    match n.textProperty? key with
    | some s => .ok s
    | none => .error (.flaw (.sourceIncomplete image kind key))
  match kind with
  | "http" => return .http (← part "url")
  | "registry" => return .registry (← part "url")
  | "pvc" => return .claim (← part "namespace") (← part "name")
  | _ => .error (.flaw (.sourceUnknown image kind))

def imagePart (i : Image) (n : Node) : Except Error Image :=
  if n.name = "source" then (imageSource i.id n).map fun s => { i with source := some s }
  else .ok i

def imageOfNode (n : Node) : Except Error Image := do
  let id ← recordId n
  let size ← match n.property? "size" with
    | some v => size id v
    | none => pure 0
  n.children.foldlM imagePart
    { id, name := (n.textProperty? "name").getD "", size, source := none }

def networkKind (id : String) (n : Node) : Except Error Network.Kind :=
  match (n.textProperty? "type").map asciiLower with
  | some "overlay" => .ok .overlay
  | some "underlay" => .ok .underlay
  | some other => .error (.flaw (.typeUnknown id other))
  | none => .error (.flaw (.typeMissing id))

def childMetadata (n : Node) : Metadata :=
  (n.child? "metadata").elim ∅ metadata

def networkOfNode (n : Node) : Except Error Network := do
  let id ← recordId n
  let kind ← networkKind id n
  return { id, name := (n.textProperty? "name").getD id, kind, metadata := childMetadata n }

def subnetOfNode (n : Node) : Except Error Subnet := do
  let id ← recordId n
  return {
    id
    parent := n.textProperty? "network"
    range := n.textProperty? "cidr"
    metadata := childMetadata n }

def defaultsOfNode (n : Node) : Except Error Defaults := do
  let fields ← n.children.mapM fun c =>
    match c.firstValue? >>= Value.text? with
    | some s => .ok (c.name, Json.str s)
    | none => .error (.flaw (.defaultNotText c.name))
  let fields : VirtualInfra.Table Json := .ofList fields
  match Defaults.ofJson? (Json.ofTable id fields) with
  | some d => return d
  | none =>
    let strategy := (fields.get? "run-strategy" >>= Json.str?).getD ""
    throw (.defaults (RunStrategy.unknownText strategy))

def addNode (c : Catalogue) (n : Node) : Except Error Catalogue :=
  match n.name with
  | "defaults" => (defaultsOfNode n).map fun d => { c with defaults := d }
  | "flavour" | "flavor" => flavourOfNode n >>= c.addFlavour
  | "image" => imageOfNode n >>= c.addImage
  | "network" => networkOfNode n >>= c.addNetwork
  | "subnet" => subnetOfNode n >>= c.addSubnet
  | _ => .ok c

def ofNodes (ns : List Node) : Except Error Catalogue := do
  let c ← ns.foldlM addNode {}
  c.validate
  return c

def ofText (s : String) : Except Error Catalogue :=
  match Kdl.ofText? s with
  | some ns => ofNodes ns
  | none => .error .syntaxError

def ofFile (d : Disk) (here : Path) (l : Location) : Except Error Catalogue :=
  match d.readText (l.way here) with
  | .ok s => ofText s
  | .error f => .error (.unreadable l f.message)

end Catalogue

end VirtualInfra
