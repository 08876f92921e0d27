import VirtualInfra.Json.Record
import VirtualInfra.Metadata

namespace VirtualInfra

open Json

structure Flavour where
  id : String
  processors : Option UInt32
  memory : Option UInt64
  metadata : Metadata
deriving DecidableEq

inductive Image.Source where
  | http (url : String)
  | registry (url : String)
  | claim (space name : String)
deriving DecidableEq

/-- A disk image. Without a source it is cloned from the claim named after its id. -/
structure Image where
  id : String
  name : String
  size : UInt64
  source : Option Image.Source
deriving DecidableEq

/-- Attaching to an overlay network takes a subnet; an underlay network can be named alone. -/
inductive Network.Kind where
  | overlay
  | underlay
deriving DecidableEq

structure Network where
  id : String
  name : String
  kind : Network.Kind
  metadata : Metadata
deriving DecidableEq

structure Subnet where
  id : String
  parent : Option String
  range : Option String
  metadata : Metadata
deriving DecidableEq

inductive Subnet.Selector where
  | byId (id : String)
  | byName (name : String)
  | byAttachment (name : String)
deriving DecidableEq

def Subnet.Selector.text : Subnet.Selector → String
  | .byId id => s!"id={id}"
  | .byName name => s!"name={name}"
  | .byAttachment name => s!"attachment={name}"

namespace Metadata

def toJson (m : Metadata) : Json := ofTable .str m

def ofJson? : Json → Option Metadata := table? str?

end Metadata

namespace Flavour

def toJson (f : Flavour) : Json :=
  .obj [
    ("id", .str f.id),
    ("vcpu", ofOption (fun n => ofNat n.toNat) f.processors),
    ("memory", ofOption (fun n => ofNat n.toNat) f.memory),
    ("metadata", f.metadata.toJson)]

def ofJson? : Json → Option Flavour := record? do
  return {
    id := ← required "id" str?
    processors := ← optional "vcpu" word32?
    memory := ← optional "memory" word64?
    metadata := ← required "metadata" Metadata.ofJson? }

end Flavour

namespace Image

def Source.toJson : Source → Json
  | .http url => .obj [("http", .obj [("url", .str url)])]
  | .registry url => .obj [("registry", .obj [("url", .str url)])]
  | .claim space name => .obj [("pvc", .obj [("namespace", .str space), ("name", .str name)])]

def Source.ofJson? : Json → Option Source := variant? [
  ("http", record? do return .http (← required "url" str?)),
  ("registry", record? do return .registry (← required "url" str?)),
  ("pvc", record? do return .claim (← required "namespace" str?) (← required "name" str?))]

def toJson (i : Image) : Json :=
  .obj [
    ("id", .str i.id),
    ("name", .str i.name),
    ("size", ofNat i.size.toNat),
    ("source", ofOption Source.toJson i.source)]

def ofJson? : Json → Option Image := record? do
  return {
    id := ← required "id" str?
    name := ← required "name" str?
    size := ← required "size" word64?
    source := ← optional "source" Source.ofJson? }

end Image

namespace Network

def Kind.name : Kind → String
  | .overlay => "OVERLAY"
  | .underlay => "UNDERLAY"

def Kind.ofJson? : Json → Option Kind :=
  constant? [("OVERLAY", .overlay), ("UNDERLAY", .underlay)]

def toJson (n : Network) : Json :=
  .obj [
    ("id", .str n.id),
    ("name", .str n.name),
    ("network_type", .str n.kind.name),
    ("metadata", n.metadata.toJson)]

def ofJson? : Json → Option Network := record? do
  return {
    id := ← required "id" str?
    name := ← required "name" str?
    kind := ← required "network_type" Kind.ofJson?
    metadata := ← required "metadata" Metadata.ofJson? }

end Network

namespace Subnet

def toJson (s : Subnet) : Json :=
  .obj [
    ("id", .str s.id),
    ("network_id", ofOption .str s.parent),
    ("cidr", ofOption .str s.range),
    ("metadata", s.metadata.toJson)]

def ofJson? : Json → Option Subnet := record? do
  return {
    id := ← required "id" str?
    parent := ← optional "network_id" str?
    range := ← optional "cidr" str?
    metadata := ← required "metadata" Metadata.ofJson? }

end Subnet

end VirtualInfra
