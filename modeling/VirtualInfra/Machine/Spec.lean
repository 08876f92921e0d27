import VirtualInfra.Catalogue.Record
import VirtualInfra.Mac
import VirtualInfra.RunStrategy

namespace VirtualInfra.Machine

open Json

structure Reference where
  kind : String
  name : String
deriving DecidableEq

structure BootVolume where
  name : String
  storage : UInt64
  source : Image.Source
deriving DecidableEq

structure Link where
  name : String
  pod : Bool := false
  attachment : Option String := none
deriving DecidableEq

inductive Link.Source where
  | pod
  | attachment (name : String)
deriving DecidableEq

def Link.source? (l : Link) : Option Link.Source :=
  match l.pod, l.attachment with
  | true, none => some .pod
  | false, some name => some (.attachment name)
  | _, _ => none

inductive Nic.Binding where
  | masquerade
  | bridge
  | sriov
deriving DecidableEq

structure Nic where
  name : String
  masquerade : Bool := false
  bridge : Bool := false
  sriov : Bool := false
  mac : Option String := none
deriving DecidableEq

def Nic.bound (name : String) : Nic.Binding → Nic
  | .masquerade => { name, masquerade := true }
  | .bridge => { name, bridge := true }
  | .sriov => { name, sriov := true }

def Nic.binding? (n : Nic) : Option Nic.Binding :=
  match n.masquerade, n.bridge, n.sriov with
  | true, false, false => some .masquerade
  | false, true, false => some .bridge
  | false, false, true => some .sriov
  | _, _, _ => none

def Nic.withMac (n : Nic) (mac : Option Mac) : Nic :=
  { n with mac := mac.map Mac.text }

structure Drive where
  name : String
  volume : String
deriving DecidableEq

structure Spec where
  name : String
  space : String
  labels : Table String
  runStrategy : RunStrategy
  instancetype : Reference
  preference : Option Reference
  volumes : List BootVolume
  links : List Link
  nics : List Nic
  drives : List Drive
deriving DecidableEq

namespace Spec

def bootVolume? (s : Spec) : Option BootVolume := s.volumes.head?

def link? (s : Spec) (name : String) : Option Link := s.links.find? (·.name = name)

def nic? (s : Spec) (name : String) : Option Nic := s.nics.find? (·.name = name)

def label? (s : Spec) (key : String) : Option String := (s.labels.get? key).filter (· ≠ "")

def hasVolume (s : Spec) (volume : String) : Bool := s.volumes.any (·.name = volume)

end Spec

def Reference.toJson (r : Reference) : Json :=
  .obj [("kind", .str r.kind), ("name", .str r.name)]

def Reference.ofJson? : Json → Option Reference := record? do
  return { kind := ← required "kind" str?, name := ← required "name" str? }

def BootVolume.toJson (v : BootVolume) : Json :=
  .obj [("name", .str v.name), ("storage", ofNat v.storage.toNat), ("source", v.source.toJson)]

def BootVolume.ofJson? : Json → Option BootVolume := record? do
  return {
    name := ← required "name" str?
    storage := ← required "storage" word64?
    source := ← required "source" Image.Source.ofJson? }

def switchJson (on : Bool) : Option Json :=
  if on then some (.obj []) else none

def Link.toJson (l : Link) : Json :=
  ofMembers [
    ("name", some (.str l.name)),
    ("pod", switchJson l.pod),
    ("multus", l.attachment.map fun name => .obj [("networkName", .str name)])]

def Link.ofJson? : Json → Option Link := record? do
  return {
    name := ← required "name" str?
    pod := ← switch "pod"
    attachment := ← omittable "multus" (record? (required "networkName" str?)) }

def Nic.toJson (n : Nic) : Json :=
  ofMembers [
    ("name", some (.str n.name)),
    ("masquerade", switchJson n.masquerade),
    ("bridge", switchJson n.bridge),
    ("sriov", switchJson n.sriov),
    ("macAddress", n.mac.map .str)]

def Nic.ofJson? : Json → Option Nic := record? do
  return {
    name := ← required "name" str?
    masquerade := ← switch "masquerade"
    bridge := ← switch "bridge"
    sriov := ← switch "sriov"
    mac := ← omittable "macAddress" str? }

def Drive.toJson (d : Drive) : Json :=
  .obj [("name", .str d.name), ("dataVolume", .obj [("name", .str d.volume)])]

def Drive.ofJson? : Json → Option Drive := record? do
  return {
    name := ← required "name" str?
    volume := ← required "dataVolume" (record? (required "name" str?)) }

namespace Spec

def toJson (s : Spec) : Json :=
  ofMembers [
    ("name", some (.str s.name)),
    ("namespace", some (.str s.space)),
    ("labels", some (ofTable .str s.labels)),
    ("runStrategy", some s.runStrategy.toJson),
    ("instancetype", some s.instancetype.toJson),
    ("preference", s.preference.map Reference.toJson),
    ("dataVolumeTemplates", some (ofList BootVolume.toJson s.volumes)),
    ("networks", some (ofList Link.toJson s.links)),
    ("interfaces", some (ofList Nic.toJson s.nics)),
    ("volumes", some (ofList Drive.toJson s.drives))]

def ofJson? : Json → Option Spec := record? do
  return {
    name := ← required "name" str?
    space := ← required "namespace" str?
    labels := ← required "labels" (table? str?)
    runStrategy := ← required "runStrategy" RunStrategy.ofJson?
    instancetype := ← required "instancetype" Reference.ofJson?
    preference := ← omittable "preference" Reference.ofJson?
    volumes := ← required "dataVolumeTemplates" (list? BootVolume.ofJson?)
    links := ← required "networks" (list? Link.ofJson?)
    nics := ← required "interfaces" (list? Nic.ofJson?)
    drives := ← required "volumes" (list? Drive.ofJson?) }

end Spec

end VirtualInfra.Machine
