import VirtualInfra.Defaults
import VirtualInfra.Fault
import VirtualInfra.Machine.Spec
import VirtualInfra.Request

namespace VirtualInfra

open Text

structure Machine.Profile where
  instancetype : Machine.Reference
  preference : Option Machine.Reference
deriving DecidableEq

/-- Names an object of the platform can have: 1 to 253 lower-case letters, digits, hyphens and
dots, with a letter or digit at either end. -/
def Machine.isObjectName (s : String) : Bool :=
  let cs := s.toList
  cs ≠ [] && s.utf8ByteSize ≤ 253
    && cs.head?.all Char.isAlphanum && cs.getLast?.all Char.isAlphanum
    && cs.all fun c => c.isLower || c.isDigit || c = '-' || c = '.'

def Flavour.profile (f : Flavour) (d : Defaults) : Except Fault Machine.Profile := do
  let owner := s!"flavour {f.id}"
  let source ← f.metadata.require owner .source
  if source ≠ d.flavourSource then
    throw (Fault.Cause.foreignSource f.id source d.flavourSource : Fault)
  let instancetype ← f.metadata.require owner .instancetype
  let preference := (f.metadata.value? .preference).filter Machine.isObjectName
  return {
    instancetype := ⟨d.instancetypeKind, instancetype⟩
    preference := preference.map fun name => ⟨d.preferenceKind, name⟩ }

def Image.bootVolume (i : Image) (machine : String) (d : Defaults) :
    Except Fault Machine.BootVolume :=
  if isBlankText i.name then .error (Fault.Cause.imageUnnamed i.id)
  else if i.size = 0 then .error (Fault.Cause.imageEmpty i.id)
  else .ok {
    name := d.volumeName ⟨machine, i.name, i.id⟩
    storage := i.size
    source := i.source.getD (.claim d.imageSpace i.id) }

def Subnet.attachment (s : Subnet) : Except Fault (Machine.Link × Machine.Nic) := do
  let owner := s!"subnet {s.id}"
  s.metadata.requireAll owner [.attachment, .subnet]
  let attachment ← s.metadata.require owner .attachment
  let name ← s.metadata.require owner .subnet
  return ({ name, attachment := some attachment }, .bound name .bridge)

namespace Machine

def management (name : String) : Except Fault (Link × Nic) :=
  if isBlankText name then .error Fault.Cause.managementUnnamed
  else .ok ({ name, pod := true }, .bound name .masquerade)

def managerLabel : String := "app.kubernetes.io/managed-by"
def flavourLabel : String := "kubevim.io/flavour-id"
def imageLabel : String := "kubevim.io/image-id"

def checkAttachments (seen : List String) : List (Link × Nic) → Except Fault Unit
  | [] => .ok ()
  | (link, nic) :: rest =>
    if link.name ≠ nic.name then .error (Fault.Cause.unpaired link.name nic.name)
    else if link.name ∈ seen then .error (Fault.Cause.repeatedNetwork link.name)
    else checkAttachments (link.name :: seen) rest

end Machine

namespace Request

def machineName (r : Request) (i : Image) (d : Defaults) : String :=
  (present? r.name).getD (d.machineName i.name)

def labels (r : Request) (d : Defaults) : Table String :=
  .ofList [
    (Machine.managerLabel, d.manager),
    (Machine.flavourLabel, r.flavour),
    (Machine.imageLabel, r.image)]

end Request

def Machine.Spec.assemble (name : String) (r : Request) (profile : Profile) (volume : BootVolume)
    (attachments : List (Link × Nic)) (d : Defaults) : Except Fault Spec := do
  let (link, nic) ← management d.managementNetwork
  checkAttachments [link.name] attachments
  return {
    name
    space := d.space
    labels := r.labels d
    runStrategy := d.runStrategy
    instancetype := profile.instancetype
    preference := profile.preference
    volumes := [volume]
    links := link :: attachments.map (·.1)
    nics := nic :: attachments.map (·.2)
    drives := [⟨volume.name, volume.name⟩] }

end VirtualInfra
