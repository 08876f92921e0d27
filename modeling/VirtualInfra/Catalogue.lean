import VirtualInfra.Catalogue.Error
import VirtualInfra.Catalogue.Record
import VirtualInfra.Defaults
import VirtualInfra.Fault

namespace VirtualInfra

structure Catalogue where
  defaults : Defaults := {}
  flavours : Table Flavour := ∅
  images : Table Image := ∅
  networks : Table Network := ∅
  subnets : Table Subnet := ∅
deriving DecidableEq

namespace Catalogue

def insertNew {α : Type} (kind : RecordKind) (id : String) (a : α) (t : Table α) :
    Except Error (Table α) :=
  if t.contains id then .error (.duplicate kind id) else .ok (t.insert id a)

def addFlavour (c : Catalogue) (f : Flavour) : Except Error Catalogue :=
  (insertNew .flavour f.id f c.flavours).map fun t => { c with flavours := t }

def addImage (c : Catalogue) (i : Image) : Except Error Catalogue :=
  (insertNew .image i.id i c.images).map fun t => { c with images := t }

def addNetwork (c : Catalogue) (n : Network) : Except Error Catalogue :=
  (insertNew .network n.id n c.networks).map fun t => { c with networks := t }

def addSubnet (c : Catalogue) (s : Subnet) : Except Error Catalogue :=
  (insertNew .subnet s.id s c.subnets).map fun t => { c with subnets := t }

structure TakenName where
  key : Metadata.Key
  value : String
  owner : String

def selectingKeys : List Metadata.Key := [.subnet, .attachment]

def takeNames (s : Subnet) : List Metadata.Key → List TakenName → Except Error (List TakenName)
  | [], taken => .ok taken
  | key :: keys, taken =>
    match s.metadata.value? key with
    | none => takeNames s keys taken
    | some value =>
      match taken.find? fun c => c.key = key ∧ c.value = value with
      | some other => .error (.flaw (.nameShared other.owner s.id key value))
      | none => takeNames s keys (⟨key, value, s.id⟩ :: taken)

def checkParent (c : Catalogue) (s : Subnet) : Except Error Unit :=
  match s.parent with
  | some network =>
    if c.networks.contains network then .ok ()
    else .error (.flaw (.parentUnknown s.id network))
  | none => .ok ()

def checkSubnets (c : Catalogue) : List Subnet → List TakenName → Except Error Unit
  | [], _ => .ok ()
  | s :: ss, taken => do
    c.checkParent s
    let taken ← takeNames s selectingKeys taken
    c.checkSubnets ss taken

def validate (c : Catalogue) : Except Error Unit :=
  c.checkSubnets c.subnets.values []

def found {α : Type} (subject : Fault.Subject) (id : String) : Option α → Except Fault α
  | some a => .ok a
  | none => .error (Fault.Cause.unknown subject id)

def subnetNamed? (c : Catalogue) (key : Metadata.Key) (value : String) : Option Subnet :=
  c.subnets.values.find? fun s => s.metadata.value? key = some value

def select? (c : Catalogue) : Subnet.Selector → Option Subnet
  | .byId id => c.subnets.get? id
  | .byName name => c.subnetNamed? .subnet name
  | .byAttachment name => c.subnetNamed? .attachment name

def flavour (c : Catalogue) (id : String) : Except Fault Flavour :=
  found .flavour id (c.flavours.get? id)

def image (c : Catalogue) (id : String) : Except Fault Image :=
  found .image id (c.images.get? id)

def network (c : Catalogue) (id : String) : Except Fault Network :=
  found .network id (c.networks.get? id)

def subnet (c : Catalogue) (s : Subnet.Selector) : Except Fault Subnet :=
  found .subnet s.text (c.select? s)

end Catalogue

end VirtualInfra
