import VirtualInfra.Fault
import VirtualInfra.Json.Record

namespace VirtualInfra

open Json Text

structure Request.Interface where
  network : Option String := none
  subnet : Option String := none
deriving DecidableEq

structure Request.Hint where
  network : Option String := none
  subnet : Option String := none
  address : Option Address := none
  mac : Option String := none
deriving DecidableEq

structure Request where
  flavour : String
  image : String
  name : Option String := none
  interfaces : List Request.Interface := []
  hints : List Request.Hint := []
deriving DecidableEq

namespace Request

def Interface.onSubnet (id : String) : Interface := { subnet := some id }

def Interface.onNetwork (id : String) : Interface := { network := some id }

def Interface.check (i : Interface) : Except Fault Unit :=
  if present? i.network = none ∧ present? i.subnet = none then
    .error Fault.Cause.interfaceUnidentified
  else .ok ()

def interfaceStage (index : Nat) : String := s!"interfaceData[{index}]"

def checkInterfaces : Nat → List Interface → Except Fault Unit
  | _, [] => .ok ()
  | index, i :: is => do
    Fault.mark (interfaceStage index) i.check
    checkInterfaces (index + 1) is

def check (r : Request) : Except Fault Unit :=
  if isBlankText r.flavour then .error Fault.Cause.flavourMissing
  else if isBlankText r.image then .error Fault.Cause.imageMissing
  else if r.name.any isBlankText then .error Fault.Cause.nameBlank
  else checkInterfaces 0 r.interfaces

def Interface.toJson (i : Interface) : Json :=
  ofMembers [("networkId", i.network.map .str), ("subnetId", i.subnet.map .str)]

def Interface.ofJson? : Json → Option Interface := record? do
  return { network := ← omittable "networkId" str?, subnet := ← omittable "subnetId" str? }

def addressOfJson? (j : Json) : Option Address := j.str? >>= Address.ofText?

def Hint.toJson (h : Hint) : Json :=
  ofMembers [
    ("networkId", h.network.map .str),
    ("subnetId", h.subnet.map .str),
    ("ipAddress", h.address.map fun a => .str a.text),
    ("macAddress", h.mac.map .str)]

def Hint.ofJson? : Json → Option Hint := record? do
  return {
    network := ← omittable "networkId" str?
    subnet := ← omittable "subnetId" str?
    address := ← omittable "ipAddress" addressOfJson?
    mac := ← omittable "macAddress" str? }

def toJson (r : Request) : Json :=
  ofMembers [
    ("flavourId", some (.str r.flavour)),
    ("imageId", some (.str r.image)),
    ("computeName", r.name.map .str),
    ("interfaceData", some (ofList Interface.toJson r.interfaces)),
    ("interfaceIPAM", some (ofList Hint.toJson r.hints))]

def ofJson? : Json → Option Request := record? do
  return {
    flavour := ← required "flavourId" str?
    image := ← required "imageId" str?
    name := ← omittable "computeName" str?
    interfaces := ← defaulted ["interfaceData"] (list? Interface.ofJson?) []
    hints := ← defaulted ["interfaceIPAM", "interfaceIpam"] (list? Hint.ofJson?) [] }

end Request

end VirtualInfra
