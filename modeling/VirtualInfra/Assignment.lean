import VirtualInfra.Address
import VirtualInfra.Json.Record
import VirtualInfra.Mac

namespace VirtualInfra

open Json

/-- Without an address the interface gets one dynamically. -/
structure Assignment where
  subnet : String
  address : Option Address := none
  mac : Option Mac := none
deriving DecidableEq

namespace Assignment

def isDynamic (a : Assignment) : Bool :=
  a.address.isNone

def macJson (m : Mac) : Json :=
  ofList (fun b => ofNat b.toNat) m.octets

def macOfJson? (j : Json) : Option Mac := do
  let octets ← list? (natBelow? 256) j
  let octets := octets.map UInt8.ofNat
  if h : octets.length = 6 then some ⟨octets, h⟩ else none

def toJson (a : Assignment) : Json :=
  .obj [
    ("subnetId", .str a.subnet),
    ("ipAddress", ofOption (fun a => .str a.text) a.address),
    ("macAddress", ofOption macJson a.mac)]

def ofJson? : Json → Option Assignment := record? do
  return {
    subnet := ← required "subnetId" str?
    address := ← optional "ipAddress" fun j => j.str? >>= Address.ofText?
    mac := ← optional "macAddress" macOfJson? }

end Assignment

end VirtualInfra
