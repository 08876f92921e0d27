import VirtualInfra.Assignment
import VirtualInfra.Host
import VirtualInfra.Request

namespace VirtualInfra

open Text

variable {World : Type}

namespace Request

def networkHint? (hints : List Hint) (network : String) : Option Hint :=
  hints.find? fun h => present? h.network = some network

def subnetHint? (hints : List Hint) (subnet : String) : Option Hint :=
  hints.find? fun h => present? h.subnet = some subnet

end Request

namespace Assignment

def ofHint (asked : String) (subnet : Subnet) : Option Request.Hint → Except Fault Assignment
  | none => .ok { subnet := subnet.id }
  | some h =>
    match h.address with
    | some a => .error (Fault.Cause.staticAddress a asked)
    | none =>
      match present? h.mac with
      | none => .ok { subnet := subnet.id }
      | some text =>
        match Mac.ofText text with
        | .ok mac => .ok { subnet := subnet.id, mac := some mac }
        | .error p => .error (Fault.Cause.malformedMac text p)

end Assignment

namespace Request.Interface

def resolveSubnet (host : Host World) (asked : String) (network : Option String)
    (hints : List Hint) : Act World (Subnet × Assignment) := do
  let subnet ← Act.within s!"resolve subnet {asked}"
    (host.race "get subnet" (.subnet (.byId asked)))
  if let some network := network then
    if subnet.parent ≠ some network then
      throw (Fault.Cause.foreignSubnet asked network subnet.parent : Fault)
  let assignment ← (Assignment.ofHint asked subnet (subnetHint? hints asked) : Except _ _)
  return (subnet, assignment)

/-- A subnet that is named goes before all else. An underlay network alone is attached to through
the subnet in its hint. -/
def resolve (host : Host World) (i : Interface) (hints : List Hint) :
    Act World (Subnet × Assignment) :=
  match present? i.subnet, present? i.network with
  | some subnet, network => resolveSubnet host subnet network hints
  | none, none => throw (Fault.Cause.interfaceUnidentified : Fault)
  | none, some id => do
    let network ← Act.within s!"resolve network {id}" (host.race "get network" (.network id))
    match network.kind with
    | .overlay => throw (Fault.Cause.subnetRequired id : Fault)
    | .underlay =>
      match (networkHint? hints id).bind fun h => present? h.subnet with
      | some subnet => resolveSubnet host subnet (some id) hints
      | none => throw (Fault.Cause.noDefaultSubnet id : Fault)

end Request.Interface

end VirtualInfra
