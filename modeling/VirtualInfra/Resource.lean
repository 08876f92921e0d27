import VirtualInfra.Json.Record

namespace VirtualInfra

open Json

namespace Resource

inductive OperationalState where
  | enabled
  | disabled
deriving DecidableEq

inductive RunningState where
  | stopped
  | paused
  | terminating
  | running
  | starting
  | failed
  | unknown
deriving DecidableEq

inductive NicType where
  | bridge
  | sriov
deriving DecidableEq

structure Nic where
  id : String
  owner : String
  network : Option String
  subnet : Option String
  addresses : List String
  mac : Option String
  type : NicType
  metadata : Table String
deriving DecidableEq

end Resource

structure Resource where
  id : String
  name : String
  flavour : String
  image : String
  nics : List Resource.Nic
  host : Option String
  operational : Resource.OperationalState
  running : Resource.RunningState
  metadata : Table String
deriving DecidableEq

namespace Resource

def OperationalState.name : OperationalState → String
  | .enabled => "ENABLED"
  | .disabled => "DISABLED"

def RunningState.name : RunningState → String
  | .stopped => "STOPPED"
  | .paused => "PAUSED"
  | .terminating => "TERMINATING"
  | .running => "RUNNING"
  | .starting => "STARTING"
  | .failed => "FAILED"
  | .unknown => "UNKNOWN"

def NicType.name : NicType → String
  | .bridge => "BRIDGE"
  | .sriov => "SRIOV"

def OperationalState.ofJson? : Json → Option OperationalState :=
  constant? ([.enabled, .disabled].map fun s => (s.name, s))

def RunningState.ofJson? : Json → Option RunningState :=
  constant? ([.stopped, .paused, .terminating, .running, .starting, .failed, .unknown].map
    fun s => (s.name, s))

def NicType.ofJson? : Json → Option NicType :=
  constant? ([.bridge, .sriov].map fun t => (t.name, t))

def tableJson (t : Table String) : Option Json :=
  if t.isEmpty then none else some (ofTable .str t)

def Nic.toJson (n : Nic) : Json :=
  ofMembers [
    ("resourceId", some (.str n.id)),
    ("ownerId", some (.str n.owner)),
    ("networkId", n.network.map .str),
    ("subnetId", n.subnet.map .str),
    ("ipAddresses", if n.addresses = [] then none else some (ofList .str n.addresses)),
    ("macAddress", n.mac.map .str),
    ("typeVirtualNic", some (.str n.type.name)),
    ("metadata", tableJson n.metadata)]

def Nic.ofJson? : Json → Option Nic := record? do
  return {
    id := ← required "resourceId" str?
    owner := ← required "ownerId" str?
    network := ← omittable "networkId" str?
    subnet := ← omittable "subnetId" str?
    addresses := ← defaulted ["ipAddresses"] (list? str?) []
    mac := ← omittable "macAddress" str?
    type := ← required "typeVirtualNic" NicType.ofJson?
    metadata := ← defaulted ["metadata"] (table? str?) ∅ }

def toJson (r : Resource) : Json :=
  ofMembers [
    ("computeId", some (.str r.id)),
    ("computeName", some (.str r.name)),
    ("flavourId", some (.str r.flavour)),
    ("imageId", some (.str r.image)),
    ("networkInterfaces", some (ofList Nic.toJson r.nics)),
    ("hostId", r.host.map .str),
    ("operationalState", some (.str r.operational.name)),
    ("runningState", some (.str r.running.name)),
    ("metadata", tableJson r.metadata)]

def ofJson? : Json → Option Resource := record? do
  return {
    id := ← required "computeId" str?
    name := ← required "computeName" str?
    flavour := ← required "flavourId" str?
    image := ← required "imageId" str?
    nics := ← defaulted ["networkInterfaces"] (list? Nic.ofJson?) []
    host := ← omittable "hostId" str?
    operational := ← required "operationalState" OperationalState.ofJson?
    running := ← required "runningState" RunningState.ofJson?
    metadata := ← defaulted ["metadata"] (table? str?) ∅ }

end Resource

end VirtualInfra
