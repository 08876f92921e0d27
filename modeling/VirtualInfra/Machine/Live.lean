import VirtualInfra.Machine.Spec

namespace VirtualInfra

open Json

structure Machine.Status where
  created : Bool := false
  ready : Bool := false
  printable : Option String := none
deriving DecidableEq

structure Machine where
  uid : String
  spec : Machine.Spec
  status : Machine.Status := {}
deriving DecidableEq

structure Machine.Created where
  uid : String
  name : String
  labels : Table String
deriving DecidableEq

inductive Instance.Phase where
  | pending
  | scheduling
  | scheduled
  | running
  | succeeded
  | failed
  | unknown
deriving DecidableEq

structure Instance.Condition where
  type : String
  status : String
deriving DecidableEq

structure Instance.Nic where
  name : String := ""
  address : Option String := none
  addresses : List String := []
  mac : Option String := none
deriving DecidableEq

structure Instance where
  phase : Instance.Phase
  conditions : List Instance.Condition := []
  node : Option String := none
  nics : List Instance.Nic := []
deriving DecidableEq

namespace Instance

def Phase.name : Phase → String
  | .pending => "Pending"
  | .scheduling => "Scheduling"
  | .scheduled => "Scheduled"
  | .running => "Running"
  | .succeeded => "Succeeded"
  | .failed => "Failed"
  | .unknown => "Unknown"

def Phase.known : List Phase :=
  [.pending, .scheduling, .scheduled, .running, .succeeded, .failed]

def Phase.ofText (s : String) : Phase :=
  (known.find? fun p => Text.asciiLower p.name = Text.asciiLower s).getD .unknown

def isPaused (i : Instance) : Bool :=
  i.conditions.any fun c => c.type = "Paused" ∧ Text.asciiLower c.status = "true"

def Condition.toJson (c : Condition) : Json :=
  .obj [("type", .str c.type), ("status", .str c.status)]

def Condition.ofJson? : Json → Option Condition := record? do
  return { type := ← required "type" str?, status := ← required "status" str? }

def Nic.toJson (n : Nic) : Json :=
  ofMembers [
    ("name", some (.str n.name)),
    ("ipAddress", n.address.map .str),
    ("ipAddresses", if n.addresses = [] then none else some (ofList .str n.addresses)),
    ("mac", n.mac.map .str)]

def Nic.ofJson? : Json → Option Nic := record? do
  return {
    name := ← defaulted ["name"] str? ""
    address := ← omittable "ipAddress" str?
    addresses := ← defaulted ["ipAddresses"] (list? str?) []
    mac := ← omittable "mac" str? }

def toJson (i : Instance) : Json :=
  ofMembers [
    ("phase", some (.str i.phase.name)),
    ("conditions", some (ofList Condition.toJson i.conditions)),
    ("nodeName", i.node.map .str),
    ("interfaces", some (ofList Nic.toJson i.nics))]

def ofJson? : Json → Option Instance := record? do
  return {
    phase := Phase.ofText (← required "phase" str?)
    conditions := ← defaulted ["conditions"] (list? Condition.ofJson?) []
    node := ← omittable "nodeName" str?
    nics := ← defaulted ["interfaces"] (list? Nic.ofJson?) [] }

end Instance

namespace Machine

def Status.toJson (s : Status) : Json :=
  ofMembers [
    ("created", some (.bool s.created)),
    ("ready", some (.bool s.ready)),
    ("printableStatus", s.printable.map .str)]

def Status.ofJson? : Json → Option Status := record? do
  return {
    created := ← defaulted ["created"] bool? false
    ready := ← defaulted ["ready"] bool? false
    printable := ← omittable "printableStatus" str? }

def toJson (m : Machine) : Json :=
  .obj [("uid", .str m.uid), ("spec", m.spec.toJson), ("status", m.status.toJson)]

def ofJson? : Json → Option Machine := record? do
  return {
    uid := ← required "uid" str?
    spec := ← required "spec" Spec.ofJson?
    status := ← defaulted ["status"] Status.ofJson? {} }

def Created.ofJson? : Json → Option Created := record? do
  return {
    uid := ← required "uid" str?
    name := ← required "name" str?
    labels := ← required "labels" (table? str?) }

def Created.toJson (c : Created) : Json :=
  .obj [("uid", .str c.uid), ("name", .str c.name), ("labels", ofTable .str c.labels)]

end Machine

end VirtualInfra
