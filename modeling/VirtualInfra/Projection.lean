import VirtualInfra.Host
import VirtualInfra.Machine.Assembly
import VirtualInfra.Resource

namespace VirtualInfra

variable {World : Type}

namespace Machine

def operationalState : RunStrategy → Resource.OperationalState
  | .halted => .disabled
  | _ => .enabled

def Status.isTerminating (s : Status) : Bool :=
  s.printable.any fun p => Text.asciiLower p = "terminating"

def runningState (m : Machine) (i : Option Instance) : Resource.RunningState :=
  if m.spec.runStrategy = .halted then .stopped
  else if i.any Instance.isPaused then .paused
  else if m.status.isTerminating then .terminating
  else
    match i.map Instance.phase with
    | some .running => if m.status.created ∧ m.status.ready then .running else .unknown
    | some .pending | some .scheduling | some .scheduled => .starting
    | some .failed => .failed
    | _ => .unknown

def Spec.identity (s : Spec) : Except Fault (String × String) := do
  let label (key : String) : Except Fault String :=
    match s.label? key with
    | some v => .ok v
    | none => .error (Fault.Cause.unlabelled s.name key)
  return (← label flavourLabel, ← label imageLabel)

def nicType (n : Nic) : Except Fault Resource.NicType :=
  match n.binding? with
  | some .sriov => .ok .sriov
  | some _ => .ok .bridge
  | none => .error (Fault.Cause.unboundNic n.name)

def managementKey : String := "management"

def projectNic (host : Host World) (m : Machine) (live : Instance.Nic) :
    Act World (Option Resource.Nic) :=
  match m.spec.nic? live.name with
  | none => return none
  | some nic => do
    let some link := m.spec.link? live.name
      | throw (Fault.Cause.unmatchedNic live.name : Fault)
    let type ← (nicType nic : Except _ _)
    let view : Resource.Nic := {
      id := live.name
      owner := m.uid
      network := none
      subnet := none
      addresses := if live.addresses = [] then live.address.toList else live.addresses
      mac := live.mac.or nic.mac
      type
      metadata := ∅ }
    match link.source? with
    | some .pod => return some { view with metadata := .ofList [(managementKey, "true")] }
    | some (.attachment name) =>
      let subnet ← Act.within s!"resolve subnet of attachment {name}"
        (host.race "get subnet" (.subnet (.byAttachment name)))
      return some { view with subnet := some subnet.id, network := subnet.parent }
    | none => throw (Fault.Cause.unsourcedNetwork link.name : Fault)

def projectNics (host : Host World) (m : Machine) :
    List Instance.Nic → Act World (List Resource.Nic)
  | [] => return []
  | live :: rest => do
    let view ← Act.within s!"project interface '{live.name}' of VM {m.spec.name}"
      (projectNic host m live)
    return view.toList ++ (← projectNics host m rest)

def statusKey : String := "printableStatus"

def project (host : Host World) (m : Machine) (i : Option Instance) : Act World Resource := do
  let (flavour, image) ← (m.spec.identity : Except _ _)
  let nics ← projectNics host m (i.elim [] (·.nics))
  return {
    id := m.uid
    name := m.spec.name
    flavour
    image
    nics
    host := i.bind (·.node)
    operational := operationalState m.spec.runStrategy
    running := runningState m i
    metadata := m.status.printable.elim m.spec.labels (m.spec.labels.insert statusKey) }

def Created.project (c : Created) (s : Spec) : Except Fault Resource := do
  let seen : Spec := { s with labels := c.labels }
  let (flavour, image) ← seen.identity
  return {
    id := c.uid
    name := c.name
    flavour
    image
    nics := []
    host := none
    operational := operationalState s.runStrategy
    running := runningState { uid := c.uid, spec := seen } none
    metadata := c.labels }

end Machine

end VirtualInfra
