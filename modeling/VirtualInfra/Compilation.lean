import VirtualInfra.Machine.Assembly
import VirtualInfra.Resolution

namespace VirtualInfra.Request

variable {World : Type}

def Interface.attach (host : Host World) (hints : List Hint) (i : Interface) :
    Act World (Machine.Link × Machine.Nic) := do
  let (subnet, assignment) ← i.resolve host hints
  let (link, nic) ← (subnet.attachment : Except _ _)
  return (link, nic.withMac assignment.mac)

def attachAll (host : Host World) (hints : List Hint) :
    Nat → List Interface → Act World (List (Machine.Link × Machine.Nic))
  | _, [] => return []
  | index, i :: is => do
    let attachment ← Act.within (interfaceStage index) (i.attach host hints)
    let rest ← attachAll host hints (index + 1) is
    return attachment :: rest

def compile (host : Host World) (d : Defaults) (r : Request) : Act World Machine.Spec := do
  (r.check : Except _ _)
  let flavour ← Act.within s!"resolve flavour {r.flavour}"
    (host.race "get flavour" (.flavour r.flavour))
  let image ← Act.within s!"resolve image {r.image}" (host.race "get image" (.image r.image))
  let name := r.machineName image d
  let volume ← (Fault.mark s!"build boot volume from image {image.id}"
    (image.bootVolume name d) : Except _ _)
  let profile ← (Fault.mark s!"build matchers from flavour {flavour.id}"
    (flavour.profile d) : Except _ _)
  let attachments ← attachAll host r.hints 0 r.interfaces
  (Machine.Spec.assemble name r profile volume attachments d : Except _ _)

end VirtualInfra.Request
