import VirtualInfra.Compilation
import VirtualInfra.Projection
import VirtualInfra.Undo.Log

namespace VirtualInfra.Service

variable {World : Type} (host : Host World) (d : Defaults)

def render (r : Request) : Act World Machine.Spec :=
  r.compile host d

def abort {α : Type} (log : Undo.Log World) (fault : Undo.Report → Fault) : Act World α := fun w =>
  match log.unwind w with
  | (report, w) => (.error (fault report), w)

/-- Creates the machine of a request. Nothing is created unless everything resolves; the creation is
seen through, and undone when the caller has cancelled meanwhile or no answer can be derived. -/
def allocate (r : Request) : Act World Resource := do
  let spec ← r.compile host d
  if ← host.isCancelled then
    throw (Fault.Cause.cancelled s!"create VM {spec.name}" : Fault)
  let created ← Act.within s!"create VM {spec.name}" (host.call (.create spec))
  let stage := s!"create VM {created.name}"
  let log := Undo.Log.empty.record stage (host.call (.delete created.name))
  if ← host.isCancelled then
    abort log (·.cancelled stage)
  else
    match created.project spec with
    | .ok resource =>
      log.commit
      return resource
    | .error f =>
      abort log fun report => report.fault (f.within s!"derive response for VM {created.name}")

def view (m : Machine) : Act World Resource := do
  let i ← Act.within s!"get instance of VM {m.spec.name}"
    (host.race "get instance" (.running m.spec.name))
  m.project host i

def query (name : String) : Act World Resource := do
  let m ← Act.within s!"query VM {name}" (host.race "get VM" (.machine name))
  view host m

/-- The views of the machines in turn. One without a view is skipped, but a cancellation ends the
whole. -/
def views : List Machine → Act World (List Resource)
  | [] => return []
  | m :: ms => do
    match ← (view host m).outcome with
    | .ok resource => return resource :: (← views ms)
    | .error f => if f.kind = .cancelled then throw f else views ms

def list : Act World (List Resource) := do
  let ms ← Act.within "list VMs" (host.race "list VMs" .machines)
  views host (ms.filter fun m => m.spec.label? Machine.managerLabel = some d.manager)

inductive Operation where
  | start
  | stop
deriving DecidableEq

def Operation.name : Operation → String
  | .start => "start"
  | .stop => "stop"

def Operation.runStrategy : Operation → RunStrategy
  | .start => .always
  | .stop => .halted

def operate (name : String) (op : Operation) : Act World Resource := do
  Act.within s!"{op.name} VM {name}"
    (host.race "set run strategy" (.setRunStrategy name op.runStrategy))
  query host name

def terminate (name : String) : Act World Unit :=
  Act.within s!"terminate VM {name}" (host.race "delete VM" (.delete name))

end VirtualInfra.Service
