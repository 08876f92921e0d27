import VirtualInfra.Platform

namespace VirtualInfra.Platform

structure Memory where
  machines : Table Machine := ∅
  instances : Table Instance := ∅
  asked : List Machine.Spec := []
  deleted : List String := []
  created : Nat := 0
  dropsLabels : Bool := false
  refusesDeletes : Bool := false
deriving DecidableEq

namespace Memory

def kept (w : Memory) : List (String × Machine.Spec) :=
  w.machines.entries.map fun (name, m) => (name, m.spec)

def find (w : Memory) (name : String) : Except Fault Machine :=
  match w.machines.get? name with
  | some m => .ok m
  | none => .error (Fault.Cause.unknown .machine name)

def create (s : Machine.Spec) (w : Memory) : Except Fault Machine.Created × Memory :=
  let w := { w with asked := w.asked ++ [s] }
  match clash? w.kept s with
  | some cause => (.error cause, w)
  | none =>
    let uid := s!"uid-{w.created + 1}"
    let labels := if w.dropsLabels then ∅ else s.labels
    (.ok { uid, name := s.name, labels },
      { w with
        created := w.created + 1
        machines := w.machines.insert s.name { uid, spec := s }
        instances :=
          if s.runStrategy = .halted then w.instances
          else w.instances.insert s.name { phase := .pending } })

def setRunStrategy (name : String) (r : RunStrategy) (w : Memory) : Except Fault Unit × Memory :=
  match w.find name with
  | .error f => (.error f, w)
  | .ok m =>
    (.ok (),
      { w with
        machines := w.machines.insert name { m with spec := { m.spec with runStrategy := r } }
        instances := if r = .halted then w.instances.erase name else w.instances })

def delete (name : String) (w : Memory) : Except Fault Unit × Memory :=
  let w := { w with deleted := w.deleted ++ [name] }
  if w.refusesDeletes then (.error (Fault.Cause.deleteRefused name), w)
  else
    ((w.find name).map fun _ => (),
      { w with machines := w.machines.erase name, instances := w.instances.erase name })

def platform : Platform Memory where
  create := create
  machine name w := (w.find name, w)
  running name w := (.ok (w.instances.get? name), w)
  machines w := (.ok w.machines.values, w)
  setRunStrategy := setRunStrategy
  delete := delete

/-- Puts a machine there that was not created through the platform. -/
def insert (m : Machine) (w : Memory) : Memory :=
  { w with machines := w.machines.insert m.spec.name m }

def setInstance (name : String) (i : Instance) (w : Memory) : Memory :=
  { w with instances := w.instances.insert name i }

def setStatus (name : String) (s : Machine.Status) (w : Memory) : Memory :=
  match w.machines.get? name with
  | some m => { w with machines := w.machines.insert name { m with status := s } }
  | none => w

end Memory

end VirtualInfra.Platform
