import VirtualInfra.Catalogue
import VirtualInfra.Host

namespace VirtualInfra

structure Platform (World : Type) where
  create : Machine.Spec → World → Except Fault Machine.Created × World
  machine : String → World → Except Fault Machine × World
  running : String → World → Except Fault (Option Instance) × World
  machines : World → Except Fault (List Machine) × World
  setRunStrategy : String → RunStrategy → World → Except Fault Unit × World
  delete : String → World → Except Fault Unit × World

namespace Platform

variable {World : Type}

def answer (p : Platform World) (c : Catalogue) :
    {α : Type} → Call α → World → Except Fault α × World
  | _, .flavour id, w => (c.flavour id, w)
  | _, .image id, w => (c.image id, w)
  | _, .network id, w => (c.network id, w)
  | _, .subnet selector, w => (c.subnet selector, w)
  | _, .create spec, w => p.create spec w
  | _, .machine name, w => p.machine name w
  | _, .running name, w => p.running name w
  | _, .machines, w => p.machines w
  | _, .setRunStrategy name strategy, w => p.setRunStrategy name strategy w
  | _, .delete name, w => p.delete name w

/-- The surroundings of a caller that never cancels. -/
def host (p : Platform World) (c : Catalogue) : Host World where
  cancelled _ := false
  issue _ w := w
  answer := p.answer c

/-- What a new machine would share with one that is there: its name, or a boot volume. The machines
are given with the names they are kept under. -/
def clash? (kept : List (String × Machine.Spec)) (s : Machine.Spec) : Option Fault.Cause :=
  if kept.any (·.1 = s.name) then some (.nameTaken s.name)
  else
    s.volumes.findSome? fun v =>
      (kept.find? (·.2.hasVolume v.name)).map fun owner => .volumeTaken v.name owner.2.name

end Platform

end VirtualInfra
