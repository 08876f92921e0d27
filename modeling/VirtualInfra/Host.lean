import VirtualInfra.Fault
import VirtualInfra.Catalogue.Record
import VirtualInfra.Machine.Live

namespace VirtualInfra

inductive Call : Type → Type where
  | flavour (id : String) : Call Flavour
  | image (id : String) : Call Image
  | network (id : String) : Call Network
  | subnet (selector : Subnet.Selector) : Call Subnet
  | create (spec : Machine.Spec) : Call Machine.Created
  | machine (name : String) : Call Machine
  | running (name : String) : Call (Option Instance)
  | machines : Call (List Machine)
  | setRunStrategy (name : String) (strategy : RunStrategy) : Call Unit
  | delete (name : String) : Call Unit

/-- What happens to a world when calls are made in it. A call is first issued and then answered; the
caller may cancel at either moment. -/
structure Host (World : Type) where
  cancelled : World → Bool
  issue : {α : Type} → Call α → World → World
  answer : {α : Type} → Call α → World → Except Fault α × World

abbrev Act (World : Type) := ExceptT Fault (StateM World)

namespace Act

variable {World α : Type}

def within (stage : String) (act : Act World α) : Act World α := fun w =>
  match act w with
  | (r, w) => (Fault.mark stage r, w)

def outcome (act : Act World α) : Act World (Except Fault α) := fun w =>
  match act w with
  | (r, w) => (.ok r, w)

end Act

namespace Host

variable {World α : Type} (host : Host World)

def isCancelled : Act World Bool := fun w => (.ok (host.cancelled w), w)

def call (c : Call α) : Act World α := fun w => host.answer c (host.issue c w)

/-- A call that is not made once the caller has cancelled, and is given up when the caller cancels
while it is under way. -/
def race (stage : String) (c : Call α) : Act World α := fun w =>
  if host.cancelled w then (.error (Fault.Cause.cancelled stage), w)
  else if host.cancelled (host.issue c w) then
    (.error (Fault.Cause.cancelled stage), host.issue c w)
  else host.call c w

end Host

end VirtualInfra
