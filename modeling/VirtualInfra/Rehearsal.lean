import VirtualInfra.Platform
import VirtualInfra.Text.Blank

/-!
Rehearsals: an operation run under a plan that says when the caller cancels, which call fails, and
what a creation answers, with a journal of the calls made.
-/

namespace VirtualInfra

inductive Call.Kind where
  | flavour
  | image
  | network
  | subnet
  | create
  | machine
  | running
  | machines
  | setRunStrategy
  | delete
deriving DecidableEq

namespace Call

def kind {α : Type} : Call α → Kind
  | .flavour _ => .flavour
  | .image _ => .image
  | .network _ => .network
  | .subnet _ => .subnet
  | .create _ => .create
  | .machine _ => .machine
  | .running _ => .running
  | .machines => .machines
  | .setRunStrategy .. => .setRunStrategy
  | .delete _ => .delete

def subject {α : Type} : Call α → String
  | .flavour id => id
  | .image id => id
  | .network id => id
  | .subnet s => s.text
  | .create s => s.name
  | .machine name => name
  | .running name => name
  | .machines => ""
  | .setRunStrategy name r => s!"{name} {r.name}"
  | .delete name => name

end Call

namespace Rehearsal

/-- The call of a kind that is the given one counted from 1. -/
structure Occasion where
  kind : Call.Kind
  nth : Nat := 1
deriving DecidableEq

inductive Moment where
  | during
  | after
deriving DecidableEq

structure Substitute where
  uid : Option String := none
  name : Option String := none
  labels : Option (Table String) := none

def Substitute.apply (s : Substitute) (c : Machine.Created) : Machine.Created where
  uid := s.uid.getD c.uid
  name := s.name.getD c.name
  labels := s.labels.getD c.labels

structure Plan where
  cancellation : Option (Occasion × Moment) := none
  failure : Option (Occasion × Fault) := none
  substitute : Substitute := {}

end Rehearsal

structure Rehearsal (World : Type) where
  world : World
  cancelled : Bool := false
  journal : List (Call.Kind × String) := []

namespace Rehearsal

variable {World : Type}

def isOn (r : Rehearsal World) (o : Occasion) (k : Call.Kind) : Bool :=
  k = o.kind && (r.journal.filter (·.1 = k)).length = o.nth

def cancelOn (plan : Plan) (k : Call.Kind) (m : Moment) (r : Rehearsal World) : Rehearsal World :=
  match plan.cancellation with
  | some (o, m') => { r with cancelled := r.cancelled || (m = m' && r.isOn o k) }
  | none => r

def substituted {α : Type} (s : Substitute) : Call α → α → α
  | .create _, created => s.apply created
  | _, a => a

/-- The surroundings a plan makes of a platform and a catalogue. A call that is to fail does not
reach them. -/
def host (plan : Plan) (p : Platform World) (c : Catalogue) : Host (Rehearsal World) where
  cancelled r := r.cancelled
  issue call r :=
    cancelOn plan call.kind .during
      { r with journal := r.journal ++ [(call.kind, call.subject)] }
  answer call r :=
    match plan.failure.filter fun (o, _) => r.isOn o call.kind with
    | some (_, f) => (.error f, cancelOn plan call.kind .after r)
    | none =>
      match p.answer c call r.world with
      | (x, w) =>
        (x.map (substituted plan.substitute call),
          cancelOn plan call.kind .after { r with world := w })

end Rehearsal

end VirtualInfra
