import VirtualInfra.Host
import VirtualInfra.Undo.Report

namespace VirtualInfra.Undo

variable {World : Type}

structure Step (World : Type) where
  name : String
  undo : World → Except Fault Unit × World

structure Log (World : Type) where
  steps : List (Step World)

namespace Log

def empty : Log World := ⟨[]⟩

def record (l : Log World) (name : String) (undo : World → Except Fault Unit × World) :
    Log World :=
  ⟨l.steps ++ [⟨name, undo⟩]⟩

def commit (_ : Log World) : Act World Unit := pure ()

def unwindSteps : List (Step World) → World → Report × World
  | [], w => (⟨[], []⟩, w)
  | step :: steps, w =>
    let (result, w) := step.undo w
    let (report, w) := unwindSteps steps w
    match result with
    | .ok () => ({ report with undone := step.name :: report.undone }, w)
    | .error f => ({ report with left := ⟨step.name, f.text⟩ :: report.left }, w)

def unwind (l : Log World) : World → Report × World :=
  unwindSteps l.steps.reverse

end Log

namespace Report

def fault (r : Report) (cause : Fault) : Fault :=
  Fault.Cause.undone .internal cause.text r

/-- The fault of an operation that was undone because it was cancelled: a cancellation only if
nothing was left behind. -/
def cancelled (r : Report) (stage : String) : Fault :=
  if r.isClean then Fault.Cause.undone .cancelled stage r
  else r.fault (Fault.Cause.cancelled stage)

end Report

end VirtualInfra.Undo
