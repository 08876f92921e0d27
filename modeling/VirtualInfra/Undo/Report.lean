namespace VirtualInfra.Undo

structure Leftover where
  step : String
  error : String
deriving DecidableEq

/-- Both lists are in the order in which undoing was tried. -/
structure Report where
  undone : List String
  left : List Leftover
deriving DecidableEq

namespace Report

def isClean (r : Report) : Bool :=
  r.left.isEmpty

def text (r : Report) : String :=
  if r.isClean then s!"cleanup completed ({r.undone.length} steps undone)"
  else "cleanup did not complete, left behind: "
    ++ ", ".intercalate (r.left.map fun l => s!"{l.step} ({l.error})")

end Report

end VirtualInfra.Undo
