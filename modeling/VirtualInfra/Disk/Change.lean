import VirtualInfra.Disk.Way

namespace VirtualInfra

namespace Way

def passed (p : Path) : List String → List Path
  | [] => [p]
  | name :: names => p :: passed (advance p name) names

def paths (w : Way) : List Path :=
  passed [] w.start ++ passed w.start w.names

end Way

namespace Disk

inductive Change where
  | makeDirectory (p : Path)
  | write (p : Path) (bytes : List UInt8)
  | remove (p : Path)
deriving DecidableEq

def Change.path : Change → Path
  | .makeDirectory p => p
  | .write p _ => p
  | .remove p => p

/-- What is new or different in the second disk, and what is gone from the first. A directory comes
before what is in it. -/
def changes (before after : Disk) : List Change :=
  let put := after.entries.filterMap fun (p, e) =>
    if before.get? p = some e then none
    else
      match e with
      | .directory => some (.makeDirectory p)
      | .file bytes => some (.write p bytes)
  let gone := before.entries.filterMap fun (p, _) =>
    if (after.get? p).isNone then some (.remove p) else none
  (put ++ gone).mergeSort fun a b => a.path.length ≤ b.path.length

end Disk

end VirtualInfra
