import VirtualInfra.Disk
import VirtualInfra.Fault

namespace VirtualInfra.Store

inductive Problem where
  | unknownMachine (name : String)
  | conflict (what : String)
  | stateFile (reason : String)
  | lock (reason : String)
  | disk (f : Disk.Failure)
  | malformed
deriving DecidableEq

namespace Problem

def text : Problem → String
  | .unknownMachine name => s!"VM not found: {name}"
  | .conflict what => s!"Resource already exists: {what}"
  | .stateFile reason => s!"State file error: {reason}"
  | .lock reason => s!"Lock acquisition failed: {reason}"
  | .disk f => s!"IO error: {f.message}"
  | .malformed => "JSON error"

def fault : Problem → Fault
  | .unknownMachine name => Fault.Cause.unknown .machine name
  | .conflict what => Fault.Cause.reported .alreadyExists what
  | p => Fault.Cause.reported .platform p.text

end Problem

def ofDisk {α : Type} (x : Except Disk.Failure α) : Except Problem α :=
  x.mapError .disk

end VirtualInfra.Store
