import VirtualInfra.Command.Run
import VirtualInfra.Uuid
import Std.Time.DateTime.Timestamp

/-!
The command line. The files that a run looks at are read first, the run is computed on them, and
what it changed is written back.
-/

namespace VirtualInfra.Outside

def pathText (p : Path) : String := "/" ++ "/".intercalate p

def read? (p : Path) : IO (Option Disk.Entry) := do
  try
    let bytes ← IO.FS.readBinFile (pathText p)
    return some (.file bytes.toList)
  catch
    | .inappropriateType .. => return some .directory
    | _ => return none

def readDisk (ps : List Path) : IO Disk := do
  let mut d : Disk := {}
  for p in ps do
    if p ≠ [] ∧ (d.get? p).isNone ∧ d.get? p.dropLast = some .directory then
      if let some e ← read? p then d := d.put p e
  return d

def variableNames : List String :=
  ["KUBEVIM_CATALOG", "KUBEVIM_STATE_DIR", "KUBEVIM_CATALOG_PATH", "XDG_CONFIG_HOME", "HOME"]

def setting : IO Setting := do
  let directory ← IO.currentDir
  let given ← variableNames.filterMapM fun name => do return (← IO.getEnv name).map fun v => (name, v)
  return { directory := toString directory, environment := .ofList given }

def hostName : IO String := do
  return (((← IO.getEnv "HOSTNAME").or (← IO.getEnv "HOST"))).getD "unknown"

def processNumber : IO Nat := do
  try
    let stat ← IO.FS.readFile "/proc/self/stat"
    return Text.numberOf 10 (stat.toList.takeWhile Char.isDigit)
  catch _ => return 0

def apply : Disk.Change → IO Unit
  | .makeDirectory p => IO.FS.createDirAll (pathText p)
  | .write p bytes => do
    let n ← processNumber
    let staged := s!"{pathText p}.{n}"
    IO.FS.writeBinFile staged ⟨bytes.toArray⟩
    IO.FS.rename staged (pathText p)
  | .remove p => IO.FS.removeFile (pathText p)

def now : IO Timestamp := do
  let t ← Std.Time.Timestamp.now
  match Timestamp.ofNanoseconds? t.toNanosecondsSinceUnixEpoch.val with
  | some t => return t
  | none => throw (.userError "the clock is out of range")

/-- The node that the program runs on. A run makes one machine at most. -/
def node (d : Disk) : IO Platform.OneNode := do
  let bytes ← IO.getRandomBytes 16
  return {
    disk := d
    store := ⟨{ start := [] }⟩
    now := ← now
    host := ← hostName
    process := .ofNat (← processNumber)
    fresh := fun _ => Uuid.ofRandom bytes.toList }

end VirtualInfra.Outside

open VirtualInfra Outside in
def main (args : List String) : IO UInt32 := do
  let s ← setting
  let d ← readDisk (Command.paths s args)
  let (report, w) := Command.execute s args (← node d)
  (Disk.changes d w.disk).forM Outside.apply
  IO.print report.out
  IO.eprint report.err
  return .ofNat report.exit
