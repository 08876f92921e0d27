import VirtualInfra.Disk.Way
import VirtualInfra.Json.Parser
import VirtualInfra.Json.Printer
import VirtualInfra.Store.Problem
import VirtualInfra.Store.State

namespace VirtualInfra

open Json Text

structure Store where
  root : Way
deriving DecidableEq

namespace Store

variable (s : Store)

def directory : Way := s.root.child ".kubevim"

def stateFile : Way := s.directory.child "state.json"

def backupFile : Way := s.directory.child "state.json.backup"

def stagingFile : Way := s.directory.child "state.json.tmp"

def lockFile : Way := s.directory.child "lock.json"

def decode (text : String) : Except Problem State := do
  let some state := Json.ofText? text >>= State.ofJson? | throw .malformed
  if currentVersion < state.version then
    throw (.stateFile s!"state file version {state.version.toNat} is newer than supported version {currentVersion.toNat}")
  return state

def encode (state : State) : List UInt8 :=
  utf8 state.toJson.pretty

/-- The file that is loaded: the backup only when there is no state. -/
def loadedFile? (d : Disk) : Option Way :=
  if d.has s.stateFile then some s.stateFile
  else if d.has s.backupFile then some s.backupFile
  else none

def load (now : Timestamp) (d : Disk) : Except Problem State :=
  match s.loadedFile? d with
  | some w => do decode (← ofDisk (d.readText w))
  | none => .ok (.initial now)

def makeDirectory (d : Disk) : Except Disk.Failure Unit × Disk :=
  if d.has s.directory then (.ok (), d) else d.makeDirectories s.directory

def backUp (d : Disk) : Except Disk.Failure Unit × Disk :=
  if d.has s.stateFile then d.attempt (d.copy s.stateFile s.backupFile) else (.ok (), d)

inductive SaveStep where
  | makeDirectory
  | stage
  | backUp
  | replace
deriving DecidableEq

namespace SaveStep

def run (bytes : List UInt8) (d : Disk) : SaveStep → Except Disk.Failure Unit × Disk
  | .makeDirectory => s.makeDirectory d
  | .stage => d.attempt (d.write s.stagingFile bytes)
  | .backUp => s.backUp d
  | .replace => d.attempt (d.rename s.stagingFile s.stateFile)

def runAll (bytes : List UInt8) : List SaveStep → Disk → Except Disk.Failure Unit × Disk
  | [], d => (.ok (), d)
  | step :: steps, d =>
    match step.run s bytes d with
    | (.ok (), d) => runAll bytes steps d
    | failed => failed

end SaveStep

/-- The state is staged next to the old one and then renamed over it, so that the state file is the
old or the new one at every moment. The old one is copied to the backup before. -/
def saveSteps : List SaveStep := [.makeDirectory, .stage, .backUp, .replace]

def save (state : State) (d : Disk) : Except Problem Unit × Disk :=
  match SaveStep.runAll s (encode state) saveSteps d with
  | (r, d) => (ofDisk r, d)

structure Holder where
  host : String
  process : UInt32
  since : Timestamp
deriving DecidableEq

namespace Holder

def toJson (h : Holder) : Json :=
  .obj [
    ("host", .str h.host),
    ("pid", ofNat h.process.toNat),
    ("acquiredAt", timeJson h.since)]

def ofJson? : Json → Option Holder := record? do
  return {
    host := ← required "host" str?
    process := ← defaulted ["pid"] word32? 0
    since := ← required "acquiredAt" timeOfJson? }

def encode (h : Holder) : List UInt8 :=
  utf8 h.toJson.pretty

def lifetime : Int := 3600 * Timestamp.nanosInSecond

/-- Right for every holder that was written by a caller. A lock file that was written by hand may
name a leap second in the middle of a day, which `nanoseconds` takes for one second later. -/
def isFresh (h : Holder) (now : Timestamp) : Bool :=
  now.nanoseconds - h.since.nanoseconds < lifetime

def text (h : Holder) : String :=
  s!"state is locked by {h.host} (pid {h.process.toNat}) since {h.since.displayText}"

end Holder

def createLock (me : Holder) (d : Disk) : Except Problem (Bool × Disk) :=
  match d.create s.lockFile (.file me.encode) with
  | .ok d => .ok (true, d)
  | .error .occupied => .ok (false, d)
  | .error f => .error (.disk f)

def readHolder (d : Disk) : Except Problem Holder := do
  match Json.ofText? (← ofDisk (d.readText s.lockFile)) >>= Holder.ofJson? with
  | some h => return h
  | none => throw (.lock "state lock is being acquired by another process")

def removeLock (d : Disk) : Except Problem Disk :=
  match d.remove s.lockFile with
  | .ok d => .ok d
  | .error .notFound => .ok d
  | .error f => .error (.disk f)

def replaceLock (me : Holder) (d : Disk) : Except Problem Unit × Disk :=
  match s.removeLock d with
  | .error p => (.error p, d)
  | .ok d =>
    match s.createLock me d with
    | .error p => (.error p, d)
    | .ok (true, d) => (.ok (), d)
    | .ok (false, d) =>
      (.error (.lock "state lock was taken while replacing an abandoned lock"), d)

/-- Takes the lock when it is free or abandoned. The directory is made first, and stays made. -/
def acquire (me : Holder) (d : Disk) : Except Problem Unit × Disk :=
  match s.makeDirectory d with
  | (.error f, d) => (.error (.disk f), d)
  | (.ok (), d) =>
    match s.createLock me d with
    | .error p => (.error p, d)
    | .ok (true, d) => (.ok (), d)
    | .ok (false, d) =>
      match s.readHolder d with
      | .error p => (.error p, d)
      | .ok holder =>
        if holder.isFresh me.since then (.error (.lock holder.text), d) else s.replaceLock me d

def release (d : Disk) : Except Problem Unit × Disk :=
  match s.removeLock d with
  | .ok d => (.ok (), d)
  | .error p => (.error p, d)

def revise {α : Type} (now : Timestamp) (f : State → Except Problem (α × State)) (d : Disk) :
    Except Problem α × Disk :=
  match s.load now d with
  | .error p => (.error p, d)
  | .ok state =>
    match f state with
    | .error p => (.error p, d)
    | .ok (a, state) =>
      match s.save state d with
      | (.ok (), d) => (.ok a, d)
      | (.error p, d) => (.error p, d)

def update {α : Type} (me : Holder) (f : State → Except Problem (α × State)) (d : Disk) :
    Except Problem α × Disk :=
  match s.acquire me d with
  | (.error p, d) => (.error p, d)
  | (.ok (), d) =>
    let (result, d) := s.revise me.since f d
    match s.release d with
    | (.ok (), d) => (result, d)
    | (.error p, d) => (.error p, d)

end Store

end VirtualInfra
