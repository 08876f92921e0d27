import VirtualInfra.Machine.Live
import VirtualInfra.Timestamp

namespace VirtualInfra.Store

open Json

structure Stored where
  machine : Machine
  running : Option Instance
  created : Timestamp
  updated : Timestamp
deriving DecidableEq

structure State where
  version : UInt32
  updated : Timestamp
  machines : Table Stored
deriving DecidableEq

def currentVersion : UInt32 := 1

namespace State

def initial (now : Timestamp) : State := ⟨currentVersion, now, ∅⟩

def insert (s : State) (now : Timestamp) (m : Stored) : State :=
  { s with machines := s.machines.insert m.machine.spec.name m, updated := now }

def replace (s : State) (name : String) (m : Stored) : State :=
  { s with machines := s.machines.insert name m }

def erase (s : State) (now : Timestamp) (name : String) : State :=
  { s with machines := s.machines.erase name, updated := now }

def volumeOwner? (s : State) (volume : String) : Option String :=
  (s.machines.values.find? (·.machine.spec.hasVolume volume)).map (·.machine.spec.name)

end State

def timeJson (t : Timestamp) : Json := .str t.text

def timeOfJson? (j : Json) : Option Timestamp := j.str? >>= Timestamp.ofText?

def Stored.toJson (s : Stored) : Json :=
  ofMembers [
    ("vm", some s.machine.toJson),
    ("instance", s.running.map Instance.toJson),
    ("createdAt", some (timeJson s.created)),
    ("updatedAt", some (timeJson s.updated))]

def Stored.ofJson? : Json → Option Stored := record? do
  return {
    machine := ← required "vm" Machine.ofJson?
    running := ← omittable "instance" Instance.ofJson?
    created := ← required "createdAt" timeOfJson?
    updated := ← required "updatedAt" timeOfJson? }

def State.toJson (s : State) : Json :=
  .obj [
    ("version", ofNat s.version.toNat),
    ("updated_at", timeJson s.updated),
    ("vms", ofTable Stored.toJson s.machines)]

def State.ofJson? : Json → Option State := record? do
  return {
    version := ← required "version" word32?
    updated := ← required "updated_at" timeOfJson?
    machines := ← required "vms" (table? Stored.ofJson?) }

end VirtualInfra.Store
