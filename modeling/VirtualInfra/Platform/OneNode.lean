import VirtualInfra.Platform
import VirtualInfra.Store

namespace VirtualInfra.Platform

/-- The disk, and what each call draws on: the clock, the caller's name for the lock, and fresh
identifiers. -/
structure OneNode where
  disk : Disk
  store : Store
  now : Timestamp
  host : String
  process : UInt32
  fresh : Nat → String
  drawn : Nat := 0

namespace OneNode

def nodeName : String := "local-node"

def guestAddress : String := "10.0.2.2"

/-- One step of the hash FNV-1a on 64 bits. -/
def hashByte (h : UInt64) (b : UInt8) : UInt64 :=
  (h ^^^ b.toUInt64) * 0x100000001b3

def hash (bytes : List UInt8) : UInt64 :=
  bytes.foldl hashByte 0xcbf29ce484222325

/-- A locally administered address for an interface: its first byte marks it so, and the others are
the leading bytes of a hash of the machine's uid and the interface's name. -/
def derivedMac (uid nic : String) : Mac where
  octets :=
    let h := hash (Text.utf8 uid ++ 0 :: Text.utf8 nic)
    [0x02, (h >>> 56).toUInt8, (h >>> 48).toUInt8, (h >>> 40).toUInt8, (h >>> 32).toUInt8,
      (h >>> 24).toUInt8]
  length_eq := rfl

def startNic (uid : String) (n : Machine.Nic) : Instance.Nic where
  name := n.name
  address := if n.binding? = some .masquerade then some guestAddress else none
  mac := some (n.mac.getD (derivedMac uid n.name).text)

def start (m : Machine) : Instance where
  phase := .running
  node := some nodeName
  nics := m.spec.nics.map (startNic m.uid)

def applyRunStrategy (now : Timestamp) (r : RunStrategy) (s : Store.Stored) : Store.Stored :=
  let m := { s.machine with spec := { s.machine.spec with runStrategy := r } }
  if r = .halted then
    { s with
      machine := { m with status := { m.status with ready := false, printable := some "Stopped" } }
      running := none
      updated := now }
  else
    { s with
      machine := { m with status := { m.status with ready := true, printable := some "Running" } }
      running := some (s.running.getD (start m))
      updated := now }

def stored (now : Timestamp) (uid : String) (s : Machine.Spec) : Store.Stored :=
  applyRunStrategy now s.runStrategy
    { machine := { uid, spec := s, status := { created := true } }
      running := none
      created := now
      updated := now }

def clashIn? (spec : Machine.Spec) (s : Store.State) : Option Fault.Cause :=
  if s.machines.contains spec.name then some (.nameTaken spec.name)
  else
    spec.volumes.findSome? fun v => (s.volumeOwner? v.name).map fun owner => .volumeTaken v.name owner

def createIn (now : Timestamp) (uid : String) (spec : Machine.Spec) (s : Store.State) :
    Except Store.Problem (Machine.Created × Store.State) :=
  match clashIn? spec s with
  | some cause => .error (.conflict cause.message)
  | none =>
    .ok ({ uid, name := spec.name, labels := spec.labels }, s.insert now (stored now uid spec))

def setRunStrategyIn (now : Timestamp) (name : String) (r : RunStrategy) (s : Store.State) :
    Except Store.Problem (Unit × Store.State) :=
  match s.machines.get? name with
  | some m => .ok ((), s.replace name (applyRunStrategy now r m))
  | none => .error (.unknownMachine name)

def deleteIn (now : Timestamp) (name : String) (s : Store.State) :
    Except Store.Problem (Unit × Store.State) :=
  if s.machines.contains name then .ok ((), s.erase now name) else .error (.unknownMachine name)

def holder (w : OneNode) : Store.Holder := ⟨w.host, w.process, w.now⟩

def update {α : Type} (f : Store.State → Except Store.Problem (α × Store.State)) (w : OneNode) :
    Except Fault α × OneNode :=
  match w.store.update w.holder f w.disk with
  | (r, d) => (r.mapError Store.Problem.fault, { w with disk := d })

def load (w : OneNode) : Except Store.Problem Store.State :=
  w.store.load w.now w.disk

def find (w : OneNode) (name : String) : Except Store.Problem Store.Stored := do
  match (← w.load).machines.get? name with
  | some m => return m
  | none => throw (.unknownMachine name)

def look {α : Type} (x : Except Store.Problem α) (w : OneNode) : Except Fault α × OneNode :=
  (x.mapError Store.Problem.fault, w)

def platform : Platform OneNode where
  create spec w :=
    let (r, w') := update (createIn w.now (w.fresh w.drawn) spec) w
    (r, { w' with drawn := w.drawn + 1 })
  machine name w := look ((w.find name).map (·.machine)) w
  running name w := look ((w.find name).map (·.running)) w
  machines w := look (w.load.map fun s => s.machines.values.map (·.machine)) w
  setRunStrategy name r w := update (setRunStrategyIn w.now name r) w
  delete name w := update (deleteIn w.now name) w

end OneNode

end VirtualInfra.Platform
