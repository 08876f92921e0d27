import VirtualInfra.Disk
import VirtualInfra.Text.Utf8

/-!
Ways through a tree as they are written, detours included, and the operations on what they lead to.
-/

namespace VirtualInfra

/-- The segments of a text between its slashes, and the directory that the first one is seen from. -/
structure Way where
  start : Path
  segments : List String := []
deriving DecidableEq

namespace Way

def names (w : Way) : List String :=
  w.segments.filter fun name => name ≠ "" ∧ name ≠ "."

def size (w : Way) : Nat :=
  w.segments.foldl (fun n segment => n + segment.utf8ByteSize) (w.segments.length - 1)

def child (w : Way) (name : String) : Way :=
  let before := if w.segments.getLast? = some "" then w.segments.dropLast else w.segments
  { w with segments := before ++ [name] }

def parent (w : Way) : Way := ⟨w.start, w.names.dropLast⟩

def meansDirectory (w : Way) : Bool :=
  w.segments.getLast?.any ["", ".", ".."].contains

def advance (p : Path) (name : String) : Path :=
  if name = ".." then p.dropLast else p ++ [name]

def path (w : Way) : Path := w.names.foldl advance w.start

end Way

namespace Disk

def maxNameSize : Nat := 255

def maxWaySize : Nat := 4095

def enter (d : Disk) (p : Path) : Except Failure Unit :=
  match d.get? p with
  | some .directory => .ok ()
  | some (.file _) => .error .notDirectory
  | none => .error .notFound

def step (d : Disk) (p : Path) (name : String) : Except Failure Path := do
  d.enter p
  if maxNameSize < name.utf8ByteSize then throw .nameTooLong
  return Way.advance p name

def reach (d : Disk) (w : Way) : Except Failure Path := do
  if w.size = 0 then throw .notFound
  if maxWaySize < w.size then throw .nameTooLong
  let p ← w.names.foldlM d.step w.start
  if w.meansDirectory then d.enter p
  return p

def find (d : Disk) (w : Way) : Except Failure (Option Entry) :=
  (d.reach w).map d.get?

def has (d : Disk) (w : Way) : Bool :=
  match d.find w with
  | .ok (some _) => true
  | _ => false

def hasDirectory (d : Disk) (w : Way) : Bool :=
  match d.find w with
  | .ok (some .directory) => true
  | _ => false

def read (d : Disk) (w : Way) : Except Failure (List UInt8) := do
  match ← d.find w with
  | some (.file bytes) => return bytes
  | some .directory => throw .isDirectory
  | none => throw .notFound

def readText (d : Disk) (w : Way) : Except Failure String := do
  match Text.ofUtf8? (← d.read w) with
  | some s => return s
  | none => throw .notText

def overwrite (d : Disk) (p : Path) (bytes : List UInt8) : Except Failure Disk :=
  match d.get? p with
  | some .directory => .error .isDirectory
  | _ => .ok (d.put p (.file bytes))

def write (d : Disk) (w : Way) (bytes : List UInt8) : Except Failure Disk := do
  d.overwrite (← d.reach w) bytes

def create (d : Disk) (w : Way) (e : Entry) : Except Failure Disk := do
  let p ← d.reach w
  match d.get? p with
  | some _ => throw .occupied
  | none => return d.put p e

def copy (d : Disk) (source target : Way) : Except Failure Disk := do
  match ← d.find source with
  | some (.file bytes) => d.write target bytes
  | some .directory => throw .notRegular
  | none => throw .notFound

def rename (d : Disk) (source target : Way) : Except Failure Disk := do
  let p ← d.reach source
  let q ← d.reach target
  match d.get? p with
  | some (.file bytes) => (d.drop p).overwrite q bytes
  | some .directory => throw .isDirectory
  | none => throw .notFound

def remove (d : Disk) (w : Way) : Except Failure Disk := do
  let p ← d.reach w
  match d.get? p with
  | some (.file _) => return d.drop p
  | some .directory => throw .isDirectory
  | none => throw .notFound

def attempt (d : Disk) (x : Except Failure Disk) : Except Failure Unit × Disk :=
  match x with
  | .ok d' => (.ok (), d')
  | .error f => (.error f, d)

def ensureDirectory (d : Disk) (w : Way) : Except Failure Unit × Disk :=
  if d.hasDirectory w then (.ok (), d) else d.attempt (d.create w .directory)

/-- Makes the directory at the end of some names, of which the last one comes first. When one on the
way is missing, those are made before; what has been made stays made. -/
def ensureDirectories (start : Path) : List String → Disk → Except Failure Unit × Disk
  | [], d => (.ok (), d)
  | name :: names, d =>
    let w : Way := ⟨start, (name :: names).reverse⟩
    match d.ensureDirectory w with
    | (.error .notFound, d) =>
      match ensureDirectories start names d with
      | (.ok (), d) => d.ensureDirectory w
      | failed => failed
    | done => done

def makeDirectories (d : Disk) (w : Way) : Except Failure Unit × Disk :=
  if maxWaySize < w.size then (.error .nameTooLong, d)
  else ensureDirectories w.start w.names.reverse d

end Disk

end VirtualInfra
