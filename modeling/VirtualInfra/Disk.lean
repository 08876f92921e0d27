import VirtualInfra.Table

namespace VirtualInfra

/-- The names from the root down. -/
abbrev Path := List String

namespace Disk

inductive Entry where
  | file (bytes : List UInt8)
  | directory
deriving DecidableEq

inductive Failure where
  | notFound
  | occupied
  | notDirectory
  | isDirectory
  | nameTooLong
  | notRegular
  | notText
deriving DecidableEq

def Failure.message : Failure → String
  | .notFound => "No such file or directory (os error 2)"
  | .occupied => "File exists (os error 17)"
  | .notDirectory => "Not a directory (os error 20)"
  | .isDirectory => "Is a directory (os error 21)"
  | .nameTooLong => "File name too long (os error 36)"
  | .notRegular => "the source path is neither a regular file nor a symlink to a regular file"
  | .notText => "stream did not contain valid UTF-8"

end Disk

/-- The entries by their paths; the root is always there. -/
structure Disk where
  entries : List (Path × Disk.Entry) := []
deriving DecidableEq

namespace Disk

def get? (d : Disk) (p : Path) : Option Entry :=
  if p = [] then some .directory else d.entries.lookup p

def put (d : Disk) (p : Path) (e : Entry) : Disk :=
  ⟨(p, e) :: d.entries.filter (·.1 ≠ p)⟩

def drop (d : Disk) (p : Path) : Disk :=
  ⟨d.entries.filter (·.1 ≠ p)⟩

def removeTree (d : Disk) (p : Path) : Disk :=
  ⟨d.entries.filter fun e => !p.isPrefixOf e.1⟩

def names (d : Disk) (p : Path) : List String :=
  d.entries.filterMap fun e =>
    match e.1.getLast? with
    | some name => if e.1.dropLast = p then some name else none
    | none => none

theorem get?_put {d : Disk} {p q : Path} {e : Entry} (hq : q ≠ []) :
    (d.put p e).get? q = if q = p then some e else d.get? q := by
  simp only [get?, put, hq, if_false, lookup_cons_eq_ite, lookup_filter_ne]
  split <;> rfl

theorem get?_drop {d : Disk} {p q : Path} (hq : q ≠ []) :
    (d.drop p).get? q = if q = p then none else d.get? q := by
  simp only [get?, drop, hq, if_false, lookup_filter_ne]

end Disk

end VirtualInfra
