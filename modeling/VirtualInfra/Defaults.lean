import VirtualInfra.RunStrategy

namespace VirtualInfra

structure Defaults where
  space : String := "default"
  managementNetwork : String := "default"
  nameSuffix : String := "-vm"
  volumePattern : String := "\x7bvm\x7d-\x7bimage\x7d-dv"
  imageSpace : String := "kubevim-images"
  flavourSource : String := "kubevirt"
  instancetypeKind : String := "VirtualMachineClusterInstancetype"
  preferenceKind : String := "VirtualMachineClusterPreference"
  runStrategy : RunStrategy := .always
  manager : String := "kubevim"
deriving DecidableEq

namespace Defaults

open Json

instance : Inhabited Defaults := ⟨{}⟩

def machineName (d : Defaults) (image : String) : String :=
  image ++ d.nameSuffix

structure Values where
  machine : String
  image : String
  imageId : String

def Values.get? (v : Values) : List Char → Option String
  | ['v', 'm'] => some v.machine
  | ['i', 'm', 'a', 'g', 'e'] => some v.image
  | ['i', 'm', 'a', 'g', 'e', '_', 'i', 'd'] => some v.imageId
  | _ => none

/-- Fills in a pattern: a name between braces that stands for a value is replaced by it, all else
is kept, and values are not looked at again. -/
def expand (v : Values) : List Char → List Char
  | [] => []
  | c :: cs =>
    if c = '{' ∧ '}' ∈ cs then
      match v.get? (cs.takeWhile (· ≠ '}')) with
      | some value => value.toList ++ expand v (cs.drop ((cs.takeWhile (· ≠ '}')).length + 1))
      | none => c :: expand v cs
    else c :: expand v cs
  termination_by cs => cs.length
  decreasing_by
    · rw [List.length_drop, List.length_cons]
      omega
    · exact Nat.lt_succ_self _
    · exact Nat.lt_succ_self _

def volumeName (d : Defaults) (v : Values) : String :=
  .ofList (expand v d.volumePattern.toList)

def toJson (d : Defaults) : Json :=
  .obj [
    ("namespace", .str d.space),
    ("management-network", .str d.managementNetwork),
    ("name-suffix", .str d.nameSuffix),
    ("boot-volume-name", .str d.volumePattern),
    ("image-namespace", .str d.imageSpace),
    ("supported-source", .str d.flavourSource),
    ("instancetype-kind", .str d.instancetypeKind),
    ("preference-kind", .str d.preferenceKind),
    ("run-strategy", d.runStrategy.toJson),
    ("managed-by", .str d.manager)]

def ofJson? : Json → Option Defaults := record? do
  let d : Defaults := {}
  let text (name missing : String) := defaulted [name] str? missing
  return {
    space := ← text "namespace" d.space
    managementNetwork := ← text "management-network" d.managementNetwork
    nameSuffix := ← text "name-suffix" d.nameSuffix
    volumePattern := ← text "boot-volume-name" d.volumePattern
    imageSpace := ← text "image-namespace" d.imageSpace
    flavourSource := ← text "supported-source" d.flavourSource
    instancetypeKind := ← text "instancetype-kind" d.instancetypeKind
    preferenceKind := ← text "preference-kind" d.preferenceKind
    runStrategy := ← defaulted ["run-strategy"] RunStrategy.ofJson? d.runStrategy
    manager := ← text "managed-by" d.manager }

end Defaults

end VirtualInfra
