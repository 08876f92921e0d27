import VirtualInfra.Disk.Location
import VirtualInfra.Table

namespace VirtualInfra

structure Setting where
  directory : Location
  environment : Table String := ∅

namespace Setting

def here (s : Setting) : Path := (s.directory.way []).path

def directory? (s : Setting) (name : String) : Option Location :=
  (s.environment.get? name).filter (· ≠ "")

def configuration? (s : Setting) : Option Location :=
  ((s.directory? "XDG_CONFIG_HOME").filter Location.isAbsolute).or
    ((s.directory? "HOME").map fun home => Location.join home ".config")

end Setting

namespace Discovery

inductive Problem where
  | notFound
  | missing (l : Location)
deriving DecidableEq

def Problem.message : Problem → String
  | .notFound =>
    "Catalogue file not found. Looked in:\n" ++
    "- current directory: vim.local.kdl, .vim.local.kdl, vim.kdl, .vim.kdl\n" ++
    "- ./.kubevim/ directory\n" ++
    "- ~/.config/kubevim/vim.kdl\n" ++
    "Set KUBEVIM_CATALOG_PATH or pass --catalog to choose one explicitly"
  | .missing l => s!"Catalogue file does not exist: {l}"

variable (s : Setting) (d : Disk)

def fileNames : List String := ["vim.local.kdl", ".vim.local.kdl", "vim.kdl", ".vim.kdl"]

def isThere (l : Location) : Bool := d.has (l.way s.here)

def named? : Option Location :=
  (s.environment.get? "KUBEVIM_CATALOG_PATH").filter (isThere s d)

def placesIn (base : Location) : List (Location × List Location) :=
  [base, base.join ".kubevim"].map fun dir => (dir, fileNames.map dir.join)

def nearby? (base : Location) : Option Location :=
  (((placesIn base).filter fun p => d.hasDirectory (p.1.way s.here)).flatMap (·.2)).find? (isThere s d)

def personalPlace? : Option Location :=
  s.configuration?.map fun dir => (dir.join "kubevim").join "vim.kdl"

def personal? : Option Location :=
  (personalPlace? s).filter (isThere s d)

def catalogueFrom (base : Location) : Except Problem Location :=
  match ((named? s d).or (nearby? s d base)).or (personal? s d) with
  | some l => .ok l
  | none => .error .notFound

def catalogue (asked : Option Location) : Except Problem Location :=
  match asked with
  | some l => if isThere s d l then .ok l else .error (.missing l)
  | none => catalogueFrom s d s.directory

def places (asked : Option Location) : List Location :=
  asked.toList ++ (s.environment.get? "KUBEVIM_CATALOG_PATH").toList
    ++ (placesIn s.directory).flatMap (·.2) ++ (personalPlace? s).toList

def state (asked : Option Location) : Location :=
  asked.getD s.directory

end Discovery

end VirtualInfra
