import VirtualInfra.Disk.Way

namespace VirtualInfra

abbrev Location := String

namespace Location

def isAbsolute (l : Location) : Bool := l.startsWith "/"

def join (base l : Location) : Location :=
  if l.isAbsolute ∨ base = "" then l
  else if base.endsWith "/" then base ++ l
  else base ++ "/" ++ l

def way (here : Path) (l : Location) : Way :=
  ⟨if l.isAbsolute then [] else here, l.splitOn "/"⟩

end Location

end VirtualInfra
