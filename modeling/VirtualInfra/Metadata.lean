import VirtualInfra.Table
import VirtualInfra.Text.Blank

namespace VirtualInfra

abbrev Metadata := Table String

namespace Metadata

open Text

inductive Key where
  | source
  | instancetype
  | preference
  | attachment
  | subnet
deriving DecidableEq

def Key.name : Key → String
  | .source => "kubevim.io/source"
  | .instancetype => "kubevim.io/instancetype-name"
  | .preference => "kubevim.io/preference-name"
  | .attachment => "kubevim.io/attachment-name"
  | .subnet => "kubevim.io/subnet-name"

def rawValue? (m : Metadata) (key : String) : Option String :=
  (m.get? key).filter (!isBlankText ·)

def value? (m : Metadata) (key : Key) : Option String :=
  m.rawValue? key.name

def missing (m : Metadata) (keys : List Key) : List Key :=
  keys.filter fun k => (m.value? k).isNone

end Metadata

end VirtualInfra
