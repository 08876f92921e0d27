import VirtualInfra.Metadata
import VirtualInfra.Size

namespace VirtualInfra.Catalogue

inductive RecordKind where
  | flavour
  | image
  | network
  | subnet
deriving DecidableEq

def RecordKind.name : RecordKind → String
  | .flavour => "flavour"
  | .image => "image"
  | .network => "network"
  | .subnet => "subnet"

inductive Flaw where
  | idMissing (node : String)
  | defaultNotText (key : String)
  | sizeNotNumber (owner : String)
  | sourceIncomplete (image source key : String)
  | sourceUnknown (image source : String)
  | typeUnknown (network type : String)
  | typeMissing (network : String)
  | parentUnknown (subnet network : String)
  | nameShared (first second : String) (key : Metadata.Key) (value : String)
deriving DecidableEq

def Flaw.message : Flaw → String
  | .idMissing node => s!"{node} requires an id"
  | .defaultNotText key => s!"defaults.{key} requires a string value"
  | .sizeNotNumber owner => s!"{owner} size must be an integer or a string"
  | .sourceIncomplete image source key => s!"image '{image}' source \"{source}\" requires {key}"
  | .sourceUnknown image source => s!"image '{image}' has unknown source type '{source}'"
  | .typeUnknown network type => s!"network '{network}' has unknown type '{type}'"
  | .typeMissing network => s!"network '{network}' requires a type"
  | .parentUnknown subnet network => s!"subnet '{subnet}' refers to unknown network '{network}'"
  | .nameShared first second key value =>
    s!"subnets '{first}' and '{second}' share {key.name} '{value}'"

inductive Error where
  | syntaxError
  | unreadable (path reason : String)
  | flaw (f : Flaw)
  | size (value : String) (problem : Size.Problem)
  | negativeSize (value : Int) (owner : String)
  | duplicate (kind : RecordKind) (id : String)
  | defaults (reason : String)
deriving DecidableEq

def Error.message : Error → String
  | .syntaxError => "KDL parse error: Failed to parse KDL document"
  | .unreadable path reason => s!"Failed to read catalogue {path}: {reason}"
  | .flaw f => s!"Invalid catalogue: {f.message}"
  | .size value p => s!"Invalid size '{value}': {p.message}"
  | .negativeSize value owner => s!"Invalid size '{value}': {owner} size must not be negative"
  | .duplicate kind id => s!"Duplicate {kind.name} id: {id}"
  | .defaults reason => s!"Invalid defaults block: {reason}"

end VirtualInfra.Catalogue
