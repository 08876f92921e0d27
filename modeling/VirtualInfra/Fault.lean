import VirtualInfra.Address
import VirtualInfra.Mac
import VirtualInfra.Metadata
import VirtualInfra.Undo.Report

namespace VirtualInfra

namespace Fault

inductive Subject where
  | flavour
  | image
  | network
  | subnet
  | machine
deriving DecidableEq

def Subject.text : Subject → String
  | .flavour => "flavour"
  | .image => "image"
  | .network => "network"
  | .subnet => "subnet"
  | .machine => "virtual machine"

inductive Kind where
  | invalidRequest
  | notFound
  | unsupported
  | notImplemented
  | internal
  | cancelled
  | alreadyExists
  | platform
deriving DecidableEq

def Kind.label : Kind → String
  | .invalidRequest => "Invalid request"
  | .notFound => "Not found"
  | .unsupported => "Unsupported configuration"
  | .notImplemented => "Not implemented"
  | .internal => "Internal error"
  | .cancelled => "Cancelled"
  | .alreadyExists => "Resource already exists"
  | .platform => "Platform error"

inductive Cause where
  | flavourMissing
  | imageMissing
  | nameBlank
  | interfaceUnidentified
  | subnetRequired (network : String)
  | foreignSubnet (subnet network : String) (parent : Option String)
  | malformedMac (text : String) (problem : Mac.Problem)
  | repeatedNetwork (name : String)
  | unknown (subject : Subject) (id : String)
  | missingKey (owner : String) (key : Metadata.Key)
  | missingKeys (owner : String) (keys : List Metadata.Key)
  | foreignSource (flavour source expected : String)
  | imageUnnamed (image : String)
  | imageEmpty (image : String)
  | managementUnnamed
  | noDefaultSubnet (network : String)
  | staticAddress (address : Address) (subnet : String)
  | unlabelled (machine label : String)
  | unpaired (network nic : String)
  | unmatchedNic (name : String)
  | unboundNic (name : String)
  | unsourcedNetwork (name : String)
  | cancelled (stage : String)
  | undone (kind : Kind) (cause : String) (report : Undo.Report)
  | nameTaken (name : String)
  | volumeTaken (volume owner : String)
  | deleteRefused (name : String)
  | reported (kind : Kind) (message : String)
deriving DecidableEq

namespace Cause

def kind : Cause → Kind
  | .flavourMissing | .imageMissing | .nameBlank | .interfaceUnidentified | .subnetRequired _
  | .foreignSubnet .. | .malformedMac .. | .repeatedNetwork _ => .invalidRequest
  | .unknown .. => .notFound
  | .missingKey .. | .missingKeys .. | .foreignSource .. | .imageUnnamed _ | .imageEmpty _
  | .managementUnnamed => .unsupported
  | .noDefaultSubnet _ | .staticAddress .. => .notImplemented
  | .unlabelled .. | .unpaired .. | .unmatchedNic _ | .unboundNic _ | .unsourcedNetwork _ =>
    .internal
  | .cancelled _ => .cancelled
  | .nameTaken _ | .volumeTaken .. => .alreadyExists
  | .deleteRefused _ => .platform
  | .undone kind .. | .reported kind _ => kind

def message : Cause → String
  | .flavourMissing => "flavourId is required"
  | .imageMissing => "imageId is required"
  | .nameBlank => "computeName must not be blank when given"
  | .interfaceUnidentified => "one of networkId or subnetId is required"
  | .subnetRequired n => s!"network {n} is OVERLAY; attaching to it requires a subnetId"
  | .foreignSubnet s n p =>
    let parent := p.getD "none"
    s!"subnet {s} does not belong to network {n} (parent: {parent})"
  | .malformedMac t p => s!"malformed MAC address '{t}': {p.message}"
  | .repeatedNetwork n => s!"network '{n}' is attached more than once"
  | .unknown s id => s!"{s.text} not found: {id}"
  | .missingKey owner k => s!"{owner} is missing metadata key '{k.name}'"
  | .missingKeys owner ks =>
    s!"{owner} is missing metadata keys: " ++ ", ".intercalate (ks.map Metadata.Key.name)
  | .foreignSource f s e => s!"flavour {f} has source '{s}', expected '{e}'"
  | .imageUnnamed id => s!"image {id} has no name"
  | .imageEmpty id => s!"image {id} has zero size"
  | .managementUnnamed => "management network name must not be empty"
  | .noDefaultSubnet n =>
    s!"selecting a default subnet of network {n}; name a subnetId in the interface or its IPAM hint"
  | .staticAddress a s => s!"validating static IP {a.text} against subnet {s}"
  | .unlabelled m l => s!"VM {m} has no '{l}' label"
  | .unpaired n i => s!"attachment network '{n}' and interface '{i}' are not paired"
  | .unmatchedNic n => s!"interface '{n}' has no matching network"
  | .unboundNic n => s!"interface '{n}' has no recognised binding"
  | .unsourcedNetwork n => s!"network '{n}' has no recognised source"
  | .cancelled stage => stage
  | .undone _ cause report => s!"{cause}; {report.text}"
  | .nameTaken n => s!"VM {n}"
  | .volumeTaken v owner => s!"boot volume {v} (owned by VM {owner})"
  | .deleteRefused n => s!"delete of VM {n} refused"
  | .reported _ m => m

def text (c : Cause) : String :=
  match c with
  | .unknown .. => c.message
  | _ => s!"{c.kind.label}: {c.message}"

end Cause

end Fault

/-- A cause, and the stages it passed on its way to the caller, the outermost first. -/
structure Fault where
  stages : List String
  cause : Fault.Cause
deriving DecidableEq

namespace Fault

instance : Coe Cause Fault := ⟨fun c => ⟨[], c⟩⟩

def within (stage : String) (f : Fault) : Fault :=
  { f with stages := stage :: f.stages }

def kind (f : Fault) : Kind := f.cause.kind

def root (f : Fault) : Fault := f.cause

def text (f : Fault) : String :=
  f.stages.foldr (fun stage rest => s!"{stage}: {rest}") f.cause.text

def layers (cause : Cause) : List String → List Fault
  | [] => [⟨[], cause⟩]
  | stage :: stages => ⟨stage :: stages, cause⟩ :: layers cause stages

def sources (f : Fault) : List Fault :=
  (layers f.cause f.stages).tail

@[simp] theorem kind_within (stage : String) (f : Fault) : (f.within stage).kind = f.kind := rfl

end Fault

def Fault.mark {α : Type} (stage : String) (x : Except Fault α) : Except Fault α :=
  x.mapError (within stage)

namespace Metadata

def require (m : Metadata) (owner : String) (key : Key) : Except Fault String :=
  match m.value? key with
  | some v => .ok v
  | none => .error (Fault.Cause.missingKey owner key)

def requireAll (m : Metadata) (owner : String) (keys : List Key) : Except Fault Unit :=
  if m.missing keys = [] then .ok () else .error (Fault.Cause.missingKeys owner (m.missing keys))

end Metadata

end VirtualInfra
