import VirtualInfra.Command
import VirtualInfra.Command.Listing
import VirtualInfra.Disk.Change
import VirtualInfra.Platform.OneNode
import VirtualInfra.Yaml.Tree

namespace VirtualInfra

open Yaml

namespace Machine

def sourceTree : Json → Tree
  | .obj [(kind, j)] => .tagged kind (.ofJson j)
  | j => .ofJson j

def BootVolume.tree (v : BootVolume) : Tree :=
  match v.toJson with
  | .obj members =>
    .table (members.map fun (k, j) => (k, if k = "source" then sourceTree j else .ofJson j))
  | j => .ofJson j

def Spec.tree (s : Spec) : Tree :=
  match s.toJson with
  | .obj members =>
    .table (members.map fun (k, j) =>
      (k, if k = "dataVolumeTemplates" then .list (s.volumes.map BootVolume.tree) else .ofJson j))
  | j => .ofJson j

end Machine

namespace Command

def Format.text (f : Format) (j : Json) (t : Tree) : String :=
  match f with
  | .yaml => t.render
  | .json => j.pretty ++ "\n"

def Format.resource (f : Format) (r : Resource) : String :=
  f.text r.toJson (.ofJson r.toJson)

def Format.resources (f : Format) (rs : List Resource) : String :=
  f.text (Json.ofList Resource.toJson rs) (.ofJson (Json.ofList Resource.toJson rs))

def Format.spec (f : Format) (s : Machine.Spec) : String :=
  f.text s.toJson s.tree

def past : Service.Operation → String
  | .start => "Started"
  | .stop => "Stopped"

def reportOn {α : Type} (act : Act Platform.OneNode α) (report : α → Report)
    (w : Platform.OneNode) : Report × Platform.OneNode :=
  match act w with
  | (.ok a, w) => (report a, w)
  | (.error f, w) => (.ofFailure (.operation f), w)

def onRequest {α : Type} (here : Path) (asked : Request.Asked)
    (act : Request → Act Platform.OneNode α) (report : α → Report) (w : Platform.OneNode) :
    Report × Platform.OneNode :=
  match asked.read w.disk here with
  | .ok r => reportOn (act r) report w
  | .error p => (.ofFailure (.request p), w)

end Command

namespace Invocation

open Command

variable (i : Invocation) (s : Setting)

def openCatalogue (d : Disk) : Except Failure (Location × Catalogue) := do
  let l ← (Discovery.catalogue s d i.catalogue).mapError .discovery
  let c ← (Catalogue.ofFile d s.here l).mapError .catalogue
  return (l, c)

def serve (l : Location) (c : Catalogue) (w : Platform.OneNode) : Report × Platform.OneNode :=
  let host := Platform.OneNode.platform.host c
  let d := c.defaults
  match i.command with
  | .allocate asked =>
    onRequest s.here asked (Service.allocate host d)
      (fun r => { err := s!"✓ Allocated {r.name} ({r.id})\n", out := i.format.resource r }) w
  | .render asked =>
    onRequest s.here asked (Service.render host d) (fun spec => { out := i.format.spec spec }) w
  | .describe name =>
    reportOn (Service.query host name) (fun r => { out := i.format.resource r }) w
  | .list =>
    reportOn (Service.list host d)
      (fun rs => {
        err := if rs.isEmpty then "No computes allocated\n" else ""
        out := i.format.resources rs }) w
  | .operate op name =>
    reportOn (Service.operate host name op)
      (fun r => { err := s!"✓ {past op} {name}\n", out := i.format.resource r }) w
  | .terminate name =>
    reportOn (Service.terminate host name) (fun () => { err := s!"✓ Terminated {name}\n" }) w
  | .catalogue => ({ out := Listing.text l c }, w)
  | .version => ({}, w)

def store : Store := ⟨(Discovery.state s i.state).way s.here⟩

def run (w : Platform.OneNode) : Report × Platform.OneNode :=
  if i.command = .version then ({ out := "kubevim 0.1.0\n" }, w)
  else
    match i.openCatalogue s w.disk with
    | .error f => (.ofFailure f, w)
    | .ok (l, c) => i.serve s l c { w with store := i.store s }

def requestFile? : Option Location :=
  match i.command with
  | .allocate (.inFile l) => some l
  | .render (.inFile l) => some l
  | _ => none

def paths : List Path :=
  let store := i.store s
  let files := [store.stateFile, store.backupFile, store.stagingFile, store.lockFile]
  let places := (Discovery.places s i.catalogue ++ i.requestFile?.toList).map (Location.way s.here)
  (places ++ files).flatMap Way.paths

end Invocation

namespace Command

def execute (s : Setting) (args : List String) (w : Platform.OneNode) :
    Report × Platform.OneNode :=
  match Invocation.ofArguments s.environment args with
  | .ok i => i.run s w
  | .error .help => ({}, w)
  | .error _ => (.usage, w)

def paths (s : Setting) (args : List String) : List Path :=
  match Invocation.ofArguments s.environment args with
  | .ok i => i.paths s
  | .error _ => []

end Command

end VirtualInfra
