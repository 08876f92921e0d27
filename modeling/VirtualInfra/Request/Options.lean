import VirtualInfra.Arguments
import VirtualInfra.Disk.Location
import VirtualInfra.Request.Document
import VirtualInfra.Request.HintText

namespace VirtualInfra

open Arguments

namespace Arguments

def Given.values (g : Given) (name : String) : List String :=
  (g.options.filter (·.1 = name)).map (·.2)

def Given.positions (g : Given) (name : String) : List Nat :=
  (g.options.zipIdx.filter (·.1.1 = name)).map (·.2)

def checkLocation (s : String) : Except Problem Unit :=
  if s = "" then .error .value else .ok ()

end Arguments

namespace Request

def checkHint (s : String) : Except Problem Unit :=
  match Hint.ofText s with
  | .ok _ => .ok ()
  | .error p => .error (.refused p.message)

def spelling : List Declared := [
  { name := "flavour" },
  { name := "image" },
  { name := "name" },
  { name := "subnet", arity := .many },
  { name := "network", arity := .many },
  { name := "ipam", arity := .many, check := checkHint }]

def options : List Declared :=
  { name := "request", letter := some 'r', check := checkLocation } :: spelling

inductive Asked where
  | inFile (l : Location)
  | spelled (r : Request)
deriving DecidableEq

inductive Arrangement where
  | asGiven
  | subnetsFirst
deriving DecidableEq

def placed (g : Given) (name : String) (ask : String → Interface) : List (Nat × Interface) :=
  (g.positions name).zip ((g.values name).map ask)

def Arrangement.interfaces (g : Given) : Arrangement → List Interface
  | .asGiven =>
    ((placed g "subnet" .onSubnet ++ placed g "network" .onNetwork).mergeSort
      fun a b => a.1 ≤ b.1).map (·.2)
  | .subnetsFirst =>
    (g.values "subnet").map .onSubnet ++ (g.values "network").map .onNetwork

/-- A file excludes all that would spell the request out. Otherwise flavour and image are needed. -/
def Asked.ofGiven (arrangement : Arrangement) (g : Given) : Except Problem Asked :=
  match g.value? "request" with
  | some l => if spelling.any fun o => g.has o.name then .error .conflict else .ok (.inFile l)
  | none =>
    match g.value? "flavour", g.value? "image" with
    | some flavour, some image =>
      .ok (.spelled {
        flavour
        image
        name := g.value? "name"
        interfaces := arrangement.interfaces g
        hints := (g.values "ipam").filterMap fun s => (Hint.ofText s).toOption })
    | _, _ => .error .missing

inductive FileProblem where
  | unreadable (l : Location) (f : Disk.Failure)
  | invalid (l : Location)
deriving DecidableEq

def FileProblem.message : FileProblem → String
  | .unreadable l _ => s!"Failed to read request file {l}"
  | .invalid l => s!"Invalid request file {l}"

def Asked.read (d : Disk) (here : Path) : Asked → Except FileProblem Request
  | .spelled r => .ok r
  | .inFile l =>
    match d.readText (l.way here) with
    | .error f => .error (.unreadable l f)
    | .ok s =>
      match ofFile? l s with
      | some r => .ok r
      | none => .error (.invalid l)

end Request

end VirtualInfra
