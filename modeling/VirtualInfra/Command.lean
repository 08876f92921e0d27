import VirtualInfra.Request.Options
import VirtualInfra.Service

namespace VirtualInfra

open Arguments

inductive Command where
  | allocate (asked : Request.Asked)
  | render (asked : Request.Asked)
  | describe (name : String)
  | list
  | operate (op : Service.Operation) (name : String)
  | terminate (name : String)
  | catalogue
  | version
deriving DecidableEq

inductive Command.Format where
  | yaml
  | json
deriving DecidableEq

structure Invocation where
  command : Command
  catalogue : Option Location
  state : Option Location
  format : Command.Format
deriving DecidableEq

namespace Command

def Format.ofText? : String → Option Format
  | "yaml" => some .yaml
  | "json" => some .json
  | _ => none

def checkFormat (s : String) : Except Problem Unit :=
  if (Format.ofText? s).isSome then .ok () else .error .value

def settings : List Declared := [
  { name := "catalog", check := checkLocation },
  { name := "state-dir", check := checkLocation },
  { name := "output", letter := some 'o', check := checkFormat },
  { name := "verbose", letter := some 'v', arity := .switch }]

def names : List String :=
  ["allocate", "render", "show", "list", "start", "stop", "terminate", "catalog", "version"]

def helpName : String := "help"

def outer : Grammar where
  options := settings
  commands := helpName :: names

def grammar (name : String) : Grammar where
  options := settings ++ if name ∈ ["allocate", "render"] then Request.options else []
  words := if name ∈ ["show", "start", "stop", "terminate"] then 1 else 0

def subject (g : Given) : Except Problem String :=
  match g.words with
  | name :: _ => .ok name
  | [] => .error .missing

def ofGiven (name : String) (g : Given) : Except Problem Command :=
  match name with
  | "allocate" => (Request.Asked.ofGiven .asGiven g).map .allocate
  | "render" => (Request.Asked.ofGiven .asGiven g).map .render
  | "show" => (subject g).map .describe
  | "list" => .ok .list
  | "start" => (subject g).map (.operate .start)
  | "stop" => (subject g).map (.operate .stop)
  | "terminate" => (subject g).map .terminate
  | "catalog" => .ok .catalogue
  | "version" => .ok .version
  | _ => .error .unknown

def readHelp : List String → Except Problem Invocation
  | [] => .error .help
  | [name] => .error (if name ∈ helpName :: names then .help else .unknown)
  | _ => .error .unknown

end Command

namespace Invocation

/-- A setting that a variable can give too. What is given behind the command counts before what is
given in front of it, and both before the variable. The variable may not be empty where it would
count on either side. -/
def location? (environment : Table String) (outer inner : Given) (name key : String) :
    Except Problem (Option Location) :=
  let fallback := environment.get? key
  if fallback = some "" ∧ ¬ (outer.has name ∧ inner.has name) then .error .value
  else .ok (((inner.value? name).or (outer.value? name)).or fallback)

def formatOf (outer inner : Given) : Command.Format :=
  (((inner.value? "output").or (outer.value? "output")) >>= Command.Format.ofText?).getD .yaml

def ofArguments (environment : Table String) (args : List String) : Except Problem Invocation := do
  match ← Command.outer.read args with
  | (_, none) => throw .missing
  | (outer, some (name, args)) =>
    if name = Command.helpName then Command.readHelp args
    else
      let (inner, _) ← (Command.grammar name).read args
      let command ← Command.ofGiven name inner
      let outer ← outer.settle
      return {
        command
        catalogue := ← location? environment outer inner "catalog" "KUBEVIM_CATALOG"
        state := ← location? environment outer inner "state-dir" "KUBEVIM_STATE_DIR"
        format := formatOf outer inner }

end Invocation

end VirtualInfra
