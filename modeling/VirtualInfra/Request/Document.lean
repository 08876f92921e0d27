import VirtualInfra.Json.Parser
import VirtualInfra.Request
import VirtualInfra.Yaml.Node

namespace VirtualInfra.Request

open Yaml Yaml.Document

variable {α : Type} (d : Yaml.Document)

def member? (names : List String) (members : List (String × Node)) : Option (Option Node) :=
  match members.filter fun m => names.contains m.1 with
  | [] => some none
  | [m] => some (some m.2)
  | _ => none

def textMember? (name : String) (members : List (String × Node)) : Look (Option String) := do
  match ← member? [name] members with
  | some n => d.nullable? d.text? n
  | none => return none

def requiredMember? (name : String) (members : List (String × Node)) : Look String := do
  let some n ← member? [name] members | failure
  d.text? n

def itemsMember? (names : List String) (item : Node → Look α) (members : List (String × Node)) :
    Look (List α) := do
  match ← member? names members with
  | some n => d.list? item n
  | none => return []

def Interface.ofYaml? (n : Node) : Look Interface := do
  let members ← d.members? n
  return {
    network := ← textMember? d "networkId" members
    subnet := ← textMember? d "subnetId" members }

def addressMember? (members : List (String × Node)) : Look (Option Address) := do
  match ← textMember? d "ipAddress" members with
  | some text => return some (← Address.ofText? text)
  | none => return none

def Hint.ofYaml? (n : Node) : Look Hint := do
  let members ← d.members? n
  return {
    network := ← textMember? d "networkId" members
    subnet := ← textMember? d "subnetId" members
    address := ← addressMember? d members
    mac := ← textMember? d "macAddress" members }

def look : Look Request := do
  let members ← d.members? d.root
  return {
    flavour := ← requiredMember? d "flavourId" members
    image := ← requiredMember? d "imageId" members
    name := ← textMember? d "computeName" members
    interfaces := ← itemsMember? d ["interfaceData"] (Interface.ofYaml? d) members
    hints := ← itemsMember? d ["interfaceIPAM", "interfaceIpam"] (Hint.ofYaml? d) members }

def ofYaml? : Option Request := (look d).run' d.allowance

def extension? (path : String) : Option String :=
  match ((path.splitOn "/").getLast?.getD "").splitOn "." with
  | _ :: [] | ["", _] => none
  | parts => parts.getLast?

def ofFile? (path content : String) : Option Request :=
  if (extension? path).any (Text.asciiLower · = "json") then Json.ofText? content >>= ofJson?
  else Yaml.Document.ofText? content >>= ofYaml?

end VirtualInfra.Request
