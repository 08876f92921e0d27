import VirtualInfra.Json.Record
import VirtualInfra.Text.Blank

namespace VirtualInfra

inductive RunStrategy where
  | always
  | halted
  | manual
  | rerunOnFailure
  | once
deriving DecidableEq

namespace RunStrategy

def name : RunStrategy → String
  | .always => "Always"
  | .halted => "Halted"
  | .manual => "Manual"
  | .rerunOnFailure => "RerunOnFailure"
  | .once => "Once"

def all : List RunStrategy := [.always, .halted, .manual, .rerunOnFailure, .once]

def ofText? (s : String) : Option RunStrategy :=
  all.find? fun r => Text.asciiLower r.name = Text.asciiLower s

def unknownText (s : String) : String :=
  s!"unknown run strategy '{Text.asciiLower s}'"

def toJson (r : RunStrategy) : Json := .str r.name

def ofJson? (j : Json) : Option RunStrategy := j.str? >>= ofText?

end RunStrategy

end VirtualInfra
