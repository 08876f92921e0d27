import VirtualInfra.Request
import VirtualInfra.Text.Blank

namespace VirtualInfra.Request.Hint

open Text

inductive TextProblem where
  | notPair (part : String)
  | malformedAddress (value : String)
  | unknownKey (key : String)
deriving DecidableEq

def TextProblem.message : TextProblem → String
  | .notPair part => s!"expected KEY=VALUE, got '{part}'"
  | .malformedAddress value => s!"invalid IP address '{value}'"
  | .unknownKey key => s!"unknown IPAM key '{key}'"

def split (separator : Char) : List Char → List (List Char)
  | [] => [[]]
  | c :: cs =>
    if c = separator then [] :: split separator cs
    else
      match split separator cs with
      | part :: parts => (c :: part) :: parts
      | [] => [[c]]

def parts (cs : List Char) : List (List Char) :=
  ((split ',' cs).map (strip isBlank)).filter (· ≠ [])

def put (h : Hint) (key value : String) : Except TextProblem Hint :=
  match key with
  | "subnet" => .ok { h with subnet := some value }
  | "network" => .ok { h with network := some value }
  | "ip" =>
    match Address.ofText? value with
    | some a => .ok { h with address := some a }
    | none => .error (.malformedAddress value)
  | "mac" => .ok { h with mac := some value }
  | _ => .error (.unknownKey key)

def addPart (h : Hint) (part : List Char) : Except TextProblem Hint :=
  match part.dropWhile (· ≠ '=') with
  | [] => .error (.notPair (.ofList part))
  | _ :: value => h.put (.ofList (strip isBlank (part.takeWhile (· ≠ '=')))) (.ofList value)

/-- Of a key that is given several times the last value counts. -/
def ofText (s : String) : Except TextProblem Hint :=
  (parts s.toList).foldlM addPart {}

end VirtualInfra.Request.Hint
