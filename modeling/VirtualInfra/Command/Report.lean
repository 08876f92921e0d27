import VirtualInfra.Catalogue.Document
import VirtualInfra.Discovery
import VirtualInfra.Request.Options

namespace VirtualInfra.Command

structure Report where
  exit : Nat := 0
  out : String := ""
  err : String := ""
deriving DecidableEq

inductive Failure where
  | discovery (p : Discovery.Problem)
  | catalogue (e : Catalogue.Error)
  | request (p : Request.FileProblem)
  | operation (f : Fault)
deriving DecidableEq

namespace Failure

def message : Failure → String
  | .discovery p => p.message
  | .catalogue e => e.message
  | .request p => p.message
  | .operation f => f.text

def causes : Failure → List String
  | .discovery _ => []
  | .catalogue .syntaxError => ["Failed to parse KDL document"]
  | .catalogue (.defaults reason) => [reason]
  | .catalogue _ => []
  | .request (.unreadable _ f) => [f.message]
  | .request (.invalid _) => []
  | .operation f => f.sources.map Fault.text

end Failure

namespace Report

def marked (mark : String) (indent : Nat) (s : String) : String :=
  mark ++ (String.ofList ('\n' :: List.replicate indent ' ')).intercalate (s.splitOn "\n")

def padLeft (width : Nat) (s : String) : String :=
  String.ofList (List.replicate (width - s.length) ' ') ++ s

def padRight (width : Nat) (s : String) : String :=
  s ++ String.ofList (List.replicate (width - s.length) ' ')

def numbered : Nat → List String → List String
  | _, [] => []
  | n, s :: ss => marked (padLeft 5 (toString n) ++ ": ") 7 s :: numbered (n + 1) ss

def causeLines : List String → List String
  | [] => []
  | [s] => ["", "Caused by:", marked "    " 4 s]
  | ss => "" :: "Caused by:" :: numbered 0 ss

def ofFailure (f : Failure) : Report where
  exit := 1
  err := "\n".intercalate (("Error: " ++ f.message) :: causeLines f.causes) ++ "\n"

def usage : Report := { exit := 2 }

end Report

end VirtualInfra.Command
