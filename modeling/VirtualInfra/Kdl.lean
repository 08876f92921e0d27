namespace VirtualInfra.Kdl

inductive Value where
  | text (s : String)
  | int (i : Int)
  | fractional
  | bool (b : Bool)
  | null
deriving DecidableEq

def Value.text? : Value → Option String
  | .text s => some s
  | _ => none

def Value.int? : Value → Option Int
  | .int i => some i
  | _ => none

structure Entry where
  name : Option String
  value : Value
deriving DecidableEq

inductive Node where
  | mk (name : String) (entries : List Entry) (children : List Node)
deriving Inhabited

namespace Node

def name : Node → String
  | mk n _ _ => n

def entries : Node → List Entry
  | mk _ es _ => es

def children : Node → List Node
  | mk _ _ ns => ns

/-- The value written first, be it an argument or a property. -/
def firstValue? (n : Node) : Option Value :=
  n.entries.head?.map (·.value)

def firstArgument? (n : Node) : Option Value :=
  (n.entries.find? (·.name.isNone)).map (·.value)

/-- Of a property given several times the last value counts. -/
def property? (n : Node) (name : String) : Option Value :=
  (n.entries.reverse.find? (·.name = some name)).map (·.value)

def textProperty? (n : Node) (name : String) : Option String :=
  n.property? name >>= Value.text?

def child? (n : Node) (name : String) : Option Node :=
  n.children.find? (·.name = name)

end Node

end VirtualInfra.Kdl
