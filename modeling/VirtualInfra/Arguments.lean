namespace VirtualInfra.Arguments

inductive Problem where
  | missing
  | value
  | conflict
  | unknown
  | surplus
  | refused (reason : String)
  | help
deriving DecidableEq

inductive Arity where
  | switch
  | once
  | many
deriving DecidableEq

structure Declared where
  name : String
  letter : Option Char := none
  arity : Arity := .once
  check : String → Except Problem Unit := fun _ => .ok ()

structure Grammar where
  options : List Declared
  words : Nat := 0
  commands : List String := []

/-- What has been read: options with their values and words, each in their order. An option may
still wait for its value, or to be taken in with the value that followed it. -/
structure Given where
  options : List (String × String) := []
  words : List String := []
  pending : Option (Declared × Option String) := none

namespace Given

def has (g : Given) (name : String) : Bool :=
  g.options.any (·.1 = name)

def value? (g : Given) (name : String) : Option String :=
  g.options.lookup name

def add (g : Given) (o : Declared) (value : String) : Given :=
  { g with options := g.options ++ [(o.name, value)] }

def isWaiting (g : Given) : Bool :=
  g.pending.any (·.2.isNone)

def take (g : Given) (o : Declared) (value : Option String) : Except Problem Given :=
  match o.arity, value with
  | .switch, _ => if g.has o.name then .error .conflict else .ok (g.add o "")
  | _, none => .error .value
  | .once, some v =>
    if g.has o.name then .error .conflict else (o.check v).map fun () => g.add o v
  | .many, some v => (o.check v).map fun () => g.add o v

def settle (g : Given) : Except Problem Given :=
  match g.pending with
  | none => .ok g
  | some (o, value) => { g with pending := none }.take o value

def start (g : Given) (o : Declared) (attached : Option String) : Except Problem Given := do
  let g ← g.settle
  if o.arity = .switch ∨ attached.isSome then g.take o attached
  else return { g with pending := some (o, none) }

end Given

def helpName : String := "help"

def helpLetter : Char := 'h'

namespace Grammar

def readName (x : Grammar) (g : Given) (cs : List Char) : Except Problem Given :=
  let name := String.ofList (cs.takeWhile (· ≠ '='))
  let attached : Option String :=
    match cs.dropWhile (· ≠ '=') with
    | [] => none
    | _ :: value => some (.ofList value)
  if name = helpName then
    if attached.isSome then .error .surplus
    else do
      let _ ← g.settle
      throw .help
  else
    match x.options.find? (·.name = name) with
    | none => .error .unknown
    | some o =>
      if o.arity = .switch ∧ attached.isSome then .error .surplus else g.start o attached

def readLetters (x : Grammar) : Given → List Char → Except Problem Given
  | g, [] => .ok g
  | g, c :: cs =>
    if c = helpLetter then do
      let _ ← g.settle
      throw .help
    else
      match x.options.find? (·.letter = some c) with
      | none => .error .unknown
      | some o =>
        if o.arity = .switch then do x.readLetters (← g.start o none) cs
        else
          let attached : Option String :=
            match cs with
            | [] => none
            | '=' :: value => some (.ofList value)
            | value => some (.ofList value)
          g.start o attached

def readWord (x : Grammar) (g : Given) (word : String) : Except Problem Given :=
  if g.words.length < x.words then do
    let g ← g.settle
    return { g with words := g.words ++ [word] }
  else .error .unknown

/-- Reads arguments up to a command, which is given with the arguments behind it; an option may then
still be pending. Behind two hyphens there are only words. -/
def readFrom (x : Grammar) : Given → List String →
    Except Problem (Given × Option (String × List String))
  | g, [] => do return (← g.settle, none)
  | g, arg :: args => do
    if !g.isWaiting && x.commands.contains arg then return (g, some (arg, args))
    match arg.toList with
    | ['-', '-'] =>
      let g ← args.foldlM x.readWord g
      return (← g.settle, none)
    | '-' :: '-' :: cs => x.readFrom (← x.readName g cs) args
    | '-' :: c :: cs => x.readFrom (← x.readLetters g (c :: cs)) args
    | _ =>
      match g.pending with
      | some (o, none) => x.readFrom { g with pending := some (o, some arg) } args
      | _ => x.readFrom (← x.readWord g arg) args

def read (x : Grammar) (args : List String) :
    Except Problem (Given × Option (String × List String)) :=
  x.readFrom {} args

end Grammar

end VirtualInfra.Arguments
