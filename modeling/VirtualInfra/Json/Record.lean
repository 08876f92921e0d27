import VirtualInfra.Json
import VirtualInfra.Table

/-!
Reading records from JSON values. A record is an object, in which unknown members are skipped and
no known one may stand twice, or the array of its fields in the order of their declaration.
-/

namespace VirtualInfra.Json

variable {α β : Type}

def str? : Json → Option String
  | .str s => some s
  | _ => none

def bool? : Json → Option Bool
  | .bool b => some b
  | _ => none

def natBelow? (bound : Nat) : Json → Option Nat
  | .int (.ofNat n) => if n < bound then some n else none
  | _ => none

def word32? (j : Json) : Option UInt32 :=
  (j.natBelow? UInt32.size).map .ofNat

def word64? (j : Json) : Option UInt64 :=
  (j.natBelow? UInt64.size).map .ofNat

def list? (item : Json → Option α) : Json → Option (List α)
  | .arr items => items.mapM item
  | _ => none

def nullable? (value : Json → Option α) : Json → Option (Option α)
  | .null => some none
  | j => (value j).map some

def table? (value : Json → Option α) : Json → Option (Table α)
  | .obj members => do
    let entries ← members.mapM fun (k, j) => (value j).map fun a => (k, a)
    return .ofList entries
  | _ => none

/-- A constant written as its name, or as an object with the name and `null`. -/
def constant? (names : List (String × α)) : Json → Option α
  | .str s => names.lookup s
  | .obj [(s, .null)] => names.lookup s
  | _ => none

def switch? : Json → Option Bool
  | .null => some false
  | .obj _ => some true
  | .arr [] => some true
  | _ => none

inductive Members where
  | named (members : List (String × Json))
  | listed (items : List Json)

abbrev Reader (α : Type) := StateT Members Option α

/-- The member under one of the names, or at the next position. An object that holds it twice is
refused. -/
def member? (names : List String) : Reader (Option Json) := fun
  | .named members =>
    match members.filter fun m => names.contains m.1 with
    | [] => some (none, .named members)
    | [m] => some (some m.2, .named members)
    | _ => none
  | .listed [] => some (none, .listed [])
  | .listed (j :: js) => some (some j, .listed js)

def required (name : String) (value : Json → Option α) : Reader α := do
  let some j ← member? [name] | failure
  value j

def optional (name : String) (value : Json → Option α) : Reader (Option α) := do
  match ← member? [name] with
  | some j => nullable? value j
  | none =>
    match ← get with
    | .named _ => return none
    | .listed _ => failure

def defaulted (names : List String) (value : Json → Option α) (missing : α) : Reader α := do
  match ← member? names with
  | some j => value j
  | none => return missing

def omittable (name : String) (value : Json → Option α) : Reader (Option α) :=
  defaulted [name] (nullable? value) none

def switch (name : String) : Reader Bool :=
  defaulted [name] switch? false

/-- A whole record; an array may have no more items than the record has fields. -/
def record? (fields : Reader α) : Json → Option α
  | .obj members => (fields.run (.named members)).map (·.1)
  | .arr items =>
    match fields.run (.listed items) with
    | some (a, .listed []) => some a
    | _ => none
  | _ => none

def variant? (readers : List (String × (Json → Option α))) : Json → Option α
  | .obj [(name, j)] => (readers.lookup name).bind fun value => value j
  | _ => none

def ofMembers (members : List (String × Option Json)) : Json :=
  .obj (members.filterMap fun (k, j) => j.map fun j => (k, j))

def ofTable (value : α → Json) (t : Table α) : Json :=
  .obj (t.entries.map fun (k, a) => (k, value a))

def ofOption (value : α → Json) : Option α → Json
  | some a => value a
  | none => .null

def ofNat (n : Nat) : Json := .int n

def ofList (value : α → Json) (as : List α) : Json :=
  .arr (as.map value)

end VirtualInfra.Json
