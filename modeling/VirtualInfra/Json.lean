namespace VirtualInfra

/-- A JSON value. The members of an object keep their order, and names may repeat. A number that is
no integer keeps its text. `unreadable` stands for a value that may be skipped but not read: it
holds an escape of a lone surrogate. -/
inductive Json where
  | null
  | bool (b : Bool)
  | int (i : Int)
  | decimal (text : String)
  | str (s : String)
  | arr (items : List Json)
  | obj (members : List (String × Json))
  | unreadable
deriving Inhabited

end VirtualInfra
