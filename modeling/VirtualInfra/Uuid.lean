import VirtualInfra.Text.Numeral

namespace VirtualInfra.Uuid

def marked (bytes : List UInt8) : List UInt8 :=
  bytes.zipIdx.map fun (b, i) =>
    if i = 6 then (b &&& 0x0f) ||| 0x40
    else if i = 8 then (b &&& 0x3f) ||| 0x80
    else b

def hexByte (b : UInt8) : List Char :=
  [Nat.digitChar (b.toNat / 16), Nat.digitChar (b.toNat % 16)]

def groups : List Nat := [4, 2, 2, 2, 6]

def groupChars : List Nat → List UInt8 → List (List Char)
  | [], _ => []
  | n :: ns, bytes => (bytes.take n).flatMap hexByte :: groupChars ns (bytes.drop n)

def ofRandom (bytes : List UInt8) : String :=
  .ofList (['-'].intercalate (groupChars groups (marked bytes)))

end VirtualInfra.Uuid
