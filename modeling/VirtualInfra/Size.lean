import VirtualInfra.Text.Blank
import VirtualInfra.Text.Numeral

namespace VirtualInfra.Size

open Text

inductive Problem where
  | noNumber
  | numberTooLarge
  | unknownUnit
  | sizeTooLarge
deriving DecidableEq

def Problem.message : Problem → String
  | .noNumber => "expected a number"
  | .numberTooLarge => "number out of range"
  | .unknownUnit => "unknown unit"
  | .sizeTooLarge => "size out of range"

def units : List (String × Nat) :=
  [("", 1), ("Ki", 1 <<< 10), ("Mi", 1 <<< 20), ("Gi", 1 <<< 30), ("Ti", 1 <<< 40),
   ("K", 1000), ("M", 1000000), ("G", 1000000000), ("T", 1000000000000)]

def word? (n : Nat) : Option UInt64 :=
  if n < UInt64.size then some (.ofNat n) else none

def ofText (s : String) : Except Problem UInt64 := do
  let cs := (trim s).toList
  let digits := cs.takeWhile Char.isDigit
  if digits = [] then throw .noNumber
  let some n := word? (numberOf 10 digits) | throw .numberTooLarge
  let some unit := units.lookup (.ofList (cs.dropWhile Char.isDigit)) | throw .unknownUnit
  let some bytes := word? (n.toNat * unit) | throw .sizeTooLarge
  return bytes

theorem toNat_of_word? {n : Nat} {w : UInt64} (h : word? n = some w) : w.toNat = n := by
  rw [word?] at h
  split at h <;> simp_all
  subst h
  simp
  omega

end VirtualInfra.Size
