namespace VirtualInfra.Text

def digit? (base : Nat) (c : Char) : Option Nat :=
  let n :=
    if c.isDigit then some (c.toNat - '0'.toNat)
    else if 'a' ≤ c ∧ c ≤ 'z' then some (c.toNat - 'a'.toNat + 10)
    else if 'A' ≤ c ∧ c ≤ 'Z' then some (c.toNat - 'A'.toNat + 10)
    else none
  n.filter (· < base)

def isDigitOf (base : Nat) (c : Char) : Bool :=
  (digit? base c).isSome

def numberOf (base : Nat) (cs : List Char) : Nat :=
  cs.foldl (fun n c => base * n + (digit? base c).getD 0) 0

def padded (width n : Nat) : String :=
  let digits := Nat.toDigits 10 n
  .ofList (List.replicate (width - digits.length) '0' ++ digits)

def hexadecimal (n : Nat) : String :=
  .ofList (Nat.toDigits 16 n)

theorem numberOf_append_singleton (base : Nat) (cs : List Char) (c : Char) :
    numberOf base (cs ++ [c]) = base * numberOf base cs + (digit? base c).getD 0 := by
  simp [numberOf, List.foldl_append]

theorem digit?_digitChar : ∀ d < 16, digit? 16 (Nat.digitChar d) = some d := by decide

theorem numberOf_toDigits_sixteen (n : Nat) : numberOf 16 (Nat.toDigits 16 n) = n := by
  induction n using Nat.strongRecOn with
  | ind n ih =>
    rw [Nat.toDigits_eq_if (by decide)]
    split
    case isTrue h => simp [numberOf, digit?_digitChar n h]
    case isFalse h =>
      rw [numberOf_append_singleton, ih _ (by omega), digit?_digitChar _ (by omega)]
      simp only [Option.getD_some]
      omega

end VirtualInfra.Text
