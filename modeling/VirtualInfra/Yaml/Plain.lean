import VirtualInfra.Text.Numeral

namespace VirtualInfra.Yaml

open Text

def isNullText (s : String) : Bool :=
  ["", "~", "null", "Null", "NULL"].contains s

def isTruthText (s : String) : Bool :=
  ["true", "True", "TRUE", "false", "False", "FALSE"].contains s

def unsigned : List Char → List Char
  | '+' :: cs => cs
  | '-' :: cs => cs
  | cs => cs

def isZeroPadded (cs : List Char) : Bool :=
  match unsigned cs with
  | '0' :: c :: cs => (c :: cs).all Char.isDigit
  | _ => false

def isNumeral (base bound : Nat) (cs : List Char) : Bool :=
  cs ≠ [] && cs.all (isDigitOf base) && numberOf base cs < bound

def isMarkedNumeral (bound : Nat) : List Char → Bool
  | '0' :: 'x' :: cs => isNumeral 16 bound cs
  | '0' :: 'o' :: cs => isNumeral 8 bound cs
  | '0' :: 'b' :: cs => isNumeral 2 bound cs
  | _ => false

def isIntegerText (cs : List Char) : Bool :=
  let bound := if cs.head? = some '-' then (1 <<< 127) + 1 else 1 <<< 128
  let digits := unsigned cs
  isMarkedNumeral bound digits || !isZeroPadded cs && isNumeral 10 bound digits

/-- Beyond this bound a number is too large for a double. -/
def doubleBound : Nat := (1 <<< 1024) - (1 <<< 970)

def isDouble (digits : List Char) (exponent : Int) : Bool :=
  let n := numberOf 10 digits
  let magnitude := (Nat.toDigits 10 n).length + exponent
  if n = 0 ∨ magnitude < 300 then true
  else if 400 < magnitude then false
  else if 0 ≤ exponent then n * Nat.pow 10 exponent.toNat < doubleBound
  else n < doubleBound * Nat.pow 10 exponent.natAbs

def exponent? : List Char → Option Int
  | [] => some 0
  | e :: cs =>
    let digits := unsigned cs
    if (e = 'e' ∨ e = 'E') ∧ digits ≠ [] ∧ digits.all Char.isDigit then
      let n : Int := numberOf 10 digits
      some (if cs.head? = some '-' then -n else n)
    else none

def isDecimalText (cs : List Char) : Bool :=
  let whole := cs.takeWhile Char.isDigit
  let (fraction, rest) :=
    match cs.drop whole.length with
    | '.' :: r => (r.takeWhile Char.isDigit, r.dropWhile Char.isDigit)
    | r => ([], r)
  whole ++ fraction ≠ []
    && (exponent? rest).any fun e => isDouble (whole ++ fraction) (e - fraction.length)

def isFloatText (cs : List Char) : Bool :=
  let infinite := [".inf", ".Inf", ".INF"].contains (String.ofList (unsigned cs))
  let undefined := [".nan", ".NaN", ".NAN"].contains (String.ofList cs)
  infinite || undefined || isDecimalText (unsigned cs)

def isAmbiguous (s : String) : Bool :=
  let cs := s.toList
  isNullText s || isTruthText s || isIntegerText cs || isZeroPadded cs || isFloatText cs

end VirtualInfra.Yaml
