import VirtualInfra.Text.Blank
import VirtualInfra.Text.Numeral

namespace VirtualInfra

open Text

namespace Timestamp

def isLeapYear (year : Int) : Bool :=
  year % 4 = 0 && (year % 100 ≠ 0 || year % 400 = 0)

def daysInMonth (year : Int) (month : Nat) : Nat :=
  if month = 2 then if isLeapYear year then 29 else 28
  else if month = 4 ∨ month = 6 ∨ month = 9 ∨ month = 11 then 30
  else 31

def maxYear : Int := 262142

abbrev nanosInSecond : Nat := 1000000000

/-- A second 60 is a leap second. -/
def IsValid (year : Int) (month day hour minute second nano : Nat) : Prop :=
  -maxYear - 1 ≤ year ∧ year ≤ maxYear ∧ 1 ≤ month ∧ month ≤ 12 ∧ 1 ≤ day ∧
    day ≤ daysInMonth year month ∧ hour < 24 ∧ minute < 60 ∧ second ≤ 60 ∧ nano < nanosInSecond

instance (year : Int) (month day hour minute second nano : Nat) :
    Decidable (IsValid year month day hour minute second nano) := by
  unfold IsValid
  infer_instance

end Timestamp

structure Timestamp where
  year : Int
  month : Nat
  day : Nat
  hour : Nat
  minute : Nat
  second : Nat
  nano : Nat
  isValid : Timestamp.IsValid year month day hour minute second nano
deriving DecidableEq

namespace Timestamp

def of? (year : Int) (month day hour minute second nano : Nat) : Option Timestamp :=
  if h : IsValid year month day hour minute second nano then
    some ⟨year, month, day, hour, minute, second, nano, h⟩
  else none

/-- Days from 1 January 1970. Years are counted from March, so that a leap day ends one. -/
def dayNumber (year : Int) (month day : Nat) : Int :=
  let y := if month ≤ 2 then year - 1 else year
  let monthFromMarch := (month + 9) % 12
  let dayOfYear : Int := (153 * monthFromMarch + 2) / 5 + day - 1
  365 * y + y / 4 - y / 100 + y / 400 + dayOfYear - 719468

def dateOf (days : Int) : Int × Nat × Nat :=
  let z := days + 719468
  let era := z / 146097
  let dayOfEra := (z % 146097).toNat
  let yearOfEra := (dayOfEra - dayOfEra / 1460 + dayOfEra / 36524 - dayOfEra / 146096) / 365
  let dayOfYear := dayOfEra - (365 * yearOfEra + yearOfEra / 4 - yearOfEra / 100)
  let monthFromMarch := (5 * dayOfYear + 2) / 153
  let day := dayOfYear - (153 * monthFromMarch + 2) / 5 + 1
  let month := if monthFromMarch < 10 then monthFromMarch + 3 else monthFromMarch - 9
  let year : Int := yearOfEra + 400 * era
  (if month ≤ 2 then year + 1 else year, month, day)

def minutes (t : Timestamp) : Int :=
  dayNumber t.year t.month t.day * 1440 + t.hour * 60 + t.minute

/-- Nanoseconds from the beginning of 1970, in which a leap second is the same as the second behind
it. The clock counts it as one second more towards a later time of the same day, so that a difference
to a leap second before the end of its day is one second too short here. -/
def nanoseconds (t : Timestamp) : Int :=
  (t.minutes * 60 + t.second) * nanosInSecond + t.nano

def addMinutes? (t : Timestamp) (n : Int) : Option Timestamp :=
  if n = 0 then some t
  else
    let total := t.minutes + n
    let (year, month, day) := dateOf (total / 1440)
    let rest := (total % 1440).toNat
    of? year month day (rest / 60) (rest % 60) t.second t.nano

def ofNanoseconds? (n : Int) : Option Timestamp :=
  let seconds := n / nanosInSecond
  let (year, month, day) := dateOf (seconds / 86400)
  let rest := (seconds % 86400).toNat
  of? year month day (rest / 3600) (rest / 60 % 60) (rest % 60) (n % nanosInSecond).toNat

def yearText (year : Int) : String :=
  if 0 ≤ year ∧ year ≤ 9999 then padded 4 year.toNat
  else (if year < 0 then "-" else "+") ++ padded 4 year.natAbs

def fractionText (nano : Nat) : String :=
  if nano = 0 then ""
  else if nano % 1000000 = 0 then "." ++ padded 3 (nano / 1000000)
  else if nano % 1000 = 0 then "." ++ padded 6 (nano / 1000)
  else "." ++ padded 9 nano

def dateText (t : Timestamp) : String :=
  yearText t.year ++ "-" ++ padded 2 t.month ++ "-" ++ padded 2 t.day

def timeText (t : Timestamp) : String :=
  padded 2 t.hour ++ ":" ++ padded 2 t.minute ++ ":" ++ padded 2 t.second ++ fractionText t.nano

def text (t : Timestamp) : String :=
  t.dateText ++ "T" ++ t.timeText ++ "Z"

def displayText (t : Timestamp) : String :=
  t.dateText ++ " " ++ t.timeText ++ " UTC"

def skipBlanks (cs : List Char) : List Char := cs.dropWhile isBlank

def readDigits (width : Nat) (cs : List Char) : Option (Nat × List Char) :=
  let digits := (cs.takeWhile Char.isDigit).take width
  if digits = [] then none else some (numberOf 10 digits, cs.drop digits.length)

def readField (cs : List Char) : Option (Nat × List Char) :=
  readDigits 2 (skipBlanks cs)

def readYear (cs : List Char) : Option (Int × List Char) :=
  match skipBlanks cs with
  | '-' :: r => (readDigits r.length r).map fun (n, r) => (-(n : Int), r)
  | '+' :: r => (readDigits r.length r).map fun (n, r) => ((n : Int), r)
  | r => (readDigits 4 r).map fun (n, r) => ((n : Int), r)

def readMark (c : Char) (cs : List Char) : Option (List Char) :=
  match skipBlanks cs with
  | d :: r => if d = c then some r else none
  | [] => none

def readFraction : List Char → Option (Nat × List Char)
  | '.' :: r =>
    let digits := r.takeWhile Char.isDigit
    if digits = [] then none
    else some (numberOf 10 ((digits.take 9).rightpad 9 '0'), r.dropWhile Char.isDigit)
  | r => some (0, r)

def readOffset (cs : List Char) : Option (Int × List Char) :=
  match cs with
  | 'Z' :: r => some (0, r)
  | 'z' :: r => some (0, r)
  | sign :: h₁ :: h₂ :: r =>
    match r.dropWhile fun c => c = ':' || isBlank c with
    | m₁ :: m₂ :: r =>
      if [h₁, h₂, m₁, m₂].all Char.isDigit then
        let total := numberOf 10 [h₁, h₂] * 60 + numberOf 10 [m₁, m₂]
        if 60 ≤ numberOf 10 [m₁, m₂] ∨ 1440 ≤ total then none
        else if sign = '+' then some (total, r)
        else if sign = '-' ∨ sign = '\u2212' then some (-total, r)
        else none
      else none
    | _ => none
  | _ => none

def readZone (cs : List Char) : Option (Int × List Char) :=
  let r := skipBlanks cs
  if (r.take 3).map Char.toUpper = ['U', 'T', 'C'] then some (0, r.drop 3) else readOffset r

def ofText? (s : String) : Option Timestamp := do
  let (year, cs) ← readYear s.toList
  let (month, cs) ← readField (← readMark '-' cs)
  let (day, cs) ← readField (← readMark '-' cs)
  let c :: cs := cs | none
  if c ≠ 'T' ∧ c ≠ 't' ∧ c ≠ ' ' then none
  let (hour, cs) ← readField cs
  let (minute, cs) ← readField (← readMark ':' cs)
  let (second, cs) ← readField (← readMark ':' cs)
  let (nano, cs) ← readFraction cs
  let (ahead, cs) ← readZone cs
  if skipBlanks cs ≠ [] then none
  (← of? year month day hour minute second nano).addMinutes? (-ahead)

end Timestamp

end VirtualInfra
