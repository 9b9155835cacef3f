/-
The values that are written as bare words: booleans, integers, floats, dates and times. A text is
read whole or not at all.
-/
import Interconnect.Number.Decimal

namespace Interconnect.Toml

/-- A float as it is written. -/
inductive FloatText where
  | decimal (d : Decimal)
  | infinity (negative : Bool)
  | nan
  deriving DecidableEq, Repr

inductive Scalar where
  | boolean (b : Bool)
  | integer (n : Int)
  | float (x : FloatText)
  | moment
  deriving DecidableEq, Repr

/-! ## Numbers -/

def isDigit (c : Char) : Bool := '0' ≤ c && c ≤ '9'

/-- Digits with single underscores between them, without the underscores. -/
def digits? (cs : List Char) : Option (List Char) :=
  let parts := cs.splitOn '_'
  if parts.any List.isEmpty then none else some parts.flatten

/-- A sign and what follows it. -/
def splitSign : List Char → Bool × List Char
  | '-' :: cs => (true, cs)
  | '+' :: cs => (false, cs)
  | cs => (false, cs)

/-- Decimal digits that start with a zero only if they are a zero. -/
def wholeDigits? (cs : List Char) : Option (List Char) := do
  let ds ← digits? cs
  if ds.all isDigit && !(ds.length > 1 && ds.head? = some '0') then some ds else none

/-- Decimal digits that may start with zeros. -/
def fractionDigits? (cs : List Char) : Option (List Char) := do
  let ds ← digits? cs
  if ds.all isDigit then some ds else none

def signed (negative : Bool) (n : Nat) : Int := if negative then -(n : Int) else n

def based? (base : Nat) (cs : List Char) : Option Int := do
  let n ← Decimal.natOfDigits? base (← digits? cs)
  some (n : Int)

def integer? (cs : List Char) : Option Int :=
  match cs with
  | '0' :: 'x' :: rest => based? 16 rest
  | '0' :: 'o' :: rest => based? 8 rest
  | '0' :: 'b' :: rest => based? 2 rest
  | _ => do
    let (negative, rest) := splitSign cs
    let n ← Decimal.natOfDigits? 10 (← wholeDigits? rest)
    some (signed negative n)

/-- The power of ten after a mark; none without a mark. -/
def exponent? : List Char → Option Int
  | [] => some 0
  | _ :: cs => do
    let (negative, rest) := splitSign cs
    let n ← Decimal.natOfDigits? 10 (← fractionDigits? rest)
    some (signed negative n)

/-- A float has a fraction, an exponent or both. -/
def decimal? (cs : List Char) : Option Decimal := do
  let (negative, rest) := splitSign cs
  let isMark := fun c => c = 'e' || c = 'E'
  let mantissa := rest.takeWhile (!isMark ·)
  let power := rest.dropWhile (!isMark ·)
  let whole ← wholeDigits? (mantissa.takeWhile (· ≠ '.'))
  let fraction ← match mantissa.dropWhile (· ≠ '.') with
    | [] => if power.isEmpty then none else some []
    | _ :: ds => fractionDigits? ds
  let digits ← Decimal.natOfDigits? 10 (whole ++ fraction)
  some ⟨negative, digits, (← exponent? power) - fraction.length⟩

def float? (cs : List Char) : Option FloatText :=
  let (negative, rest) := splitSign cs
  if rest = ['i', 'n', 'f'] then some (.infinity negative)
  else if rest = ['n', 'a', 'n'] then some .nan
  else (decimal? cs).map .decimal

/-! ## Dates and times -/

/-- The number that exactly `count` digits make. -/
def fixed? (count : Nat) (cs : List Char) : Option Nat :=
  if cs.length = count && cs.all isDigit then Decimal.natOfDigits? 10 cs else none

def isLeapYear (year : Nat) : Bool := year % 4 = 0 && (year % 100 ≠ 0 || year % 400 = 0)

def daysIn (year month : Nat) : Nat :=
  if month = 2 then if isLeapYear year then 29 else 28
  else if month ∈ [4, 6, 9, 11] then 30
  else 31

/-- `YYYY-MM-DD`, a day of the calendar. -/
def isDate (cs : List Char) : Bool :=
  match cs.splitOn '-' with
  | [y, m, d] =>
    match fixed? 4 y, fixed? 2 m, fixed? 2 d with
    | some year, some month, some day =>
      1 ≤ month && month ≤ 12 && 1 ≤ day && day ≤ daysIn year month
    | _, _, _ => false
  | _ => false

/-- `HH:MM`, an hour and a minute of the day. -/
def isHourMinute (cs : List Char) : Bool :=
  match cs.splitOn ':' with
  | [h, m] =>
    match fixed? 2 h, fixed? 2 m with
    | some hour, some minute => hour ≤ 23 && minute ≤ 59
    | _, _ => false
  | _ => false

/-- Seconds, perhaps with a fraction. A minute may have a leap second. -/
def isSeconds (cs : List Char) : Bool :=
  match cs.splitOn '.' with
  | [s] => (fixed? 2 s).any (· ≤ 60)
  | [s, fraction] => (fixed? 2 s).any (· ≤ 60) && !fraction.isEmpty && fraction.all isDigit
  | _ => false

/-- `HH:MM` or `HH:MM:SS`, perhaps with a fraction. -/
def isTime (cs : List Char) : Bool :=
  isHourMinute (cs.take 5) &&
    match cs.drop 5 with
    | [] => true
    | c :: rest => c = ':' && isSeconds rest

/-- `Z`, or a sign with hours and minutes. -/
def isOffset : List Char → Bool
  | ['Z'] => true
  | ['z'] => true
  | '+' :: cs => isHourMinute cs
  | '-' :: cs => isHourMinute cs
  | _ => false

/-- A time, perhaps with an offset. -/
def isOffsetTime (cs : List Char) : Bool :=
  let isMark := fun c => c ∈ ['Z', 'z', '+', '-']
  isTime (cs.takeWhile (!isMark ·)) &&
    (cs.dropWhile (!isMark ·) = [] || isOffset (cs.dropWhile (!isMark ·)))

/-- A date, a time, or both with `T` or a space between them. -/
def isMoment (cs : List Char) : Bool :=
  isTime cs || isDate cs ||
    (isDate (cs.take 10) &&
      match cs.drop 10 with
      | c :: rest => c ∈ ['T', 't', ' '] && isOffsetTime rest
      | [] => false)

/-! ## All of them -/

def Scalar.read (raw : String) : Option Scalar :=
  let cs := raw.toList
  if raw = "true" then some (.boolean true)
  else if raw = "false" then some (.boolean false)
  else match integer? cs with
    | some n => some (.integer n)
    | none =>
      match float? cs with
      | some x => some (.float x)
      | none => if isMoment cs then some .moment else none

end Interconnect.Toml
