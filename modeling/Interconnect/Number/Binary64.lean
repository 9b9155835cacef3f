/-
Binary floating-point numbers of 64 bits, as a sign, a whole number and a power of two. A ratio is
rounded to the nearest of them; of two that are equally near, to the even one.
-/
import Interconnect.Number.Decimal

namespace Interconnect

namespace Binary64

/-- The smallest power of two of a finite number. -/
def minExponent : Int := -1074

/-- The largest power of two of a finite number. -/
def maxExponent : Int := 971

/-- The form of a finite number `mantissa · 2 ^ exponent`: the mantissa has exactly 53 bits, or fewer
with the smallest exponent. There is one form for each number. -/
structure Representable (mantissa : Nat) (exponent : Int) : Prop where
  mantissa_lt : mantissa < Nat.pow 2 53
  min_le : minExponent ≤ exponent
  le_max : exponent ≤ maxExponent
  full : Nat.pow 2 52 ≤ mantissa ∨ exponent = minExponent

instance (mantissa : Nat) (exponent : Int) : Decidable (Representable mantissa exponent) :=
  decidable_of_decidable_of_iff
    (p := mantissa < Nat.pow 2 53 ∧ minExponent ≤ exponent ∧ exponent ≤ maxExponent ∧
      (Nat.pow 2 52 ≤ mantissa ∨ exponent = minExponent))
    ⟨fun h => ⟨h.1, h.2.1, h.2.2.1, h.2.2.2⟩, fun h => ⟨h.1, h.2, h.3, h.4⟩⟩

end Binary64

/-- A finite number is `± mantissa · 2 ^ exponent`. -/
inductive Binary64 where
  | finite (negative : Bool) (mantissa : Nat) (exponent : Int)
      (form : Binary64.Representable mantissa exponent)
  | infinity (negative : Bool)
  | nan
  deriving DecidableEq, Repr, Inhabited

namespace Binary64

/-- Zero, of either sign. -/
def zero (negative : Bool) : Binary64 := finite negative 0 minExponent (by decide)

/-- The numerator and denominator of `num / den / 2 ^ e`. -/
def scaled (num den : Nat) (e : Int) : Nat × Nat :=
  if 0 ≤ e then (num, den * Nat.pow 2 e.toNat) else (num * Nat.pow 2 (-e).toNat, den)

/-- The whole number nearest to a ratio; of two, the even one. -/
def roundRatio (num den : Nat) : Nat :=
  let q := num / den
  let r := num % den
  if 2 * r < den then q
  else if den < 2 * r then q + 1
  else if q % 2 = 0 then q else q + 1

/-- The power of two for which the mantissa of a positive ratio has 53 bits, or the smallest one. -/
def exponentOf (num den : Nat) : Int :=
  let guess : Int := (Nat.log2 num : Int) - Nat.log2 den
  let (a, b) := scaled num den guess
  let log := if a < b then guess - 1 else guess
  max (log - 52) minExponent

/-- The number nearest to `± num / den`. What has no form is too large. -/
def ofRatio (negative : Bool) (num den : Nat) : Binary64 :=
  if num = 0 then zero negative
  else
    let e := exponentOf num den
    let (a, b) := scaled num den e
    let m := roundRatio a b
    let (m, e) := if m = Nat.pow 2 53 then (Nat.pow 2 52, e + 1) else (m, e)
    if form : Representable m e then finite negative m e form else infinity negative

/-- How many decimal digits a number has. -/
def digitCount (n : Nat) : Nat := (Nat.toDigits 10 n).length

/-- The number nearest to a decimal. Decimals that are far out of range are settled by their size. -/
def ofDecimal (d : Decimal) : Binary64 :=
  let size := d.exponent + digitCount d.digits
  if d.digits = 0 || size < -400 then zero d.negative
  else if 400 < size then infinity d.negative
  else if 0 ≤ d.exponent then ofRatio d.negative (d.digits * Nat.pow 10 d.exponent.toNat) 1
  else ofRatio d.negative d.digits (Nat.pow 10 (-d.exponent).toNat)

def ofNat (n : Nat) : Binary64 := ofRatio false n 1

end Binary64

end Interconnect
