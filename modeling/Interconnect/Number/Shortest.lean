/-
The shortest decimal of a binary number: the fewest digits that read back as the number, and of
those the digits nearest to it. Of two that are equally near, the larger is taken.
-/
import Interconnect.Number.Binary64

namespace Interconnect

namespace Shortest

/-- Compares `a · 10 ^ p` with `b · 2 ^ e`. -/
def compareScaled (a : Nat) (p : Int) (b : Nat) (e : Int) : Ordering :=
  compare (a * Nat.pow 10 p.toNat * Nat.pow 2 (-e).toNat)
    (b * Nat.pow 2 e.toNat * Nat.pow 10 (-p).toNat)

/-- Whether `c · 10 ^ p` reads back as `m · 2 ^ e`: whether it lies between the midpoints to the
neighbours of that number. A midpoint itself is rounded to the even mantissa. -/
def readsBack (m : Nat) (e : Int) (c : Nat) (p : Int) : Bool :=
  let below := if m = Nat.pow 2 52 && Binary64.minExponent < e then 4 * m - 1 else 4 * m - 2
  let above := 4 * m + 2
  let low := compareScaled c p below (e - 2)
  let high := compareScaled c p above (e - 2)
  let even := m % 2 = 0
  (low = .gt || (even && low = .eq)) && (high = .lt || (even && high = .eq))

/-- The largest `c` such that `c · 10 ^ p` is at most `m · 2 ^ e`. -/
def floorAt (m : Nat) (e p : Int) : Nat :=
  (m * Nat.pow 2 e.toNat * Nat.pow 10 (-p).toNat) / (Nat.pow 2 (-e).toNat * Nat.pow 10 p.toNat)

/-- Whether `c + 1` is at least as near to `m · 2 ^ e` as `c` is, in steps of `10 ^ p`. -/
def upperIsNearer (m : Nat) (e : Int) (c : Nat) (p : Int) : Bool :=
  compareScaled (2 * c + 1) p (2 * m) e ≠ .gt

/-- The multiple of `10 ^ p` next to `m · 2 ^ e` that reads back, if there is one. -/
def pick (m : Nat) (e p : Int) : Option Nat :=
  let c := floorAt m e p
  match readsBack m e c p, readsBack m e (c + 1) p with
  | true, true => some (if upperIsNearer m e c p then c + 1 else c)
  | true, false => some c
  | false, true => some (c + 1)
  | false, false => none

/-- Searches the grids of ever smaller steps, from `10 ^ p` on. -/
def search (m : Nat) (e p : Int) : Nat → Option (Nat × Int)
  | 0 => none
  | grids + 1 =>
    match pick m e p with
    | some c => some (c, p)
    | none => search m e (p - 1) grids

/-- Moves trailing zeros into the power of ten. -/
def stripZeros (c : Nat) (p : Int) : Nat → Nat × Int
  | 0 => (c, p)
  | n + 1 => if c ≠ 0 && c % 10 = 0 then stripZeros (c / 10) (p + 1) n else (c, p)

/-- The position of the first digit of a positive number: the power of ten that it stands for. -/
def magnitude (m : Nat) (e : Int) : Int :=
  let whole := floorAt m e 0
  if 0 < whole then Binary64.digitCount whole - 1
  else
    -- below one, the digits after the point are counted at a scale that shows all of them
    (Binary64.digitCount (floorAt m e (-400)) : Int) - 401

/-- Digits and power of ten of the shortest decimal of a positive number. Seventeen digits are always
enough. -/
def decimal (m : Nat) (e : Int) : Nat × Int :=
  match search m e (magnitude m e) 18 with
  | none => (m, 0)
  | some (c, p) => stripZeros c p 400

end Shortest

/-! ## Text -/

/-- How the digits of a number are laid out: which powers of ten of the first digit are written out
with a point, rather than with an exponent. -/
structure FloatLayout where
  isPositional : Int → Bool

namespace FloatLayout

def zeros (n : Nat) : String := String.ofList (List.replicate n '0')

/-- Digits with a point after the first `point` of them. There is always a digit on either side. -/
def positional (digits : List Char) (point : Int) : String :=
  if point ≤ 0 then "0." ++ zeros (-point).toNat ++ String.ofList digits
  else if digits.length ≤ point.toNat then
    String.ofList digits ++ zeros (point.toNat - digits.length) ++ ".0"
  else
    String.ofList (digits.take point.toNat) ++ "." ++ String.ofList (digits.drop point.toNat)

/-- Digits with a point after the first of them, if there are more, and the power of ten. -/
def exponential (digits : List Char) (power : Int) : String :=
  let fraction := match digits.drop 1 with
    | [] => ""
    | rest => "." ++ String.ofList rest
  String.ofList (digits.take 1) ++ fraction ++ "e" ++ toString power

def text (layout : FloatLayout) : Binary64 → String
  | .nan => "NaN"
  | .infinity negative => if negative then "-inf" else "inf"
  | .finite negative m e _ =>
    let sign := if negative then "-" else ""
    if m = 0 then sign ++ "0.0"
    else
      let (c, p) := Shortest.decimal m e
      let digits := Nat.toDigits 10 c
      let power := p + digits.length - 1
      sign ++ (if layout.isPositional power then positional digits (power + 1)
        else exponential digits power)

end FloatLayout

end Interconnect
