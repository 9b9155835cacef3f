/-
How a value can fail to have the form that is asked of it, and the words for it.
-/
import Interconnect.Toml.Value
import Interconnect.Number.Shortest
import Interconnect.Text.Quoted

namespace Interconnect.Toml

/-! ## Numbers as values -/

/-- Whether an integer has a signed form of that many bits. -/
def isSigned (bits : Nat) (n : Int) : Bool :=
  -(Nat.pow 2 (bits - 1) : Int) ≤ n && n < (Nat.pow 2 (bits - 1) : Int)

/-- Whether an integer has an unsigned form of that many bits. -/
def isUnsigned (bits : Nat) (n : Int) : Bool := 0 ≤ n && n < (Nat.pow 2 bits : Int)

/-- Whether an integer has a signed or an unsigned form of that many bits. -/
def hasForm (bits : Nat) (n : Int) : Bool := isSigned bits n || isUnsigned bits n

/-- The number that a float stands for; none if it is written in digits and out of range. -/
def FloatText.value? : FloatText → Option Binary64
  | .decimal d =>
    match Binary64.ofDecimal d with
    | .infinity _ => none
    | x => some x
  | .infinity negative => some (.infinity negative)
  | .nan => some .nan

/-- Numbers in messages are always written out. -/
def messageLayout : FloatLayout := ⟨fun _ => true⟩

/-! ## Mismatches -/

/-- What is found where something else is asked for. -/
inductive Found where
  | integer (n : Int)
  | float (x : Binary64)
  | boolean (b : Bool)
  | string (s : String)
  | sequence
  | map
  deriving DecidableEq, Repr

def boolText (b : Bool) : String := if b then "true" else "false"

def Found.text : Found → String
  | integer n =>
    "integer `" ++ toString n ++ "`" ++
      (if hasForm 64 n then "" else if isSigned 128 n then " as i128" else " as u128")
  | float x => "floating point `" ++ messageLayout.text x ++ "`"
  | boolean b => "boolean `" ++ boolText b ++ "`"
  | string s => "string " ++ Quoted.text s
  | sequence => "sequence"
  | map => "map"

inductive Mismatch where
  | unknownField (key : String) (expected : List String)
  | missingField (key : String)
  | wrongType (found : Found) (expected : String)
  | wrongLength (found : Nat) (record : String) (fields : Nat)
  | floatOverflow
  | integerOverflow
  /-- A value that has none of the forms of a choice. -/
  | noAlternative (choice : String)
  | unknownVariant (name : String) (expected : List String)
  | notAVariant
  /-- A table that should name one variant and has no key, or more than one. -/
  | variantCount (more : Bool)
  | variantContent (expected : String) (found : Option String)
  deriving DecidableEq, Repr

namespace Mismatch

def inBackquotes (s : String) : String := "`" ++ s ++ "`"

/-- One name, one or the other, or a list. -/
def alternatives : List String → String
  | [] => "there are no fields"
  | [a] => "expected " ++ inBackquotes a
  | [a, b] => "expected " ++ inBackquotes a ++ " or " ++ inBackquotes b
  | names => "expected one of " ++ String.intercalate ", " (names.map inBackquotes)

def elements (n : Nat) : String := if n = 1 then "1 element" else toString n ++ " elements"

def message : Mismatch → String
  | unknownField key expected => "unknown field " ++ inBackquotes key ++ ", " ++ alternatives expected
  | missingField key => "missing field " ++ inBackquotes key
  | wrongType found expected => "invalid type: " ++ found.text ++ ", expected " ++ expected
  | wrongLength found record fields =>
    "invalid length " ++ toString found ++ ", expected struct " ++ record ++ " with " ++ elements fields
  | floatOverflow => "floating-point number overflowed"
  | integerOverflow => "integer number overflowed"
  | noAlternative choice => "data did not match any variant of untagged enum " ++ choice
  | unknownVariant name expected =>
    "unknown variant " ++ inBackquotes name ++ ", " ++ alternatives expected
  | notAVariant => "wanted string or table"
  | variantCount more =>
    "wanted exactly 1 element, " ++ (if more then "more than 1 element" else "found 0 elements")
  | variantContent expected found =>
    "expected " ++ expected ++ (found.map (", found " ++ ·)).getD ""

end Mismatch

/-- A mismatch and the place of the value that shows it. -/
structure Misfit where
  cause : Mismatch
  span : Span
  deriving DecidableEq, Repr

/-- What reading a value gives. -/
abbrev Reading (α : Type) := Except Misfit α

namespace Value

def fail {α : Type} (v : Value) (cause : Mismatch) : Reading α := .error ⟨cause, v.span⟩

/-- What a value is found to be. Numbers beyond all forms are faults of their own. -/
def found? : Value → Except Mismatch Found
  | integer _ n =>
    if hasForm 128 n then .ok (.integer n) else .error .integerOverflow
  | float _ x =>
    match x.value? with
    | some y => .ok (.float y)
    | none => .error .floatOverflow
  | boolean _ b => .ok (.boolean b)
  | string _ s => .ok (.string s)
  | array _ _ => .ok .sequence
  | table _ _ => .ok .map
  | moment _ => .ok .map

/-- Fails because something else is expected. -/
def unexpected {α : Type} (v : Value) (expected : String) : Reading α :=
  match v.found? with
  | .ok found => v.fail (.wrongType found expected)
  | .error cause => v.fail cause

end Value

end Interconnect.Toml
