/-
References to ports as they are written on connectors: a bare port name, or an instance and a port
joined by a dot. The first dot separates; later dots belong to the port.
-/

namespace Interconnect

/-- Why a text is no port reference. -/
inductive NameFault where
  | empty
  | emptySegment (raw : String)
  deriving DecidableEq, Repr

def NameFault.message : NameFault → String
  | .empty => "name is empty"
  | .emptySegment raw => "name `" ++ raw ++ "` has an empty segment"

/-- A port, seen from a scope: its own, or that of one of its instances. -/
structure PortRef where
  instance? : Option String := none
  port : String
  deriving DecidableEq, Repr, Inhabited

namespace PortRef

/-- Splits a text at its first dot. Without a dot the whole text is the port. -/
def split (raw : List Char) : Option (List Char) × List Char :=
  match raw.dropWhile (· ≠ '.') with
  | [] => (none, raw)
  | _ :: port => (some (raw.takeWhile (· ≠ '.')), port)

def parse (raw : String) : Except NameFault PortRef :=
  if raw.toList.isEmpty then .error .empty
  else match split raw.toList with
    | (none, port) => .ok ⟨none, String.ofList port⟩
    | (some inst, port) =>
      if inst.isEmpty || port.isEmpty then .error (.emptySegment raw)
      else .ok ⟨some (String.ofList inst), String.ofList port⟩

/-- The text that names `port` of `inst`. -/
def qualify (inst port : String) : String := inst ++ "." ++ port

def text (r : PortRef) : String :=
  match r.instance? with
  | none => r.port
  | some inst => qualify inst r.port

def isQualified (r : PortRef) : Bool := r.instance?.isSome

/-! ## Constant ports -/

/-- The name of every port that only carries a constant starts so. -/
def constantStem : String := "CONSTANTPORT"

/-- Whether a text refers to a port that only carries a constant. -/
def namesConstant (raw : String) : Bool :=
  match parse raw with
  | .ok r => constantStem.toList.isPrefixOf r.port.toList
  | .error _ => false

end PortRef

end Interconnect
