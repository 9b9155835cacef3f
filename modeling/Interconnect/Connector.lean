/-
Connectors: declared wires from a source to a target. A wired connector reads from a port; a
constant connector carries a value, and its source is the name of a port of its own.
-/
import Interconnect.Port
import Interconnect.PortRef

namespace Interconnect

/-- Where names are looked up: in a component, or in a node of an expanded instance tree. -/
inductive Scope where
  | component (index : Nat)
  | expanded (index : Nat)
  deriving DecidableEq, Repr, Inhabited

def Scope.text : Scope → String
  | .component index => "component#" ++ toString index
  | .expanded index => "expanded#" ++ toString index

structure Connector where
  source : String
  target : String
  /-- The value of a constant connector. -/
  constant : Option String := none
  /-- The constant port as it was first asked for. -/
  remembered : Option Port := none
  /-- The scope that declares the connector, once it is part of a model. -/
  scope : Option Scope := none
  span : Span := {}
  deriving DecidableEq, Repr, Inhabited

namespace Connector

def wired (source target : String) (span : Span) : Connector := { source, target, span }

/-- A connector that carries `value`; its source gets a number when a model is built. -/
def ofConstant (value target : String) (span : Span) : Connector :=
  { source := PortRef.constantStem, target, constant := some value, span }

def withSpan (c : Connector) (span : Span) : Connector := { c with span }

def isConstant (c : Connector) : Bool := c.constant.isSome

/-! ## The constant port -/

/-- The port that a constant connector reads from: the remembered one, if it was asked for before. -/
def constantPort? (c : Connector) : Option Port :=
  c.constant.map fun value => c.remembered.getD (.ofConstant c.source value c.span)

/-- Exactly the wired connectors have no constant port. -/
theorem constantPort?_eq_none_iff (c : Connector) : c.constantPort? = none ↔ c.constant = none := by
  simp [constantPort?]

/-- Asks for the constant port and remembers the answer. -/
def readConstantPort (c : Connector) : Option Port × Connector :=
  match c.constantPort? with
  | none => (none, c)
  | some port => (some port, { c with remembered := some port })

/-! ## Joining a model -/

def attach (c : Connector) (scope : Scope) : Connector := { c with scope := some scope }

/-- Gives a constant connector its number, which renames its port; wired ones stay as they are. -/
def number (c : Connector) (index : Nat) : Connector :=
  if c.isConstant then
    { c with source := PortRef.constantStem ++ toString index, remembered := none }
  else c

/-- How many of the connectors carry constants. -/
def constants (cs : List Connector) : Nat := cs.countP isConstant

/-- Attaches connectors to a scope and numbers the constant ones among them, after `used` earlier
ones. -/
def attachAll (scope : Scope) (used : Nat) : List Connector → List Connector
  | [] => []
  | c :: rest =>
    if c.isConstant then (c.attach scope).number (used + 1) :: attachAll scope (used + 1) rest
    else c.attach scope :: attachAll scope used rest

@[simp]
theorem length_attachAll (scope : Scope) (used : Nat) (cs : List Connector) :
    (attachAll scope used cs).length = cs.length := by
  induction cs generalizing used with
  | nil => rfl
  | cons c rest ih => unfold attachAll; split <;> simp [ih]

end Connector

end Interconnect
