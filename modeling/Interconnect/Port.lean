/-
Ports: named, directed points on the boundary of a component.
-/
import Interconnect.Span

namespace Interconnect

inductive Direction where
  | incoming
  | outgoing
  deriving DecidableEq, Repr, Inhabited

def Direction.text : Direction → String
  | .incoming => "incoming"
  | .outgoing => "outgoing"

structure Port where
  name : String
  direction : Direction
  /-- The value of a port that carries a constant. -/
  constant : Option String := none
  span : Span := {}
  deriving DecidableEq, Repr, Inhabited

namespace Port

def incoming (name : String) (span : Span) : Port := { name, direction := .incoming, span }

def outgoing (name : String) (span : Span) : Port := { name, direction := .outgoing, span }

/-- A port that carries a constant is read from, so it points outward. -/
def ofConstant (name value : String) (span : Span) : Port :=
  { name, direction := .outgoing, constant := some value, span }

def isIncoming (p : Port) : Bool := p.direction = .incoming

def isOutgoing (p : Port) : Bool := p.direction = .outgoing

/-! ## Looking up by name -/

def findDirected (ports : List Port) (name : String) (direction : Direction) : Option Port :=
  ports.find? fun p => p.name = name && p.direction = direction

theorem findDirected_eq_some {ports : List Port} {name : String} {direction : Direction} {p : Port}
    (h : findDirected ports name direction = some p) :
    p ∈ ports ∧ p.name = name ∧ p.direction = direction := by
  refine ⟨List.mem_of_find?_eq_some h, ?_⟩
  simpa using List.find?_some h

/-- The port of that name; of two, the incoming one. -/
def findNamed (ports : List Port) (name : String) : Option Port :=
  (findDirected ports name .incoming).or (findDirected ports name .outgoing)

theorem findNamed_eq_some {ports : List Port} {name : String} {p : Port}
    (h : findNamed ports name = some p) : p ∈ ports ∧ p.name = name := by
  rcases Option.or_eq_some_iff.1 h with h | ⟨_, h⟩
  · exact ⟨(findDirected_eq_some h).1, (findDirected_eq_some h).2.1⟩
  · exact ⟨(findDirected_eq_some h).1, (findDirected_eq_some h).2.1⟩

/-- The port of that name, in the given direction if there is one. -/
def find (ports : List Port) (name : String) : Option Direction → Option Port
  | none => findNamed ports name
  | some direction => findDirected ports name direction

end Port

end Interconnect
