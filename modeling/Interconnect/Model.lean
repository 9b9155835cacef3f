/-
Models: component types and the nodes of the expanded trees, each named by its position, with the
symbols that can be looked up in a scope.
-/
import Interconnect.Expansion
import Interconnect.NameTable

namespace Interconnect

structure Model where
  components : List Component := []
  expanded : List Expanded := []
  deriving DecidableEq, Repr, Inhabited

namespace Model

/-- The position of the component type of that name. -/
def indexOf? (m : Model) (name : String) : Option Nat :=
  m.components.findIdx? (·.name = name)

/-- The component type of that name. -/
def find? (m : Model) (name : String) : Option Component :=
  m.components.find? (·.name = name)

/-- The names from the root of an expanded node down to it, joined by dots. A parent stands before
its children, so the walk up ends. -/
def fullName? (m : Model) (index : Nat) : Option String :=
  match m.expanded[index]? with
  | none => none
  | some node =>
    match node.parent with
    | none => some node.name
    | some parent =>
      if parent < index then
        (m.fullName? parent).map fun above => PortRef.qualify above node.name
      else none
termination_by index

end Model

/-! ## Symbols of a scope -/

/-- What a scope belongs to. -/
inductive Spanning where
  | component (c : Component)
  | expanded (e : Expanded)
  deriving DecidableEq, Repr

namespace Spanning

def name : Spanning → String
  | component c => c.name
  | expanded e => e.name

def ports : Spanning → List Port
  | component c => c.ports
  | expanded e => e.ports

def isExpanded : Spanning → Bool
  | component _ => false
  | expanded _ => true

end Spanning

/-- What a name is looked up as. -/
inductive SymbolKind where
  | port
  | directedPort (direction : Direction)
  | declared
  | expanded
  deriving DecidableEq, Repr

inductive Symbol where
  | port (p : Port)
  | declared (i : Instance)
  | expanded (index : Nat) (e : Expanded)
  deriving DecidableEq, Repr

namespace Model

def spanning? (m : Model) : Scope → Option Spanning
  | .component index => (m.components[index]?).map .component
  | .expanded index => (m.expanded[index]?).map .expanded

/-- The child of that name of an expanded node, with its position. -/
def findChild? (m : Model) (e : Expanded) (name : String) : Option (Nat × Expanded) :=
  (e.children.filterMap fun index => (m.expanded[index]?).map (index, ·)).find? (·.2.name = name)

/-- Looks up a single name inside a scope. Declared instances are found in components only,
expanded ones in expanded instances only. -/
def symbol? (m : Model) (name : String) (kind : SymbolKind) (scope : Scope) : Option Symbol :=
  match m.spanning? scope with
  | none => none
  | some spanning =>
    match kind, spanning with
    | .port, s => (Port.findNamed s.ports name).map .port
    | .directedPort direction, s => (Port.findDirected s.ports name direction).map .port
    | .declared, .component c => (c.findInstance name).map .declared
    | .expanded, .expanded e => (m.findChild? e name).map fun found => .expanded found.1 found.2
    | .declared, .expanded _ => none
    | .expanded, .component _ => none

/-- The scope of the component type of an instance. -/
def typeScope? (m : Model) (i : Instance) : Option Scope :=
  (m.indexOf? i.type).map .component

end Model

end Interconnect
