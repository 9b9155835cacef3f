/-
Expanded instance trees, and their flat form: the list of their nodes, each parent before its
children, in which a node is named by its position.
-/
import Interconnect.Component

namespace Interconnect

/-- An expanded instance with the tree of instances inside it. -/
inductive Expansion where
  | node (name type : String) (span : Span) (connectors : List Connector)
      (children : List Expansion)
  deriving Repr, Inhabited

namespace Expansion

def name : Expansion → String
  | node name _ _ _ _ => name

def type : Expansion → String
  | node _ type _ _ _ => type

def span : Expansion → Span
  | node _ _ span _ _ => span

def connectors : Expansion → List Connector
  | node _ _ _ connectors _ => connectors

def children : Expansion → List Expansion
  | node _ _ _ _ children => children

mutual

/-- How many nodes a tree has. -/
def size : Expansion → Nat
  | node _ _ _ _ children => 1 + sizeAll children

def sizeAll : List Expansion → Nat
  | [] => 0
  | t :: rest => t.size + sizeAll rest

end

mutual

/-- How many connectors in a tree carry constants. -/
def constants : Expansion → Nat
  | node _ _ _ connectors children => Connector.constants connectors + constantsAll children

def constantsAll : List Expansion → Nat
  | [] => 0
  | t :: rest => t.constants + constantsAll rest

end

end Expansion

/-- A node of an expanded tree in its place: with the ports of its type, and with the positions of
its parent and its children. -/
structure Expanded where
  name : String
  type : String
  ports : List Port := []
  connectors : List Connector := []
  children : List Nat := []
  parent : Option Nat := none
  span : Span := {}
  deriving DecidableEq, Repr, Inhabited

namespace Expansion

/-- The positions of sibling trees when the first is at `first`. -/
def positions (first : Nat) : List Expansion → List Nat
  | [] => []
  | t :: rest => first :: positions (first + t.size) rest

mutual

/-- The nodes of a tree whose root is at `index`, after `used` earlier constants. `portsOf` gives the
ports of a type. -/
def flatten (portsOf : String → List Port) (parent : Option Nat) (index used : Nat) :
    Expansion → List Expanded
  | node name type span connectors children =>
    { name, type, span, parent
      ports := portsOf type
      connectors := Connector.attachAll (.expanded index) used connectors
      children := positions (index + 1) children } ::
    flattenAll portsOf (some index) (index + 1) (used + Connector.constants connectors) children

def flattenAll (portsOf : String → List Port) (parent : Option Nat) (index used : Nat) :
    List Expansion → List Expanded
  | [] => []
  | t :: rest =>
    t.flatten portsOf parent index used ++
      flattenAll portsOf parent (index + t.size) (used + t.constants) rest

end

mutual

/-- Flattening gives one node for each node of the tree. -/
theorem length_flatten (portsOf : String → List Port) (parent : Option Nat) (index used : Nat) :
    ∀ t : Expansion, (t.flatten portsOf parent index used).length = t.size
  | node _ _ _ _ children => by
    simp only [flatten, size, List.length_cons, length_flattenAll _ _ _ _ children]
    exact Nat.add_comm _ _

theorem length_flattenAll (portsOf : String → List Port) (parent : Option Nat) (index used : Nat) :
    ∀ ts : List Expansion, (flattenAll portsOf parent index used ts).length = sizeAll ts
  | [] => rfl
  | t :: rest => by
    simp only [flattenAll, sizeAll, List.length_append, length_flatten _ _ _ _ t,
      length_flattenAll _ _ _ _ rest]

end

end Expansion

end Interconnect
