/-
Models as they are held: what can be looked up by its name carries the id that the name was given when it
was made, and a lookup compares ids only.
-/
import Interconnect.Model

namespace Interconnect

namespace NameTable

/-- Something with the id of its name. -/
structure Tagged (α : Type) where
  id : NameId
  value : α
  deriving DecidableEq, Repr

/-- A component, with what can be looked up in it. -/
structure TaggedComponent extends Tagged Component where
  ports : List (Tagged Port)
  instances : List (Tagged Instance)
  deriving DecidableEq, Repr

/-- An expanded node, with what can be looked up on its boundary. -/
structure TaggedNode extends Tagged Expanded where
  ports : List (Tagged Port)
  deriving DecidableEq, Repr

structure TaggedModel where
  components : List TaggedComponent
  nodes : List TaggedNode
  deriving DecidableEq, Repr

namespace Tagged

def find {α : Type} (tagged : List (Tagged α)) (id : NameId) : Option α :=
  (tagged.find? (·.id = id)).map value

def findDirected (ports : List (Tagged Port)) (id : NameId) (direction : Direction) : Option Port :=
  (ports.find? fun p => p.id = id && p.value.direction = direction).map value

/-- The port with that id; of two, the incoming one. -/
def findNamed (ports : List (Tagged Port)) (id : NameId) : Option Port :=
  (findDirected ports id .incoming).or (findDirected ports id .outgoing)

end Tagged

namespace TaggedModel

/-- The children of an expanded node, each with its position. -/
def children (m : TaggedModel) (e : Expanded) : List (Tagged (Nat × Expanded)) :=
  e.children.filterMap fun index => (m.nodes[index]?).map fun node => ⟨node.id, index, node.value⟩

/-- Looks up a name that has an id; a name without one cannot be the name of anything. -/
def resolve? (m : TaggedModel) (table : NameTable) (name : String) (kind : SymbolKind)
    (scope : Scope) : Option Symbol := do
  let id ← table.find? name
  match scope with
  | .component index =>
    let c ← m.components[index]?
    match kind with
    | .port => (Tagged.findNamed c.ports id).map .port
    | .directedPort direction => (Tagged.findDirected c.ports id direction).map .port
    | .declared => (Tagged.find c.instances id).map .declared
    | .expanded => none
  | .expanded index =>
    let e ← m.nodes[index]?
    match kind with
    | .port => (Tagged.findNamed e.ports id).map .port
    | .directedPort direction => (Tagged.findDirected e.ports id direction).map .port
    | .declared => none
    | .expanded => (Tagged.find (m.children e.value) id).map fun found => .expanded found.1 found.2

end TaggedModel

/-! ## Tagging -/

/-- The element with the id that its name has in the table. -/
def tag {α : Type} (table : NameTable) (name : α → String) (value : α) : Tagged α :=
  ⟨(table.find? (name value)).getD default, value⟩

/-- The model as it is held where all its names are in the table. -/
def tagModel (table : NameTable) (m : Model) : TaggedModel where
  components := m.components.map fun c =>
    { table.tag Component.name c with
      ports := c.ports.map (table.tag Port.name)
      instances := c.instances.map (table.tag Instance.name) }
  nodes := m.expanded.map fun e =>
    { table.tag Expanded.name e with ports := e.ports.map (table.tag Port.name) }

/-- The names that can be looked up in a model. -/
def modelNames (m : Model) : List String :=
  m.components.flatMap (fun c => c.name :: (c.ports.map Port.name ++ c.instances.map Instance.name)) ++
    m.expanded.flatMap fun e => e.name :: e.ports.map Port.name

end NameTable

end Interconnect
