/-
Designs: components and expansion trees as they are declared, the defects that make a design
unsound, and the model of a sound one. The defects are listed in the order in which the design is
walked, and the first of them is the reason why it has no model.
-/
import Interconnect.Model

namespace Interconnect

/-- What is wrong with a declaration, where it stands, and where the declaration stands that it
clashes with. -/
inductive Defect where
  | duplicateComponent (name : String) (span first : Span)
  | duplicatePort (component port : String) (direction : Direction) (span first : Span)
  | duplicateInstance (component inst : String) (span first : Span)
  | duplicateChild (parent child : String) (span first : Span)
  | undeclaredType (inst type : String) (span : Span)
  deriving DecidableEq, Repr

namespace Defect

def message : Defect → String
  | duplicateComponent name _ _ => "component `" ++ name ++ "` is declared more than once"
  | duplicatePort component port direction _ _ =>
    direction.text ++ " port `" ++ port ++ "` is declared more than once in component `" ++
      component ++ "`"
  | duplicateInstance component inst _ _ =>
    "instance `" ++ inst ++ "` is declared more than once in component `" ++ component ++ "`"
  | duplicateChild parent child _ _ =>
    "expanded instance `" ++ parent ++ "` has more than one child named `" ++ child ++ "`"
  | undeclaredType inst type _ =>
    "expanded instance `" ++ inst ++ "` refers to undeclared component type `" ++ type ++ "`"

def span : Defect → Span
  | duplicateComponent _ span _ => span
  | duplicatePort _ _ _ span _ => span
  | duplicateInstance _ _ span _ => span
  | duplicateChild _ _ span _ => span
  | undeclaredType _ _ span => span

/-- The earliest declaration with the same name. -/
def firstSpan? : Defect → Option Span
  | duplicateComponent _ _ first => some first
  | duplicatePort _ _ _ _ first => some first
  | duplicateInstance _ _ _ first => some first
  | duplicateChild _ _ _ first => some first
  | undeclaredType _ _ _ => none

end Defect

/-- Component types and expansion trees, before connectors are attached. -/
structure Design where
  components : List Component := []
  expansions : List Expansion := []
  deriving Repr, Inhabited

namespace Design

/-! ## Defects -/

/-- The members that share a key with an earlier one, each with the earliest such member.
`before` holds the members already passed. -/
def clashes {α κ : Type} [DecidableEq κ] (key : α → κ) (before : List α) : List α → List (α × α)
  | [] => []
  | a :: rest =>
    match before.find? (key · = key a) with
    | none => clashes key (before ++ [a]) rest
    | some first => (a, first) :: clashes key (before ++ [a]) rest

/-- The ports and instances of a component that are declared twice. -/
def memberDefects (c : Component) : List Defect :=
  (clashes (fun p : Port => (p.name, p.direction)) [] c.ports).map (fun (p, first) =>
    .duplicatePort c.name p.name p.direction p.span first.span) ++
  (clashes Instance.name [] c.instances).map (fun (i, first) =>
    .duplicateInstance c.name i.name i.span first.span)

/-- The defects of components that follow the components `before`. -/
def componentDefects (before : List Component) : List Component → List Defect
  | [] => []
  | c :: rest =>
    ((before.find? (·.name = c.name)).map fun first =>
      Defect.duplicateComponent c.name c.span first.span).toList ++
    memberDefects c ++ componentDefects (before ++ [c]) rest

mutual

/-- The defects of an expansion tree: an undeclared type, and children of one name. -/
def treeDefects (declared : String → Bool) : Expansion → List Defect
  | .node name type span _ children =>
    (if declared type then [] else [.undeclaredType name type span]) ++
      childDefects declared name [] children

/-- The defects of the children of `parent`. `before` holds the names and places of the earlier
ones. -/
def childDefects (declared : String → Bool) (parent : String) (before : List (String × Span)) :
    List Expansion → List Defect
  | [] => []
  | t :: rest =>
    ((before.find? (·.1 = t.name)).map fun first =>
      Defect.duplicateChild parent t.name t.span first.2).toList ++
    treeDefects declared t ++
    childDefects declared parent (before ++ [(t.name, t.span)]) rest

end

def declares (d : Design) (type : String) : Bool := d.components.any (·.name = type)

/-- All defects of a design: the components in order, then the trees. -/
def defects (d : Design) : List Defect :=
  componentDefects [] d.components ++ d.expansions.flatMap (treeDefects d.declares)

/-! ## Assembly -/

/-- Attaches the connectors of instances, the constant ones numbered after `used` earlier ones. -/
def attachInstances (scope : Scope) (used : Nat) : List Instance → List Instance
  | [] => []
  | i :: rest =>
    { i with connectors := Connector.attachAll scope used i.connectors } ::
      attachInstances scope (used + Connector.constants i.connectors) rest

/-- Attaches the connectors of the component at `index`: first its own, then those of its
instances. -/
def attachComponent (index used : Nat) (c : Component) : Component :=
  { c with
    connectors := Connector.attachAll (.component index) used c.connectors
    instances := attachInstances (.component index) (used + Connector.constants c.connectors)
      c.instances }

def attachComponents (index used : Nat) : List Component → List Component
  | [] => []
  | c :: rest =>
    attachComponent index used c ::
      attachComponents (index + 1) (used + Connector.constants c.allConnectors) rest

/-- How many connectors of the components carry constants. -/
def componentConstants (d : Design) : Nat :=
  Connector.constants (d.components.flatMap Component.allConnectors)

/-- The ports of a component type. -/
def portsOf (d : Design) (type : String) : List Port :=
  ((d.components.find? (·.name = type)).map Component.ports).getD []

/-- The model of a design without regard to its defects. -/
def assemble (d : Design) : Model where
  components := attachComponents 0 0 d.components
  expanded := Expansion.flattenAll d.portsOf none 0 d.componentConstants d.expansions

/-- The model of a design, or its first defect. -/
def build (d : Design) : Except Defect Model :=
  match d.defects with
  | defect :: _ => .error defect
  | [] => .ok d.assemble

end Design

end Interconnect
