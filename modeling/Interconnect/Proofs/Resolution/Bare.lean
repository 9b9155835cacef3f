/-
Models without their connectors. Resolution and full names never look at connectors: they are the same
in a model from which all connectors are taken away, and so in any two models that only differ in
connectors.
-/
import Interconnect.Resolution
import Mathlib.Data.List.Basic

namespace Interconnect

def Instance.bare (i : Instance) : Instance := { i with connectors := [] }

def Component.bare (c : Component) : Component :=
  { c with connectors := [], instances := c.instances.map Instance.bare }

/-- The name is not the connectors' to change. -/
theorem Component.name_eq_of_bare {c c' : Component} (h : c'.bare = c.bare) : c'.name = c.name :=
  (congrArg Component.name h : c'.bare.name = c.bare.name)

def Expanded.bare (e : Expanded) : Expanded := { e with connectors := [] }

def Spanning.bare : Spanning → Spanning
  | component c => .component c.bare
  | expanded e => .expanded e.bare

@[simp]
theorem Spanning.name_bare (s : Spanning) : s.bare.name = s.name := by cases s <;> rfl

@[simp]
theorem Spanning.ports_bare (s : Spanning) : s.bare.ports = s.ports := by cases s <;> rfl

namespace Model

def bare (m : Model) : Model where
  components := m.components.map Component.bare
  expanded := m.expanded.map Expanded.bare

/-! ## Looking up single names -/

variable (m : Model)

theorem spanning?_bare (scope : Scope) : m.bare.spanning? scope = (m.spanning? scope).map Spanning.bare := by
  cases scope with
  | component index =>
    simp only [spanning?, bare, List.getElem?_map, Option.map_map]
    rfl
  | expanded index =>
    simp only [spanning?, bare, List.getElem?_map, Option.map_map]
    rfl

theorem find?_bare (name : String) : m.bare.find? name = (m.find? name).map Component.bare := by
  rw [find?, bare, List.find?_map]
  rfl

theorem findInstance_bare (c : Component) (name : String) :
    c.bare.findInstance name = (c.findInstance name).map Instance.bare := by
  rw [Component.findInstance, Component.bare, List.find?_map]
  rfl

theorem findChild?_bare (e : Expanded) (name : String) :
    m.bare.findChild? e.bare name = (m.findChild? e name).map fun found => (found.1, found.2.bare) := by
  have hchildren : (e.children.filterMap fun index => (m.bare.expanded[index]?).map (index, ·)) =
      (e.children.filterMap fun index => (m.expanded[index]?).map (index, ·)).map
        fun found => (found.1, found.2.bare) := by
    rw [List.map_filterMap]
    refine List.filterMap_congr fun index _ => ?_
    rw [bare, List.getElem?_map, Option.map_map, Option.map_map]
    rfl
  show (e.children.filterMap _).find? _ = _
  rw [hchildren, List.find?_map]
  rfl

/-! ## Resolution -/

theorem boundaryPort_bare (s : Spanning) (raw : String) (r : PortRef) (mode : Option Endpoint) :
    boundaryPort s.bare raw r mode = boundaryPort s raw r mode := by
  rw [boundaryPort, boundaryPort, Spanning.name_bare, Spanning.ports_bare]

theorem expandedPort_bare (s : Spanning) (raw : String) (r : PortRef) (mode : Option Endpoint) :
    m.bare.expandedPort s.bare raw r mode = m.expandedPort s raw r mode := by
  cases s with
  | component c => rfl
  | expanded e =>
    simp only [expandedPort, Spanning.bare, findChild?_bare]
    cases r.instance? with
    | none => rfl
    | some inst =>
      dsimp only
      cases m.findChild? e inst <;> rfl

theorem declaredPort_bare (s : Spanning) (raw : String) (r : PortRef) (mode : Option Endpoint) :
    m.bare.declaredPort s.bare raw r mode = m.declaredPort s raw r mode := by
  cases s with
  | expanded e => rfl
  | component c =>
    simp only [declaredPort, Spanning.bare, findInstance_bare]
    cases r.instance? with
    | none => rfl
    | some inst =>
      dsimp only
      cases c.findInstance inst with
      | none => rfl
      | some i =>
        simp only [Option.map_some, find?_bare, Instance.bare]
        cases m.find? i.type <;> rfl

/-- Resolution never looks at connectors. -/
theorem lookup_bare (raw : String) (scope : Scope) (mode : Option Endpoint) :
    m.bare.lookup raw scope mode = m.lookup raw scope mode := by
  simp only [lookup, spanning?_bare]
  cases m.spanning? scope with
  | none => rfl
  | some s =>
    simp only [Option.map_some, boundaryPort_bare, expandedPort_bare, declaredPort_bare,
      Spanning.name_bare]

theorem resolveEnd_bare (raw : String) (k : Connector) (e : Endpoint) :
    m.bare.resolveEnd raw k e = m.resolveEnd raw k e := by
  simp only [resolveEnd, lookup_bare]

/-! ## Full names -/

theorem fullName?_bare (index : Nat) : m.bare.fullName? index = m.fullName? index := by
  induction index using Nat.strongRecOn with
  | ind index ih =>
    rw [fullName?, fullName?, bare, List.getElem?_map]
    cases m.expanded[index]? with
    | none => rfl
    | some e =>
      simp only [Option.map_some, Expanded.bare]
      cases e.parent with
      | none => rfl
      | some parent =>
        dsimp only
        split
        · rename_i hlt
          rw [← ih parent hlt]
          rfl
        · rfl

end Model

end Interconnect
