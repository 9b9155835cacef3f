/-
The connectors of a model. Each has the scope of the component or the node that declares it, and what
it declares is as it was in the design, but for the sources of the constant ones: along the components,
each before its instances, and then along the nodes these are numbered without a gap. So no end of a
connector in a model fails for want of a place to look.
-/
import Interconnect.Proofs.Design.WellFormed
import Interconnect.Proofs.Expansion.Subtrees
import Interconnect.Proofs.Resolution.Denotation

namespace Interconnect

/-! ## Detached connectors -/

namespace Connector

/-- The connector without what a model gives it: its scope and, if it carries a constant, its number. -/
def detached (k : Connector) : Connector :=
  if k.isConstant then { k with source := PortRef.constantStem, remembered := none, scope := none }
  else { k with scope := none }

/-- Detached connectors are the same if they are declared the same, where the source and the remembered
port only matter to wired ones. -/
theorem detached_eq_iff {k k' : Connector} :
    k.detached = k'.detached ↔ k.constant = k'.constant ∧ k.target = k'.target ∧ k.span = k'.span ∧
      (k.isConstant = false → k.source = k'.source ∧ k.remembered = k'.remembered) := by
  rcases k with ⟨source, target, constant, remembered, scope, span⟩
  rcases k' with ⟨source', target', constant', remembered', scope', span'⟩
  cases constant <;> cases constant' <;> simp [detached, isConstant] <;> tauto

theorem detached_attach (k : Connector) (scope : Scope) : (k.attach scope).detached = k.detached := rfl

theorem detached_number (k : Connector) (n : Nat) : (k.number n).detached = k.detached := by
  unfold number
  split
  · rename_i hk
    unfold detached
    exact (if_pos hk).trans (if_pos hk).symm
  · rfl

/-- Attaching only gives scopes and numbers. -/
theorem map_detached_attachAll (scope : Scope) (used : Nat) (ks : List Connector) :
    (attachAll scope used ks).map detached = ks.map detached := by
  induction ks generalizing used with
  | nil => rfl
  | cons k rest ih =>
    unfold attachAll
    split
    · rw [List.map_cons, List.map_cons, detached_number, detached_attach, ih]
    · rw [List.map_cons, List.map_cons, detached_attach, ih]

end Connector

def Instance.detached (i : Instance) : Instance :=
  { i with connectors := i.connectors.map Connector.detached }

def Component.detached (c : Component) : Component :=
  { c with
    connectors := c.connectors.map Connector.detached
    instances := c.instances.map Instance.detached }

/-! ## Numbers -/

namespace Connector

/-- The sources of the connectors that carry constants. -/
def constantNames (ks : List Connector) : List String := (ks.filter isConstant).map source

/-- The names of constant ports with the `count` numbers that follow on `used`. -/
def numbered (used count : Nat) : List String :=
  (List.range' (used + 1) count).map fun n => PortRef.constantStem ++ toString n

theorem constants_append (ks ls : List Connector) : constants (ks ++ ls) = constants ks + constants ls :=
  List.countP_append

theorem constantNames_append (ks ls : List Connector) :
    constantNames (ks ++ ls) = constantNames ks ++ constantNames ls := by
  rw [constantNames, List.filter_append, List.map_append]
  rfl

theorem length_constantNames (ks : List Connector) : (constantNames ks).length = constants ks := by
  rw [constantNames, List.length_map, constants, List.countP_eq_length_filter]

/-- Numbers go on where the earlier ones end. -/
theorem numbered_add (used a b : Nat) :
    numbered used (a + b) = numbered used a ++ numbered (used + a) b := by
  rw [numbered, ← List.range'_append_1, List.map_append, Nat.add_right_comm]
  rfl

theorem length_numbered (used count : Nat) : (numbered used count).length = count := by
  rw [numbered, List.length_map, List.length_range']

theorem constantNames_cons {k : Connector} (hk : k.isConstant = true) (ks : List Connector) :
    constantNames (k :: ks) = k.source :: constantNames ks := by
  rw [constantNames, List.filter_cons_of_pos hk]
  rfl

theorem constantNames_cons_of_wired {k : Connector} (hk : ¬ k.isConstant = true) (ks : List Connector) :
    constantNames (k :: ks) = constantNames ks := by
  rw [constantNames, List.filter_cons_of_neg hk]
  rfl

theorem isConstant_number (k : Connector) (n : Nat) : (k.number n).isConstant = k.isConstant := by
  unfold number
  split <;> rfl

theorem source_number {k : Connector} (hk : k.isConstant = true) (n : Nat) :
    (k.number n).source = PortRef.constantStem ++ toString n := by
  rw [number, if_pos hk]

/-- Attaching numbers the constant connectors, and leaves the others out of the count. -/
theorem constantNames_attachAll (scope : Scope) (used : Nat) (ks : List Connector) :
    constantNames (attachAll scope used ks) = numbered used (constants ks) := by
  induction ks generalizing used with
  | nil => rfl
  | cons k rest ih =>
    by_cases hk : k.isConstant = true
    · have hcount : constants (k :: rest) = 1 + constants rest := by
        rw [constants, List.countP_cons_of_pos hk, Nat.add_comm]
        rfl
      have hnumber : ((k.attach scope).number (used + 1)).isConstant = true := by
        rw [isConstant_number]
        exact hk
      rw [attachAll, if_pos hk, constantNames_cons hnumber, source_number (k := k.attach scope) hk, ih,
        hcount, numbered_add]
      rfl
    · have hattach : ¬ (k.attach scope).isConstant = true := hk
      have hcount : constants (k :: rest) = constants rest := List.countP_cons_of_neg hk
      rw [attachAll, if_neg hk, constantNames_cons_of_wired hattach, ih, hcount]

end Connector

namespace Design

open Connector

theorem constantNames_attachInstances (scope : Scope) (used : Nat) (is : List Instance) :
    constantNames ((attachInstances scope used is).flatMap Instance.connectors) =
      numbered used (constants (is.flatMap Instance.connectors)) := by
  induction is generalizing used with
  | nil => rfl
  | cons i rest ih =>
    rw [attachInstances, List.flatMap_cons, List.flatMap_cons, constantNames_append,
      constantNames_attachAll, ih, constants_append, numbered_add]

/-- The connectors of a component come before those of its instances. -/
theorem constantNames_attachComponent (index used : Nat) (c : Component) :
    constantNames (attachComponent index used c).allConnectors =
      numbered used (constants c.allConnectors) := by
  rw [Component.allConnectors, attachComponent, constantNames_append, constantNames_attachAll,
    constantNames_attachInstances, Component.allConnectors, constants_append, numbered_add]

theorem constantNames_attachComponents (index used : Nat) (cs : List Component) :
    constantNames ((attachComponents index used cs).flatMap Component.allConnectors) =
      numbered used (constants (cs.flatMap Component.allConnectors)) := by
  induction cs generalizing index used with
  | nil => rfl
  | cons c rest ih =>
    rw [attachComponents, List.flatMap_cons, List.flatMap_cons, constantNames_append,
      constantNames_attachComponent, ih, constants_append, numbered_add]

end Design

namespace Expansion

open Connector

mutual

/-- A node comes before the nodes below it. -/
theorem constantNames_flatten (portsOf : String → List Port) (parent : Option Nat) (index used : Nat) :
    ∀ t : Expansion, constantNames ((t.flatten portsOf parent index used).flatMap Expanded.connectors) =
      numbered used t.constants
  | node _ _ _ connectors children => by
    rw [flatten, List.flatMap_cons, constantNames_append, constantNames_attachAll,
      constantNames_flattenAll _ _ _ _ children, constants, numbered_add]

theorem constantNames_flattenAll (portsOf : String → List Port) (parent : Option Nat)
    (index used : Nat) : ∀ ts : List Expansion,
    constantNames ((flattenAll portsOf parent index used ts).flatMap Expanded.connectors) =
      numbered used (constantsAll ts)
  | [] => rfl
  | t :: rest => by
    rw [flattenAll, List.flatMap_append, constantNames_append, constantNames_flatten _ _ _ _ t,
      constantNames_flattenAll _ _ _ _ rest, constantsAll, numbered_add]

end

end Expansion

/-! ## Ends -/

/-- The failure is that there is no place to look: the connector has no scope, or its scope belongs to
nothing. -/
def ResolutionError.isUnplaced : ResolutionError → Bool
  | missingScope .. => true
  | detachedConnector .. => true
  | _ => false

namespace Model

variable {m : Model} {k : Connector} {s : Spanning}

theorem isUnplaced_eq_false {e : ResolutionError} (h : blamesPlace e = true) : e.isUnplaced = false := by
  cases e <;> first | rfl | cases h

/-- What has a place is looked up there. -/
theorem isUnplaced_resolveEnd (hs : k.scope.bind m.spanning? = some s) {raw : String} {end_ : Endpoint}
    {e : ResolutionError} (h : m.resolveEnd raw k end_ = .error e) : e.isUnplaced = false := by
  obtain ⟨scope, hscope, hs⟩ := Option.bind_eq_some_iff.1 hs
  simp only [resolveEnd, hscope] at h
  cases hr : PortRef.parse raw with
  | ok r => exact isUnplaced_eq_false (blamesPlace_lookup hs hr h)
  | error fault =>
    simp only [lookup, hs, hr] at h
    cases h
    rfl

theorem isUnplaced_sourcePort (hs : k.scope.bind m.spanning? = some s) {e : ResolutionError}
    (h : m.sourcePort k = .error e) : e.isUnplaced = false := by
  unfold sourcePort at h
  split at h
  · cases h
  · exact isUnplaced_resolveEnd hs h

theorem isUnplaced_simpleSourcePort (hs : k.scope.bind m.spanning? = some s) {i : Instance}
    {e : ResolutionError} (h : m.simpleSourcePort i k = .error e) : e.isUnplaced = false := by
  unfold simpleSourcePort at h
  split at h
  · cases h
  · exact isUnplaced_resolveEnd hs h

/-- The connectors of the components, each before those of its instances, and then those of the
nodes. -/
def connectors (m : Model) : List Connector :=
  m.components.flatMap Component.allConnectors ++ m.expanded.flatMap Expanded.connectors

end Model

/-! ## Attachment -/

namespace Design

/-- How the connectors of a design stand in a model of it: everything is in the order in which it was
declared and as it was, but for scopes and the numbers of constants. -/
structure Attaches (d : Design) (m : Model) : Prop where
  components : m.components.map Component.detached = d.components.map Component.detached
  nodes : m.expanded.map (fun e => (e.name, e.type, e.span, e.connectors.map Connector.detached)) =
    (Expansion.subtreesAll d.expansions).map fun t =>
      (t.name, t.type, t.span, t.connectors.map Connector.detached)
  /-- The scope of a connector belongs to the component that declares it. -/
  inComponent : ∀ (index : Nat) (c : Component), m.components[index]? = some c → ∀ k ∈ c.allConnectors,
    k.scope = some (.component index) ∧ k.scope.bind m.spanning? = some (.component c)
  inNode : ∀ (index : Nat) (e : Expanded), m.expanded[index]? = some e → ∀ k ∈ e.connectors,
    k.scope = some (.expanded index) ∧ k.scope.bind m.spanning? = some (.expanded e)
  numbers : Connector.constantNames m.connectors =
    Connector.numbered 0 (Connector.constants m.connectors)
  ends : ∀ k ∈ m.connectors, ∀ (i : Instance) (e : ResolutionError), m.sourcePort k = .error e ∨
    m.simpleSourcePort i k = .error e ∨ m.targetPort k = .error e → e.isUnplaced = false

theorem detached_attachComponent (index used : Nat) (c : Component) :
    (attachComponent index used c).detached = c.detached := by
  have hinstances : ∀ scope used is, (attachInstances scope used is).map Instance.detached =
      is.map Instance.detached := by
    intro scope used is
    induction is generalizing used with
    | nil => rfl
    | cons i rest ih =>
      rw [attachInstances, List.map_cons, List.map_cons, ih, Instance.detached, Instance.detached,
        Connector.map_detached_attachAll]
  simp only [Component.detached, attachComponent, Connector.map_detached_attachAll, hinstances]

theorem constantNames_assemble (d : Design) : Connector.constantNames d.assemble.connectors =
    Connector.numbered 0 (Connector.constants d.assemble.connectors) := by
  have hnames : Connector.constantNames d.assemble.connectors =
      Connector.numbered 0 (d.componentConstants + Expansion.constantsAll d.expansions) := by
    rw [Model.connectors, Connector.constantNames_append, assemble, constantNames_attachComponents,
      Expansion.constantNames_flattenAll, Connector.numbered_add, Nat.zero_add, componentConstants]
  have hcount := congrArg List.length hnames
  rw [Connector.length_constantNames, Connector.length_numbered] at hcount
  rw [hnames, hcount]

/-- Whatever is built has its connectors where they are declared, and its constants numbered from one
on. -/
theorem attaches_of_build {d : Design} {m : Model} (h : d.build = .ok m) : d.Attaches m := by
  have hwf := wellFormed_of_build h
  obtain ⟨-, rfl⟩ := build_eq_ok_iff.1 h
  have hcomponent : ∀ (index : Nat) (c : Component), d.assemble.components[index]? = some c →
      ∀ k ∈ c.allConnectors, k.scope = some (.component index) ∧
        k.scope.bind d.assemble.spanning? = some (.component c) := by
    intro index c hc k hk
    have hscope := (hwf.attached index c hc k hk).scope
    refine ⟨hscope, ?_⟩
    rw [hscope, Option.bind_some, Model.spanning?_component hc]
  have hnode : ∀ (index : Nat) (e : Expanded), d.assemble.expanded[index]? = some e →
      ∀ k ∈ e.connectors, k.scope = some (.expanded index) ∧
        k.scope.bind d.assemble.spanning? = some (.expanded e) := by
    intro index e he k hk
    have hscope := ((hwf.placed index e he).attached k hk).scope
    rw [Nat.zero_add] at hscope
    refine ⟨hscope, ?_⟩
    rw [hscope, Option.bind_some, Model.spanning?_expanded he]
  have hplace : ∀ k ∈ d.assemble.connectors, ∃ s, k.scope.bind d.assemble.spanning? = some s := by
    intro k hk
    rcases List.mem_append.1 hk with hk | hk
    · obtain ⟨c, hc, hk⟩ := List.mem_flatMap.1 hk
      obtain ⟨index, hc⟩ := List.mem_iff_getElem?.1 hc
      exact ⟨_, (hcomponent index c hc k hk).2⟩
    · obtain ⟨e, he, hk⟩ := List.mem_flatMap.1 hk
      obtain ⟨index, he⟩ := List.mem_iff_getElem?.1 he
      exact ⟨_, (hnode index e he k hk).2⟩
  refine ⟨map_attachComponents detached_attachComponent 0 0 _, ?_, hcomponent, hnode,
    constantNames_assemble d, ?_⟩
  · refine Expansion.map_flattenAll (fun parent index used t => ?_) none 0 _ d.expansions
    rw [Expansion.rootAt, Connector.map_detached_attachAll]
  · intro k hk i e he
    obtain ⟨s, hs⟩ := hplace k hk
    rcases he with he | he | he
    · exact Model.isUnplaced_sourcePort hs he
    · exact Model.isUnplaced_simpleSourcePort hs he
    · exact Model.isUnplaced_resolveEnd hs he

/-- Constants in front of a component, on it, on its instance, and inside a tree, and wires between
them. -/
def constantsDesign : Design where
  components := [
    { name := "Gain", ports := [.incoming "x" {}, .outgoing "y" {}]
      connectors := [.ofConstant "0" "y" {}] },
    { name := "Outer", ports := [.outgoing "b" {}]
      instances := [{ name := "g", type := "Gain"
                      connectors := [.wired "y" "b" {}, .ofConstant "1" "g.x" {}] }]
      connectors := [.ofConstant "2" "b" {}, .wired "g.y" "b" {}] }]
  expansions := [.node "top" "Outer" {} [.wired "g.y" "b" {}]
    [.node "g" "Gain" {} [.ofConstant "3" "y" {}] []]]

theorem attaches_of_build_constants :
    constantsDesign.build = .ok constantsDesign.assemble ∧
    constantsDesign.Attaches constantsDesign.assemble ∧
    constantsDesign.assemble.connectors.map (fun k => (k.source, k.scope)) = [
      ("CONSTANTPORT1", some (.component 0)),
      ("CONSTANTPORT2", some (.component 1)), ("g.y", some (.component 1)),
      ("y", some (.component 1)), ("CONSTANTPORT3", some (.component 1)),
      ("g.y", some (.expanded 0)), ("CONSTANTPORT4", some (.expanded 1))] :=
  ⟨rfl, attaches_of_build rfl, by decide⟩

end Design

end Interconnect
