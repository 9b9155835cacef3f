/-
The connectivity check. In a component, both ends of every connector must denote ports, every
incoming port of a subcomponent must be fed and every outgoing one read. Usage is decided on the
names as they are written. In an expanded instance only the ends of connectors are checked.
-/
import Interconnect.Diagnostic
import Interconnect.Resolution

namespace Interconnect

/-- How bad each class of findings is. -/
structure Levels where
  unusedPort : Severity := .error
  unresolvedEndpoint : Severity := .error
  deriving DecidableEq, Repr, Inhabited

/-! ## The names that a component's wiring uses -/

namespace Component

/-- The connectors declared on the instances of a component, each with its instance. -/
def simpleConnectors (c : Component) : List (Instance × Connector) :=
  c.instances.flatMap fun i => i.connectors.map (i, ·)

theorem mem_simpleConnectors {c : Component} {x : Instance × Connector} :
    x ∈ c.simpleConnectors ↔ x.1 ∈ c.instances ∧ x.2 ∈ x.1.connectors := by
  simp only [simpleConnectors, List.mem_flatMap, List.mem_map]
  exact ⟨fun ⟨i, hi, k, hk, e⟩ => e ▸ ⟨hi, hk⟩, fun ⟨hi, hk⟩ => ⟨x.1, hi, x.2, hk, rfl⟩⟩

end Component

/-- The names on the ends of the connectors of a component, as they are written. -/
structure Wiring where
  targets : List String
  sources : List String
  simpleTargets : List String
  /-- The sources of connectors on instances, which are ports of the instance. -/
  simpleSources : List String
  deriving DecidableEq, Repr

namespace Wiring

def ofComponent (c : Component) : Wiring where
  targets := c.connectors.map (·.target)
  sources := c.connectors.map (·.source)
  simpleTargets := c.simpleConnectors.map (·.2.target)
  simpleSources := c.simpleConnectors.map fun (i, k) => i.qualify k.source

/-- What is left of `names` without the used ones: first those of connectors on the component, and
then, if any are left, those of connectors on instances. -/
def unused (names own simple : List String) : List String :=
  let remaining := names.filter (!own.contains ·)
  if remaining.isEmpty then remaining else remaining.filter (!simple.contains ·)

theorem unused_eq (names own simple : List String) :
    unused names own simple = names.filter fun n => !simple.contains n && !own.contains n := by
  rw [unused, ← List.filter_filter]
  split
  · rename_i h
    rw [List.isEmpty_iff.1 h, List.filter_nil]
  · rfl

/-- The names of incoming ports of an instance that nothing feeds. Ports that only carry a constant
need not be fed. -/
def unfed (w : Wiring) (i : Instance) (type : Component) : List String :=
  (unused (i.portNames type.incomingPorts) w.targets w.simpleTargets).filter
    (!PortRef.namesConstant ·)

/-- The names of outgoing ports of an instance that nothing reads. -/
def unread (w : Wiring) (i : Instance) (type : Component) : List String :=
  unused (i.portNames type.outgoingPorts) w.sources w.simpleSources

end Wiring

namespace Connector

/-- Source and target, as `a -> s.x`; a constant connector shows its value. -/
def label (c : Connector) : String := c.constant.getD c.source ++ " -> " ++ c.target

/-- What stands on one end of a connector. -/
def reference (c : Connector) : Endpoint → String
  | .source => c.constant.getD c.source
  | .target => c.target

end Connector

/-! ## Findings -/

namespace Finding

def endpointCode : Endpoint → Code
  | .source => .unresolvedSource
  | .target => .unresolvedTarget

/-- An end of a connector that denotes no port. `owner` names the place of the connector. -/
def unresolved (levels : Levels) (e : Endpoint) (c : Connector) (owner : String)
    (error : ResolutionError) : Diagnostic where
  severity := levels.unresolvedEndpoint
  message := "no " ++ e.text ++ " port found for connector `" ++ c.label ++ "` in `" ++ owner ++ "`"
  code := some (endpointCode e)
  labels := [{ span := c.span, message := "cannot resolve `" ++ c.reference e ++ "`" }]
  help := some error.message

/-- Labels for an instance and for the component around it. -/
def instanceLabels (c : Component) (i : Instance) (message : String) : List Label :=
  [{ span := i.span, message },
   { span := c.span, message := "in component `" ++ c.name ++ "`", primary := false }]

/-- What would use a port: a target for an incoming one, a source for an outgoing one. -/
def unusedHelp (direction : Direction) (port owner : String) : String :=
  let wiring := match direction with
    | .incoming => "add a connector targeting `"
    | .outgoing => "add a connector reading from `"
  wiring ++ port ++ "` to `" ++ owner ++ "` or to one of its instances"

def unusedCode : Direction → Code
  | .incoming => .unusedIncoming
  | .outgoing => .unusedOutgoing

/-- A port of an instance that no connector uses. `port` is its name as connectors would have it. -/
def unused (levels : Levels) (c : Component) (i : Instance) (direction : Direction) (port : String) :
    Diagnostic where
  severity := levels.unusedPort
  message := "port `" ++ port ++ "` of subcomponent `" ++ PortRef.qualify c.name i.name ++
    "` is not used"
  code := some (unusedCode direction)
  labels := instanceLabels c i ("`" ++ port ++ "` is never connected")
  help := some (unusedHelp direction port c.name)

/-- An instance of a component type that is not declared. -/
def undeclared (levels : Levels) (c : Component) (i : Instance) : Diagnostic where
  severity := levels.unresolvedEndpoint
  message := "subcomponent `" ++ PortRef.qualify c.name i.name ++ "` has undeclared type `" ++
    i.type ++ "`"
  labels := instanceLabels c i "instance declared here"
  help := some "declare the component type or fix the instance's type name"

end Finding

/-! ## Checks -/

namespace Model

/-- The findings about the ends of one connector, given what its source resolves to. -/
def connectorFindings (m : Model) (levels : Levels) (owner : String) (c : Connector)
    (source : Except ResolutionError Port) : List Diagnostic :=
  (match source with
    | .ok _ => []
    | .error e => [Finding.unresolved levels .source c owner e]) ++
  (match m.targetPort c with
    | .ok _ => []
    | .error e => [Finding.unresolved levels .target c owner e])

/-- The findings about the connectors of a component, then about those of its instances. -/
def endpointFindings (m : Model) (levels : Levels) (c : Component) : List Diagnostic :=
  c.connectors.flatMap (fun k => m.connectorFindings levels c.name k (m.sourcePort k)) ++
  c.simpleConnectors.flatMap fun (i, k) =>
    m.connectorFindings levels c.name k (m.simpleSourcePort i k)

/-- The findings about one instance in a component: the incoming ports first. -/
def instanceFindings (m : Model) (levels : Levels) (c : Component) (w : Wiring) (i : Instance) :
    List Diagnostic :=
  match m.find? i.type with
  | none => [Finding.undeclared levels c i]
  | some type =>
    (w.unfed i type).map (Finding.unused levels c i .incoming) ++
      (w.unread i type).map (Finding.unused levels c i .outgoing)

def componentFindings (m : Model) (levels : Levels) (c : Component) : List Diagnostic :=
  m.endpointFindings levels c ++
    c.instances.flatMap (m.instanceFindings levels c (.ofComponent c))

/-- The findings about a component; none where there is no such component. -/
def checkComponent (m : Model) (levels : Levels) (index : Nat) : List Diagnostic :=
  match m.components[index]? with
  | none => []
  | some c => m.componentFindings levels c

/-- The findings about the connectors inside an expanded instance. -/
def checkExpanded (m : Model) (levels : Levels) (index : Nat) : List Diagnostic :=
  match m.expanded[index]?, m.fullName? index with
  | some e, some name =>
    e.connectors.flatMap fun k => m.connectorFindings levels name k (m.sourcePort k)
  | _, _ => []

/-- All findings: the components in order, then the expanded instances. -/
def findings (m : Model) (levels : Levels) : List Diagnostic :=
  (List.range m.components.length).flatMap (m.checkComponent levels) ++
  (List.range m.expanded.length).flatMap (m.checkExpanded levels)

/-- The warnings about a well connected model, or all findings about one that is not. -/
def check (m : Model) (levels : Levels) : Except (List Diagnostic) (List Diagnostic) :=
  let inComponents := (List.range m.components.length).foldl
    (fun g index => g.extend (m.checkComponent levels index)) ({} : Diagnostic.Collector)
  let all := (List.range m.expanded.length).foldl
    (fun g index => g.extend (m.checkExpanded levels index)) inComponents
  all.finish

theorem check_eq_verdict (m : Model) (levels : Levels) :
    m.check levels = Diagnostic.verdict (m.findings levels) := by
  rw [check, Diagnostic.Collector.foldl_extend, Diagnostic.Collector.foldl_extend,
    ← Diagnostic.Collector.extend_append]
  rfl

end Model

end Interconnect
