/-
The kinds of findings. Whatever a check tells is about an end of a connector that denotes no port, about
a port of an instance that no connector uses, or about an instance whose type is not declared; and it is
about a connector, an instance and a component of the model.
-/
import Interconnect.Check
import Interconnect.Proofs.Design.Numbering

namespace Interconnect

namespace Model

/-- The findings that there can be about a model. -/
inductive Finds (m : Model) (levels : Levels) : Diagnostic → Prop where
  | unresolved {k : Connector} (hk : k ∈ m.connectors) (e : Endpoint) (owner : String)
      (error : ResolutionError) : m.Finds levels (Finding.unresolved levels e k owner error)
  | unused {c : Component} (hc : c ∈ m.components) {i : Instance} (hi : i ∈ c.instances)
      (direction : Direction) (port : String) :
      m.Finds levels (Finding.unused levels c i direction port)
  | undeclared {c : Component} (hc : c ∈ m.components) {i : Instance} (hi : i ∈ c.instances)
      (ht : m.find? i.type = none) : m.Finds levels (Finding.undeclared levels c i)

variable {m : Model} {levels : Levels} {f : Diagnostic}

theorem mem_connectors_of_component {c : Component} (hc : c ∈ m.components) {k : Connector}
    (hk : k ∈ c.allConnectors) : k ∈ m.connectors :=
  List.mem_append_left _ (List.mem_flatMap.2 ⟨c, hc, hk⟩)

theorem mem_connectors_of_node {e : Expanded} (he : e ∈ m.expanded) {k : Connector}
    (hk : k ∈ e.connectors) : k ∈ m.connectors :=
  List.mem_append_right _ (List.mem_flatMap.2 ⟨e, he, hk⟩)

theorem finds_connectorFindings {k : Connector} (hk : k ∈ m.connectors) {owner : String}
    {source : Except ResolutionError Port} (h : f ∈ m.connectorFindings levels owner k source) :
    m.Finds levels f := by
  unfold connectorFindings at h
  rcases List.mem_append.1 h with h | h
  · split at h
    · cases h
    · rw [List.mem_singleton.1 h]
      exact .unresolved hk .source owner _
  · split at h
    · cases h
    · rw [List.mem_singleton.1 h]
      exact .unresolved hk .target owner _

theorem finds_endpointFindings {c : Component} (hc : c ∈ m.components)
    (h : f ∈ m.endpointFindings levels c) : m.Finds levels f := by
  rcases List.mem_append.1 h with h | h
  · obtain ⟨k, hk, h⟩ := List.mem_flatMap.1 h
    exact finds_connectorFindings (mem_connectors_of_component hc (List.mem_append_left _ hk)) h
  · obtain ⟨x, hx, h⟩ := List.mem_flatMap.1 h
    obtain ⟨hi, hk⟩ := Component.mem_simpleConnectors.1 hx
    have hall : x.2 ∈ c.allConnectors :=
      List.mem_append_right _ (List.mem_flatMap.2 ⟨x.1, hi, hk⟩)
    exact finds_connectorFindings (mem_connectors_of_component hc hall) h

theorem finds_instanceFindings {c : Component} (hc : c ∈ m.components) {i : Instance}
    (hi : i ∈ c.instances) {w : Wiring} (h : f ∈ m.instanceFindings levels c w i) :
    m.Finds levels f := by
  unfold instanceFindings at h
  split at h
  · rename_i ht
    rw [List.mem_singleton.1 h]
    exact .undeclared hc hi ht
  · rcases List.mem_append.1 h with h | h
    · obtain ⟨port, -, rfl⟩ := List.mem_map.1 h
      exact .unused hc hi .incoming port
    · obtain ⟨port, -, rfl⟩ := List.mem_map.1 h
      exact .unused hc hi .outgoing port

theorem finds_checkComponent {index : Nat} (h : f ∈ m.checkComponent levels index) :
    m.Finds levels f := by
  unfold checkComponent at h
  split at h
  · cases h
  · rename_i c hc
    have hc : c ∈ m.components := List.mem_of_getElem? hc
    rcases List.mem_append.1 h with h | h
    · exact finds_endpointFindings hc h
    · obtain ⟨i, hi, h⟩ := List.mem_flatMap.1 h
      exact finds_instanceFindings hc hi h

theorem finds_checkExpanded {index : Nat} (h : f ∈ m.checkExpanded levels index) :
    m.Finds levels f := by
  unfold checkExpanded at h
  split at h
  · rename_i e name he _
    obtain ⟨k, hk, h⟩ := List.mem_flatMap.1 h
    exact finds_connectorFindings (mem_connectors_of_node (List.mem_of_getElem? he) hk) h
  · cases h

/-- Whatever a check tells is of one of these kinds. -/
theorem finds_findings (h : f ∈ m.findings levels) : m.Finds levels f := by
  rcases List.mem_append.1 h with h | h
  · obtain ⟨index, -, h⟩ := List.mem_flatMap.1 h
    exact finds_checkComponent h
  · obtain ⟨index, -, h⟩ := List.mem_flatMap.1 h
    exact finds_checkExpanded h

end Model

end Interconnect
