/-
References to ports of instances, seen from the component around them. They denote the port of the
instance's type, unless the component is called like the instance: then the reference may also be to
the component's own boundary, and what is found there comes first.
-/
import Interconnect.Resolution
import Interconnect.Proofs.Design.Distinct
import Interconnect.Proofs.PortRef

namespace Interconnect

namespace Component

variable {c : Component} {p : Port}

theorem mem_incomingPorts : p ∈ c.incomingPorts ↔ p ∈ c.ports ∧ p.direction = .incoming := by
  rw [incomingPorts, List.mem_filter, Port.isIncoming, decide_eq_true_iff]

theorem mem_outgoingPorts : p ∈ c.outgoingPorts ↔ p ∈ c.ports ∧ p.direction = .outgoing := by
  rw [outgoingPorts, List.mem_filter, Port.isOutgoing, decide_eq_true_iff]

/-- The port of its boundary that a component of the same name puts in the place of a port of an
instance. -/
def shadowing? (c : Component) (i : Instance) (port : String) (mode : Option Endpoint) :
    Option Port :=
  if i.name = c.name then Port.find c.ports port (mode.map Endpoint.boundary) else none

/-- A target is shadowed by an outgoing port of a component that is called like the instance. -/
theorem Distinct.shadowing?_eq_some_iff (h : c.Distinct) {i : Instance} {port : String} {q : Port} :
    c.shadowing? i port (some .target) = some q ↔
      i.name = c.name ∧ q ∈ c.outgoingPorts ∧ q.name = port := by
  unfold shadowing?
  by_cases hown : i.name = c.name
  · rw [if_pos hown]
    constructor
    · intro hf
      obtain ⟨hq, hname, hdir⟩ := Port.findDirected_eq_some hf
      exact ⟨hown, mem_outgoingPorts.2 ⟨hq, hdir⟩, hname⟩
    · rintro ⟨-, hq, rfl⟩
      obtain ⟨hq, hdir⟩ := mem_outgoingPorts.1 hq
      have hf := Port.findDirected_eq h.ports hq
      rwa [hdir] at hf
  · rw [if_neg hown]
    exact ⟨nofun, fun hq => absurd hq.1 hown⟩

end Component

/-! ## Looking up -/

namespace Model

theorem spanning?_component {m : Model} {index : Nat} {c : Component}
    (hc : m.components[index]? = some c) : m.spanning? (.component index) = some (.component c) := by
  rw [spanning?, hc]
  rfl

theorem spanning?_expanded {m : Model} {index : Nat} {e : Expanded}
    (he : m.expanded[index]? = some e) : m.spanning? (.expanded index) = some (.expanded e) := by
  rw [spanning?, he]
  rfl

theorem portIn_eq_ok_iff {ports : List Port} {raw name owner : String} {direction : Option Direction}
    {p : Port} :
    portIn ports raw name direction owner = .ok p ↔ Port.find ports name direction = some p := by
  unfold portIn
  cases Port.find ports name direction with
  | some q => simp
  | none =>
    cases direction with
    | none => simp
    | some expected =>
      dsimp only
      split <;> simp

/-- What is not found fails. -/
theorem portIn_of_find_eq_none {ports : List Port} {raw name owner : String}
    {direction : Option Direction} (h : Port.find ports name direction = none) :
    ∃ e, portIn ports raw name direction owner = .error e := by
  cases hr : portIn ports raw name direction owner with
  | error e => exact ⟨e, rfl⟩
  | ok p =>
    rw [portIn_eq_ok_iff, h] at hr
    cases hr

/-- A reference to a port that the type of an instance has is never lost: only a port of the boundary
can stand before it. -/
theorem lookup_qualify {m : Model} {index : Nat} {c : Component} (hc : m.components[index]? = some c)
    {i : Instance} (hi : c.findInstance i.name = some i) (hn : IsSegment i.name) {type : Component}
    (ht : m.find? i.type = some type) {port : String} (hne : port.toList ≠ [])
    {mode : Option Endpoint} {p : Port}
    (hp : Port.find type.ports port (mode.map Endpoint.subcomponent) = some p) :
    m.lookup (i.qualify port) (.component index) mode =
      .ok ((c.shadowing? i port mode).getD p) := by
  have hparse : PortRef.parse (i.qualify port) = .ok ⟨some i.name, port⟩ :=
    PortRef.parse_qualify hn hne
  have hdeclared : m.declaredPort (.component c) (i.qualify port) ⟨some i.name, port⟩ mode =
      some (.ok p) := by
    simp only [declaredPort, hi, ht, portIn_eq_ok_iff.2 hp]
  have hexpanded : m.expandedPort (.component c) (i.qualify port) ⟨some i.name, port⟩ mode = none :=
    rfl
  simp only [lookup, spanning?_component hc, hparse, hdeclared, hexpanded, Component.shadowing?]
  -- what is left to try before the type is the boundary, and only under the component's own name
  by_cases hown : i.name = c.name
  · have hboundary : boundaryPort (.component c) (i.qualify port) ⟨some i.name, port⟩ mode =
        some (portIn c.ports (i.qualify port) port (mode.map Endpoint.boundary) c.name) :=
      if_pos (decide_eq_true hown)
    rw [if_pos hown, hboundary]
    cases hf : Port.find c.ports port (mode.map Endpoint.boundary) with
    | some q =>
      rw [portIn_eq_ok_iff.2 hf]
      rfl
    | none =>
      obtain ⟨e, he⟩ : ∃ e, portIn c.ports (i.qualify port) port (mode.map Endpoint.boundary) c.name =
          .error e := portIn_of_find_eq_none hf
      rw [he]
      rfl
  · have hboundary : boundaryPort (.component c) (i.qualify port) ⟨some i.name, port⟩ mode = none :=
      if_neg fun h => hown (of_decide_eq_true h)
    rw [if_neg hown, hboundary]
    rfl

end Model

end Interconnect
