/-
What holds of every model that is built: names tell components, ports and instances apart, every
connector is attached to the place that declares it, and every expanded node stands behind its
parent.
-/
import Interconnect.Proofs.Design.Attachment
import Interconnect.Proofs.Design.Distinct
import Interconnect.Proofs.Expansion.Arena

namespace Interconnect

structure Model.WellFormed (m : Model) : Prop where
  names : (m.components.map Component.name).Nodup
  distinct : ∀ c ∈ m.components, c.Distinct
  attached : ∀ (index : Nat) (c : Component), m.components[index]? = some c →
    ∀ k ∈ c.allConnectors, k.Attached (.component index)
  placed : Expanded.Placed none 0 m.expanded

namespace Design

/-- Attaching keeps the members of a component apart. -/
theorem distinct_attachComponent {c : Component} (index used : Nat) (h : c.Distinct) :
    (attachComponent index used c).Distinct :=
  ⟨h.ports, by rw [attachComponent, map_attachInstances fun _ _ => rfl]; exact h.instances⟩

/-- Whatever is built is well-formed. -/
theorem wellFormed_of_build {d : Design} {m : Model} (h : d.build = .ok m) : m.WellFormed := by
  obtain ⟨hnames, hdistinct⟩ := distinct_of_build h
  obtain ⟨-, rfl⟩ := build_eq_ok_iff.1 h
  refine ⟨?_, fun c hc => ?_, fun index c hc k hk => ?_, ?_⟩
  · rw [assemble, map_attachComponents fun _ _ _ => rfl]
    exact hnames
  · obtain ⟨index, hi⟩ := List.mem_iff_getElem?.1 hc
    obtain ⟨used, c₀, hc₀, rfl⟩ := components_assemble hi
    exact distinct_attachComponent index used (hdistinct c₀ (List.mem_of_getElem? hc₀))
  · obtain ⟨used, c₀, -, rfl⟩ := components_assemble hc
    exact attached_attachComponent k hk
  · exact Expansion.placed_flattenAll d.portsOf none 0 _ d.expansions

end Design

end Interconnect
