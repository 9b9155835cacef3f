/-
Components of models. The component at a position is the declared one, attached to that position
after all constants before it: its connectors and those of its instances get its scope, and the
constant ones among them their numbers. Nothing else of it changes.
-/
import Interconnect.Design
import Interconnect.Proofs.Connector

namespace Interconnect

namespace Design

/-- Whatever does not depend on the connectors of instances stays as it is. -/
theorem map_attachInstances {α : Type} {f : Instance → α}
    (hf : ∀ i ks, f { i with connectors := ks } = f i) (scope : Scope) (used : Nat)
    (is : List Instance) : (attachInstances scope used is).map f = is.map f := by
  induction is generalizing used with
  | nil => rfl
  | cons i rest ih => rw [attachInstances, List.map_cons, hf, ih, List.map_cons]

theorem map_attachComponents {α : Type} {f : Component → α}
    (hf : ∀ index used c, f (attachComponent index used c) = f c) (index used : Nat)
    (cs : List Component) : (attachComponents index used cs).map f = cs.map f := by
  induction cs generalizing index used with
  | nil => rfl
  | cons c rest ih => rw [attachComponents, List.map_cons, hf, ih, List.map_cons]

theorem attached_attachInstances {scope : Scope} {used : Nat} {is : List Instance} :
    ∀ i ∈ attachInstances scope used is, ∀ k ∈ i.connectors, k.Attached scope := by
  induction is generalizing used with
  | nil => nofun
  | cons i₀ rest ih =>
    intro i hi
    rcases List.mem_cons.1 hi with rfl | hi
    · exact Connector.attached_attachAll
    · exact ih i hi

theorem attached_attachComponent {index used : Nat} {c : Component} :
    ∀ k ∈ (attachComponent index used c).allConnectors, k.Attached (.component index) := by
  intro k hk
  rcases List.mem_append.1 hk with hk | hk
  · exact Connector.attached_attachAll k hk
  · obtain ⟨i, hi, hk⟩ := List.mem_flatMap.1 hk
    exact attached_attachInstances i hi k hk

/-- The component at `k`, behind all constants of the components before it. -/
theorem getElem?_attachComponents (index used : Nat) (cs : List Component) (k : Nat) :
    (attachComponents index used cs)[k]? = cs[k]?.map (attachComponent (index + k)
      (used + Connector.constants ((cs.take k).flatMap Component.allConnectors))) := by
  induction cs generalizing index used k with
  | nil => rfl
  | cons c rest ih =>
    cases k with
    | zero => rfl
    | succ k =>
      rw [attachComponents, List.getElem?_cons_succ, List.getElem?_cons_succ, ih, List.take_succ_cons,
        List.flatMap_cons, Connector.constants, Connector.constants, Connector.constants,
        List.countP_append, Nat.add_assoc, Nat.add_assoc, Nat.add_comm 1 k]

/-- A component of an assembly is a declared one, attached to its position. -/
theorem components_assemble {d : Design} {index : Nat} {c : Component}
    (h : d.assemble.components[index]? = some c) :
    ∃ used c₀, d.components[index]? = some c₀ ∧ c = attachComponent index used c₀ := by
  rw [assemble, getElem?_attachComponents, Nat.zero_add, Nat.zero_add] at h
  obtain ⟨c₀, hc, rfl⟩ := Option.map_eq_some_iff.1 h
  exact ⟨_, c₀, hc, rfl⟩

/-- A declared component is in the assembly, attached to its position. -/
theorem getElem?_assemble {d : Design} {index : Nat} {c : Component}
    (h : d.components[index]? = some c) :
    ∃ used, d.assemble.components[index]? = some (attachComponent index used c) := by
  have hget := getElem?_attachComponents 0 0 d.components index
  rw [h, Option.map_some, Nat.zero_add] at hget
  exact ⟨_, hget⟩

/-- A component type has the ports that are declared. -/
theorem ports_find?_assemble (d : Design) (name : String) :
    (d.assemble.find? name).map Component.ports =
      (d.components.find? (·.name = name)).map Component.ports := by
  have hkeys : d.assemble.components.map (fun c => (c.name, c.ports)) =
      d.components.map fun c => (c.name, c.ports) := map_attachComponents (fun _ _ _ => rfl) 0 0 _
  have hfind := congrArg (fun l => (l.find? (·.1 = name)).map Prod.snd) hkeys
  rwa [List.find?_map, List.find?_map, Option.map_map, Option.map_map] at hfind

end Design

end Interconnect
