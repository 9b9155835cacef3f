/-
Names in loaded models. A name has no flaw exactly when it is a single segment, and a manifest is
only loaded without flaws; so whatever is named in a loaded model can stand before a dot.
-/
import Interconnect.Proofs.Design.WellFormed
import Interconnect.Proofs.Manifest.Drafting
import Interconnect.Proofs.PortRef

namespace Interconnect

/-- Every name that the component declares or mentions as a type is a single segment. -/
structure Component.WellNamed (c : Component) : Prop where
  name : IsSegment c.name
  ports : ∀ p ∈ c.ports, IsSegment p.name
  instances : ∀ i ∈ c.instances, IsSegment i.name ∧ IsSegment i.type

namespace Manifest

/-! ## Flaws -/

theorem nameFlaws_eq_nil_iff (role : Role) (name : Toml.Placed String) :
    nameFlaws role name = [] ↔ IsSegment name.value := by
  unfold nameFlaws
  split
  · rename_i h
    exact ⟨nofun, fun hs => absurd (List.isEmpty_iff.1 h) hs.nonempty⟩
  · rename_i h
    split
    · rename_i hd
      exact ⟨nofun, fun hs => absurd (List.contains_iff_mem.1 hd) hs.dotless⟩
    · rename_i hd
      refine ⟨fun _ => ⟨fun e => h ?_, fun hm => hd (List.contains_iff_mem.2 hm)⟩, fun _ => rfl⟩
      rw [e]
      rfl

theorem InstanceEntry.segments_of_flaws {i : InstanceEntry} (h : i.flaws = []) :
    IsSegment i.inst.name ∧ IsSegment i.inst.type := by
  rw [flaws, List.append_eq_nil_iff, List.append_eq_nil_iff, nameFlaws_eq_nil_iff,
    nameFlaws_eq_nil_iff] at h
  exact h.1

theorem ComponentEntry.wellNamed_of_flaws {c : ComponentEntry} (h : c.flaws = []) :
    c.component.WellNamed := by
  simp only [flaws, List.append_eq_nil_iff, List.flatMap_eq_nil_iff, nameFlaws_eq_nil_iff] at h
  obtain ⟨⟨⟨⟨hname, hin⟩, hout⟩, hinst⟩, -⟩ := h
  refine ⟨hname, fun p hp => ?_, fun i hi => ?_⟩
  · rcases List.mem_append.1 hp with hp | hp
    · obtain ⟨n, hn, rfl⟩ := List.mem_map.1 hp
      exact hin n hn
    · obtain ⟨n, hn, rfl⟩ := List.mem_map.1 hp
      exact hout n hn
  · obtain ⟨e, he, rfl⟩ := List.mem_map.1 hi
    exact e.segments_of_flaws (hinst e he)

/-! ## Loading -/

/-- A loaded model is what the design of a manifest without flaws builds into. -/
theorem load_eq_ok {text : String} {m : Model} (h : load text = .ok m) :
    ∃ d : Declarations, d.flaws = [] ∧ d.design.build = .ok m := by
  cases hd : declarations text with
  | error failure =>
    rw [load, hd] at h
    cases h
  | ok d => exact ⟨d, (load_eq_ok_iff hd).1 h⟩

theorem wellFormed_of_load {text : String} {m : Model} (h : load text = .ok m) : m.WellFormed := by
  obtain ⟨d, -, hb⟩ := load_eq_ok h
  exact Design.wellFormed_of_build hb

/-- Attaching renames nothing that is declared. -/
theorem wellNamed_attachComponent {c : Component} (index used : Nat) (h : c.WellNamed) :
    (Design.attachComponent index used c).WellNamed := by
  refine ⟨h.name, h.ports, fun i hi => ?_⟩
  have hm : (i.name, i.type) ∈ (Design.attachComponent index used c).instances.map
      fun i => (i.name, i.type) := List.mem_map_of_mem hi
  rw [Design.attachComponent, Design.map_attachInstances fun _ _ => rfl] at hm
  obtain ⟨i₀, hi₀, he⟩ := List.mem_map.1 hm
  obtain ⟨hn, ht⟩ := Prod.mk.inj he
  rw [← hn, ← ht]
  exact h.instances i₀ hi₀

theorem wellNamed_of_load {text : String} {m : Model} (h : load text = .ok m) :
    ∀ c ∈ m.components, c.WellNamed := by
  obtain ⟨d, hf, hb⟩ := load_eq_ok h
  obtain ⟨-, rfl⟩ := Design.build_eq_ok_iff.1 hb
  intro c hc
  obtain ⟨index, hi⟩ := List.mem_iff_getElem?.1 hc
  obtain ⟨used, c₀, hc₀, rfl⟩ := Design.components_assemble hi
  obtain ⟨e, he, rfl⟩ := List.mem_map.1 (List.mem_of_getElem? hc₀)
  rw [Declarations.flaws, List.append_eq_nil_iff, List.flatMap_eq_nil_iff] at hf
  exact wellNamed_attachComponent index used (e.wellNamed_of_flaws (hf.1 e he))

end Manifest

end Interconnect
