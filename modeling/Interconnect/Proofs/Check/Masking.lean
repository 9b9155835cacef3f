/-
Ends that fail are no use. In a loaded model what is written on an end that denotes no port is not the
name of a port that this end could be wired to; so only ends that are resolved keep a port from being
told, whatever may be wrong with the others.
-/
import Interconnect.Proofs.Check.Loose
import Interconnect.Proofs.Resolution

namespace Interconnect

namespace Model

section

variable {m : Model} (hm : m.WellFormed) (hnamed : ∀ c ∈ m.components, c.WellNamed) {index : Nat}
  {c : Component} (hc : m.components[index]? = some c) {i : Instance} (hi : i ∈ c.instances)
  {type : Component} (ht : m.find? i.type = some type) {p : Port} (hp : p ∈ type.ports)

include hm hnamed hc hi ht hp

/-- The name of a port of an instance is resolved on the end that the port is for. -/
theorem lookup_portName {e : Endpoint} (hd : p.direction = e.subcomponent) :
    ∃ q, m.lookup (i.qualify p.name) (.component index) (some e) = .ok q := by
  have hcm : c ∈ m.components := List.mem_of_getElem? hc
  have htm : type ∈ m.components := List.mem_of_find?_eq_some ht
  have hfind : Port.find type.ports p.name (some e.subcomponent) = some p := by
    rw [← hd]
    exact Port.findDirected_eq (hm.distinct type htm).ports hp
  exact ⟨_, lookup_qualify hc ((hm.distinct c hcm).findInstance_eq hi)
    ((hnamed c hcm).instances i hi).1 ht ((hnamed type htm).ports p hp).nonempty hfind⟩

/-- What is written on an end that fails is not the name of a port that the end is for. -/
theorem text_ne_of_failing {x : Site} (hx : x ∈ c.sites index) {e : Endpoint}
    {error : ResolutionError} (he : m.siteEnd x e = .error error) (hd : p.direction = e.subcomponent) :
    x.text e ≠ i.qualify p.name := by
  intro htext
  obtain ⟨hscope, hk⟩ := mem_sites_component hx
  have hattached : x.connector.scope = some x.scope := by
    rw [hscope]
    exact (hm.attached index c hc _ hk).scope
  -- a constant's source does not fail, so the end is looked up by its text
  have hwired : e = .source → x.connector.isConstant = false := by
    rintro rfl
    by_contra hconstant
    obtain ⟨q, -, hq⟩ := siteEnd_constant (m := m) (Bool.not_eq_false _ ▸ hconstant)
    rw [hq] at he
    cases he
  obtain ⟨q, hq⟩ := lookup_portName hm hnamed hc hi ht hp hd
  rw [siteEnd_eq_lookup hattached hwired, htext, hscope, hq] at he
  cases he

end

/-- In a loaded model, what is written on an end of a connector that fails is not the name of a port that
this end is for. So a port of an instance is told exactly when each end that has its name fails, but for
the incoming ports that carry constants. -/
theorem unresolved_masks_nothing {text : String} {m : Model} (h : Manifest.load text = .ok m)
    (levels : Levels) {index : Nat} {c : Component} (hc : m.components[index]? = some c) :
    (∀ x ∈ c.sites index, ∀ e error, m.siteEnd x e = .error error →
      ∀ i ∈ c.instances, ∀ type, m.find? i.type = some type →
        ∀ p ∈ type.ports, p.direction = e.subcomponent → x.text e ≠ i.qualify p.name) ∧
    ∀ i ∈ c.instances, ∀ type, m.find? i.type = some type →
      ∀ p ∈ type.ports, ∀ e, p.direction = e.subcomponent →
        (Finding.unused levels c i e.subcomponent (i.qualify p.name) ∈ m.checkComponent levels index ↔
          (∀ x ∈ c.sites index, x.text e = i.qualify p.name →
            ∃ error, m.siteEnd x e = .error error) ∧ (e = .target → ¬ p.CarriesConstant)) := by
  have hm := Manifest.wellFormed_of_load h
  have hnamed := Manifest.wellNamed_of_load h
  have hmasks : ∀ x ∈ c.sites index, ∀ e error, m.siteEnd x e = .error error →
      ∀ i ∈ c.instances, ∀ type, m.find? i.type = some type →
        ∀ p ∈ type.ports, p.direction = e.subcomponent → x.text e ≠ i.qualify p.name :=
    fun x hx e error he i hi type ht p hp hd => text_ne_of_failing hm hnamed hc hi ht hp hx he hd
  refine ⟨hmasks, fun i hi type ht p hp e hd => ?_⟩
  have hconstant : PortRef.namesConstant (i.qualify p.name) = true ↔ p.CarriesConstant :=
    PortRef.namesConstant_qualify ((hnamed c (List.mem_of_getElem? hc)).instances i hi).1
      ((hnamed type (List.mem_of_find?_eq_some ht)).ports p hp).nonempty
  rw [told_iff_loose levels hc hi ht hp hd, Component.Loose, Component.names_iff index, hconstant]
  refine and_congr_left fun _ => ⟨fun hfree x hx htext => absurd ⟨x, hx, htext⟩ hfree, ?_⟩
  rintro hfail ⟨x, hx, htext⟩
  obtain ⟨error, he⟩ := hfail x hx htext
  exact hmasks x hx e error he i hi type ht p hp hd htext

/-- A connector that has the ports of an instance the wrong way round, in a component that is called like
the instance. -/
def crossedManifest : String :=
  "[[component]]\nname = \"T\"\nin = [\"x\"]\nout = [\"y\"]\n" ++
  "[[component]]\nname = \"s\"\nin = [\"y\"]\ninstance = [[\"s\", \"T\"]]\n" ++
  "[[component.connect]]\nsource = \"s.x\"\ntarget = \"s.y\"\n"

def crossedType : Component where
  name := "T"
  ports := [.incoming "x" ⟨31, 34⟩, .outgoing "y" ⟨43, 46⟩]
  span := ⟨21, 24⟩

def crossedInstance : Instance where
  name := "s"
  type := "T"
  span := ⟨97, 105⟩

def crossedComponent : Component where
  name := "s"
  ports := [.incoming "y" ⟨79, 82⟩]
  instances := [crossedInstance]
  connectors := [(Connector.wired "s.x" "s.y" ⟨139, 159⟩).attach (.component 1)]
  span := ⟨69, 72⟩

def crossedModel : Model where
  components := [crossedType, crossedComponent]

/-- Both ends fail, so neither of them keeps a port from being told. -/
theorem unresolved_masks_nothing_crossed :
    Manifest.load crossedManifest = .ok crossedModel ∧
    (∀ x ∈ crossedComponent.sites 1, (x.text .source, x.text .target) = ("s.x", "s.y") ∧
      x.text .target ≠ crossedInstance.qualify "x" ∧ x.text .source ≠ crossedInstance.qualify "y") ∧
    Finding.unused {} crossedComponent crossedInstance .incoming "s.x" ∈
      crossedModel.checkComponent {} 1 ∧
    Finding.unused {} crossedComponent crossedInstance .outgoing "s.y" ∈
      crossedModel.checkComponent {} 1 := by
  have hload : Manifest.load crossedManifest = .ok crossedModel := by decide +kernel
  have hc : crossedModel.components[1]? = some crossedComponent := rfl
  have hi : crossedInstance ∈ crossedComponent.instances := List.mem_cons_self ..
  have ht : crossedModel.find? crossedInstance.type = some crossedType := rfl
  have hx : Port.incoming "x" ⟨31, 34⟩ ∈ crossedType.ports := by decide
  have hy : Port.outgoing "y" ⟨43, 46⟩ ∈ crossedType.ports := by decide
  have hends : ∀ x ∈ crossedComponent.sites 1, ∀ e, ∃ error, crossedModel.siteEnd x e = .error error := by
    intro x hx e
    cases List.mem_singleton.1 hx
    cases e <;> exact ⟨_, rfl⟩
  obtain ⟨hmasks, htold⟩ := unresolved_masks_nothing hload {} hc
  refine ⟨hload, fun x hsite => ⟨?_, ?_, ?_⟩, ?_, ?_⟩
  · cases List.mem_singleton.1 hsite
    rfl
  · obtain ⟨error, he⟩ := hends x hsite .target
    exact hmasks x hsite .target error he _ hi _ ht _ hx rfl
  · obtain ⟨error, he⟩ := hends x hsite .source
    exact hmasks x hsite .source error he _ hi _ ht _ hy rfl
  · exact (htold _ hi _ ht _ hx .target rfl).2 ⟨fun x h _ => hends x h _, fun _ => by decide⟩
  · exact (htold _ hi _ ht _ hy .source rfl).2 ⟨fun x h _ => hends x h _, nofun⟩

end Model

end Interconnect
