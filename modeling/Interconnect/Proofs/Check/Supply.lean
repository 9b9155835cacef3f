/-
What an incoming port that is not told is fed from. Usage is decided on names and ends are resolved;
in a loaded model the two agree: a port that is not told is what some connector resolves to, unless
the component is called like the instance and its own boundary has an outgoing port of that name.
-/
import Interconnect.Proofs.Check.Loose
import Interconnect.Proofs.Resolution

namespace Interconnect

namespace Model

section

variable {m : Model} {index : Nat} {c : Component} (hc : m.components[index]? = some c)
  {i : Instance} (hi : i ∈ c.instances) (hn : IsSegment i.name)
  {type : Component} (ht : m.find? i.type = some type)
  {p : Port} (hp : p ∈ type.incomingPorts) (hne : p.name.toList ≠ [])

include hc hi hn ht hp hne

/-- A port that is not told is fed by name. -/
theorem feeds_of_untold {levels : Levels} (hk : ¬ p.CarriesConstant)
    (hu : Finding.unused levels c i .incoming (i.qualify p.name) ∉ m.checkComponent levels index) :
    c.Feeds (i.qualify p.name) := by
  obtain ⟨hp, hd⟩ := Component.mem_incomingPorts.1 hp
  by_contra hf
  refine hu ((told_iff_loose (e := .target) levels hc hi ht hp hd).2 ⟨hf, fun _ h => ?_⟩)
  exact hk ((PortRef.namesConstant_qualify hn hne).1 h)

/-- Every connector with an incoming port of an instance for its target feeds that port, or else the
port of the boundary that shadows it. -/
theorem targetPort_eq (hm : m.WellFormed) {k : Connector} (hk : k ∈ c.allConnectors)
    (htext : k.target = i.qualify p.name) :
    m.targetPort k = .ok ((c.shadowing? i p.name (some .target)).getD p) := by
  have hscope : k.scope = some (.component index) := (hm.attached index c hc k hk).scope
  have hinst : c.findInstance i.name = some i :=
    (hm.distinct c (List.mem_of_getElem? hc)).findInstance_eq hi
  obtain ⟨hmem, hdir⟩ := Component.mem_incomingPorts.1 hp
  have hfind : Port.findDirected type.ports p.name .incoming = some p := by
    have hf := Port.findDirected_eq (hm.distinct type (List.mem_of_find?_eq_some ht)).ports hmem
    rwa [hdir] at hf
  simp only [targetPort, resolveEnd, hscope, htext]
  exact lookup_qualify hc hinst hn ht hne hfind

end

/-- In a loaded model, an incoming port of an instance that has to be fed and is not told is the target
of a connector: its name is written there, and it is what the connector resolves to, unless the
component is called like the instance and has an outgoing port of that name, which then is. -/
theorem supplied_of_untold {text : String} {m : Model} (h : Manifest.load text = .ok m)
    (levels : Levels) {index : Nat} {c : Component} (hc : m.components[index]? = some c)
    {i : Instance} (hi : i ∈ c.instances) {type : Component} (ht : m.find? i.type = some type)
    {p : Port} (hp : p ∈ type.incomingPorts) (hk : ¬ p.CarriesConstant)
    (hu : Finding.unused levels c i .incoming (i.qualify p.name) ∉ m.checkComponent levels index) :
    ∃ k ∈ c.allConnectors, k.target = i.qualify p.name ∧
      ((∀ q ∈ c.outgoingPorts, q.name = p.name → i.name ≠ c.name) → m.targetPort k = .ok p) ∧
      ∀ q ∈ c.outgoingPorts, q.name = p.name → i.name = c.name → m.targetPort k = .ok q := by
  have hm := Manifest.wellFormed_of_load h
  have hnamed := Manifest.wellNamed_of_load h
  have hcm : c ∈ m.components := List.mem_of_getElem? hc
  have hn : IsSegment i.name := ((hnamed c hcm).instances i hi).1
  have hne : p.name.toList ≠ [] :=
    ((hnamed type (List.mem_of_find?_eq_some ht)).ports p
      (Component.mem_incomingPorts.1 hp).1).nonempty
  obtain ⟨k, hkc, htext⟩ := feeds_of_untold hc hi hn ht hp hne hk hu
  have htarget := targetPort_eq hc hi hn ht hp hne hm hkc htext
  have hshadow : ∀ q, c.shadowing? i p.name (some .target) = some q ↔
      i.name = c.name ∧ q ∈ c.outgoingPorts ∧ q.name = p.name := fun _ =>
    (hm.distinct c hcm).shadowing?_eq_some_iff
  refine ⟨k, hkc, htext, fun hfree => ?_, fun q hq hname hown => ?_⟩
  · cases hs : c.shadowing? i p.name (some .target) with
    | none => rwa [hs] at htarget
    | some q =>
      obtain ⟨hown, hq, hname⟩ := (hshadow q).1 hs
      exact absurd hown (hfree q hq hname)
  · rwa [(hshadow q).2 ⟨hown, hq, hname⟩] at htarget

/-- A component that is called like its instance, and has a port for one of the two that it feeds. -/
def shadowManifest : String :=
  "[[component]]\nname = \"T\"\nin = [\"x\", \"z\"]\n" ++
  "[[component]]\nname = \"s\"\nin = [\"a\"]\nout = [\"x\"]\ninstance = [[\"s\", \"T\"]]\n" ++
  "[[component.connect]]\nsource = \"a\"\ntarget = \"s.x\"\n" ++
  "[[component.connect]]\nsource = \"a\"\ntarget = \"s.z\"\n"

def shadowModel : Model where
  components := [
    { name := "T", span := ⟨21, 24⟩, ports := [.incoming "x" ⟨31, 34⟩, .incoming "z" ⟨36, 39⟩] },
    { name := "s", span := ⟨62, 65⟩
      ports := [.incoming "a" ⟨72, 75⟩, .outgoing "x" ⟨84, 87⟩]
      instances := [{ name := "s", type := "T", span := ⟨102, 110⟩ }]
      connectors := [
        (Connector.wired "a" "s.x" ⟨144, 162⟩).attach (.component 1),
        (Connector.wired "a" "s.z" ⟨194, 212⟩).attach (.component 1)] }]

theorem load_shadowManifest : Manifest.load shadowManifest = .ok shadowModel := by
  decide +kernel

/-- The port without a namesake on the boundary is fed. -/
theorem supplied_of_untold_shadow :
    Manifest.load shadowManifest = .ok shadowModel ∧
    ∃ c i type, shadowModel.components[1]? = some c ∧ i ∈ c.instances ∧
      shadowModel.find? i.type = some type ∧ .incoming "z" ⟨36, 39⟩ ∈ type.incomingPorts ∧
      Finding.unused {} c i .incoming (i.qualify "z") ∉ shadowModel.checkComponent {} 1 ∧
      ∃ k ∈ c.allConnectors, k.target = i.qualify "z" ∧
        shadowModel.targetPort k = .ok (.incoming "z" ⟨36, 39⟩) := by
  have hc : shadowModel.components[1]? = some _ := rfl
  obtain ⟨k, hk, htext, hport, -⟩ := supplied_of_untold load_shadowManifest {} hc
    (List.mem_cons_self ..) rfl (p := .incoming "z" ⟨36, 39⟩) (by decide) (by decide) (by decide)
  exact ⟨load_shadowManifest, _, _, _, rfl, List.mem_cons_self .., rfl, by decide, by decide, k, hk,
    htext, hport (by decide)⟩

/-- The other port is not told either, but what is written as its name denotes the boundary. -/
theorem shadowed_of_untold :
    Manifest.load shadowManifest = .ok shadowModel ∧
    ∃ c i type p, shadowModel.components[1]? = some c ∧ i ∈ c.instances ∧
      shadowModel.find? i.type = some type ∧ p ∈ type.incomingPorts ∧ ¬ p.CarriesConstant ∧
      Finding.unused {} c i .incoming (i.qualify p.name) ∉ shadowModel.checkComponent {} 1 ∧
      ¬ ∃ k ∈ c.allConnectors, k.target = i.qualify p.name ∧ shadowModel.targetPort k = .ok p :=
  ⟨load_shadowManifest, _, _, _, .incoming "x" ⟨31, 34⟩, rfl, List.mem_cons_self .., rfl, by decide,
    by decide, by decide, by decide⟩

end Model

end Interconnect
