/-
What a wired connector on an instance reads from. Its source is meant relative to the instance, as an
outgoing port of the type of that; but it is looked up as a qualified reference in the component around
the instance. So a component that is called like the instance captures the source, if it has an incoming
port of that name, and in a loaded model this is the only way in which the source leaves the instance.
-/
import Interconnect.Proofs.Manifest.Names
import Interconnect.Proofs.Resolution.Denotation

namespace Interconnect

/-- A port of the component's own boundary that the source on the instance denotes, as the component is
called like the instance. -/
def Component.Captures (c : Component) (i : Instance) (source : String) (p : Port) : Prop :=
  i.name = c.name ∧ p ∈ c.incomingPorts ∧ p.name = source

namespace Model

/-- The type of the instance is declared, and the port is its outgoing one of that name. -/
def HasOutgoing (m : Model) (i : Instance) (source : String) (p : Port) : Prop :=
  ∃ type, m.find? i.type = some type ∧ p ∈ type.outgoingPorts ∧ p.name = source

section

variable {m : Model} (hm : m.WellFormed) {index : Nat} {c : Component}
  (hc : m.components[index]? = some c) {i : Instance} {port : String} {p : Port}

include hm hc

theorem onBoundary?_source_iff :
    onBoundary? (.component c) ⟨some i.name, port⟩ (some .source) = some p ↔ c.Captures i port p := by
  have hports := (hm.distinct c (List.mem_of_getElem? hc)).ports
  have hfind : Port.findDirected c.ports port .incoming = some p ↔
      p ∈ c.incomingPorts ∧ p.name = port := by
    rw [Port.findDirected_eq_some_iff hports, Component.mem_incomingPorts]
    tauto
  unfold onBoundary? Component.Captures
  split
  · rename_i hown
    have hname : i.name = c.name := of_decide_eq_true hown
    exact hfind.trans (and_iff_right hname).symm
  · rename_i hown
    constructor
    · intro h
      cases h
    · intro h
      exact absurd (decide_eq_true h.1) hown

theorem onSubcomponent?_source_iff (hi : i ∈ c.instances) :
    m.onSubcomponent? (.component c) ⟨some i.name, port⟩ (some .source) = some p ↔
      m.HasOutgoing i port p := by
  have hinst : c.findInstance i.name = some i :=
    (hm.distinct c (List.mem_of_getElem? hc)).findInstance_eq hi
  simp only [onSubcomponent?, inside?, hinst, Option.bind_some, Option.bind_eq_some_iff,
    Option.map_eq_some_iff]
  constructor
  · rintro ⟨ports, ⟨type, ht, rfl⟩, hp⟩
    obtain ⟨hmem, hname, hdir⟩ := Port.findDirected_eq_some hp
    exact ⟨type, ht, Component.mem_outgoingPorts.2 ⟨hmem, hdir⟩, hname⟩
  · rintro ⟨type, ht, hp, hname⟩
    obtain ⟨hmem, hdir⟩ := Component.mem_outgoingPorts.1 hp
    have hports := (hm.distinct type (List.mem_of_find?_eq_some ht)).ports
    exact ⟨_, ⟨type, ht, rfl⟩, (Port.findDirected_eq_some_iff hports).2 ⟨hmem, hname, hdir⟩⟩

/-- A source of an instance is found on the boundary that captures it, or else at the instance. -/
theorem lookup_source_iff (hi : i ∈ c.instances) (hn : IsSegment i.name) (hne : port.toList ≠ []) :
    m.lookup (i.qualify port) (.component index) (some .source) = .ok p ↔
      c.Captures i port p ∨ (∀ q, ¬ c.Captures i port q) ∧ m.HasOutgoing i port p := by
  have hfound := toOption_lookup (spanning?_component hc) (PortRef.parse_qualify hn hne) (some .source)
  have hok : m.lookup (i.qualify port) (.component index) (some .source) = .ok p ↔
      (m.lookup (i.qualify port) (.component index) (some .source)).toOption = some p := by
    cases m.lookup (i.qualify port) (.component index) (some .source) <;> simp [Except.toOption]
  have hfree : onBoundary? (.component c) ⟨some i.name, port⟩ (some .source) = none ↔
      ∀ q, ¬ c.Captures i port q := by
    simp only [← onBoundary?_source_iff hm hc, Option.eq_none_iff_forall_ne_some, ne_eq]
  rw [hok, Instance.qualify, hfound, Option.or_eq_some_iff, hfree, onBoundary?_source_iff hm hc,
    onSubcomponent?_source_iff hm hc hi]

end

theorem simpleSourcePort_eq_lookup {m : Model} (hm : m.WellFormed) {index : Nat} {c : Component}
    (hc : m.components[index]? = some c) {i : Instance} (hi : i ∈ c.instances) {k : Connector}
    (hk : k ∈ i.connectors) (hw : k.isConstant = false) :
    m.simpleSourcePort i k = m.lookup (i.qualify k.source) (.component index) (some .source) := by
  have hmem : k ∈ c.allConnectors := List.mem_append_right _ (List.mem_flatMap.2 ⟨i, hi, hk⟩)
  have hscope : k.scope = some (.component index) := (hm.attached index c hc k hmem).scope
  have hwired : k.constantPort? = none := by
    rw [k.constantPort?_eq_none_iff, ← Option.not_isSome_iff_eq_none]
    exact Bool.eq_false_iff.1 hw
  simp only [simpleSourcePort, hwired, resolveEnd, hscope]

/-- In a loaded model, a wired connector on an instance reads from the port of the boundary that captures
its source, or if there is none from the outgoing port of the type of the instance that is called like
it. So it reads from the instance whenever it reads from anything, unless the component is called like
the instance and has an incoming port of that name. -/
theorem simpleSourcePort_of_load {text : String} {m : Model} (h : Manifest.load text = .ok m)
    {index : Nat} {c : Component} (hc : m.components[index]? = some c) {i : Instance}
    (hi : i ∈ c.instances) {k : Connector} (hk : k ∈ i.connectors) (hw : k.isConstant = false) :
    (∀ p, m.simpleSourcePort i k = .ok p ↔
      c.Captures i k.source p ∨ (∀ q, ¬ c.Captures i k.source q) ∧ m.HasOutgoing i k.source p) ∧
    ((∀ p, m.simpleSourcePort i k = .ok p → m.HasOutgoing i k.source p) ↔
      ∀ q, ¬ c.Captures i k.source q) := by
  have hm := Manifest.wellFormed_of_load h
  have hnamed := Manifest.wellNamed_of_load h
  have hn : IsSegment i.name := ((hnamed c (List.mem_of_getElem? hc)).instances i hi).1
  have hreads : ∀ p, m.simpleSourcePort i k = .ok p ↔
      c.Captures i k.source p ∨ (∀ q, ¬ c.Captures i k.source q) ∧ m.HasOutgoing i k.source p := by
    intro p
    rw [simpleSourcePort_eq_lookup hm hc hi hk hw]
    by_cases hne : k.source.toList = []
    · -- no port is called so, and the reference is malformed
      have hport : ∀ c' ∈ m.components, ∀ q ∈ c'.ports, q.name ≠ k.source := by
        intro c' hc' q hq hname
        exact ((hnamed c' hc').ports q hq).nonempty (hname ▸ hne)
      obtain ⟨fault, hfault⟩ := PortRef.exists_parse_qualify_eq_error hn hne
      have hfails : m.lookup (i.qualify k.source) (.component index) (some .source) =
          .error (.malformedName (i.qualify k.source) fault) := by
        simp only [lookup, spanning?_component hc, Instance.qualify, hfault]
      rw [hfails]
      constructor
      · intro h
        cases h
      · rintro (⟨-, hq, hname⟩ | ⟨-, type, ht, hq, hname⟩)
        · exact absurd hname
            (hport c (List.mem_of_getElem? hc) p (Component.mem_incomingPorts.1 hq).1)
        · exact absurd hname
            (hport type (List.mem_of_find?_eq_some ht) p (Component.mem_outgoingPorts.1 hq).1)
    · exact lookup_source_iff hm hc hi hn hne
  refine ⟨hreads, fun hall q hq => ?_, fun hfree p hp => ?_⟩
  · obtain ⟨type, -, hout, -⟩ := hall q ((hreads q).2 (.inl hq))
    have hin := (Component.mem_incomingPorts.1 hq.2.1).2
    rw [(Component.mem_outgoingPorts.1 hout).2] at hin
    cases hin
  · rcases (hreads p).1 hp with hq | ⟨-, hp⟩
    · exact absurd hq (hfree p)
    · exact hp

/-- A component that is called like its instance, with two connectors on that: the source of one is
captured. -/
def captureManifest : String :=
  "[[component]]\nname = \"T\"\nout = [\"y\", \"z\"]\n" ++
  "[[component]]\nname = \"s\"\nin = [\"y\"]\nout = [\"b\"]\n" ++
  "[[component.instance]]\nname = \"s\"\ntype = \"T\"\n" ++
  "[[component.instance.connect]]\nsource = \"y\"\ntarget = \"b\"\n" ++
  "[[component.instance.connect]]\nsource = \"z\"\ntarget = \"b\"\n"

def captureModel : Model where
  components := [
    { name := "T", span := ⟨21, 24⟩, ports := [.outgoing "y" ⟨32, 35⟩, .outgoing "z" ⟨37, 40⟩] },
    { name := "s", span := ⟨63, 66⟩
      ports := [.incoming "y" ⟨73, 76⟩, .outgoing "b" ⟨85, 88⟩]
      instances := [
        { name := "s", type := "T", span := ⟨120, 134⟩
          connectors := [
            (Connector.wired "y" "b" ⟨175, 191⟩).attach (.component 1),
            (Connector.wired "z" "b" ⟨232, 248⟩).attach (.component 1)] }] }]

theorem load_captureManifest : Manifest.load captureManifest = .ok captureModel := by
  decide +kernel

/-- The source that is not captured is a port of the instance. -/
theorem simpleSourcePort_of_load_free :
    Manifest.load captureManifest = .ok captureModel ∧
    ∃ c i k, captureModel.components[1]? = some c ∧ i ∈ c.instances ∧ k ∈ i.connectors ∧
      k.isConstant = false ∧ k.source = "z" ∧ (∀ q, ¬ c.Captures i k.source q) ∧
      captureModel.simpleSourcePort i k = .ok (.outgoing "z" ⟨37, 40⟩) ∧
      captureModel.HasOutgoing i k.source (.outgoing "z" ⟨37, 40⟩) := by
  have hc : captureModel.components[1]? = some _ := rfl
  have hk : (Connector.wired "z" "b" ⟨232, 248⟩).attach (.component 1) ∈
      (captureModel.components[1].instances[0]).connectors := by decide
  obtain ⟨-, hstays⟩ := simpleSourcePort_of_load load_captureManifest hc (List.mem_cons_self ..) hk rfl
  have hfree : ∀ q, ¬ Component.Captures captureModel.components[1] captureModel.components[1].instances[0]
      "z" q := by
    rintro q ⟨-, hq, hname⟩
    cases List.mem_singleton.1 hq
    exact absurd hname (by decide)
  exact ⟨load_captureManifest, _, _, _, hc, List.mem_cons_self .., hk, rfl, rfl, hfree, by decide,
    hstays.2 hfree _ (by decide)⟩

/-- The other source is a port of the boundary, although the type of the instance has one of that name:
it is not told apart from a reference to the component itself. -/
theorem boundary_captures_source :
    Manifest.load captureManifest = .ok captureModel ∧
    ∃ c i k p, captureModel.components[1]? = some c ∧ i ∈ c.instances ∧ k ∈ i.connectors ∧
      k.isConstant = false ∧ captureModel.simpleSourcePort i k = .ok p ∧ p ∈ c.incomingPorts ∧
      ¬ captureModel.HasOutgoing i k.source p := by
  refine ⟨load_captureManifest, _, _, (Connector.wired "y" "b" ⟨175, 191⟩).attach (.component 1),
    .incoming "y" ⟨73, 76⟩, rfl, List.mem_cons_self .., by decide, rfl, by decide, by decide, ?_⟩
  rintro ⟨type, -, hp, -⟩
  exact absurd (Component.mem_outgoingPorts.1 hp).2 (by decide)

end Model

end Interconnect
