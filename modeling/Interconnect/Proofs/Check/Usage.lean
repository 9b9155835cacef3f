/-
Findings about ports of instances. What a component feeds and reads is what stands on the ends of its
connectors and of those of its instances. In a loaded model exactly the incoming ports that are not
fed, but for those that carry constants, and the outgoing ones that are not read are told, each once,
in the order of declaration.
-/
import Interconnect.Proofs.Check.Endpoints
import Interconnect.Proofs.Manifest.Names

namespace Interconnect

/-- A port that only carries a constant, by its name. -/
def Port.CarriesConstant (p : Port) : Prop := PortRef.constantStem.toList <+: p.name.toList

instance (p : Port) : Decidable p.CarriesConstant :=
  inferInstanceAs (Decidable (PortRef.constantStem.toList <+: p.name.toList))

namespace Component

/-- A connector of the component, or of one of its instances, has the text as its target. -/
def Feeds (c : Component) (text : String) : Prop := ∃ k ∈ c.allConnectors, k.target = text

/-- A connector of the component has the text as its source, or a connector of an instance has, when
qualified with the instance. -/
def Reads (c : Component) (text : String) : Prop :=
  (∃ k ∈ c.connectors, k.source = text) ∨
    ∃ i ∈ c.instances, ∃ k ∈ i.connectors, i.qualify k.source = text

instance (c : Component) (text : String) : Decidable (c.Feeds text) :=
  inferInstanceAs (Decidable (∃ k ∈ c.allConnectors, k.target = text))

instance (c : Component) (text : String) : Decidable (c.Reads text) :=
  inferInstanceAs (Decidable (_ ∨ _))

/-- The incoming ports of an instance that have to be fed and are not. -/
def unfedPorts (c : Component) (i : Instance) (type : Component) : List Port :=
  type.incomingPorts.filter fun p => ¬ c.Feeds (i.qualify p.name) ∧ ¬ p.CarriesConstant

/-- The outgoing ports of an instance that are not read. -/
def unreadPorts (c : Component) (i : Instance) (type : Component) : List Port :=
  type.outgoingPorts.filter fun p => ¬ c.Reads (i.qualify p.name)

end Component

/-! ## Wiring -/

namespace Wiring

theorem mem_targets (c : Component) (text : String) :
    text ∈ (ofComponent c).targets ∨ text ∈ (ofComponent c).simpleTargets ↔ c.Feeds text := by
  simp only [ofComponent, Component.Feeds, Component.allConnectors, List.mem_map, List.mem_append,
    List.mem_flatMap, Component.mem_simpleConnectors]
  constructor
  · rintro (⟨k, hk, rfl⟩ | ⟨⟨i, k⟩, ⟨hi, hk⟩, rfl⟩)
    · exact ⟨k, .inl hk, rfl⟩
    · exact ⟨k, .inr ⟨i, hi, hk⟩, rfl⟩
  · rintro ⟨k, hk | ⟨i, hi, hk⟩, rfl⟩
    · exact .inl ⟨k, hk, rfl⟩
    · exact .inr ⟨(i, k), ⟨hi, hk⟩, rfl⟩

theorem mem_sources (c : Component) (text : String) :
    text ∈ (ofComponent c).sources ∨ text ∈ (ofComponent c).simpleSources ↔ c.Reads text := by
  simp only [ofComponent, Component.Reads, List.mem_map, Component.mem_simpleConnectors]
  constructor
  · rintro (h | ⟨⟨i, k⟩, ⟨hi, hk⟩, rfl⟩)
    · exact .inl h
    · exact .inr ⟨i, hi, k, hk, rfl⟩
  · rintro (h | ⟨i, hi, k, hk, rfl⟩)
    · exact .inl h
    · exact .inr ⟨(i, k), ⟨hi, hk⟩, rfl⟩

/-- Taking off one set after the other leaves what is used by neither. -/
theorem unused_eq_filter {used : String → Prop} [DecidablePred used] {own simple : List String}
    (h : ∀ n, n ∈ own ∨ n ∈ simple ↔ used n) (names : List String) :
    unused names own simple = names.filter fun n => ¬ used n := by
  rw [unused_eq]
  refine List.filter_congr fun n _ => ?_
  simp only [← h, not_or, List.contains_eq_mem, Bool.decide_and, decide_not, Bool.and_comm]

theorem unread_eq (c : Component) (i : Instance) (type : Component) :
    (ofComponent c).unread i type =
      (i.portNames type.outgoingPorts).filter fun n => ¬ c.Reads n :=
  unused_eq_filter (mem_sources c) _

theorem unfed_eq (c : Component) (i : Instance) (type : Component) :
    (ofComponent c).unfed i type = (i.portNames type.incomingPorts).filter fun n =>
      ¬ c.Feeds n ∧ ¬ PortRef.namesConstant n = true := by
  rw [unfed, unused_eq_filter (mem_targets c), List.filter_filter]
  refine List.filter_congr fun n _ => ?_
  simp only [Bool.decide_and, Bool.and_comm, decide_not, Bool.decide_eq_true]

end Wiring

/-! ## Names of ports -/

theorem eraseDups_of_nodup {α : Type} [BEq α] [LawfulBEq α] {l : List α} (h : l.Nodup) :
    l.eraseDups = l := by
  induction l with
  | nil => rfl
  | cons a rest ih =>
    obtain ⟨ha, hr⟩ := List.nodup_cons.1 h
    have hf : (rest.filter fun b => !b == a) = rest := by
      refine List.filter_eq_self.2 fun b hb => ?_
      have hne : b ≠ a := fun e => ha (e ▸ hb)
      simpa using hne
    rw [List.eraseDups_cons, hf, ih hr]

theorem Instance.mem_portNames (i : Instance) {ps : List Port} {p : Port} (hp : p ∈ ps) :
    i.qualify p.name ∈ i.portNames ps := by
  rw [portNames, List.mem_eraseDups]
  exact List.mem_map_of_mem hp

/-- Distinct ports of a component keep their names apart when they are qualified. -/
theorem Instance.portNames_eq (i : Instance) {ps : List Port} (h : (ps.map Port.name).Nodup) :
    i.portNames ps = ps.map fun p => i.qualify p.name := by
  have hn : (ps.map fun p => i.qualify p.name).Nodup := by
    have := h.map (PortRef.qualify_injective i.name)
    rwa [List.map_map] at this
  rw [portNames, eraseDups_of_nodup hn]

namespace Component

variable {c : Component} {i : Instance} {type : Component}

theorem unread_eq_ports (ht : type.Distinct) :
    (Wiring.ofComponent c).unread i type = (c.unreadPorts i type).map fun p => i.qualify p.name := by
  have hnames : i.portNames type.outgoingPorts =
      type.outgoingPorts.map fun p => i.qualify p.name := i.portNames_eq (ht.nodup_names .outgoing)
  rw [Wiring.unread_eq, hnames, List.filter_map]
  rfl

theorem unfed_eq_ports (ht : type.Distinct) (hn : type.WellNamed) (hi : IsSegment i.name) :
    (Wiring.ofComponent c).unfed i type = (c.unfedPorts i type).map fun p => i.qualify p.name := by
  have hnames : i.portNames type.incomingPorts =
      type.incomingPorts.map fun p => i.qualify p.name := i.portNames_eq (ht.nodup_names .incoming)
  rw [Wiring.unfed_eq, hnames, List.filter_map, unfedPorts]
  congr 1
  -- the check asks the qualified name for the stem of constants, where the port has it
  refine List.filter_congr fun p hp => ?_
  have hp : p ∈ type.ports := List.mem_of_mem_filter hp
  have hk : PortRef.namesConstant (i.qualify p.name) = true ↔ p.CarriesConstant :=
    PortRef.namesConstant_qualify hi (hn.ports p hp).nonempty
  simp only [Function.comp_apply, hk]

end Component

/-! ## Findings about instances -/

namespace Finding

theorem unusedHelp_inj {direction : Direction} {p q owner : String}
    (h : unusedHelp direction p owner = unusedHelp direction q owner) : p = q := by
  unfold unusedHelp at h
  rw [String.append_left_inj, String.append_left_inj, String.append_left_inj] at h
  rwa [String.append_right_inj] at h

/-- A finding about an unused port tells its direction by the code and its name by the help. -/
theorem unused_inj {levels : Levels} {c : Component} {i j : Instance} {a b : Direction}
    {p q : String} (h : unused levels c i a p = unused levels c j b q) : a = b ∧ p = q := by
  have hcode : unusedCode a = unusedCode b := Option.some.inj (congrArg Diagnostic.code h)
  have hab : a = b := by
    cases a <;> cases b <;> first | rfl | exact nomatch hcode
  subst hab
  have hhelp : unusedHelp a p c.name = unusedHelp a q c.name :=
    Option.some.inj (congrArg Diagnostic.help h)
  exact ⟨rfl, unusedHelp_inj hhelp⟩

end Finding

namespace Model

/-- What there is to tell about an instance: that its type is not declared, or else its incoming ports
that are not fed and then its outgoing ports that are not read. -/
def usageFindings (m : Model) (levels : Levels) (c : Component) (i : Instance) : List Diagnostic :=
  match m.find? i.type with
  | none => [Finding.undeclared levels c i]
  | some type =>
    (c.unfedPorts i type).map (fun p => Finding.unused levels c i .incoming (i.qualify p.name)) ++
      (c.unreadPorts i type).map fun p => Finding.unused levels c i .outgoing (i.qualify p.name)

theorem instanceFindings_eq {m : Model} (hm : m.WellFormed) (hn : ∀ t ∈ m.components, t.WellNamed)
    (levels : Levels) (c : Component) {i : Instance} (hi : IsSegment i.name) :
    m.instanceFindings levels c (.ofComponent c) i = m.usageFindings levels c i := by
  unfold instanceFindings usageFindings
  cases hf : m.find? i.type with
  | none => rfl
  | some type =>
    have ht : type ∈ m.components := List.mem_of_find?_eq_some hf
    simp only [Component.unfed_eq_ports (hm.distinct type ht) (hn type ht) hi,
      Component.unread_eq_ports (hm.distinct type ht), List.map_map, Function.comp_def]

/-- No port of an instance is told twice. -/
theorem nodup_usageFindings {m : Model} (hm : m.WellFormed) (levels : Levels) (c : Component)
    (i : Instance) : (m.usageFindings levels c i).Nodup := by
  unfold usageFindings
  cases hf : m.find? i.type with
  | none => exact List.nodup_singleton _
  | some type =>
    have ht := hm.distinct type (List.mem_of_find?_eq_some hf)
    -- ports of one direction that are told apart by name are told apart by finding
    have hside : ∀ (direction : Direction) (keep : Port → Bool),
        (((type.ports.filter (·.direction = direction)).filter keep).map fun p =>
          Finding.unused levels c i direction (i.qualify p.name)).Nodup := by
      intro direction keep
      have hnames := (ht.nodup_names direction).sublist (List.filter_sublist (p := keep) |>.map _)
      have hinj : Function.Injective fun name =>
          Finding.unused levels c i direction (i.qualify name) := fun a b h =>
        PortRef.qualify_injective i.name (Finding.unused_inj h).2
      have := hnames.map hinj
      rwa [List.map_map] at this
    refine List.nodup_append.2 ⟨hside .incoming _, hside .outgoing _, fun f hf g hg h => ?_⟩
    obtain ⟨p, -, rfl⟩ := List.mem_map.1 hf
    obtain ⟨q, -, rfl⟩ := List.mem_map.1 hg
    cases (Finding.unused_inj h).1

/-! ## Findings about a component -/

theorem instanceFindings_subset {m : Model} {index : Nat} {c : Component}
    (hc : m.components[index]? = some c) {i : Instance} (hi : i ∈ c.instances) (levels : Levels) :
    m.instanceFindings levels c (.ofComponent c) i ⊆ m.checkComponent levels index := by
  intro f hf
  simp only [checkComponent, hc]
  exact List.mem_append_right _ (List.mem_flatMap.2 ⟨i, hi, hf⟩)

/-- A finding about an unused port is about some instance, not about an end of a connector. -/
theorem unused_mem_checkComponent {m : Model} {levels : Levels} {index : Nat} {c : Component}
    (hc : m.components[index]? = some c) {i : Instance} {direction : Direction} {port : String}
    (h : Finding.unused levels c i direction port ∈ m.checkComponent levels index) :
    ∃ j ∈ c.instances, Finding.unused levels c i direction port ∈
      m.instanceFindings levels c (.ofComponent c) j := by
  simp only [checkComponent, hc] at h
  rcases List.mem_append.1 h with h | h
  · rw [endpointFindings_eq m levels index c] at h
    obtain ⟨x, -, hx⟩ := List.mem_flatMap.1 h
    -- the codes for ends and those for ports are different ones
    have hcode := code_siteFindings _ hx
    cases direction <;> cases hcode
  · exact List.mem_flatMap.1 h

/-- What a check tells about a component of a loaded model: the findings about the ends of its
connectors, and then for every instance that its type is not declared, or its ports that are not used,
each of them once. -/
theorem checkComponent_of_load {text : String} {m : Model} (h : Manifest.load text = .ok m)
    {index : Nat} {c : Component} (hc : m.components[index]? = some c) (levels : Levels) :
    m.checkComponent levels index =
      (c.sites index).flatMap (m.siteFindings levels) ++
        c.instances.flatMap (m.usageFindings levels c) ∧
    (∀ f ∈ (c.sites index).flatMap (m.siteFindings levels), isEndFinding f = true) ∧
    ∀ i ∈ c.instances, (m.usageFindings levels c i).Nodup := by
  have hm := Manifest.wellFormed_of_load h
  have hn := Manifest.wellNamed_of_load h
  have hin : ∀ i ∈ c.instances,
      m.instanceFindings levels c (.ofComponent c) i = m.usageFindings levels c i := fun i hi =>
    instanceFindings_eq hm hn levels c ((hn c (List.mem_of_getElem? hc)).instances i hi).1
  refine ⟨?_, fun f hf => ?_, fun i _ => nodup_usageFindings hm levels c i⟩
  · simp only [checkComponent, hc]
    rw [componentFindings, endpointFindings_eq m levels index c, List.flatMap_congr hin]
  · obtain ⟨x, -, hx⟩ := List.mem_flatMap.1 hf
    exact code_siteFindings f hx

/-- One instance leaves a port of each direction loose, and another one feeds the first from a port
that its type, which is not declared, cannot have. -/
def looseManifest : String :=
  "[[component]]\nname = \"Inner\"\nin = [\"x\", \"CONSTANTPORT_gain\", \"z\"]\nout = [\"y\"]\n" ++
  "[[component]]\nname = \"Outer\"\n" ++
  "[[component.instance]]\nname = \"s\"\ntype = \"Inner\"\n" ++
  "[[component.instance]]\nname = \"t\"\ntype = \"Lost\"\n" ++
  "[[component.instance.connect]]\nsource = \"y\"\ntarget = \"s.x\"\n"

def looseModel : Model where
  components := [
    { name := "Inner", span := ⟨21, 28⟩
      ports := [.incoming "x" ⟨35, 38⟩, .incoming "CONSTANTPORT_gain" ⟨40, 59⟩, .incoming "z" ⟨61, 64⟩,
        .outgoing "y" ⟨73, 76⟩] },
    { name := "Outer", span := ⟨99, 106⟩
      instances := [
        { name := "s", type := "Inner", span := ⟨137, 155⟩ },
        { name := "t", type := "Lost", span := ⟨186, 203⟩
          connectors := [(Connector.wired "y" "s.x" ⟨244, 262⟩).attach (.component 1)] }] }]

theorem checkComponent_of_load_loose :
    Manifest.load looseManifest = .ok looseModel ∧
    ∃ outer, looseModel.components[1]? = some outer ∧
      looseModel.checkComponent {} 1 =
        (outer.sites 1).flatMap (looseModel.siteFindings {}) ++
          outer.instances.flatMap (looseModel.usageFindings {} outer) ∧
      (looseModel.checkComponent {} 1).map (fun f => (f.code, f.message)) = [
        (some .unresolvedSource, "no source port found for connector `y -> s.x` in `Outer`"),
        (some .unusedIncoming, "port `s.z` of subcomponent `Outer.s` is not used"),
        (some .unusedOutgoing, "port `s.y` of subcomponent `Outer.s` is not used"),
        (none, "subcomponent `Outer.t` has undeclared type `Lost`")] := by
  have hload : Manifest.load looseManifest = .ok looseModel := by decide +kernel
  exact ⟨hload, _, rfl, (checkComponent_of_load hload rfl {}).1, by decide +kernel⟩

end Model

end Interconnect
