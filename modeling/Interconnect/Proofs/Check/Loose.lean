/-
Which names of ports are told. Sources and targets are alike here: a port of an instance is wired by
the end of a connector that the direction of the port calls for, and it is told exactly when no
connector has its name on that end, save that targets need not be wired to ports that carry constants.
-/
import Interconnect.Proofs.Check.Usage

namespace Interconnect

namespace Component

/-- Some connector has the text on this end, as the component sees it. -/
def Names (c : Component) : Endpoint → String → Prop
  | .source => c.Reads
  | .target => c.Feeds

/-- No connector has the text on this end, and it should have: a target need not name a constant. -/
def Loose (c : Component) (e : Endpoint) (text : String) : Prop :=
  ¬ c.Names e text ∧ (e = .target → ¬ PortRef.namesConstant text = true)

instance (c : Component) (e : Endpoint) (text : String) : Decidable (c.Names e text) :=
  match e with
  | .source => inferInstanceAs (Decidable (c.Reads text))
  | .target => inferInstanceAs (Decidable (c.Feeds text))

instance (c : Component) (e : Endpoint) (text : String) : Decidable (c.Loose e text) :=
  inferInstanceAs (Decidable (_ ∧ _))

theorem names_iff {c : Component} (index : Nat) {e : Endpoint} {text : String} :
    c.Names e text ↔ ∃ x ∈ c.sites index, x.text e = text := by
  have hown : ∀ k ∈ c.connectors, ({ scope := .component index, owner := c.name, connector := k } :
      Site) ∈ c.sites index := fun k hk => List.mem_append_left _ (List.mem_map_of_mem hk)
  have hsimple : ∀ i ∈ c.instances, ∀ k ∈ i.connectors,
      ({ scope := .component index, owner := c.name, instance? := some i, connector := k } : Site) ∈
        c.sites index := fun i hi k hk =>
    List.mem_append_right _ (List.mem_flatMap.2 ⟨i, hi, List.mem_map_of_mem hk⟩)
  cases e with
  | source =>
    constructor
    · rintro (⟨k, hk, he⟩ | ⟨i, hi, k, hk, he⟩)
      · exact ⟨_, hown k hk, he⟩
      · exact ⟨_, hsimple i hi k hk, he⟩
    · rintro ⟨x, hx, he⟩
      rcases List.mem_append.1 hx with hx | hx
      · obtain ⟨k, hk, rfl⟩ := List.mem_map.1 hx
        exact .inl ⟨k, hk, he⟩
      · obtain ⟨i, hi, hx⟩ := List.mem_flatMap.1 hx
        obtain ⟨k, hk, rfl⟩ := List.mem_map.1 hx
        exact .inr ⟨i, hi, k, hk, he⟩
  | target =>
    constructor
    · rintro ⟨k, hk, he⟩
      rcases List.mem_append.1 hk with hk | hk
      · exact ⟨_, hown k hk, he⟩
      · obtain ⟨i, hi, hk⟩ := List.mem_flatMap.1 hk
        exact ⟨_, hsimple i hi k hk, he⟩
    · rintro ⟨x, hx, he⟩
      exact ⟨x.connector, (Model.mem_sites_component hx).2, he⟩

end Component

namespace Instance

/-- The names of the ports of an instance that one end of connectors is for. -/
def portNamesFor (i : Instance) (type : Component) (e : Endpoint) : List String :=
  i.portNames (type.ports.filter (·.direction = e.subcomponent))

end Instance

namespace Model

/-- The findings about an instance, the targets of connectors before the sources, where the connectors
are those of `wires`. -/
theorem instanceFindings_loose {m : Model} {levels : Levels} {c wires : Component} {i : Instance}
    {type : Component} (ht : m.find? i.type = some type) :
    m.instanceFindings levels c (.ofComponent wires) i =
      [Endpoint.target, .source].flatMap fun e =>
        ((i.portNamesFor type e).filter (wires.Loose e ·)).map
          (Finding.unused levels c i e.subcomponent) := by
  have hread : ∀ n, decide (wires.Loose .source n) = decide (¬ wires.Reads n) := fun n =>
    decide_eq_decide.2 ⟨fun h => h.1, fun h => ⟨h, nofun⟩⟩
  have hfed : ∀ n, decide (wires.Loose .target n) =
      decide (¬ wires.Feeds n ∧ ¬ PortRef.namesConstant n = true) := fun n =>
    decide_eq_decide.2 ⟨fun h => ⟨h.1, h.2 rfl⟩, fun h => ⟨h.1, fun _ => h.2⟩⟩
  simp only [instanceFindings, ht, List.flatMap_cons, List.flatMap_nil, List.append_nil,
    Wiring.unfed_eq, Wiring.unread_eq, hread, hfed]
  rfl

/-- A port of an instance is told exactly when its name is loose. Whatever else is told differs from the
finding about it by its code, or else by the name of the port. -/
theorem told_iff_loose {m : Model} (levels : Levels) {index : Nat} {c : Component}
    (hc : m.components[index]? = some c) {i : Instance} (hi : i ∈ c.instances) {type : Component}
    (ht : m.find? i.type = some type) {p : Port} (hp : p ∈ type.ports) {e : Endpoint}
    (hd : p.direction = e.subcomponent) :
    Finding.unused levels c i e.subcomponent (i.qualify p.name) ∈ m.checkComponent levels index ↔
      c.Loose e (i.qualify p.name) := by
  constructor
  · intro h
    -- the finding may come from another instance `j`, but only for a port with the same name
    obtain ⟨j, -, hf⟩ := unused_mem_checkComponent hc h
    cases hj : m.find? j.type with
    | none =>
      rw [instanceFindings, hj] at hf
      cases congrArg Diagnostic.code (List.mem_singleton.1 hf)
    | some t =>
      rw [instanceFindings_loose hj] at hf
      obtain ⟨e', -, hf⟩ := List.mem_flatMap.1 hf
      obtain ⟨n, hn, he⟩ := List.mem_map.1 hf
      obtain ⟨hdir, rfl⟩ := Finding.unused_inj he
      have hend : e' = e := by cases e <;> cases e' <;> first | rfl | exact nomatch hdir
      rw [← hend]
      exact of_decide_eq_true (List.mem_filter.1 hn).2
  · intro h
    have hn : i.qualify p.name ∈ i.portNamesFor type e :=
      Instance.mem_portNames i (List.mem_filter.2 ⟨hp, decide_eq_true hd⟩)
    refine instanceFindings_subset hc hi levels ?_
    rw [instanceFindings_loose ht]
    exact List.mem_flatMap.2 ⟨e, by cases e <;> decide,
      List.mem_map_of_mem (List.mem_filter.2 ⟨hn, decide_eq_true h⟩)⟩

end Model

end Interconnect
