/-
What counts as a reader of an outgoing port. A port of an instance is told exactly when neither a wired
connector reads it nor a constant connector on an instance has it for a name: the name of a constant
port is qualified like the source of a wired connector, and may then be the name of a declared port.
-/
import Interconnect.Proofs.Check.Loose
import Interconnect.Proofs.Resolution

namespace Interconnect

namespace Component

/-- A wired connector of the component reads from what the text names, or one of an instance does. -/
def ReadsWired (c : Component) (text : String) : Prop :=
  (∃ k ∈ c.connectors, k.isConstant = false ∧ k.source = text) ∨
    ∃ i ∈ c.instances, ∃ k ∈ i.connectors, k.isConstant = false ∧ i.qualify k.source = text

/-- The constant port of a connector on an instance is called as the text, once it is qualified. -/
def HasConstantNamed (c : Component) (text : String) : Prop :=
  ∃ i ∈ c.instances, ∃ k ∈ i.connectors, k.isConstant = true ∧
    ∃ n : Nat, k.source = PortRef.constantStem ++ toString n ∧ i.qualify k.source = text

instance (c : Component) (text : String) : Decidable (c.ReadsWired text) :=
  inferInstanceAs (Decidable (_ ∨ _))

end Component

/-! ## Names of constant ports -/

namespace PortRef

/-- The name of a constant port is bare. -/
theorem dot_not_mem_numbered (n : Nat) : '.' ∉ (constantStem ++ toString n).toList := by
  intro h
  rw [String.toList_append] at h
  rcases List.mem_append.1 h with h | h
  · revert h
    decide
  · rw [Nat.toString_eq_repr, Nat.toList_repr] at h
    have hd := Nat.isDigit_of_mem_toDigits (by decide) (by decide) h
    revert hd
    decide

theorem numbered_ne_qualify (n : Nat) (inst port : String) :
    constantStem ++ toString n ≠ qualify inst port := fun h =>
  dot_not_mem_numbered n (h ▸ dot_mem_qualify inst port)

end PortRef

namespace Component

/-- Among attached connectors, the constants of the component itself read no port of an instance. -/
theorem reads_qualify_iff {c : Component} {scope : Scope}
    (hc : ∀ k ∈ c.allConnectors, k.Attached scope) (i : Instance) (port : String) :
    c.Reads (i.qualify port) ↔
      c.ReadsWired (i.qualify port) ∨ c.HasConstantNamed (i.qualify port) := by
  constructor
  · rintro (⟨k, hk, he⟩ | ⟨j, hj, k, hk, he⟩)
    · cases hw : k.isConstant with
      | false => exact .inl (.inl ⟨k, hk, hw, he⟩)
      | true =>
        -- the bare name of a constant port is not the qualified name of any other
        obtain ⟨n, hn⟩ := (hc k (List.mem_append_left _ hk)).numbered hw
        exact absurd (hn.symm.trans he) (PortRef.numbered_ne_qualify n i.name port)
    · cases hw : k.isConstant with
      | false => exact .inl (.inr ⟨j, hj, k, hk, hw, he⟩)
      | true =>
        have hm : k ∈ c.allConnectors := List.mem_append_right _ (List.mem_flatMap.2 ⟨j, hj, hk⟩)
        obtain ⟨n, hn⟩ := (hc k hm).numbered hw
        exact .inr ⟨j, hj, k, hk, hw, n, hn, he⟩
  · rintro ((⟨k, hk, -, he⟩ | ⟨j, hj, k, hk, -, he⟩) | ⟨j, hj, k, hk, -, n, -, he⟩)
    · exact .inl ⟨k, hk, he⟩
    · exact .inr ⟨j, hj, k, hk, he⟩
    · exact .inr ⟨j, hj, k, hk, he⟩

end Component

/-! ## Ports that are told -/

namespace Model

/-- An outgoing port is told exactly when nothing reads it. -/
theorem unread_told_iff {m : Model} (levels : Levels) {index : Nat} {c : Component}
    (hc : m.components[index]? = some c) {i : Instance} (hi : i ∈ c.instances) {type : Component}
    (ht : m.find? i.type = some type) {p : Port} (hp : p ∈ type.outgoingPorts) :
    Finding.unused levels c i .outgoing (i.qualify p.name) ∈ m.checkComponent levels index ↔
      ¬ c.Reads (i.qualify p.name) := by
  obtain ⟨hp, hd⟩ := Component.mem_outgoingPorts.1 hp
  have htold : Finding.unused levels c i .outgoing (i.qualify p.name) ∈
      m.checkComponent levels index ↔ c.Loose .source (i.qualify p.name) :=
    told_iff_loose (e := .source) levels hc hi ht hp hd
  rw [htold]
  exact ⟨fun h => h.1, fun h => ⟨h, nofun⟩⟩

/-- In a built model, an outgoing port of an instance is told exactly when no wired connector reads it
and no constant port of the component is called like it. So the wired connectors alone decide just
where one of them reads the port, or no constant port is called like it. -/
theorem unread_told_iff_of_build {d : Design} {m : Model} (hb : d.build = .ok m) (levels : Levels)
    {index : Nat} {c : Component} (hc : m.components[index]? = some c) {i : Instance}
    (hi : i ∈ c.instances) {type : Component} (ht : m.find? i.type = some type) {p : Port}
    (hp : p ∈ type.outgoingPorts) :
    (Finding.unused levels c i .outgoing (i.qualify p.name) ∈ m.checkComponent levels index ↔
      ¬ c.ReadsWired (i.qualify p.name) ∧ ¬ c.HasConstantNamed (i.qualify p.name)) ∧
    ((Finding.unused levels c i .outgoing (i.qualify p.name) ∈ m.checkComponent levels index ↔
      ¬ c.ReadsWired (i.qualify p.name)) ↔
        c.ReadsWired (i.qualify p.name) ∨ ¬ c.HasConstantNamed (i.qualify p.name)) := by
  have hm := Design.wellFormed_of_build hb
  have htold : Finding.unused levels c i .outgoing (i.qualify p.name) ∈
      m.checkComponent levels index ↔
        ¬ c.ReadsWired (i.qualify p.name) ∧ ¬ c.HasConstantNamed (i.qualify p.name) := by
    rw [unread_told_iff levels hc hi ht hp, Component.reads_qualify_iff (hm.attached index c hc),
      not_or]
  refine ⟨htold, ?_⟩
  rw [htold]
  tauto

/-- The only constant of this design is the first one, and one port of the instance that it feeds is
called like the first constant port. -/
def namesakeDesign : Design where
  components := [
    { name := "Gain"
      ports := [.incoming "x" {}, .outgoing "CONSTANTPORT1" {}, .outgoing "CONSTANTPORT2" {}] },
    { name := "Outer"
      instances := [{ name := "g", type := "Gain", connectors := [.ofConstant "1" "g.x" {}] }] }]

/-- The second port has no namesake, so it is told. -/
theorem unread_told_iff_of_build_namesake :
    namesakeDesign.build = .ok namesakeDesign.assemble ∧
    ∃ outer g gain p, namesakeDesign.assemble.components[1]? = some outer ∧ g ∈ outer.instances ∧
      namesakeDesign.assemble.find? g.type = some gain ∧ p ∈ gain.outgoingPorts ∧
      g.qualify p.name = "g.CONSTANTPORT2" ∧ ¬ outer.ReadsWired (g.qualify p.name) ∧
      ¬ outer.HasConstantNamed (g.qualify p.name) ∧
      Finding.unused {} outer g .outgoing (g.qualify p.name) ∈
        namesakeDesign.assemble.checkComponent {} 1 := by
  have hp : Port.outgoing "CONSTANTPORT2" {} ∈
      Component.outgoingPorts { name := "Gain", ports := [.incoming "x" {},
        .outgoing "CONSTANTPORT1" {}, .outgoing "CONSTANTPORT2" {}] } := by decide
  have hc : namesakeDesign.assemble.components[1]? = some _ := rfl
  have htold := (unread_told_iff_of_build (d := namesakeDesign) rfl {} hc (List.mem_cons_self ..) rfl
    hp).1
  obtain ⟨hwired, hnumbered⟩ := htold.1 (by decide)
  exact ⟨rfl, _, _, _, _, rfl, List.mem_cons_self .., rfl, hp, by decide, hwired, hnumbered,
    by decide⟩

/-- No wired connector reads the first port, and still it is not told: the constant hides it. -/
theorem constant_hides_namesake :
    namesakeDesign.build = .ok namesakeDesign.assemble ∧
    ∃ outer g gain p, namesakeDesign.assemble.components[1]? = some outer ∧ g ∈ outer.instances ∧
      namesakeDesign.assemble.find? g.type = some gain ∧ p ∈ gain.outgoingPorts ∧
      g.qualify p.name = "g.CONSTANTPORT1" ∧ ¬ outer.ReadsWired (g.qualify p.name) ∧
      Finding.unused {} outer g .outgoing (g.qualify p.name) ∉
        namesakeDesign.assemble.checkComponent {} 1 :=
  ⟨rfl, _, _, _, .outgoing "CONSTANTPORT1" {}, rfl, List.mem_cons_self .., rfl, by decide, by decide,
    by decide, by decide⟩

end Model

end Interconnect
