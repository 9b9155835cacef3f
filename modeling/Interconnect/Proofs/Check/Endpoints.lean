/-
Findings about ends of connectors. A check tells of exactly the ends that denote no port: it walks
the connectors in their places, component after component and then node after node, and each of them
contributes a finding for its source and one for its target, if these fail. Every end is looked up in
the scope that declares the connector, and the source of a constant connector never fails.
-/
import Interconnect.Check
import Interconnect.Proofs.Design.WellFormed

namespace Interconnect

/-! ## Connectors in their places -/

/-- A connector, where it is declared, the name that findings have for that place, and the instance
on which the connector stands, if it stands on one. -/
structure Site where
  scope : Scope
  owner : String
  instance? : Option Instance := none
  connector : Connector

/-- What is written on an end of the connector, as its scope sees it: the source of a connector on an
instance is a port of that instance. -/
def Site.text (x : Site) : Endpoint → String
  | .source =>
    match x.instance? with
    | none => x.connector.source
    | some i => i.qualify x.connector.source
  | .target => x.connector.target

/-- The connectors of a component, then those of its instances. -/
def Component.sites (index : Nat) (c : Component) : List Site :=
  c.connectors.map (fun k => { scope := .component index, owner := c.name, connector := k }) ++
  c.instances.flatMap fun i => i.connectors.map fun k =>
    { scope := .component index, owner := c.name, instance? := some i, connector := k }

def Expanded.sites (index : Nat) (fullName : String) (e : Expanded) : List Site :=
  e.connectors.map fun k => { scope := .expanded index, owner := fullName, connector := k }

namespace Model

/-- All connectors of a model: those of the components in order, then those of the nodes. -/
def sites (m : Model) : List Site :=
  m.components.zipIdx.flatMap (fun (c, index) => c.sites index) ++
  m.expanded.zipIdx.flatMap fun (e, index) => e.sites index ((m.fullName? index).getD "")

/-- What an end of a connector resolves to. -/
def siteEnd (m : Model) (x : Site) : Endpoint → Except ResolutionError Port
  | .source =>
    match x.instance? with
    | none => m.sourcePort x.connector
    | some i => m.simpleSourcePort i x.connector
  | .target => m.targetPort x.connector

/-- The finding about an end that fails. -/
def endFinding? (m : Model) (levels : Levels) (x : Site) (e : Endpoint) : Option Diagnostic :=
  match m.siteEnd x e with
  | .ok _ => none
  | .error error => some (Finding.unresolved levels e x.connector x.owner error)

/-- The findings about a connector: its source first. -/
def siteFindings (m : Model) (levels : Levels) (x : Site) : List Diagnostic :=
  [Endpoint.source, .target].filterMap (m.endFinding? levels x)

/-- Findings about the ends of connectors. -/
def isEndFinding (f : Diagnostic) : Bool := f.code.any Code.isUnresolvedEndpoint

/-! ## The ends of one connector -/

theorem siteFindings_eq (m : Model) (levels : Levels) (x : Site) :
    m.siteFindings levels x =
      m.connectorFindings levels x.owner x.connector (m.siteEnd x .source) := by
  have ht : m.siteEnd x .target = m.targetPort x.connector := rfl
  simp only [siteFindings, List.filterMap_cons, List.filterMap_nil, endFinding?, connectorFindings, ht]
  cases m.siteEnd x .source <;> cases m.targetPort x.connector <;> rfl

/-- A finding about an end has the code of that end and is about its failure. -/
theorem endFinding?_eq_some {m : Model} {levels : Levels} {x : Site} {e : Endpoint} {f : Diagnostic}
    (h : m.endFinding? levels x e = some f) :
    ∃ error, m.siteEnd x e = .error error ∧ f.code = some (Finding.endpointCode e) ∧
      f.help = some error.message := by
  unfold endFinding? at h
  split at h
  · cases h
  · rename_i error he
    cases h
    exact ⟨error, he, rfl, rfl⟩

theorem code_siteFindings {m : Model} {levels : Levels} {x : Site} :
    ∀ f ∈ m.siteFindings levels x, isEndFinding f = true := by
  intro f hf
  obtain ⟨e, -, he⟩ := List.mem_filterMap.1 hf
  obtain ⟨error, -, hc, -⟩ := endFinding?_eq_some he
  rw [isEndFinding, hc]
  cases e <;> rfl

/-! ## Scopes -/

/-- An end of an attached connector is looked up in the scope that declares the connector. -/
theorem siteEnd_eq_lookup {m : Model} {x : Site} (h : x.connector.scope = some x.scope)
    {e : Endpoint} (he : e = .source → x.connector.isConstant = false) :
    m.siteEnd x e = m.lookup (x.text e) x.scope (some e) := by
  cases e with
  | target => simp only [siteEnd, targetPort, resolveEnd, h, Site.text]
  | source =>
    -- without a constant port both kinds of source are resolved by name
    have hk : x.connector.constantPort? = none :=
      (Connector.constantPort?_eq_none_iff _).2 (by simpa [Connector.isConstant] using he rfl)
    cases hi : x.instance? with
    | none => simp only [siteEnd, hi, sourcePort, hk, resolveEnd, h, Site.text]
    | some i => simp only [siteEnd, hi, simpleSourcePort, hk, resolveEnd, h, Site.text]

/-- The source of a constant connector is its own port. -/
theorem siteEnd_constant {m : Model} {x : Site} (h : x.connector.isConstant = true) :
    ∃ p, x.connector.constantPort? = some p ∧ m.siteEnd x .source = .ok p := by
  cases hp : x.connector.constantPort? with
  | none =>
    rw [Connector.isConstant, (Connector.constantPort?_eq_none_iff _).1 hp] at h
    cases h
  | some p =>
    refine ⟨p, rfl, ?_⟩
    cases hi : x.instance? with
    | none => simp only [siteEnd, hi, sourcePort, hp]
    | some i => simp only [siteEnd, hi, simpleSourcePort, hp]

/-! ## Sites of a model -/

/-- A connector of a component, in the place of that component. -/
theorem mem_sites_component {index : Nat} {c : Component} {x : Site} (h : x ∈ c.sites index) :
    x.scope = .component index ∧ x.connector ∈ c.allConnectors := by
  rcases List.mem_append.1 h with h | h
  · obtain ⟨k, hk, rfl⟩ := List.mem_map.1 h
    exact ⟨rfl, List.mem_append_left _ hk⟩
  · obtain ⟨i, hi, h⟩ := List.mem_flatMap.1 h
    obtain ⟨k, hk, rfl⟩ := List.mem_map.1 h
    exact ⟨rfl, List.mem_append_right _ (List.mem_flatMap.2 ⟨i, hi, hk⟩)⟩

/-- In a well-formed model every connector is attached to the place where it is found. -/
theorem WellFormed.scope_eq {m : Model} (hm : m.WellFormed) {x : Site} (h : x ∈ m.sites) :
    x.connector.scope = some x.scope := by
  rcases List.mem_append.1 h with h | h
  · obtain ⟨⟨c, index⟩, hc, hx⟩ := List.mem_flatMap.1 h
    obtain ⟨hs, hk⟩ := mem_sites_component hx
    rw [hs]
    exact (hm.attached index c (List.mem_zipIdx_iff_getElem?.1 hc) _ hk).scope
  · obtain ⟨⟨e, index⟩, he, hx⟩ := List.mem_flatMap.1 h
    obtain ⟨k, hk, rfl⟩ := List.mem_map.1 hx
    have hp := hm.placed index e (List.mem_zipIdx_iff_getElem?.1 he)
    rw [Nat.zero_add] at hp
    exact (hp.attached k hk).scope

/-- The name of a node in a well-formed model is its full name. -/
theorem WellFormed.owner_eq {m : Model} (hm : m.WellFormed) {x : Site} (h : x ∈ m.sites)
    {index : Nat} (hx : x.scope = .expanded index) : m.fullName? index = some x.owner := by
  rcases List.mem_append.1 h with h | h
  · obtain ⟨⟨c, j⟩, -, hc⟩ := List.mem_flatMap.1 h
    rw [(mem_sites_component hc).1] at hx
    cases hx
  · obtain ⟨⟨e, j⟩, he, hx'⟩ := List.mem_flatMap.1 h
    obtain ⟨k, -, rfl⟩ := List.mem_map.1 hx'
    cases hx
    have hi : index < m.expanded.length := (List.getElem?_eq_some_iff.1
      (List.mem_zipIdx_iff_getElem?.1 he)).1
    obtain ⟨name, hn⟩ := Option.isSome_iff_exists.1 (fullName?_isSome hm.placed index hi)
    rw [hn]
    rfl

/-! ## Walking the model -/

/-- A walk over the positions of a list is a walk over its members. -/
theorem flatMap_range_length {α β : Type} (l : List α) (f : Nat → List β) (g : α → Nat → List β)
    (h : ∀ index a, l[index]? = some a → f index = g a index) :
    (List.range l.length).flatMap f = l.zipIdx.flatMap fun x => g x.1 x.2 := by
  rw [List.flatMap_def, List.flatMap_def]
  congr 1
  refine List.ext_getElem (by simp) fun j hj _ => ?_
  have hl : j < l.length := by simpa using hj
  simp only [List.getElem_map, List.getElem_range, List.getElem_zipIdx, Nat.zero_add]
  exact h j l[j] (List.getElem?_eq_getElem hl)

/-- The findings about ends in a component are those of its sites. -/
theorem endpointFindings_eq (m : Model) (levels : Levels) (index : Nat) (c : Component) :
    m.endpointFindings levels c = (c.sites index).flatMap (m.siteFindings levels) := by
  simp only [endpointFindings, Component.sites, Component.simpleConnectors, List.flatMap_append,
    List.flatMap_map, List.flatMap_assoc, siteFindings_eq, siteEnd]

theorem checkExpanded_eq {m : Model} (hm : m.WellFormed) (levels : Levels) {index : Nat}
    {e : Expanded} (he : m.expanded[index]? = some e) :
    m.checkExpanded levels index =
      (e.sites index ((m.fullName? index).getD "")).flatMap (m.siteFindings levels) := by
  have hi : index < m.expanded.length := (List.getElem?_eq_some_iff.1 he).1
  obtain ⟨name, hn⟩ := Option.isSome_iff_exists.1 (fullName?_isSome hm.placed index hi)
  simp only [checkExpanded, he, hn, Expanded.sites, Option.getD_some, List.flatMap_map,
    siteFindings_eq, siteEnd]

/-! ## The findings of a check -/

theorem filter_siteFindings (m : Model) (levels : Levels) (xs : List Site) :
    (xs.flatMap (m.siteFindings levels)).filter isEndFinding =
      xs.flatMap (m.siteFindings levels) := by
  refine List.filter_eq_self.2 fun f hf => ?_
  obtain ⟨x, -, hf⟩ := List.mem_flatMap.1 hf
  exact code_siteFindings f hf

theorem filter_instanceFindings (m : Model) (levels : Levels) (c : Component) (w : Wiring)
    (i : Instance) : (m.instanceFindings levels c w i).filter isEndFinding = [] := by
  refine List.filter_eq_nil_iff.2 fun f hf => ?_
  unfold instanceFindings at hf
  split at hf
  · rw [List.mem_singleton.1 hf]
    exact Bool.false_ne_true
  · rcases List.mem_append.1 hf with hf | hf
    · obtain ⟨port, -, rfl⟩ := List.mem_map.1 hf
      exact Bool.false_ne_true
    · obtain ⟨port, -, rfl⟩ := List.mem_map.1 hf
      exact Bool.false_ne_true

/-- Of the findings about a component, those about ends are those of its sites. -/
theorem filter_checkComponent {m : Model} (levels : Levels) {index : Nat} {c : Component}
    (hc : m.components[index]? = some c) :
    (m.checkComponent levels index).filter isEndFinding =
      (c.sites index).flatMap (m.siteFindings levels) := by
  have hports : (c.instances.flatMap fun i =>
      (m.instanceFindings levels c (.ofComponent c) i).filter isEndFinding) = [] :=
    List.flatMap_eq_nil_iff.2 fun i _ => filter_instanceFindings m levels c _ i
  simp only [checkComponent, hc]
  rw [componentFindings, List.filter_append, List.filter_flatMap, hports, List.append_nil,
    endpointFindings_eq m levels index c, filter_siteFindings]

theorem filter_findings {m : Model} (hm : m.WellFormed) (levels : Levels) :
    (m.findings levels).filter isEndFinding = m.sites.flatMap (m.siteFindings levels) := by
  -- the walk over positions becomes one over members, whose findings are known to be filtered
  rw [findings, List.filter_append, List.filter_flatMap, List.filter_flatMap,
    flatMap_range_length m.components _ (fun c index => (c.sites index).flatMap (m.siteFindings levels))
      fun index c hc => filter_checkComponent levels hc,
    flatMap_range_length m.expanded _ (fun e index =>
        (e.sites index ((m.fullName? index).getD "")).flatMap (m.siteFindings levels))
      fun index e he => by rw [checkExpanded_eq hm levels he, filter_siteFindings],
    sites, List.flatMap_append, List.flatMap_assoc, List.flatMap_assoc]

/-- All that a check tells, whether it passes or not. -/
def told : Except (List Diagnostic) (List Diagnostic) → List Diagnostic
  | .ok ds => ds
  | .error ds => ds

theorem told_check (m : Model) (levels : Levels) : told (m.check levels) = m.findings levels := by
  rw [check_eq_verdict, Diagnostic.verdict_eq]
  split <;> rfl

/-- What a check tells about the ends of connectors: for every connector of the model in its place,
in order, one finding for its source and one for its target, each only if that end fails. An end is
looked up in the scope that declares the connector, a constant's source never fails, a finding tells
the failure of its end, and names the node of a connector by its full name. -/
theorem check_tells_failing_ends {d : Design} {m : Model} (h : d.build = .ok m) (levels : Levels) :
    (told (m.check levels)).filter isEndFinding = m.sites.flatMap (m.siteFindings levels) ∧
    ∀ x ∈ m.sites,
      m.siteEnd x .target = m.lookup (x.text .target) x.scope (some .target) ∧
      (x.connector.isConstant = false →
        m.siteEnd x .source = m.lookup (x.text .source) x.scope (some .source)) ∧
      (x.connector.isConstant = true → m.endFinding? levels x .source = none) ∧
      (∀ e f, m.endFinding? levels x e = some f → ∃ error, m.siteEnd x e = .error error ∧
        f.code = some (Finding.endpointCode e) ∧ f.help = some error.message) ∧
      ∀ index, x.scope = .expanded index → m.fullName? index = some x.owner := by
  have hm := Design.wellFormed_of_build h
  refine ⟨?_, fun x hx => ⟨?_, fun hw => ?_, fun hk => ?_, fun e f hf => ?_, fun index hs => ?_⟩⟩
  · rw [told_check, filter_findings hm]
  · exact siteEnd_eq_lookup (hm.scope_eq hx) nofun
  · exact siteEnd_eq_lookup (hm.scope_eq hx) fun _ => hw
  · obtain ⟨p, -, hp⟩ := siteEnd_constant (m := m) hk
    rw [endFinding?, hp]
  · exact endFinding?_eq_some hf
  · exact hm.owner_eq hx hs

/-- An outer component with an instance whose wiring misses ports on either level and in its
expansion; the constant only misses a target. -/
def strayDesign : Design where
  components := [
    { name := "Inner", ports := [.incoming "x" {}, .outgoing "y" {}] },
    { name := "Outer", ports := [.incoming "a" {}]
      instances := [{ name := "s", type := "Inner", connectors := [.wired "z" "s.x" {}] }]
      connectors := [.wired "b" "s.y" {}, .ofConstant "1" "t.x" {}] }]
  expansions := [.node "outer" "Outer" {} [.wired "a" "s.y" {}] [.node "s" "Inner" {} [] []]]

theorem check_tells_failing_ends_stray :
    strayDesign.build = .ok strayDesign.assemble ∧
    (told (strayDesign.assemble.check {})).filter isEndFinding =
      strayDesign.assemble.sites.flatMap (strayDesign.assemble.siteFindings {}) ∧
    (strayDesign.assemble.sites.flatMap (strayDesign.assemble.siteFindings {})).map
      (fun f => (f.code, f.help)) = [
        (some .unresolvedSource, some "no port `b` found in `Outer`"),
        (some .unresolvedTarget, some "no incoming port `s.y` found in `Inner`"),
        (some .unresolvedTarget, some "no instance `t` in `Outer`"),
        (some .unresolvedSource, some "no port `s.z` found in `Inner`"),
        (some .unresolvedTarget, some "no incoming port `s.y` found in `s`")] :=
  ⟨rfl, (check_tells_failing_ends (d := strayDesign) rfl {}).1, by decide⟩

end Model

end Interconnect
