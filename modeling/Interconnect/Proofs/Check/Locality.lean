/-
What findings about a component depend on. A component that is declared the same in two designs, where
the types of its instances have the same ports, has the same findings in both, wherever it stands and
whatever stands around it. Only ports that nothing reads are left out: whether they are told can depend
on the numbers of constants.
-/
import Interconnect.Proofs.Check.Rewiring
import Interconnect.Proofs.Design.Numbering

namespace Interconnect

/-- A type of that name is declared and has these ports. -/
def Design.DeclaresWith (d : Design) (type : String) (ports : List Port) : Prop :=
  ∃ t ∈ d.components, t.name = type ∧ t.ports = ports

/-- Lists that look alike from one side look alike from another, if members do. -/
theorem map_eq_map_of_views {α β γ δ : Type} {f : α → γ} {g : β → γ} {F : α → δ} {G : β → δ} {l : List α}
    {l' : List β} (h : l.map f = l'.map g) (hview : ∀ a ∈ l, ∀ b ∈ l', f a = g b → F a = G b) :
    l.map F = l'.map G := by
  induction l generalizing l' with
  | nil =>
    rw [List.map_nil, eq_comm, List.map_eq_nil_iff] at h
    rw [h]
    rfl
  | cons a rest ih =>
    cases l' with
    | nil => cases h
    | cons b rest' =>
      obtain ⟨hab, hrest⟩ := List.cons.inj h
      rw [List.map_cons, List.map_cons, hview a (List.mem_cons_self ..) b (List.mem_cons_self ..) hab,
        ih hrest fun x hx y hy => hview x (List.mem_cons_of_mem _ hx) y (List.mem_cons_of_mem _ hy)]

/-! ## Detached components -/

theorem Connector.target_detached (k : Connector) : k.detached.target = k.target := by
  unfold detached
  split <;> rfl

namespace Component

theorem bare_detached (c : Component) : c.detached.bare = c.bare := by
  rw [detached, bare, bare, List.map_map]
  rfl

theorem standing_detached (c : Component) :
    c.detached.standing = c.standing.map fun x => (x.1, x.2.detached) := by
  simp only [standing, detached, Instance.detached, List.map_append, List.map_map, List.map_flatMap,
    List.flatMap_map]
  rfl

theorem targets_detached (c : Component) :
    (Wiring.ofComponent c.detached).targets = (Wiring.ofComponent c).targets := by
  simp only [Wiring.ofComponent, detached, List.map_map]
  exact List.map_congr_left fun k _ => k.target_detached

theorem simpleTargets_detached (c : Component) :
    (Wiring.ofComponent c.detached).simpleTargets = (Wiring.ofComponent c).simpleTargets := by
  simp only [Wiring.ofComponent, simpleConnectors, detached, Instance.detached, List.map_flatMap,
    List.flatMap_map, List.map_map]
  exact List.flatMap_congr fun i _ => List.map_congr_left fun k _ => k.target_detached

end Component

/-- What was declared at a site: nothing of it depends on where the component stands. -/
def Site.declared (x : Site) : String × Option Instance × Connector :=
  (x.owner, x.instance?.map Instance.bare, x.connector.detached)

theorem Component.map_declared_sites (index : Nat) (c : Component) :
    (c.sites index).map Site.declared = c.detached.standing.map fun x => (c.name, x) := by
  have hbare : (c.sites index).map Site.declared =
      ((c.sites index).map Site.bare).map fun x => (x.owner, x.instance?, x.connector.detached) := by
    rw [List.map_map]
    rfl
  rw [hbare, map_bare_sites, standing_detached, List.map_map, List.map_map]
  rfl

namespace Site

variable {x x' : Site} (h : x'.declared = x.declared)

include h

theorem detached_of_declared : x'.connector.detached = x.connector.detached :=
  congrArg (·.2.2) h

theorem isConstant_of_declared : x'.connector.isConstant = x.connector.isConstant :=
  congrArg Option.isSome (Connector.detached_eq_iff.1 (detached_of_declared h)).1

/-- The source of a constant connector is not declared. -/
theorem text_of_declared {e : Endpoint} (he : e = .source → x.connector.isConstant = false) :
    x'.text e = x.text e := by
  obtain ⟨-, htarget, -, hwired⟩ := Connector.detached_eq_iff.1 (detached_of_declared h)
  cases e with
  | target => exact htarget
  | source =>
    have hk : x'.connector.isConstant = false := by rw [isConstant_of_declared h, he rfl]
    have hinstance : x'.bare.instance? = x.bare.instance? := congrArg (·.2.1) h
    rw [← x'.text_bare, ← x.text_bare, text, text, hinstance]
    simp only [bare, (hwired hk).1]

/-- What a finding shows of a connector was declared. -/
theorem unresolved_of_declared (levels : Levels) (e : Endpoint) (error : ResolutionError) :
    Finding.unresolved levels e x'.connector x'.owner error =
      Finding.unresolved levels e x.connector x.owner error := by
  obtain ⟨hconstant, htarget, hspan, hwired⟩ := Connector.detached_eq_iff.1 (detached_of_declared h)
  have howner : x'.owner = x.owner := congrArg (·.1) h
  have hshown : x'.connector.constant.getD x'.connector.source =
      x.connector.constant.getD x.connector.source := by
    rw [hconstant]
    cases hk : x.connector.constant with
    | some value => rfl
    | none => exact (hwired (by rw [Connector.isConstant, hconstant, hk]; rfl)).1
  have hreference : x'.connector.reference e = x.connector.reference e := by
    cases e with
    | source => exact hshown
    | target => exact htarget
  simp only [Finding.unresolved, Connector.label, hshown, hreference, htarget, hspan, howner]

end Site

/-! ## Ends -/

namespace Model

/-- The ports of the type of that name. -/
def typePorts? (m : Model) (type : String) : Option (List Port) := (m.find? type).map Component.ports

variable {m m' : Model} {i j : Nat} {c c' : Component}

theorem typePorts?_cases {type : String} (h : m'.typePorts? type = m.typePorts? type) :
    m.find? type = none ∧ m'.find? type = none ∨
      ∃ t t', m.find? type = some t ∧ m'.find? type = some t' ∧ t'.ports = t.ports := by
  unfold typePorts? at h
  cases ht : m.find? type with
  | none =>
    rw [ht, Option.map_none, Option.map_eq_none_iff] at h
    exact .inl ⟨rfl, h⟩
  | some t =>
    rw [ht, Option.map_some] at h
    obtain ⟨t', ht', hports⟩ := Option.map_eq_some_iff.1 h
    exact .inr ⟨t, t', rfl, ht', hports⟩

section

variable (hbare : c'.bare = c.bare)
  (htypes : ∀ s ∈ c.instances, m'.typePorts? s.type = m.typePorts? s.type)

include htypes in
/-- The types of instances are looked at for their ports only. -/
theorem declaredPort_local (raw : String) (r : PortRef) (mode : Option Endpoint) :
    m'.declaredPort (.component c) raw r mode = m.declaredPort (.component c) raw r mode := by
  simp only [declaredPort]
  cases r.instance? with
  | none => rfl
  | some inst =>
    dsimp only
    cases hs : c.findInstance inst with
    | none => rfl
    | some s =>
      obtain ⟨ht, ht'⟩ | ⟨t, t', ht, ht', hports⟩ :=
        typePorts?_cases (htypes s (List.mem_of_find?_eq_some hs))
      · simp only [ht, ht']
      · simp only [ht, ht', hports]

include hbare htypes in
/-- Inside a component references are looked up on its boundary and in the types of its instances. -/
theorem lookup_local (hc : m.components[i]? = some c) (hc' : m'.components[j]? = some c')
    (raw : String) (mode : Option Endpoint) :
    m'.lookup raw (.component j) mode = m.lookup raw (.component i) mode := by
  have hsame : (Spanning.component c').bare = (Spanning.component c).bare :=
    congrArg Spanning.component hbare
  have hboundary : ∀ r, boundaryPort (.component c') raw r mode =
      boundaryPort (.component c) raw r mode := by
    intro r
    rw [← boundaryPort_bare, hsame, boundaryPort_bare]
  have hdeclared : ∀ r, m'.declaredPort (.component c') raw r mode =
      m.declaredPort (.component c) raw r mode := by
    intro r
    rw [← declaredPort_bare, hsame, declaredPort_bare, declaredPort_local htypes]
  have hname : (Spanning.component c').name = (Spanning.component c).name :=
    Component.name_eq_of_bare hbare
  simp only [lookup, spanning?_component hc, spanning?_component hc', hboundary, hdeclared, hname]
  rfl

include hbare htypes in
/-- Sites that were declared the same have the same findings. -/
theorem siteFindings_local (hc : m.components[i]? = some c) (hc' : m'.components[j]? = some c')
    {x x' : Site} (hx : x.connector.scope = some x.scope) (hi : x.scope = .component i)
    (hx' : x'.connector.scope = some x'.scope) (hj : x'.scope = .component j)
    (h : x'.declared = x.declared) (levels : Levels) :
    m'.siteFindings levels x' = m.siteFindings levels x := by
  have hend : ∀ e, m'.endFinding? levels x' e = m.endFinding? levels x e := by
    intro e
    by_cases he : e = .source ∧ x.connector.isConstant = true
    · -- neither constant port is looked up
      obtain ⟨rfl, hk⟩ := he
      obtain ⟨p, -, hp⟩ := siteEnd_constant (m := m) hk
      have hk' : x'.connector.isConstant = true := by rw [Site.isConstant_of_declared h, hk]
      obtain ⟨p', -, hp'⟩ := siteEnd_constant (m := m') hk'
      rw [endFinding?, endFinding?, hp, hp']
    · have hk : e = .source → x.connector.isConstant = false := fun h => by simpa [h] using he
      have hk' : e = .source → x'.connector.isConstant = false := fun h' => by
        rw [Site.isConstant_of_declared h, hk h']
      rw [endFinding?, endFinding?, siteEnd_eq_lookup hx hk, siteEnd_eq_lookup hx' hk', hi, hj,
        Site.text_of_declared h hk, lookup_local hbare htypes hc hc']
      cases m.lookup (x.text e) (.component i) (some e) with
      | ok p => rfl
      | error error => exact congrArg some (Site.unresolved_of_declared h levels e error)
  rw [siteFindings, siteFindings, funext hend]

/-! ## Instances -/

/-- The findings about an instance but for those about ports that nothing reads. -/
theorem filter_instanceFindings_eq {s : Instance} {t : Component} (ht : m.find? s.type = some t)
    (levels : Levels) (c : Component) (w : Wiring) :
    (m.instanceFindings levels c w s).filter (·.code ≠ some .unusedOutgoing) =
      (w.unfed s t).map (Finding.unused levels c s .incoming) := by
  simp only [instanceFindings, ht]
  rw [List.filter_append, List.filter_eq_self.2, List.filter_eq_nil_iff.2, List.append_nil]
  · intro f hf
    obtain ⟨port, -, rfl⟩ := List.mem_map.1 hf
    simp [Finding.unused, Finding.unusedCode]
  · intro f hf
    obtain ⟨port, -, rfl⟩ := List.mem_map.1 hf
    simp [Finding.unused, Finding.unusedCode]

include hbare in
/-- Of the wiring only the targets are looked at. -/
theorem filter_instanceFindings_local {s s' : Instance} (hs : s'.bare = s.bare)
    (htypes : m'.typePorts? s.type = m.typePorts? s.type) {w w' : Wiring}
    (htargets : w'.targets = w.targets) (hsimple : w'.simpleTargets = w.simpleTargets)
    (levels : Levels) :
    (m'.instanceFindings levels c' w' s').filter (·.code ≠ some .unusedOutgoing) =
      (m.instanceFindings levels c w s).filter (·.code ≠ some .unusedOutgoing) := by
  rw [← m'.instanceFindings_bare, hbare, hs, m'.instanceFindings_bare]
  obtain ⟨ht, ht'⟩ | ⟨t, t', ht, ht', hports⟩ := typePorts?_cases htypes
  · simp only [instanceFindings, ht, ht']
  · rw [filter_instanceFindings_eq ht, filter_instanceFindings_eq ht', Wiring.unfed, Wiring.unfed,
      Component.incomingPorts, Component.incomingPorts, hports, htargets, hsimple]

end

/-! ## Main statement -/

/-- Components that were declared the same have the same findings, but for ports that nothing reads. -/
theorem filter_checkComponent_local (hdetached : c'.detached = c.detached)
    (hc : m.components[i]? = some c) (hc' : m'.components[j]? = some c')
    (hattached : ∀ k ∈ c.allConnectors, k.Attached (.component i))
    (hattached' : ∀ k ∈ c'.allConnectors, k.Attached (.component j))
    (htypes : ∀ s ∈ c.instances, m'.typePorts? s.type = m.typePorts? s.type) (levels : Levels) :
    (m'.checkComponent levels j).filter (·.code ≠ some .unusedOutgoing) =
      (m.checkComponent levels i).filter (·.code ≠ some .unusedOutgoing) := by
  have hbare : c'.bare = c.bare := by rw [← c'.bare_detached, hdetached, c.bare_detached]
  have hsites : (c'.sites j).map Site.declared = (c.sites i).map Site.declared := by
    rw [Component.map_declared_sites, Component.map_declared_sites, hdetached,
      Component.name_eq_of_bare hbare]
  have hends : (c'.sites j).map (m'.siteFindings levels) = (c.sites i).map (m.siteFindings levels) := by
    refine map_eq_map_of_views hsites fun x' hx' x hx h => ?_
    obtain ⟨hi, hk⟩ := mem_sites_component hx
    obtain ⟨hj, hk'⟩ := mem_sites_component hx'
    have hscope : x.connector.scope = some x.scope := by rw [(hattached _ hk).scope, hi]
    have hscope' : x'.connector.scope = some x'.scope := by rw [(hattached' _ hk').scope, hj]
    exact siteFindings_local hbare htypes hc hc' hscope hi hscope' hj h levels
  have htargets : (Wiring.ofComponent c').targets = (Wiring.ofComponent c).targets := by
    rw [← c'.targets_detached, hdetached, c.targets_detached]
  have hsimple : (Wiring.ofComponent c').simpleTargets = (Wiring.ofComponent c).simpleTargets := by
    rw [← c'.simpleTargets_detached, hdetached, c.simpleTargets_detached]
  have hinstances : c'.instances.map Instance.bare = c.instances.map Instance.bare :=
    congrArg Component.instances hbare
  rw [checkComponent_eq levels hc, checkComponent_eq levels hc', List.filter_append, List.filter_append,
    hends, List.filter_flatMap, List.filter_flatMap, List.flatMap_def, List.flatMap_def]
  congr 2
  refine map_eq_map_of_views hinstances fun s' _ s hs h => ?_
  exact filter_instanceFindings_local hbare h (htypes s hs) htargets hsimple levels

theorem typePorts?_eq_some_iff {d : Design} {m : Model} (h : d.build = .ok m) {type : String}
    {ports : List Port} : m.typePorts? type = some ports ↔ d.DeclaresWith type ports := by
  obtain ⟨hnames, -⟩ := Design.distinct_of_build h
  obtain ⟨-, rfl⟩ := Design.build_eq_ok_iff.1 h
  rw [typePorts?, Design.ports_find?_assemble, Option.map_eq_some_iff]
  constructor
  · rintro ⟨t, ht, rfl⟩
    exact ⟨t, List.mem_of_find?_eq_some ht, by simpa using List.find?_some ht, rfl⟩
  · rintro ⟨t, ht, rfl, rfl⟩
    exact ⟨t, find?_key_eq hnames ht, rfl⟩

/-- The findings about a component are its own: where it is declared the same in two designs that build,
and its instances have types with the same ports, or undeclared ones, in both, they are the same, at any
place and among any other components and trees. Left out are those about ports that nothing reads. -/
theorem checkComponent_local {d d' : Design} {m m' : Model} (h : d.build = .ok m)
    (h' : d'.build = .ok m') {i j : Nat} {c : Component} (hc : d.components[i]? = some c) (hc' : d'.components[j]? = some c)
    (htypes : ∀ s ∈ c.instances, ∀ ports,
      d.DeclaresWith s.type ports ↔ d'.DeclaresWith s.type ports) (levels : Levels) :
    (m.checkComponent levels i).filter (·.code ≠ some .unusedOutgoing) =
      (m'.checkComponent levels j).filter (·.code ≠ some .unusedOutgoing) := by
  have htypes' : ∀ s ∈ c.instances, m.typePorts? s.type = m'.typePorts? s.type := by
    intro s hs
    refine Option.ext fun ports => ?_
    rw [typePorts?_eq_some_iff h, typePorts?_eq_some_iff h']
    exact htypes s hs ports
  obtain ⟨-, rfl⟩ := Design.build_eq_ok_iff.1 h
  obtain ⟨-, rfl⟩ := Design.build_eq_ok_iff.1 h'
  obtain ⟨used, hget⟩ := Design.getElem?_assemble hc
  obtain ⟨used', hget'⟩ := Design.getElem?_assemble hc'
  refine filter_checkComponent_local ?_ hget' hget Design.attached_attachComponent
    Design.attached_attachComponent (fun s hs => ?_) levels
  · rw [Design.detached_attachComponent, Design.detached_attachComponent]
  · -- the types of instances are those that were declared
    have hmem := List.mem_map_of_mem (f := Instance.type) hs
    rw [Design.attachComponent, Design.map_attachInstances fun _ _ => rfl] at hmem
    obtain ⟨s₀, hs₀, htype⟩ := List.mem_map.1 hmem
    rw [← htype]
    exact htypes' s₀ hs₀

/-- A component with an end of each kind that fails, an instance that is not fed, and one without a
type. -/
def strayComponent : Component where
  name := "Outer"
  ports := [.outgoing "b" {}]
  instances := [
    { name := "g", type := "Gain", connectors := [.ofConstant "1" "g.z" {}] },
    { name := "u", type := "Ghost" }]
  connectors := [.wired "q" "b" {}]

def gainPorts : List Port := [.incoming "x" {}, .outgoing "CONSTANTPORT1" {}]

def nearDesign : Design where
  components := [{ name := "Gain", ports := gainPorts }, strayComponent]

/-- The same component behind one with a constant of its own, and under a tree. -/
def farDesign : Design where
  components := [
    { name := "Front", ports := [.outgoing "o" {}], connectors := [.ofConstant "0" "o" {}] },
    strayComponent,
    { name := "Gain", ports := gainPorts, instances := [{ name := "f", type := "Front" }] }]
  expansions := [.node "top" "Outer" {} [] []]

/-- The constant has another number behind another one, and so is taken for the reader of a port in one
design only. -/
theorem checkComponent_local_numbered :
    nearDesign.build = .ok nearDesign.assemble ∧ farDesign.build = .ok farDesign.assemble ∧
    (nearDesign.assemble.checkComponent {} 1).filter (·.code ≠ some .unusedOutgoing) =
      (farDesign.assemble.checkComponent {} 1).filter (·.code ≠ some .unusedOutgoing) ∧
    (nearDesign.assemble.checkComponent {} 1).map (·.code) =
      [some .unresolvedSource, some .unresolvedTarget, some .unusedIncoming, none] ∧
    (farDesign.assemble.checkComponent {} 1).map (·.code) =
      [some .unresolvedSource, some .unresolvedTarget, some .unusedIncoming, some .unusedOutgoing,
        none] := by
  have htypes : ∀ s ∈ strayComponent.instances, ∀ ports,
      nearDesign.DeclaresWith s.type ports ↔ farDesign.DeclaresWith s.type ports := by
    intro s hs ports
    simp only [strayComponent, List.mem_cons, List.not_mem_nil, or_false] at hs
    rcases hs with rfl | rfl <;>
      simp [Design.DeclaresWith, nearDesign, farDesign, strayComponent]
  exact ⟨rfl, rfl, checkComponent_local (j := 1) rfl rfl rfl rfl htypes {}, by decide, by decide⟩

end Model

end Interconnect
