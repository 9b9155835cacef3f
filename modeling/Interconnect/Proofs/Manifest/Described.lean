/-
What a loaded model consists of. Everything a manifest declares is in the model of it, as it is written,
in the order in which it is declared and with the place where it is written, and nothing else is. The
design of the entries is what they describe, up to what attaching does to connectors; so it is enough to
compare with the design, where attached connectors are told apart by what they were before.
-/
import Interconnect.Proofs.Design.Numbering
import Interconnect.Proofs.Manifest.Literals
import Interconnect.Proofs.Manifest.Names

namespace Interconnect

/-- Every name in the node, and every name of a type, is a single segment. -/
structure Expanded.WellNamed (e : Expanded) : Prop where
  name : IsSegment e.name
  type : IsSegment e.type
  ports : ∀ p ∈ e.ports, IsSegment p.name

structure Model.WellNamed (m : Model) : Prop where
  components : ∀ c ∈ m.components, c.WellNamed
  nodes : ∀ e ∈ m.expanded, e.WellNamed

namespace Manifest

open Toml

/-! ## Descriptions -/

/-- The connector is the declared one in the scope that declares it, with its source or with a text of its
constant. It spans whichever it has and its target. The text is the same wherever the constant is. -/
structure ConnectEntry.Describes (c : ConnectEntry) (scope : Scope) (k : Connector) : Prop where
  target : k.target = c.target.value
  scope : k.scope = some scope
  constant : k.constant = c.constant.map fun literal => literal.value.render
  reads : (∃ source, c.source = some source ∧ c.constant = none ∧ k.constant = none ∧
      k.source = source.value ∧ k.span = source.place.union c.target.place) ∨
    ∃ constant text, c.source = none ∧ c.constant = some constant ∧ k.constant = some text ∧
      constant.value.WrittenAs text ∧ k.span = constant.place.union c.target.place

structure InstanceEntry.Describes (e : InstanceEntry) (scope : Scope) (i : Instance) : Prop where
  name : i.name = e.name.value
  type : i.type = e.type.value
  span : i.span = e.name.place.union e.type.place
  connectors : List.Forall₂ (·.Describes scope ·) e.connectors i.connectors

/-- The component at a position is the declared one: its ports are the incoming and then the outgoing
names, each at its place. -/
structure ComponentEntry.Describes (e : ComponentEntry) (index : Nat) (c : Component) : Prop where
  name : c.name = e.name.value
  span : c.span = e.name.place
  ports : c.ports = e.incoming.map (fun p => .incoming p.value p.place) ++
    e.outgoing.map fun p => .outgoing p.value p.place
  instances : List.Forall₂ (·.Describes (.component index) ·) e.instances c.instances
  connectors : List.Forall₂ (·.Describes (.component index) ·) e.connectors c.connectors

structure ExpansionEntry.Describes (e : ExpansionEntry) (index : Nat) (x : Expanded) : Prop where
  name : x.name = e.name.value
  type : x.type = e.type.value
  span : x.span = e.name.place.union e.type.place
  connectors : List.Forall₂ (·.Describes (.expanded index) ·) e.connectors x.connectors

mutual

/-- An expanded instance, and then all that are declared inside it. -/
def ExpansionEntry.nodes : ExpansionEntry → List ExpansionEntry
  | ⟨name, type, children, connectors⟩ => ⟨name, type, children, connectors⟩ :: expansionNodes children

def expansionNodes : List ExpansionEntry → List ExpansionEntry
  | [] => []
  | e :: rest => e.nodes ++ expansionNodes rest

end

def Declarations.nodes (d : Declarations) : List ExpansionEntry := expansionNodes d.expansions

/-- The model has one component for each that is declared and one node for each expanded instance, at
the same position. -/
structure Declarations.Describes (d : Declarations) (m : Model) : Prop where
  length_components : m.components.length = d.components.length
  components : ∀ (index : Nat) (e : ComponentEntry) (c : Component), d.components[index]? = some e →
    m.components[index]? = some c → e.Describes index c
  length_nodes : m.expanded.length = d.nodes.length
  nodes : ∀ (index : Nat) (e : ExpansionEntry) (x : Expanded), d.nodes[index]? = some e →
    m.expanded[index]? = some x → e.Describes index x

/-! ## Connectors -/

/-- An entry without flaws has a connector. -/
theorem ConnectEntry.connector?_of_flaws {c : ConnectEntry} (h : c.flaws = []) :
    ∃ k, c.connector? = some k := by
  obtain ⟨source, constant, target⟩ := c
  cases source <;> cases constant
  · cases h
  · exact ⟨_, rfl⟩
  · exact ⟨_, rfl⟩
  · cases h

theorem ConnectEntry.describes {c : ConnectEntry} {scope : Scope} {k₀ k : Connector}
    (h : c.connector? = some k₀) (hk : k.detached = k₀.detached) (hs : k.scope = some scope) :
    c.Describes scope k := by
  obtain ⟨hconstant, htarget, hspan, hwired⟩ := Connector.detached_eq_iff.1 hk
  obtain ⟨source, constant, target⟩ := c
  cases source with
  | none =>
    cases constant with
    | none => cases h
    | some constant =>
      cases h
      exact ⟨htarget, hs, hconstant,
        .inr ⟨constant, _, rfl, rfl, hconstant, constant.value.writtenAs_render, hspan⟩⟩
  | some source =>
    cases constant with
    | none =>
      cases h
      have hnone : k.isConstant = false := by
        rw [Connector.isConstant, hconstant]
        rfl
      exact ⟨htarget, hs, hconstant, .inl ⟨source, rfl, rfl, hconstant, (hwired hnone).1, hspan⟩⟩
    | some constant => cases h

/-- Attached connectors are as declared if they were before. -/
theorem describes_connectors {scope : Scope} {cs : List ConnectEntry} {ks : List Connector}
    (hf : cs.flatMap ConnectEntry.flaws = [])
    (hd : ks.map Connector.detached =
      (cs.filterMap ConnectEntry.connector?).map Connector.detached)
    (hs : ∀ k ∈ ks, k.scope = some scope) : List.Forall₂ (·.Describes scope ·) cs ks := by
  induction cs generalizing ks with
  | nil =>
    rw [List.map_eq_nil_iff.1 hd]
    exact .nil
  | cons c rest ih =>
    obtain ⟨hc, hrest⟩ := List.append_eq_nil_iff.1 hf
    -- without flaws no entry is left out, so the heads of both lists belong together
    obtain ⟨k₀, hk₀⟩ := c.connector?_of_flaws hc
    rw [List.filterMap_cons_some hk₀, List.map_cons] at hd
    obtain ⟨k, ks, rfl, hk, hks⟩ := List.map_eq_cons_iff.1 hd
    obtain ⟨hsk, hsks⟩ := List.forall_mem_cons.1 hs
    exact .cons (c.describes hk₀ hk hsk) (ih hrest hks hsks)

/-! ## Components -/

theorem InstanceEntry.describes {e : InstanceEntry} {scope : Scope} {i : Instance} (hf : e.flaws = [])
    (hd : i.detached = e.inst.detached) (hs : ∀ k ∈ i.connectors, k.scope = some scope) :
    e.Describes scope i := by
  simp only [Instance.detached, Instance.mk.injEq] at hd
  obtain ⟨hname, htype, hconnectors, hspan⟩ := hd
  exact ⟨hname, htype, hspan, describes_connectors (List.append_eq_nil_iff.1 hf).2 hconnectors hs⟩

theorem describes_instances {scope : Scope} {es : List InstanceEntry} {is : List Instance}
    (hf : es.flatMap InstanceEntry.flaws = [])
    (hd : is.map Instance.detached = (es.map InstanceEntry.inst).map Instance.detached)
    (hs : ∀ i ∈ is, ∀ k ∈ i.connectors, k.scope = some scope) :
    List.Forall₂ (·.Describes scope ·) es is := by
  induction es generalizing is with
  | nil =>
    rw [List.map_eq_nil_iff.1 hd]
    exact .nil
  | cons e rest ih =>
    obtain ⟨he, hrest⟩ := List.append_eq_nil_iff.1 hf
    rw [List.map_cons, List.map_cons] at hd
    obtain ⟨i, is, rfl, hi, his⟩ := List.map_eq_cons_iff.1 hd
    obtain ⟨hsi, hsis⟩ := List.forall_mem_cons.1 hs
    exact .cons (e.describes he hi hsi) (ih hrest his hsis)

theorem ComponentEntry.describes {e : ComponentEntry} {index : Nat} {c : Component}
    (hf : e.flaws = []) (hd : c.detached = e.component.detached)
    (hs : ∀ k ∈ c.allConnectors, k.scope = some (.component index)) : e.Describes index c := by
  simp only [flaws, List.append_eq_nil_iff] at hf
  simp only [Component.detached, Component.mk.injEq] at hd
  obtain ⟨hname, hports, hinstances, hconnectors, hspan⟩ := hd
  refine ⟨hname, hspan, hports, describes_instances hf.1.2 hinstances fun i hi k hk => ?_,
    describes_connectors hf.2 hconnectors fun k hk => ?_⟩
  · exact hs k (List.mem_append_right _ (List.mem_flatMap.2 ⟨i, hi, hk⟩))
  · exact hs k (List.mem_append_left _ hk)

/-! ## Expanded instances -/

theorem ExpansionEntry.expansion_eq (e : ExpansionEntry) :
    e.expansion = .node e.name.value e.type.value (e.name.place.union e.type.place)
      (e.connectors.filterMap ConnectEntry.connector?) (expansionTrees e.children) := by
  cases e
  rw [expansion]

mutual

theorem ExpansionEntry.subtrees_expansion : ∀ e : ExpansionEntry,
    e.expansion.subtrees = e.nodes.map ExpansionEntry.expansion
  | ⟨name, type, children, connectors⟩ => by
    rw [ExpansionEntry.nodes, List.map_cons, ExpansionEntry.expansion, Expansion.subtrees,
      subtreesAll_expansionTrees children]

/-- The trees of a manifest have the declared expanded instances as their nodes. -/
theorem subtreesAll_expansionTrees : ∀ es : List ExpansionEntry,
    Expansion.subtreesAll (expansionTrees es) = (expansionNodes es).map ExpansionEntry.expansion
  | [] => rfl
  | e :: rest => by
    rw [expansionTrees, Expansion.subtreesAll, expansionNodes, List.map_append, e.subtrees_expansion,
      subtreesAll_expansionTrees rest]

end

/-- What there is of an expanded instance apart from the ones inside it has no flaws. -/
structure ExpansionEntry.Flawless (e : ExpansionEntry) : Prop where
  name : IsSegment e.name.value
  type : IsSegment e.type.value
  connectors : e.connectors.flatMap ConnectEntry.flaws = []

mutual

theorem ExpansionEntry.flawless_nodes : ∀ e : ExpansionEntry, e.flaws = [] → ∀ n ∈ e.nodes, n.Flawless
  | ⟨name, type, children, connectors⟩, h, n, hn => by
    simp only [ExpansionEntry.flaws, List.append_eq_nil_iff, nameFlaws_eq_nil_iff] at h
    obtain ⟨⟨⟨hname, htype⟩, hchildren⟩, hconnectors⟩ := h
    rw [ExpansionEntry.nodes] at hn
    rcases List.mem_cons.1 hn with rfl | hn
    · exact ⟨hname, htype, hconnectors⟩
    · exact flawless_expansionNodes children hchildren n hn

theorem flawless_expansionNodes : ∀ es : List ExpansionEntry, expansionFlaws es = [] →
    ∀ n ∈ expansionNodes es, n.Flawless
  | e :: rest, h, n, hn => by
    rw [expansionFlaws, List.append_eq_nil_iff] at h
    rw [expansionNodes] at hn
    rcases List.mem_append.1 hn with hn | hn
    · exact e.flawless_nodes h.1 n hn
    · exact flawless_expansionNodes rest h.2 n hn

end

/-! ## Loading -/

theorem Declarations.describes_components {d : Declarations} (hf : d.flaws = []) {index : Nat}
    {e : ComponentEntry} {c : Component} (he : d.components[index]? = some e)
    (hc : d.design.assemble.components[index]? = some c) : e.Describes index c := by
  obtain ⟨used, c₀, hc₀, rfl⟩ := Design.components_assemble hc
  have hdesign : d.design.components[index]? = some e.component := by
    rw [design, List.getElem?_map, he, Option.map_some]
  cases hdesign.symm.trans hc₀
  have hflaws := (List.append_eq_nil_iff.1 hf).1
  refine e.describes (List.flatMap_eq_nil_iff.1 hflaws e (List.mem_of_getElem? he))
    (Design.detached_attachComponent index used _) fun k hk => ?_
  exact (Design.attached_attachComponent k hk).scope

theorem Declarations.describes_nodes {d : Declarations} (hf : d.flaws = []) :
    d.design.assemble.expanded.length = d.nodes.length ∧
    ∀ (index : Nat) (e : ExpansionEntry) (x : Expanded), d.nodes[index]? = some e →
      d.design.assemble.expanded[index]? = some x → e.Describes index x := by
  -- the nodes are compared with the subtrees of the design, and these with their entries
  have hnodes : d.design.assemble.expanded.map
      (fun x => (x.name, x.type, x.span, x.connectors.map Connector.detached)) =
      d.nodes.map fun e => (e.name.value, e.type.value, e.name.place.union e.type.place,
        (e.connectors.filterMap ConnectEntry.connector?).map Connector.detached) := by
    have htrees : d.design.assemble.expanded.map
        (fun x => (x.name, x.type, x.span, x.connectors.map Connector.detached)) =
        (Expansion.subtreesAll (expansionTrees d.expansions)).map fun t =>
          (t.name, t.type, t.span, t.connectors.map Connector.detached) := by
      refine Expansion.map_flattenAll (fun parent index used t => ?_) none 0 _ _
      rw [Expansion.rootAt, Connector.map_detached_attachAll]
    rw [subtreesAll_expansionTrees, List.map_map] at htrees
    refine htrees.trans (List.map_congr_left fun e _ => ?_)
    rw [Function.comp_apply, e.expansion_eq]
    rfl
  refine ⟨by simpa using congrArg List.length hnodes, fun index e x he hx => ?_⟩
  have hat := congrArg (·[index]?) hnodes
  simp only [List.getElem?_map, he, hx, Option.map_some, Option.some.injEq, Prod.mk.injEq] at hat
  obtain ⟨hname, htype, hspan, hconnectors⟩ := hat
  have hflawless := flawless_expansionNodes d.expansions (List.append_eq_nil_iff.1 hf).2 e
    (List.mem_of_getElem? he)
  refine ⟨hname, htype, hspan, describes_connectors hflawless.connectors hconnectors fun k hk => ?_⟩
  -- the trees start at position 0, so a node stands at its own index
  have hplaced := Expansion.placed_flattenAll d.design.portsOf none 0 d.design.componentConstants
    d.design.expansions index x hx
  rw [Nat.zero_add] at hplaced
  exact (hplaced.attached k hk).scope

/-- What is named in the ports of nodes is named in components. -/
theorem Declarations.wellNamed_nodes {d : Declarations} (hf : d.flaws = []) :
    ∀ x ∈ d.design.assemble.expanded, x.WellNamed := by
  intro x hx
  obtain ⟨index, hx'⟩ := List.mem_iff_getElem?.1 hx
  obtain ⟨hlength, hdescribes⟩ := d.describes_nodes hf
  have hlt : index < d.nodes.length := by
    rw [← hlength]
    exact (List.getElem?_eq_some_iff.1 hx').1
  have he := hdescribes index _ x (List.getElem?_eq_getElem hlt) hx'
  have hflawless := flawless_expansionNodes d.expansions (List.append_eq_nil_iff.1 hf).2 _
    (List.getElem_mem hlt)
  refine ⟨he.name ▸ hflawless.name, he.type ▸ hflawless.type, fun p hp => ?_⟩
  -- the node has the ports of a component, or none if its type is not declared
  rw [Expansion.ports_flattenAll d.design.expansions x hx, Design.portsOf] at hp
  cases hfind : d.design.components.find? (·.name = x.type) with
  | none =>
    rw [hfind] at hp
    cases hp
  | some c =>
    rw [hfind] at hp
    obtain ⟨e, hmem, rfl⟩ := List.mem_map.1 (List.mem_of_find?_eq_some hfind)
    have hflaws := List.flatMap_eq_nil_iff.1 (List.append_eq_nil_iff.1 hf).1 e hmem
    exact (e.wellNamed_of_flaws hflaws).ports p hp

/-- The model that is put together for declarations without flaws is what they describe. -/
theorem Declarations.describes_assemble {d : Declarations} (hf : d.flaws = []) :
    d.Describes d.design.assemble := by
  obtain ⟨hlength, hnodes⟩ := d.describes_nodes hf
  have hcount := congrArg List.length
    (Design.map_attachComponents Design.detached_attachComponent 0 0 d.design.components)
  rw [List.length_map, List.length_map, Declarations.design, List.length_map] at hcount
  exact ⟨hcount, fun index e c he hc => d.describes_components hf he hc, hlength, hnodes⟩

/-- A loaded model is what the text declares, nothing more and nothing less, and all names in it are
single segments. -/
theorem describes_of_load {text : String} {d : Declarations} {m : Model}
    (hd : declarations text = .ok d) (hm : load text = .ok m) : d.Describes m ∧ m.WellNamed := by
  obtain ⟨hflaws, hbuild⟩ := (load_eq_ok_iff hd).1 hm
  have hcomponents := wellNamed_of_load hm
  obtain ⟨-, rfl⟩ := Design.build_eq_ok_iff.1 hbuild
  exact ⟨d.describes_assemble hflaws, hcomponents, d.wellNamed_nodes hflaws⟩

/-- Every kind of declaration: constants of all kinds, a wire on an instance, and a nested expanded
instance. -/
def nestedManifest : String :=
  "component=[\x7bname='a',in=['x'],out=['y'],connect=[\x7bconstant=0x02,target='y'\x7d," ++
    "\x7bconstant=true,target='y'\x7d,\x7bconstant=1e-1,target='y'\x7d,\x7bconstant='on',target='y'\x7d]\x7d," ++
    "\x7bname='b',instance=[\x7bname='s',type='a',connect=[\x7bsource='y',target='s.x'\x7d]\x7d]\x7d]\n" ++
    "expansion=[\x7bname='e',type='b',instance=[\x7bname='s',type='a'\x7d]\x7d]"

theorem describes_of_load_nested : ∃ d m, declarations nestedManifest = .ok d ∧
    load nestedManifest = .ok m ∧
    (m.components.map fun c => c.connectors.map Connector.constant) =
      [[some "2", some "true", some "0.1", some "on"], []] ∧ d.Describes m ∧ m.WellNamed := by
  have hdeclared : (declarations nestedManifest).toOption.map (fun d => (d.flaws,
      d.design.build.toOption.map (·.components.map fun c => c.connectors.map Connector.constant))) =
        some ([], some [[some "2", some "true", some "0.1", some "on"], []]) := by decide +kernel
  obtain ⟨d, hd, hsound⟩ := exists_ok hdeclared
  obtain ⟨hflaws, hbuilds⟩ := Prod.mk.inj hsound
  obtain ⟨m, hb, hconstants⟩ := exists_ok hbuilds
  have hm : load nestedManifest = .ok m := (load_eq_ok_iff hd).2 ⟨hflaws, hb⟩
  exact ⟨d, m, hd, hm, hconstants, describes_of_load hd hm⟩

end Manifest

end Interconnect
