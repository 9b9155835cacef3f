/-
Expanded instances and their templates. An expanded instance has the ports of its type; where it also
has the instances of its type for its children, a reference that neither of the two names as its own
resolves alike inside both: to the same port, or with the same failure but for the name of the owner
that is blamed.
-/
import Interconnect.Proofs.Design.WellFormed
import Interconnect.Proofs.Expansion.Subtrees
import Interconnect.Proofs.Resolution

namespace Interconnect

/-- The failure without the name of what it is blamed on. -/
def ResolutionError.ownerless : ResolutionError → ResolutionError
  | portNotFound raw _ => portNotFound raw ""
  | wrongDirection raw expected _ => wrongDirection raw expected ""
  | unknownInstance inst _ => unknownInstance inst ""
  | malformedName raw fault => malformedName raw fault
  | unknownComponentType inst type => unknownComponentType inst type
  | missingScope raw scope => missingScope raw scope
  | detachedConnector raw => detachedConnector raw

/-- The text is no reference that is qualified with the name. -/
def PortRef.Avoids (raw name : String) : Prop :=
  ∀ r, parse raw = .ok r → r.instance? ≠ some name

def Component.HasInstance (c : Component) (name type : String) : Prop :=
  ∃ i ∈ c.instances, i.name = name ∧ i.type = type

namespace Model

def HasChild (m : Model) (e : Expanded) (name type : String) : Prop :=
  ∃ index ∈ e.children, ∃ f, m.expanded[index]? = some f ∧ f.name = name ∧ f.type = type

/-- The node has for its children what the component has for its instances, by name and type. -/
def Mirrors (m : Model) (e : Expanded) (c : Component) : Prop :=
  ∀ name type, m.HasChild e name type ↔ c.HasInstance name type

/-! ## Types of nodes -/

/-- The type of a node is declared, and has the ports of the node. -/
theorem find?_type_of_build {d : Design} {m : Model} (h : d.build = .ok m) {e : Expanded}
    (he : e ∈ m.expanded) : ∃ c, m.find? e.type = some c ∧ c.ports = e.ports := by
  obtain ⟨hd, rfl⟩ := Design.build_eq_ok_iff.1 h
  rw [Design.defects, List.append_eq_nil_iff, List.flatMap_eq_nil_iff,
    Expansion.treeDefects_eq_nil_iff_all] at hd
  -- the node stands for a subtree of its type, which is declared as there is no defect
  obtain ⟨t, ht, htype⟩ : ∃ t ∈ Expansion.subtreesAll d.expansions, t.type = e.type := by
    have hmem := List.mem_map_of_mem (f := Expanded.type) he
    rw [Design.assemble, Expansion.map_flattenAll (g := Expansion.type) fun _ _ _ _ => rfl] at hmem
    exact List.mem_map.1 hmem
  have hdeclared : d.declares e.type = true := htype ▸ (hd.2 t ht).1
  have hports : e.ports = d.portsOf e.type := Expansion.ports_flattenAll d.expansions e he
  obtain ⟨c₀, hc₀⟩ : ∃ c₀, d.components.find? (·.name = e.type) = some c₀ := by
    rw [← Option.isSome_iff_exists, List.find?_isSome]
    simpa [Design.declares] using hdeclared
  have hfind := d.ports_find?_assemble e.type
  rw [hc₀] at hfind
  obtain ⟨c, hc, hcp⟩ := Option.map_eq_some_iff.1 hfind
  refine ⟨c, hc, ?_⟩
  rw [hcp, hports, Design.portsOf, hc₀]
  rfl

theorem indexOf?_of_find? {m : Model} {name : String} {c : Component} (h : m.find? name = some c) :
    ∃ j, m.indexOf? name = some j ∧ m.components[j]? = some c := by
  rwa [find?, List.find?_eq_bind_findIdx?_getElem?, Option.bind_eq_some_iff] at h

/-! ## Looking up -/

theorem settle_singleton {ε α : Type} (x : Except ε α) : settle [x] = some x := by
  cases x <;> rfl

theorem boundaryPort_of_foreign {s : Spanning} {r : PortRef} {inst : String}
    (hq : r.instance? = some inst) (hne : inst ≠ s.name) (raw : String) (mode : Option Endpoint) :
    boundaryPort s raw r mode = none := by
  simp [boundaryPort, hq, hne]

section

variable {m : Model} {raw : String} {r : PortRef} (hr : PortRef.parse raw = .ok r)
  (mode : Option Endpoint) {index : Nat}

include hr

/-- A bare reference is to the boundary. -/
theorem lookup_of_bare {scope : Scope} {s : Spanning} (hs : m.spanning? scope = some s)
    (hb : r.instance? = none) :
    m.lookup raw scope mode = portIn s.ports raw r.port (mode.map Endpoint.boundary) s.name := by
  have hboundary : boundaryPort s raw r mode =
      some (portIn s.ports raw r.port (mode.map Endpoint.boundary) s.name) := by
    simp [boundaryPort, hb]
  simp only [lookup, hs, hr, hboundary]
  -- whatever is tried after the boundary fails when that does, and later
  cases s with
  | component c =>
    simp only [expandedPort, declaredPort, hb, Spanning.ports, Spanning.name]
    cases portIn c.ports raw r.port (mode.map Endpoint.boundary) c.name <;> rfl
  | expanded e =>
    simp only [expandedPort, declaredPort, hb, Spanning.ports, Spanning.name]
    cases portIn e.ports raw r.port (mode.map Endpoint.boundary) e.name <;> rfl

/-- Inside an expanded instance, a reference that is not to its boundary is to a child. -/
theorem lookup_child {e : Expanded} (he : m.expanded[index]? = some e) {inst : String}
    (hq : r.instance? = some inst) (hne : inst ≠ e.name) :
    m.lookup raw (.expanded index) mode =
      match m.findChild? e inst with
      | none => .error (.unknownInstance inst e.name)
      | some (_, child) =>
        portIn child.ports raw r.port (mode.map Endpoint.subcomponent) child.name := by
  have hboundary := boundaryPort_of_foreign (s := .expanded e) hq hne raw mode
  simp only [lookup, spanning?_expanded he, hr, hboundary, expandedPort, declaredPort, hq]
  cases m.findChild? e inst with
  | none => rfl
  | some found => exact congrArg (Option.getD · _) (settle_singleton _)

/-- Inside a component, a reference that is not to its boundary is to an instance. -/
theorem lookup_instance {c : Component} (hc : m.components[index]? = some c) {inst : String}
    (hq : r.instance? = some inst) (hne : inst ≠ c.name) :
    m.lookup raw (.component index) mode =
      match c.findInstance inst with
      | none => .error (.unknownInstance inst c.name)
      | some i =>
        match m.find? i.type with
        | none => .error (.unknownComponentType i.name i.type)
        | some type => portIn type.ports raw r.port (mode.map Endpoint.subcomponent) i.type := by
  have hboundary := boundaryPort_of_foreign (s := .component c) hq hne raw mode
  simp only [lookup, spanning?_component hc, hr, hboundary, expandedPort, declaredPort, hq]
  cases c.findInstance inst with
  | none => rfl
  | some i =>
    dsimp only
    cases m.find? i.type with
    | none => rfl
    | some type => exact congrArg (Option.getD · _) (settle_singleton _)

end

/-- Whom a failure is blamed on does not matter to what is found. -/
theorem mapError_portIn (ports : List Port) (raw name : String) (direction : Option Direction)
    (owner owner' : String) :
    (portIn ports raw name direction owner).mapError ResolutionError.ownerless =
      (portIn ports raw name direction owner').mapError ResolutionError.ownerless := by
  unfold portIn
  cases Port.find ports name direction with
  | some p => rfl
  | none =>
    cases direction with
    | none => rfl
    | some expected =>
      dsimp only
      split <;> rfl

/-! ## Children and instances -/

section

variable {m : Model} {e : Expanded} {c : Component} (hmirrors : m.Mirrors e c) {inst : String}

include hmirrors

theorem findInstance_of_findChild? (hd : c.Distinct) {found : Nat × Expanded}
    (h : m.findChild? e inst = some found) :
    found.2 ∈ m.expanded ∧ ∃ i, c.findInstance inst = some i ∧ i.type = found.2.type := by
  have hname : found.2.name = inst := by simpa using List.find?_some h
  obtain ⟨index, hindex, hfound⟩ := List.mem_filterMap.1 (List.mem_of_find?_eq_some h)
  obtain ⟨f, hf, rfl⟩ := Option.map_eq_some_iff.1 hfound
  obtain ⟨i, hi, hiname, htype⟩ := (hmirrors inst f.type).1 ⟨index, hindex, f, hf, hname, rfl⟩
  refine ⟨List.mem_of_getElem? hf, i, ?_, htype⟩
  rw [← hiname]
  exact hd.findInstance_eq hi

theorem findInstance_eq_none_of_findChild? (h : m.findChild? e inst = none) :
    c.findInstance inst = none := by
  refine List.find?_eq_none.2 fun i hi hname => ?_
  obtain ⟨index, hindex, f, hf, hfname, -⟩ :=
    (hmirrors inst i.type).2 ⟨i, hi, of_decide_eq_true hname, rfl⟩
  have hmem : (index, f) ∈ e.children.filterMap fun index => (m.expanded[index]?).map (index, ·) :=
    List.mem_filterMap.2 ⟨index, hindex, by rw [hf]; rfl⟩
  exact List.find?_eq_none.1 h _ hmem (decide_eq_true hfname)

end

/-- In a model that is built, the type of an expanded instance is declared. Where the two have the same
names inside, of the same types, a reference resolves alike in both, unless it is qualified with the
name of one of them: it is resolved to the same port, or fails in the same way, up to the owner that is
blamed. -/
theorem lookup_eq_template {d : Design} {m : Model} (h : d.build = .ok m) {index : Nat} {e : Expanded}
    (he : m.expanded[index]? = some e) :
    ∃ j c, m.indexOf? e.type = some j ∧ m.components[j]? = some c ∧ c.name = e.type ∧
      (m.Mirrors e c → ∀ raw, PortRef.Avoids raw e.name → PortRef.Avoids raw c.name → ∀ mode,
        (m.lookup raw (.expanded index) mode).mapError ResolutionError.ownerless =
          (m.lookup raw (.component j) mode).mapError ResolutionError.ownerless) := by
  have hm := Design.wellFormed_of_build h
  obtain ⟨c, hfind, hports⟩ := find?_type_of_build h (List.mem_of_getElem? he)
  have hname : c.name = e.type := by simpa using List.find?_some hfind
  obtain ⟨j, hj, hc⟩ := indexOf?_of_find? hfind
  refine ⟨j, c, hj, hc, hname, fun hmirrors raw hnode htype mode => ?_⟩
  have hse := spanning?_expanded he
  have hsc := spanning?_component hc
  cases hr : PortRef.parse raw with
  | error fault => simp only [lookup, hse, hsc, hr]
  | ok r =>
    cases hq : r.instance? with
    | none =>
      rw [lookup_of_bare hr mode hse hq, lookup_of_bare hr mode hsc hq]
      simp only [Spanning.ports, Spanning.name, hports]
      exact mapError_portIn ..
    | some inst =>
      have hne : inst ≠ e.name := fun heq => hnode r hr (heq ▸ hq)
      have hnc : inst ≠ c.name := fun heq => htype r hr (heq ▸ hq)
      rw [lookup_child hr mode he hq hne, lookup_instance hr mode hc hq hnc]
      cases hchild : m.findChild? e inst with
      | none =>
        rw [findInstance_eq_none_of_findChild? hmirrors hchild]
        rfl
      | some found =>
        -- the instance has the type of the child, which is declared with the ports of the child
        obtain ⟨hmem, i, hi, hitype⟩ := findInstance_of_findChild? hmirrors
          (hm.distinct c (List.mem_of_getElem? hc)) hchild
        obtain ⟨type, ht, htports⟩ := find?_type_of_build h hmem
        simp only [hi, hitype, ht, htports]
        exact mapError_portIn ..

/-- A node with one child, under a type with one instance of the same name and type. -/
def mirrorDesign : Design where
  components := [
    { name := "Inner", ports := [.incoming "x" {}, .outgoing "y" {}] },
    { name := "Outer", ports := [.incoming "a" {}], instances := [{ name := "s", type := "Inner" }] }]
  expansions := [.node "top" "Outer" {} [] [.node "s" "Inner" {} [] []]]

/-- The reference fails in both for the direction of the port, but the failures name different owners. -/
theorem lookup_eq_template_crossed :
    mirrorDesign.build = .ok mirrorDesign.assemble ∧
    ∃ e c, mirrorDesign.assemble.expanded[0]? = some e ∧
      mirrorDesign.assemble.components[1]? = some c ∧ mirrorDesign.assemble.Mirrors e c ∧
      PortRef.Avoids "s.y" e.name ∧ PortRef.Avoids "s.y" c.name ∧
      (mirrorDesign.assemble.lookup "s.y" (.expanded 0) (some .target)).mapError
          ResolutionError.ownerless =
        (mirrorDesign.assemble.lookup "s.y" (.component 1) (some .target)).mapError
          ResolutionError.ownerless ∧
      mirrorDesign.assemble.lookup "s.y" (.expanded 0) (some .target) =
        .error (.wrongDirection "s.y" .incoming "s") ∧
      mirrorDesign.assemble.lookup "s.y" (.component 1) (some .target) =
        .error (.wrongDirection "s.y" .incoming "Inner") := by
  have he : mirrorDesign.assemble.expanded[0]? = some mirrorDesign.assemble.expanded[0] := rfl
  obtain ⟨j, c, hj, hc, -, halike⟩ := lookup_eq_template (d := mirrorDesign) rfl he
  cases hj
  cases hc
  have havoids : ∀ name, name ≠ "s" → PortRef.Avoids "s.y" name := by
    intro name hname r hr hq
    have hparse : PortRef.parse "s.y" = .ok ⟨some "s", "y"⟩ := by decide
    rw [hparse] at hr
    cases hr
    exact hname (Option.some.inj hq).symm
  have hmirrors : mirrorDesign.assemble.Mirrors mirrorDesign.assemble.expanded[0]
      mirrorDesign.assemble.components[1] := by
    intro name type
    constructor
    · rintro ⟨index, hindex, f, hf, rfl, rfl⟩
      cases List.mem_singleton.1 hindex
      cases hf
      exact ⟨_, List.mem_cons_self .., rfl, rfl⟩
    · rintro ⟨i, hi, rfl, rfl⟩
      cases List.mem_singleton.1 hi
      exact ⟨1, List.mem_cons_self .., _, rfl, rfl, rfl⟩
  have hnode := havoids mirrorDesign.assemble.expanded[0].name (by decide)
  have htype := havoids mirrorDesign.assemble.components[1].name (by decide)
  exact ⟨rfl, _, _, he, rfl, hmirrors, hnode, htype, halike hmirrors "s.y" hnode htype _, by decide,
    by decide⟩

end Model

end Interconnect
