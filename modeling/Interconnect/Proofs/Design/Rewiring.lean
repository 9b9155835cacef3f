/-
Rewired designs. Where wired connectors are put into one component of a design that builds, the design
still builds: no defect looks at connectors and no constant changes its number. The model differs in
that component only, which gets the new connectors where the declared one got them.
-/
import Interconnect.Proofs.Component.Place
import Interconnect.Proofs.Design.Attachment
import Interconnect.Proofs.Design.Distinct

namespace Interconnect

/-- Puts a component in the place of another. -/
def Model.replace (m : Model) (index : Nat) (c : Component) : Model :=
  { m with components := m.components.set index c }

def Design.replace (d : Design) (index : Nat) (c : Component) : Design :=
  { d with components := d.components.set index c }

/-- The components have as many connectors in the same places, and are the same without them. -/
structure Component.Matches (c₀ c : Component) : Prop where
  bare : c₀.bare = c.bare
  fits : ∀ p : Place, p.Fits c → p.Fits c₀
  offset : ∀ p : Place, p.offset c₀ = p.offset c

/-- What is the same of a member and of its replacement is the same along the list. -/
theorem map_set_eq {α β : Type} {f : α → β} {l : List α} {k : Nat} {a b : α} (h : l[k]? = some a)
    (he : f b = f a) : (l.set k b).map f = l.map f := by
  have hk : (l.map f)[k]? = some (f b) := by rw [List.getElem?_map, h, Option.map_some, he]
  obtain ⟨hlt, hget⟩ := List.getElem?_eq_some_iff.1 hk
  rw [List.map_set, ← hget, List.set_getElem_self]

namespace Model

variable {m : Model} {index : Nat} {c c₀ : Component}

theorem replace_replace (m : Model) (index : Nat) (c c' : Component) :
    (m.replace index c).replace index c' = m.replace index c' := by
  rw [replace, replace, replace, List.set_set]

theorem replace_self (hc : m.components[index]? = some c) : m.replace index c = m := by
  obtain ⟨hlt, rfl⟩ := List.getElem?_eq_some_iff.1 hc
  rw [replace, List.set_getElem_self]

theorem components_replace_self (hc : m.components[index]? = some c₀) (c : Component) :
    (m.replace index c).components[index]? = some c :=
  List.getElem?_set_self (List.getElem?_eq_some_iff.1 hc).1

theorem components_replace_ne (m : Model) {index j : Nat} (h : j ≠ index) (c : Component) :
    (m.replace index c).components[j]? = m.components[j]? :=
  List.getElem?_set_ne (Ne.symm h)

theorem bare_replace (hc : m.components[index]? = some c₀) (h : c.bare = c₀.bare) :
    (m.replace index c).bare = m.bare := by
  rw [replace, bare, map_set_eq hc h, bare]

end Model

/-! ## Attaching -/

namespace Connector

variable {w : Connector}

theorem constants_insertIdx (hw : w.isConstant = false) (n : Nat) (ks : List Connector) :
    constants (ks.insertIdx n w) = constants ks := by
  rcases Nat.lt_or_ge ks.length n with hn | hn
  · rw [List.insertIdx_of_length_lt hn]
  · have hneg : ¬ w.isConstant = true := by rw [hw]; exact Bool.false_ne_true
    rw [constants, constants, (List.perm_insertIdx w ks hn).countP_eq, List.countP_cons_of_neg hneg]

theorem attachAll_cons (hw : w.isConstant = false) (scope : Scope) (used : Nat)
    (ks : List Connector) :
    attachAll scope used (w :: ks) = w.attach scope :: attachAll scope used ks := by
  simp only [attachAll, hw, Bool.false_eq_true, if_false]

/-- A wired connector is attached where it was put, and the numbers of the others stay. -/
theorem attachAll_insertIdx (hw : w.isConstant = false) (scope : Scope) (n used : Nat)
    (ks : List Connector) :
    attachAll scope used (ks.insertIdx n w) = (attachAll scope used ks).insertIdx n (w.attach scope) := by
  induction ks generalizing n used with
  | nil =>
    cases n with
    | zero => exact attachAll_cons hw scope used []
    | succ n => rfl
  | cons k rest ih =>
    cases n with
    | zero => exact attachAll_cons hw scope used (k :: rest)
    | succ n =>
      rw [List.insertIdx_succ_cons, attachAll, attachAll]
      split <;> rw [ih, List.insertIdx_succ_cons]

end Connector

namespace Design

section

variable {index : Nat} {f g : List Connector → List Connector}
  (hconstants : ∀ ks, Connector.constants (f ks) = Connector.constants ks)

include hconstants

theorem constants_rewire (c : Component) (on : Option Nat) :
    Connector.constants (c.rewire f on).allConnectors = Connector.constants c.allConnectors := by
  rw [Component.allConnectors, Component.allConnectors, Connector.constants, Connector.constants,
    List.countP_append, List.countP_append, List.countP_flatMap, List.countP_flatMap]
  cases on with
  | none => rw [Component.rewire]; exact congrArg (· + _) (hconstants c.connectors)
  | some k =>
    have hcounts := map_modify_eq (f := Instance.rewire f)
      (g := fun i => Connector.constants i.connectors) (fun i => hconstants i.connectors) c.instances k
    exact congrArg (fun counts => c.connectors.countP Connector.isConstant + List.sum counts) hcounts

variable (hattach : ∀ used ks, Connector.attachAll (.component index) used (f ks) =
  g (Connector.attachAll (.component index) used ks))

include hattach

theorem attachInstances_modify (used k : Nat) (is : List Instance) :
    attachInstances (.component index) used (is.modify k (Instance.rewire f)) =
      (attachInstances (.component index) used is).modify k (Instance.rewire g) := by
  induction is generalizing used k with
  | nil => simp [attachInstances]
  | cons i rest ih =>
    cases k with
    | zero =>
      rw [List.modify_zero_cons, attachInstances, attachInstances, List.modify_zero_cons,
        Instance.rewire, Instance.rewire, hattach, hconstants]
    | succ k => rw [List.modify_succ_cons, attachInstances, attachInstances, List.modify_succ_cons, ih]

/-- A change that commutes with attaching connectors commutes with attaching the component. -/
theorem attachComponent_rewire (used : Nat) (c : Component) (on : Option Nat) :
    attachComponent index used (c.rewire f on) = (attachComponent index used c).rewire g on := by
  cases on with
  | none =>
    simp only [attachComponent, Component.rewire, hattach, hconstants]
  | some k =>
    simp only [attachComponent, Component.rewire, attachInstances_modify hconstants hattach]

end

theorem attachComponent_insert {w : Connector} (hw : w.isConstant = false) (index used : Nat)
    (c : Component) (p : Place) :
    attachComponent index used (c.insert p w) =
      (attachComponent index used c).insert p (w.attach (.component index)) :=
  attachComponent_rewire (Connector.constants_insertIdx hw p.position)
    (Connector.attachAll_insertIdx hw (.component index) p.position) used c p.inst?

theorem bare_attachComponent (index used : Nat) (c : Component) :
    (attachComponent index used c).bare = c.bare := by
  rw [attachComponent, Component.bare, Component.bare, map_attachInstances fun _ _ => rfl]

/-! ## Places in attached components -/

theorem getElem?_attachInstances (scope : Scope) (used : Nat) (is : List Instance) (k : Nat) :
    ∃ before, (attachInstances scope used is)[k]? =
      is[k]?.map (Instance.rewire (Connector.attachAll scope before)) := by
  induction is generalizing used k with
  | nil => exact ⟨used, rfl⟩
  | cons i rest ih =>
    cases k with
    | zero => exact ⟨used, rfl⟩
    | succ k => exact ih _ k

/-- A place that fits a declared component fits the attached one. -/
theorem fits_attachComponent {c : Component} {p : Place} (h : p.Fits c) (index used : Nat) :
    p.Fits (attachComponent index used c) := by
  obtain ⟨ks, hks, hp⟩ := h
  -- attaching keeps the number of connectors everywhere
  suffices ∃ before, (attachComponent index used c).connectorsOn? p.inst? =
      some (Connector.attachAll (.component index) before ks) by
    obtain ⟨before, hon⟩ := this
    exact ⟨_, hon, by rwa [Connector.length_attachAll]⟩
  cases hon : p.inst? with
  | none =>
    rw [hon] at hks
    cases hks
    exact ⟨used, rfl⟩
  | some k =>
    rw [hon] at hks
    obtain ⟨i, hi, rfl⟩ := Option.map_eq_some_iff.1 hks
    obtain ⟨before, hk⟩ := getElem?_attachInstances (.component index)
      (used + Connector.constants c.connectors) c.instances k
    refine ⟨before, ?_⟩
    rw [attachComponent, Component.connectorsOn?, hk, hi]
    rfl

theorem lengths_attachInstances (scope : Scope) (used : Nat) (is : List Instance) :
    (attachInstances scope used is).map (fun i => i.connectors.length) =
      is.map fun i => i.connectors.length := by
  induction is generalizing used with
  | nil => rfl
  | cons i rest ih => rw [attachInstances, List.map_cons, ih, Connector.length_attachAll, List.map_cons]

theorem offset_attachComponent (index used : Nat) (c : Component) (p : Place) :
    p.offset (attachComponent index used c) = p.offset c := by
  rw [Place.offset, Place.offset]
  cases p.inst? with
  | none => rfl
  | some k =>
    simp only [Component.countBefore, attachComponent, Connector.length_attachAll, List.length_flatMap,
      List.map_take, lengths_attachInstances]

theorem matches_attachComponent (index used : Nat) (c : Component) :
    (attachComponent index used c).Matches c :=
  ⟨bare_attachComponent index used c, fun _ hp => fits_attachComponent hp index used,
    offset_attachComponent index used c⟩

/-! ## Building -/

/-- As many constants in the component, and as many in front of it and of all others. -/
theorem attachComponents_set {c c₀ : Component}
    (hk : Connector.constants c.allConnectors = Connector.constants c₀.allConnectors)
    {cs : List Component} {index : Nat} (hc : cs[index]? = some c₀) (first used : Nat) :
    ∃ before, (attachComponents first used cs)[index]? =
        some (attachComponent (first + index) before c₀) ∧
      attachComponents first used (cs.set index c) =
        (attachComponents first used cs).set index (attachComponent (first + index) before c) := by
  induction cs generalizing index first used with
  | nil => cases hc
  | cons c₁ rest ih =>
    cases index with
    | zero =>
      cases hc
      refine ⟨used, rfl, ?_⟩
      rw [List.set_cons_zero, attachComponents, attachComponents, hk]
      rfl
    | succ index =>
      obtain ⟨before, hget, hset⟩ := ih hc (first + 1) (used + Connector.constants c₁.allConnectors)
      rw [Nat.add_assoc, Nat.add_comm 1 index] at hget hset
      refine ⟨before, hget, ?_⟩
      rw [List.set_cons_succ, attachComponents, attachComponents, hset, List.set_cons_succ]

theorem distinct_of_bare {c c₀ : Component} (h : c.bare = c₀.bare) (hd : c₀.Distinct) : c.Distinct := by
  have hports : c.bare.ports = c₀.bare.ports := congrArg Component.ports h
  have hinstances : c.bare.instances.map Instance.name = c₀.bare.instances.map Instance.name :=
    congrArg (fun b => b.instances.map Instance.name) h
  rw [Component.bare, Component.bare, List.map_map, List.map_map] at hinstances
  exact ⟨(congrArg (fun ps => (ps.map fun p => (p.name, p.direction)).Nodup) hports).mpr hd.ports,
    (congrArg List.Nodup hinstances).mpr hd.instances⟩

section

variable {d : Design} {index : Nat} {c c₀ : Component} (hc : d.components[index]? = some c₀)
  (hbare : c.bare = c₀.bare)

include hc hbare

theorem names_replace :
    (d.replace index c).components.map Component.name = d.components.map Component.name :=
  map_set_eq hc (Component.name_eq_of_bare hbare)

theorem declares_replace : (d.replace index c).declares = d.declares := by
  funext type
  have hany := congrArg (List.any · fun name => decide (name = type)) (names_replace hc hbare)
  rwa [List.any_map, List.any_map] at hany

theorem portsOf_replace : (d.replace index c).portsOf = d.portsOf := by
  funext type
  have hfind := congrArg (fun cs => ((cs.find? (·.name = type)).map Component.ports).getD [])
    (map_set_eq hc hbare)
  rwa [List.find?_map, List.find?_map, Option.map_map, Option.map_map] at hfind

/-- No defect looks at connectors. -/
theorem defects_replace (h : d.defects = []) : (d.replace index c).defects = [] := by
  rw [defects, List.append_eq_nil_iff] at h ⊢
  obtain ⟨hnames, hdistinct⟩ := (componentDefects_eq_nil_iff [] _ List.nodup_nil).1 h.1
  refine ⟨(componentDefects_eq_nil_iff [] _ List.nodup_nil).2 ⟨?_, fun c' hc' => ?_⟩, ?_⟩
  · rw [List.nil_append, names_replace hc hbare]
    exact hnames
  · rcases List.mem_or_eq_of_mem_set hc' with hc' | rfl
    · exact hdistinct c' hc'
    · exact distinct_of_bare hbare (hdistinct c₀ (List.mem_of_getElem? hc))
  · rw [declares_replace hc hbare]
    exact h.2

variable (hk : Connector.constants c.allConnectors = Connector.constants c₀.allConnectors)

include hk

omit hbare in
theorem componentConstants_replace : (d.replace index c).componentConstants = d.componentConstants := by
  have hcounts : (d.replace index c).components.map (fun c => Connector.constants c.allConnectors) =
      d.components.map fun c => Connector.constants c.allConnectors := map_set_eq hc hk
  rw [componentConstants, componentConstants, Connector.constants, Connector.constants,
    List.countP_flatMap, List.countP_flatMap]
  exact congrArg List.sum hcounts

/-- A component that differs in its wired connectors only can stand in the place of another: the design
builds, into the model in which the one is attached in the place of the other. -/
theorem build_replace {m : Model} (h : d.build = .ok m) :
    ∃ used, m.components[index]? = some (attachComponent index used c₀) ∧
      (d.replace index c).build = .ok (m.replace index (attachComponent index used c)) := by
  obtain ⟨hdefects, rfl⟩ := build_eq_ok_iff.1 h
  obtain ⟨used, hget, hset⟩ := attachComponents_set hk hc 0 0
  rw [Nat.zero_add] at hget hset
  refine ⟨used, hget, build_eq_ok_iff.2 ⟨defects_replace hc hbare hdefects, ?_⟩⟩
  rw [assemble, portsOf_replace hc hbare, componentConstants_replace hc hk, replace, hset]
  rfl

end

theorem constants_insert {w : Connector} (hw : w.isConstant = false) (c : Component) (p : Place) :
    Connector.constants (c.insert p w).allConnectors = Connector.constants c.allConnectors :=
  constants_rewire (Connector.constants_insertIdx hw p.position) c p.inst?

/-- A design with one more wired connector builds, into the model with one more connector. -/
theorem build_insert {d : Design} {m : Model} (h : d.build = .ok m) {index : Nat} {c : Component}
    (hc : d.components[index]? = some c) {w : Connector} (hw : w.isConstant = false) (p : Place) :
    ∃ c₀, m.components[index]? = some c₀ ∧ c₀.Matches c ∧
      (d.replace index (c.insert p w)).build =
        .ok (m.replace index (c₀.insert p (w.attach (.component index)))) := by
  obtain ⟨used, hget, hbuild⟩ := build_replace hc (c.bare_insert p w) (constants_insert hw c p) h
  rw [attachComponent_insert hw] at hbuild
  exact ⟨_, hget, matches_attachComponent index used c, hbuild⟩

/-- When a wired connector is taken from one place and another one put at some place, the models before
and after are one and the same with the one or the other connector. -/
theorem build_move {d : Design} {m : Model} (h : d.build = .ok m) {index : Nat} {c : Component}
    (hc : d.components[index]? = some c) {p : Place} {w w' : Connector} (hp : p.Holds c w)
    (hw : w.isConstant = false) (hw' : w'.isConstant = false) (q : Place) :
    ∃ (m₀ : Model) (c₀ : Component), m₀.components[index]? = some c₀ ∧ c₀.Matches (c.erase p) ∧
      m = m₀.replace index (c₀.insert p (w.attach (.component index))) ∧
      (d.replace index ((c.erase p).insert q w')).build =
        .ok (m₀.replace index (c₀.insert q (w'.attach (.component index)))) := by
  have hback := Component.insert_erase hp
  have hbare : ((c.erase p).insert q w').bare = c.bare := by
    rw [Component.bare_insert, Component.bare_erase]
  have hk : Connector.constants ((c.erase p).insert q w').allConnectors =
      Connector.constants c.allConnectors := by
    rw [constants_insert hw', ← constants_insert hw (c.erase p) p, hback]
  obtain ⟨used, hget, hbuild⟩ := build_replace hc hbare hk h
  refine ⟨m.replace index (attachComponent index used (c.erase p)), _,
    Model.components_replace_self hget _, matches_attachComponent index used (c.erase p), ?_, ?_⟩
  · rw [Model.replace_replace, ← attachComponent_insert hw, hback, Model.replace_self hget]
  · rw [Model.replace_replace, ← attachComponent_insert hw']
    exact hbuild

end Design

end Interconnect
