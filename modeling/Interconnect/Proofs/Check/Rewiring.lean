/-
Findings of rewired components. A check sees a component without its connectors, and each of its
connectors by itself. So a wired connector that is added changes the findings by those about its own
ends, at its place, and by those about the ports that it supplies, which are gone; whatever else there
was is told as before.
-/
import Interconnect.Proofs.Check.Loose
import Interconnect.Proofs.Design.Rewiring

namespace Interconnect

/-! ## Sites without other connectors -/

/-- The site with the instance as it is without connectors. -/
def Site.bare (x : Site) : Site := { x with instance? := x.instance?.map Instance.bare }

theorem Site.bare_bare (x : Site) : x.bare.bare = x.bare := by
  rw [bare, bare]
  cases x.instance? <;> rfl

theorem Site.text_bare (x : Site) (e : Endpoint) : x.bare.text e = x.text e := by
  cases e with
  | target => rfl
  | source =>
    rw [text, text, bare]
    cases x.instance? <;> rfl

namespace Component

/-- The connector as it stands at a place of the component, once it is attached. -/
def siteAt (c : Component) (index : Nat) (p : Place) (w : Connector) : Site where
  scope := .component index
  owner := c.name
  instance? := c.standingOn p.inst?
  connector := w

/-- What a component is like without connectors is all that matters to a place. -/
theorem siteAt_congr {c c' : Component} (h : c'.bare = c.bare) (index : Nat) (p : Place)
    (w : Connector) : c'.siteAt index p w = c.siteAt index p w := by
  have hon : c'.bare.standingOn p.inst? = c.bare.standingOn p.inst? := by rw [h]
  rw [standingOn_bare, standingOn_bare] at hon
  rw [siteAt, siteAt, name_eq_of_bare h, hon]

/-- Of the instance a site has nothing that connectors could change. -/
theorem bare_siteAt (c : Component) (index : Nat) (p : Place) (w : Connector) :
    (c.siteAt index p w).bare = c.siteAt index p w := by
  have hon : (c.standingOn p.inst?).map Instance.bare = c.standingOn p.inst? := by
    rw [standingOn]
    cases p.inst? with
    | none => rfl
    | some k =>
      rw [Option.bind_some, Option.map_map]
      rfl
  rw [siteAt, Site.bare, hon]

theorem map_bare_sites (index : Nat) (c : Component) :
    (c.sites index).map Site.bare = c.standing.map fun x =>
      { scope := .component index, owner := c.name, instance? := x.1, connector := x.2 } := by
  rw [sites, standing, List.map_append, List.map_append, List.map_map, List.map_map, List.map_flatMap,
    List.map_flatMap]
  simp only [List.map_map]
  rfl

/-- The sites of a component with one more connector: it comes behind those before its place. -/
theorem map_sites_insert {α : Type} {f : Site → α} (hf : ∀ x, f x.bare = f x) (index : Nat)
    {c : Component} {p : Place} (hp : p.Fits c) (w : Connector) :
    ((c.insert p w).sites index).map f =
      ((c.sites index).map f).insertIdx (p.offset c) (f (c.siteAt index p w)) := by
  have hbare : ∀ xs : List Site, xs.map f = (xs.map Site.bare).map f := fun xs => by
    rw [List.map_map]
    exact List.map_congr_left fun x _ => (hf x).symm
  rw [hbare, map_bare_sites, (standing_insert hp w).2, name_eq_of_bare (c.bare_insert p w), List.map_insertIdx, List.map_insertIdx,
    ← map_bare_sites, ← hbare]
  rfl

theorem offset_le_sites (index : Nat) {c : Component} {p : Place} (hp : p.Fits c) :
    p.offset c ≤ (c.sites index).length := by
  have hlen := congrArg List.length (map_bare_sites index c)
  rw [List.length_map, List.length_map] at hlen
  rw [hlen]
  exact (standing_insert hp default).1

theorem names_insert (index : Nat) {c : Component} {p : Place} (hp : p.Fits c) (w : Connector)
    {e : Endpoint} {text : String} :
    (c.insert p w).Names e text ↔ text = (c.siteAt index p w).text e ∨ c.Names e text := by
  have hmem : ∀ c : Component, c.Names e text ↔ text ∈ (c.sites index).map (·.text e) := fun c => by
    rw [names_iff index, List.mem_map]
  have hlen : p.offset c ≤ ((c.sites index).map (·.text e)).length := by
    rw [List.length_map]
    exact offset_le_sites index hp
  rw [hmem, hmem, map_sites_insert (fun x => x.text_bare e) index hp w, List.mem_insertIdx hlen]

end Component

namespace Model

/-! ## Findings without other connectors -/

variable (m : Model)

theorem siteEnd_bare (x : Site) (e : Endpoint) : m.bare.siteEnd x.bare e = m.siteEnd x e := by
  cases e with
  | target => exact m.resolveEnd_bare _ _ _
  | source =>
    rw [siteEnd, siteEnd, Site.bare]
    cases x.instance? with
    | none => simp only [Option.map_none, sourcePort, resolveEnd_bare]
    | some i =>
      simp only [Option.map_some, simpleSourcePort, resolveEnd_bare]
      rfl

theorem siteFindings_bare (levels : Levels) (x : Site) :
    m.bare.siteFindings levels x.bare = m.siteFindings levels x := by
  have hend : m.bare.endFinding? levels x.bare = m.endFinding? levels x := by
    funext e
    rw [endFinding?, endFinding?, siteEnd_bare]
    rfl
  rw [siteFindings, siteFindings, hend]

theorem instanceFindings_bare (levels : Levels) (c : Component) (w : Wiring) (i : Instance) :
    m.bare.instanceFindings levels c.bare w i.bare = m.instanceFindings levels c w i := by
  have hi : i.bare.type = i.type := rfl
  rw [instanceFindings, instanceFindings, find?_bare, hi]
  cases m.find? i.type <;> rfl

/-- The findings about a component: those about ends, connector by connector, then those about ports. -/
theorem checkComponent_eq {m : Model} (levels : Levels) {index : Nat} {c : Component}
    (hc : m.components[index]? = some c) :
    m.checkComponent levels index = ((c.sites index).map (m.siteFindings levels)).flatten ++
      c.instances.flatMap (m.instanceFindings levels c (.ofComponent c)) := by
  simp only [checkComponent, hc]
  rw [componentFindings, endpointFindings_eq m levels index, List.flatMap_def]

variable {m} {m' : Model} (h : m'.bare = m.bare)

include h

theorem siteFindings_congr (levels : Levels) {x x' : Site} (hx : x'.bare = x.bare) :
    m'.siteFindings levels x' = m.siteFindings levels x := by
  rw [← siteFindings_bare, h, hx, siteFindings_bare]

/-- The findings about instances only look at the wiring that they are given. -/
theorem flatMap_instanceFindings_congr (levels : Levels) {c c' : Component} (hc : c'.bare = c.bare)
    (w : Wiring) :
    c'.instances.flatMap (m'.instanceFindings levels c' w) =
      c.instances.flatMap (m.instanceFindings levels c w) := by
  have hbare : ∀ (m : Model) (c : Component), c.instances.flatMap (m.instanceFindings levels c w) =
      c.bare.instances.flatMap (m.bare.instanceFindings levels c.bare w) := by
    intro m c
    rw [Component.bare, List.flatMap_map]
    exact List.flatMap_congr fun i _ => (m.instanceFindings_bare levels c w i).symm
  rw [hbare m', hbare m, h, hc]

theorem checkComponent_congr (levels : Levels) {j : Nat} (hj : m'.components[j]? = m.components[j]?) :
    m'.checkComponent levels j = m.checkComponent levels j := by
  cases hc : m.components[j]? with
  | none =>
    unfold checkComponent
    rw [hj, hc]
  | some c =>
    have hends : m'.siteFindings levels = m.siteFindings levels :=
      funext fun x => siteFindings_congr h levels rfl
    rw [checkComponent_eq levels hc, checkComponent_eq levels (hj.trans hc), hends,
      flatMap_instanceFindings_congr h levels rfl]

theorem checkExpanded_congr (levels : Levels) (he : m'.expanded = m.expanded) (j : Nat) :
    m'.checkExpanded levels j = m.checkExpanded levels j := by
  have hname : m'.fullName? j = m.fullName? j := by rw [← fullName?_bare, h, fullName?_bare]
  unfold checkExpanded
  rw [he, hname]
  cases m.expanded[j]? with
  | none => rfl
  | some e =>
    cases m.fullName? j with
    | none => rfl
    | some name =>
      refine List.flatMap_congr fun k _ => ?_
      -- the connector as a site of the node
      have hk := siteFindings_congr h levels
        (x := { scope := .expanded j, owner := name, connector := k }) rfl
      rwa [siteFindings_eq, siteFindings_eq] at hk

end Model

/-! ## One more connector -/

namespace Finding

/-- The finding is about a port of that direction and name that is not used. -/
def isAbout (direction : Direction) (port : String) (f : Diagnostic) : Bool :=
  f.code = some (unusedCode direction) &&
    f.labels.head?.map (·.message) = some ("`" ++ port ++ "` is never connected")

theorem isAbout_unused {levels : Levels} {c : Component} {i : Instance} {a b : Direction}
    {p q : String} : isAbout a p (unused levels c i b q) = true ↔ b = a ∧ q = p := by
  have hcode : unusedCode b = unusedCode a ↔ b = a := by cases a <;> cases b <;> decide
  have hlabel : "`" ++ q ++ "` is never connected" = "`" ++ p ++ "` is never connected" ↔ q = p := by
    rw [String.append_left_inj, String.append_right_inj]
  simp only [isAbout, unused, instanceLabels, List.head?_cons, Option.map_some, Bool.and_eq_true,
    decide_eq_true_eq, Option.some.injEq, hcode, hlabel]

end Finding

/-- The finding is about a port that an end of the connector names. -/
def Site.settles (x : Site) (f : Diagnostic) : Bool :=
  [Endpoint.target, .source].any fun e => Finding.isAbout e.subcomponent (x.text e) f

theorem Site.settles_unused {x : Site} {levels : Levels} {c : Component} {i : Instance} {e : Endpoint}
    {port : String} :
    x.settles (Finding.unused levels c i e.subcomponent port) = true ↔ port = x.text e := by
  simp only [settles, List.any_cons, List.any_nil, Bool.or_eq_true, Bool.or_false,
    Finding.isAbout_unused]
  cases e <;> simp [Endpoint.subcomponent]

namespace Model

variable {m : Model} {index : Nat} {c : Component}

/-- The findings about an instance when there is one more connector: those about the ports that it names
are gone. -/
theorem instanceFindings_insert (m : Model) (levels : Levels) (index : Nat) {p : Place} (hp : p.Fits c)
    (w : Connector) (i : Instance) :
    m.instanceFindings levels c (.ofComponent (c.insert p w)) i =
      (m.instanceFindings levels c (.ofComponent c) i).filter (!(c.siteAt index p w).settles ·) := by
  cases ht : m.find? i.type with
  | none =>
    rw [instanceFindings, instanceFindings, ht]
    rfl
  | some type =>
    rw [instanceFindings_loose ht, instanceFindings_loose ht, List.filter_flatMap]
    refine List.flatMap_congr fun e _ => ?_
    rw [List.filter_map, List.filter_filter]
    congr 1
    refine List.filter_congr fun n _ => ?_
    rw [Bool.eq_iff_iff]
    simp only [decide_eq_true_eq, Bool.and_eq_true, Function.comp_apply, Bool.not_eq_true',
      ← Bool.not_eq_true, Site.settles_unused]
    show ¬ (c.insert p w).Names e n ∧ _ ↔ ¬ n = _ ∧ ¬ c.Names e n ∧ _
    rw [Component.names_insert index hp w, not_or, and_assoc]

section

variable (hc : m.components[index]? = some c) {p : Place} (hp : p.Fits c) (w : Connector)
  (levels : Levels)

include hc

/-- An end of a connector that is put in is looked up as it was without the connector. -/
theorem siteEnd_insert (hscope : w.scope = some (.component index)) (hw : w.isConstant = false)
    {x : Site} (hx : x.bare = c.siteAt index p w) (e : Endpoint) :
    (m.replace index (c.insert p w)).siteEnd x e =
      m.lookup ((c.siteAt index p w).text e) (.component index) (some e) := by
  have hbare : (m.replace index (c.insert p w)).bare = m.bare := bare_replace hc (c.bare_insert p w)
  have hend : m.bare.siteEnd (c.siteAt index p w) e =
      m.bare.lookup ((c.siteAt index p w).text e) (.component index) (some e) :=
    siteEnd_eq_lookup hscope fun _ => hw
  rw [← siteEnd_bare, hbare, hx, hend, lookup_bare]

include hp

/-- The findings about ends, connector by connector, with one more connector. -/
theorem endFindings_insert :
    ((c.insert p w).sites index).map ((m.replace index (c.insert p w)).siteFindings levels) =
      ((c.sites index).map (m.siteFindings levels)).insertIdx (p.offset c)
        (m.siteFindings levels (c.siteAt index p w)) := by
  have hfindings : (m.replace index (c.insert p w)).siteFindings levels = m.siteFindings levels :=
    funext fun x => siteFindings_congr (bare_replace hc (c.bare_insert p w)) levels rfl
  rw [hfindings]
  exact Component.map_sites_insert (fun x => siteFindings_congr rfl levels x.bare_bare) index hp w

theorem portFindings_insert :
    (c.insert p w).instances.flatMap ((m.replace index (c.insert p w)).instanceFindings levels
        (c.insert p w) (.ofComponent (c.insert p w))) =
      (c.instances.flatMap (m.instanceFindings levels c (.ofComponent c))).filter
        (!(c.siteAt index p w).settles ·) := by
  rw [flatMap_instanceFindings_congr (bare_replace hc (c.bare_insert p w)) levels (c.bare_insert p w),
    List.filter_flatMap]
  exact List.flatMap_congr fun i _ => instanceFindings_insert m levels index hp w i

end

/-- Adding a wire changes exactly what it supplies. With one more wired connector a design still builds,
and only the findings of the component that gets it change: those about the ends of the connector, if
these fail, come in at its place, and those about ports that the connector names are gone. -/
theorem checks_insert {d : Design} {m : Model} (h : d.build = .ok m)
    (hc : d.components[index]? = some c) {p : Place} (hp : p.Fits c) {w : Connector}
    (hw : w.isConstant = false) (levels : Levels) :
    ∃ m' c₀ c', (d.replace index (c.insert p w)).build = .ok m' ∧
      (∀ j, j ≠ index → m'.checkComponent levels j = m.checkComponent levels j) ∧
      (∀ j, m'.checkExpanded levels j = m.checkExpanded levels j) ∧
      m.components[index]? = some c₀ ∧ m'.components[index]? = some c' ∧
      let x := c.siteAt index p (w.attach (.component index))
      let ends := (c₀.sites index).map (m.siteFindings levels)
      let ports := c₀.instances.flatMap (m.instanceFindings levels c₀ (.ofComponent c₀))
      (c'.sites index).map Site.bare = ((c₀.sites index).map Site.bare).insertIdx (p.offset c) x ∧
      (∀ e, m'.siteEnd x e = m.lookup (x.text e) (.component index) (some e)) ∧
      m.checkComponent levels index = ends.flatten ++ ports ∧
      m'.checkComponent levels index =
        (ends.insertIdx (p.offset c) (m'.siteFindings levels x)).flatten ++
          ports.filter (!x.settles ·) := by
  obtain ⟨c₀, hget, hmatch, hbuild⟩ := Design.build_insert h hc hw p
  have hfits := hmatch.fits p hp
  have hsite := Component.siteAt_congr hmatch.bare index p (w.attach (.component index))
  have hbare := bare_replace hget (c₀.bare_insert p (w.attach (.component index)))
  have hafter := components_replace_self hget (c₀.insert p (w.attach (.component index)))
  refine ⟨_, _, _, hbuild, fun j hj => ?_, fun j => ?_, hget, hafter, ?_, fun e => ?_, ?_, ?_⟩
  · exact checkComponent_congr hbare levels (components_replace_ne m hj _)
  · exact checkExpanded_congr hbare levels rfl j
  · rw [Component.map_sites_insert Site.bare_bare index hfits, hmatch.offset, Component.bare_siteAt,
      hsite]
  · rw [← hsite]
    exact siteEnd_insert hget (w.attach _) rfl hw (Component.bare_siteAt ..) e
  · exact checkComponent_eq levels hget
  · rw [checkComponent_eq levels hafter, endFindings_insert hget hfits, portFindings_insert hget hfits,
      hmatch.offset, hsite, siteFindings_congr hbare levels rfl]

/-- Two instances of one type, of which nothing is wired. -/
def pairDesign : Design where
  components := [
    { name := "Inner", ports := [.incoming "x" {}, .outgoing "y" {}] },
    { name := "Outer", instances := [{ name := "s", type := "Inner" }, { name := "t", type := "Inner" }] }]

/-- The wire comes from a port that there is not, so that it has a finding of its own, but it feeds the
other instance. -/
theorem checks_insert_pair :
    let outer := pairDesign.components[1]
    let place : Place := { inst? := some 1, position := 0 }
    let w := Connector.wired "z" "s.x" {}
    pairDesign.build = .ok pairDesign.assemble ∧ place.Fits outer ∧ w.isConstant = false ∧
    (∃ m', (pairDesign.replace 1 (outer.insert place w)).build = .ok m' ∧
      ∀ j, m'.checkExpanded {} j = pairDesign.assemble.checkExpanded {} j) ∧
    (pairDesign.assemble.checkComponent {} 1).map (fun f => (f.code, f.message)) = [
      (some .unusedIncoming, "port `s.x` of subcomponent `Outer.s` is not used"),
      (some .unusedOutgoing, "port `s.y` of subcomponent `Outer.s` is not used"),
      (some .unusedIncoming, "port `t.x` of subcomponent `Outer.t` is not used"),
      (some .unusedOutgoing, "port `t.y` of subcomponent `Outer.t` is not used")] ∧
    ((pairDesign.replace 1 (outer.insert place w)).assemble.checkComponent {} 1).map
      (fun f => (f.code, f.message)) = [
        (some .unresolvedSource, "no source port found for connector `z -> s.x` in `Outer`"),
        (some .unusedOutgoing, "port `s.y` of subcomponent `Outer.s` is not used"),
        (some .unusedIncoming, "port `t.x` of subcomponent `Outer.t` is not used"),
        (some .unusedOutgoing, "port `t.y` of subcomponent `Outer.t` is not used")] := by
  have hfits : Place.Fits { inst? := some 1, position := 0 } pairDesign.components[1] :=
    ⟨_, rfl, Nat.le_refl 0⟩
  have hc : pairDesign.components[1]? = some pairDesign.components[1] := rfl
  have hw : (Connector.wired "z" "s.x" {}).isConstant = false := rfl
  obtain ⟨m', -, -, hbuild, -, hnodes, -⟩ := checks_insert (d := pairDesign) rfl hc hfits hw {}
  exact ⟨rfl, hfits, rfl, ⟨m', hbuild, hnodes⟩, by decide, by decide⟩

end Model

end Interconnect
