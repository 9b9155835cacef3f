/-
The two ways of wiring. A wired connector on an instance says the same as a connector of the component
that names the instance on its source: both have the same texts on their ends, and only the texts
decide what they resolve to and what they supply. So either can stand for the other; a finding about
the connector comes at another place then, and shows it as it is written there.
-/
import Interconnect.Proofs.Check.Rewiring

namespace Interconnect

/-- The connector of the component that says the same as a connector on the instance. -/
def Instance.lift (i : Instance) (w : Connector) : Connector :=
  .wired (i.qualify w.source) w.target w.span

/-- What a finding tells but for the wording of the connector: how bad it is, its code, the places that
it points to, and its help. -/
def Finding.outline (f : Diagnostic) : Severity × Option Code × List Span × Option String :=
  (f.severity, f.code, f.labels.map Label.span, f.help)

theorem Component.getElem?_sites_insert (index : Nat) {c : Component} {p : Place} (hp : p.Fits c)
    (w : Connector) :
    ∃ x, ((c.insert p w).sites index)[p.offset c]? = some x ∧ x.bare = c.siteAt index p w := by
  have hlen : p.offset c ≤ ((c.sites index).map Site.bare).length := by
    rw [List.length_map]
    exact offset_le_sites index hp
  have hget : (((c.insert p w).sites index).map Site.bare)[p.offset c]? = some (c.siteAt index p w) := by
    rw [map_sites_insert Site.bare_bare index hp, bare_siteAt]
    exact List.getElem?_insertIdx_self.trans (if_pos hlen)
  rw [List.getElem?_map] at hget
  exact Option.map_eq_some_iff.1 hget

/-- A connector that is lifted has the texts that it had. -/
theorem Component.text_lift {c : Component} {p q : Place} {k : Nat} (hp : p.inst? = some k)
    (hq : q.inst? = none) {i : Instance} (hi : c.instances[k]? = some i) (index : Nat) (w : Connector)
    (e : Endpoint) :
    (c.siteAt index q ((i.lift w).attach (.component index))).text e =
      (c.siteAt index p (w.attach (.component index))).text e := by
  have hon : c.standingOn p.inst? = some i.bare := by
    rw [hp, standingOn, Option.bind_some, hi, Option.map_some]
  cases e with
  | target => rfl
  | source =>
    rw [siteAt, siteAt, hon, hq]
    rfl

namespace Model

variable {m : Model} {index : Nat} {c : Component}

/-- The findings about ports are those that are not about ends. -/
theorem filter_not_checkComponent (levels : Levels) (hc : m.components[index]? = some c) :
    (m.checkComponent levels index).filter (!isEndFinding ·) =
      c.instances.flatMap (m.instanceFindings levels c (.ofComponent c)) := by
  have hends : (((c.sites index).map (m.siteFindings levels)).flatten).filter (!isEndFinding ·) = [] := by
    refine List.filter_eq_nil_iff.2 fun f hf => ?_
    rw [← List.flatMap_def] at hf
    obtain ⟨x, -, hf⟩ := List.mem_flatMap.1 hf
    rw [code_siteFindings f hf]
    exact Bool.false_ne_true
  have hports : (c.instances.flatMap (m.instanceFindings levels c (.ofComponent c))).filter
      (!isEndFinding ·) = c.instances.flatMap (m.instanceFindings levels c (.ofComponent c)) := by
    refine List.filter_eq_self.2 fun f hf => ?_
    obtain ⟨i, -, hf⟩ := List.mem_flatMap.1 hf
    have hnone := List.filter_eq_nil_iff.1 (filter_instanceFindings m levels c (.ofComponent c) i) f hf
    rw [Bool.not_eq_true']
    exact Bool.eq_false_iff.2 hnone
  rw [checkComponent_eq levels hc, List.filter_append, hends, hports, List.nil_append]

/-- Connectors with one span that resolve alike have findings that differ in their wording only. -/
theorem outline_endFinding? {m' : Model} {levels : Levels} {x x' : Site}
    (hspan : x'.connector.span = x.connector.span) {e : Endpoint}
    (he : m'.siteEnd x' e = m.siteEnd x e) :
    (m'.endFinding? levels x' e).map Finding.outline =
      (m.endFinding? levels x e).map Finding.outline := by
  rw [endFinding?, endFinding?, he]
  cases m.siteEnd x e with
  | ok _ => rfl
  | error error =>
    show some (_, _, [x'.connector.span], _) = some (_, _, [x.connector.span], _)
    rw [hspan]
    rfl

/-! ## One connector at another place -/

section

variable (hc : m.components[index]? = some c) {p : Place} (hp : p.Fits c) (w : Connector)

include hc hp

/-- Without the connector that is put in, the findings about ends are those that there were. -/
theorem eraseIdx_endFindings_insert (levels : Levels) :
    (((c.insert p w).sites index).map
      ((m.replace index (c.insert p w)).siteFindings levels)).eraseIdx (p.offset c) =
        (c.sites index).map (m.siteFindings levels) := by
  rw [endFindings_insert hc hp]
  exact List.eraseIdx_insertIdx_self _

variable {w} {q : Place} (hq : q.Fits c) {w' : Connector}
  (htext : ∀ e, (c.siteAt index q w').text e = (c.siteAt index p w).text e)

include hq htext

/-- Where they stand does not matter to ports: connectors with the same texts supply the same. -/
theorem portFindings_move (levels : Levels) :
    ((m.replace index (c.insert q w')).checkComponent levels index).filter (!isEndFinding ·) =
      ((m.replace index (c.insert p w)).checkComponent levels index).filter (!isEndFinding ·) := by
  have hsettles : (c.siteAt index q w').settles = (c.siteAt index p w).settles := by
    funext f
    unfold Site.settles
    simp only [htext]
  rw [filter_not_checkComponent levels (components_replace_self hc _),
    filter_not_checkComponent levels (components_replace_self hc _), portFindings_insert hc hq,
    portFindings_insert hc hp, hsettles]

/-- Nor does it matter to the ends of the connectors, but for the place of their findings. -/
theorem endFindings_move (hscope : w.scope = some (.component index)) (hw : w.isConstant = false)
    (hscope' : w'.scope = some (.component index)) (hw' : w'.isConstant = false)
    (hspan : w'.span = w.span) (levels : Levels) :
    ∃ x x', ((c.insert p w).sites index)[p.offset c]? = some x ∧ x.connector = w ∧
      ((c.insert q w').sites index)[q.offset c]? = some x' ∧ x'.connector = w' ∧
      ∀ e, ((m.replace index (c.insert q w')).endFinding? levels x' e).map Finding.outline =
        ((m.replace index (c.insert p w)).endFinding? levels x e).map Finding.outline := by
  obtain ⟨x, hx, hxb⟩ := Component.getElem?_sites_insert index hp w
  obtain ⟨x', hx', hxb'⟩ := Component.getElem?_sites_insert index hq w'
  have hxw : x.connector = w := congrArg Site.connector hxb
  have hxw' : x'.connector = w' := congrArg Site.connector hxb'
  refine ⟨x, x', hx, hxw, hx', hxw', fun e => outline_endFinding? ?_ ?_⟩
  · rw [hxw, hxw', hspan]
  · rw [siteEnd_insert hc w hscope hw hxb, siteEnd_insert hc w' hscope' hw' hxb', htext]

end

/-- A connector on an instance and one of the component that names the instance are equivalent. When the
one is put in the place of the other, the design still builds, and nothing is told otherwise about other
components, about nodes, and about ports. The findings about the ends of other connectors stay, and those
about the connector itself, which come at its new place now, only change in their wording. -/
theorem checks_lift {d : Design} {m : Model} (h : d.build = .ok m)
    (hc : d.components[index]? = some c) {k n : Nat} {i : Instance} (hi : c.instances[k]? = some i)
    {w : Connector} (hk : i.connectors[n]? = some w) (hw : w.isConstant = false) {n' : Nat}
    (hn : n' ≤ c.connectors.length) (levels : Levels) :
    let p : Place := { inst? := some k, position := n }
    let q : Place := { position := n' }
    ∃ m' c₀ c', (d.replace index ((c.erase p).insert q (i.lift w))).build = .ok m' ∧
      (∀ j, j ≠ index → m'.checkComponent levels j = m.checkComponent levels j) ∧
      (∀ j, m'.checkExpanded levels j = m.checkExpanded levels j) ∧
      (m'.checkComponent levels index).filter (!isEndFinding ·) =
        (m.checkComponent levels index).filter (!isEndFinding ·) ∧
      m.components[index]? = some c₀ ∧ m'.components[index]? = some c' ∧
      let ends := (c₀.sites index).map (m.siteFindings levels)
      let ends' := (c'.sites index).map (m'.siteFindings levels)
      (m.checkComponent levels index).filter isEndFinding = ends.flatten ∧
      (m'.checkComponent levels index).filter isEndFinding = ends'.flatten ∧
      ends'.eraseIdx n' = ends.eraseIdx (p.offset c) ∧
      ∃ x x', (c₀.sites index)[p.offset c]? = some x ∧ x.connector = w.attach (.component index) ∧
        (c'.sites index)[n']? = some x' ∧ x'.connector = (i.lift w).attach (.component index) ∧
        ∀ e, (m'.endFinding? levels x' e).map Finding.outline =
          (m.endFinding? levels x e).map Finding.outline := by
  intro p q
  have hholds : p.Holds c w := by
    refine ⟨i.connectors, ?_, hk⟩
    show c.instances[k]?.map Instance.connectors = some i.connectors
    rw [hi, Option.map_some]
  have hlifted : (i.lift w).isConstant = false := rfl
  -- both models have one connector more than `m₀`, the one at `p` and the other at `q`
  obtain ⟨m₀, c₀, hget, hmatch, rfl, hbuild⟩ := Design.build_move h hc hholds hw hlifted q
  have hp := hmatch.fits p (Component.fits_erase hholds)
  have hq := hmatch.fits q ⟨c.connectors, rfl, hn⟩
  have hpoff : p.offset c₀ = p.offset c := by rw [hmatch.offset, Component.offset_erase]
  have hqoff : q.offset c₀ = n' := Nat.zero_add n'
  have htext : ∀ e, (c₀.siteAt index q ((i.lift w).attach (.component index))).text e =
      (c₀.siteAt index p (w.attach (.component index))).text e := by
    have hbare : c₀.bare = c.bare := hmatch.bare.trans (c.bare_erase p)
    intro e
    rw [Component.siteAt_congr hbare, Component.siteAt_congr hbare]
    exact Component.text_lift rfl rfl hi index w e
  have hbares : (m₀.replace index (c₀.insert q ((i.lift w).attach (.component index)))).bare =
      (m₀.replace index (c₀.insert p (w.attach (.component index)))).bare := by
    rw [bare_replace hget (c₀.bare_insert q _), bare_replace hget (c₀.bare_insert p _)]
  have hbefore := components_replace_self hget (c₀.insert p (w.attach (.component index)))
  have hafter := components_replace_self hget (c₀.insert q ((i.lift w).attach (.component index)))
  refine ⟨_, _, _, hbuild, fun j hj => ?_, fun j => ?_, ?_, hbefore, hafter, ?_, ?_, ?_, ?_⟩
  · refine checkComponent_congr hbares levels ?_
    rw [components_replace_ne m₀ hj, components_replace_ne m₀ hj]
  · exact checkExpanded_congr hbares levels rfl j
  · exact portFindings_move hget hp hq htext levels
  · rw [filter_checkComponent levels hbefore, List.flatMap_def]
  · rw [filter_checkComponent levels hafter, List.flatMap_def]
  · rw [← hpoff, ← hqoff, eraseIdx_endFindings_insert hget hp, eraseIdx_endFindings_insert hget hq]
  · rw [← hpoff, ← hqoff]
    exact endFindings_move hget hp hq htext rfl hw rfl rfl rfl levels

/-- An instance that is wired twice, once from a port that it does not have. -/
def twiceDesign : Design where
  components := [
    { name := "Inner", ports := [.incoming "x" {}, .outgoing "y" {}] },
    { name := "Outer"
      instances := [
        { name := "s", type := "Inner", connectors := [.wired "y" "t.x" {}, .wired "z" "s.x" ⟨4, 9⟩] },
        { name := "t", type := "Inner" }]
      connectors := [.wired "t.y" "u.x" {}] }]

/-- The connector that fails is put before the one that the component has. -/
theorem checks_lift_twice :
    let outer := twiceDesign.components[1]
    let s := outer.instances[0]
    let w := Connector.wired "z" "s.x" ⟨4, 9⟩
    let lifted := (outer.erase { inst? := some 0, position := 1 }).insert { position := 0 } (s.lift w)
    twiceDesign.build = .ok twiceDesign.assemble ∧ outer.instances[0]? = some s ∧
    s.connectors[1]? = some w ∧ w.isConstant = false ∧ 0 ≤ outer.connectors.length ∧
    (∃ m', (twiceDesign.replace 1 lifted).build = .ok m' ∧
      (m'.checkComponent {} 1).filter (!isEndFinding ·) =
        (twiceDesign.assemble.checkComponent {} 1).filter (!isEndFinding ·)) ∧
    (twiceDesign.assemble.checkComponent {} 1).map (fun f => (f.code, f.message)) = [
      (some .unresolvedTarget, "no target port found for connector `t.y -> u.x` in `Outer`"),
      (some .unresolvedSource, "no source port found for connector `z -> s.x` in `Outer`")] ∧
    ((twiceDesign.replace 1 lifted).assemble.checkComponent {} 1).map (fun f => (f.code, f.message)) = [
      (some .unresolvedSource, "no source port found for connector `s.z -> s.x` in `Outer`"),
      (some .unresolvedTarget, "no target port found for connector `t.y -> u.x` in `Outer`")] := by
  have hbuild : twiceDesign.build = .ok twiceDesign.assemble := rfl
  have hc : twiceDesign.components[1]? = some twiceDesign.components[1] := rfl
  have hi : twiceDesign.components[1].instances[0]? = some twiceDesign.components[1].instances[0] := rfl
  have hk : twiceDesign.components[1].instances[0].connectors[1]? =
      some (Connector.wired "z" "s.x" ⟨4, 9⟩) := rfl
  have hw : (Connector.wired "z" "s.x" ⟨4, 9⟩).isConstant = false := rfl
  have hn : 0 ≤ twiceDesign.components[1].connectors.length := Nat.zero_le _
  obtain ⟨m', -, -, hbuild', -, -, hports, -⟩ := checks_lift hbuild hc hi hk hw hn {}
  exact ⟨hbuild, hi, hk, hw, hn, ⟨m', hbuild', hports⟩, by decide, by decide⟩

end Model

end Interconnect
