/-
The spans of a design: those of its components, of their ports, instances and connectors, and those of
the nodes of its trees and their connectors. Attaching changes none of them, and whatever is told about a
design or its model points to one of them.
-/
import Interconnect.Proofs.Check.Kinds
import Interconnect.Proofs.Design.FirstDefect

namespace Interconnect

/-! ## Spans -/

def Component.spans (c : Component) : List Span :=
  c.span :: (c.ports.map Port.span ++ c.instances.map Instance.span ++
    c.allConnectors.map Connector.span)

/-- The spans of the root of a tree and of its connectors. -/
def Expansion.spans (t : Expansion) : List Span := t.span :: t.connectors.map Connector.span

def Expanded.spans (e : Expanded) : List Span := e.span :: e.connectors.map Connector.span

def Design.spans (d : Design) : List Span :=
  d.components.flatMap Component.spans ++
    (Expansion.subtreesAll d.expansions).flatMap Expansion.spans

def Model.spans (m : Model) : List Span :=
  m.components.flatMap Component.spans ++ m.expanded.flatMap Expanded.spans

/-! ## Attaching -/

theorem Connector.span_detached (k : Connector) : k.detached.span = k.span := by
  unfold detached
  split <;> rfl

theorem Connector.map_span_detached (ks : List Connector) :
    (ks.map detached).map span = ks.map span := by
  rw [List.map_map]
  exact List.map_congr_left fun k _ => k.span_detached

theorem Connector.map_span_attachAll (scope : Scope) (used : Nat) (ks : List Connector) :
    (attachAll scope used ks).map span = ks.map span := by
  rw [← map_span_detached, map_detached_attachAll, map_span_detached]

theorem Component.spans_detached (c : Component) : c.detached.spans = c.spans := by
  have hinstances : (c.instances.map Instance.detached).map Instance.span =
      c.instances.map Instance.span := by
    rw [List.map_map]
    rfl
  have hconnectors : c.detached.allConnectors.map Connector.span =
      c.allConnectors.map Connector.span := by
    unfold allConnectors detached
    rw [List.map_append, List.map_append, Connector.map_span_detached, List.flatMap_map,
      List.map_flatMap, List.map_flatMap]
    exact congrArg (_ ++ ·) (List.flatMap_congr fun i _ => Connector.map_span_detached i.connectors)
  unfold spans
  rw [hconnectors]
  exact congrArg (fun spans => c.span :: (c.ports.map Port.span ++ spans ++ _)) hinstances

namespace Design

theorem spans_attachComponent (index used : Nat) (c : Component) :
    (attachComponent index used c).spans = c.spans := by
  rw [← Component.spans_detached, detached_attachComponent, Component.spans_detached]

/-- Everything in a model is where it is declared. -/
theorem spans_assemble (d : Design) : d.assemble.spans = d.spans := by
  have hcomponents : d.assemble.components.map Component.spans = d.components.map Component.spans :=
    map_attachComponents spans_attachComponent 0 0 _
  have hnodes : d.assemble.expanded.map Expanded.spans =
      (Expansion.subtreesAll d.expansions).map Expansion.spans := by
    refine Expansion.map_flattenAll (fun parent index used t => ?_) none 0 _ _
    exact congrArg (t.span :: ·) (Connector.map_span_attachAll _ _ t.connectors)
  unfold Model.spans spans
  -- both sides are flattened lists, so it is enough to compare these member by member
  rw [List.flatMap_def, List.flatMap_def, List.flatMap_def, List.flatMap_def, hcomponents, hnodes]

/-! ## Defects -/

/-- Where the declaration stands that is looked at. -/
def Step.span : Step → Span
  | takes _ _ span => span
  | needs _ _ span => span

theorem span_mem_componentSteps {index : Nat} {c : Component} {s : Step}
    (h : s ∈ componentSteps index c) : s.span ∈ c.spans := by
  unfold Component.spans
  rcases List.mem_append.1 h with h | h
  · rcases List.mem_append.1 h with h | h
    · rw [List.mem_singleton.1 h]
      exact List.mem_cons_self ..
    · obtain ⟨p, hp, rfl⟩ := List.mem_map.1 h
      exact List.mem_cons_of_mem _ (List.mem_append_left _ (List.mem_append_left _
        (List.mem_map_of_mem hp)))
  · obtain ⟨i, hi, rfl⟩ := List.mem_map.1 h
    exact List.mem_cons_of_mem _ (List.mem_append_left _ (List.mem_append_right _
      (List.mem_map_of_mem hi)))

theorem span_mem_componentsSteps {index : Nat} {cs : List Component} {s : Step}
    (h : s ∈ componentsSteps index cs) : s.span ∈ cs.flatMap Component.spans := by
  induction cs generalizing index with
  | nil => cases h
  | cons c rest ih =>
    rw [List.flatMap_cons]
    rcases List.mem_append.1 h with h | h
    · exact List.mem_append_left _ (span_mem_componentSteps h)
    · exact List.mem_append_right _ (ih h)

mutual

theorem span_mem_treeSteps {s : Step} : ∀ {index : Nat} (t : Expansion), s ∈ treeSteps index t →
    s.span ∈ t.subtrees.map Expansion.span
  | index, .node name type span connectors children, h => by
    rw [treeSteps] at h
    rw [Expansion.subtrees, List.map_cons]
    rcases List.mem_cons.1 h with rfl | h
    · exact List.mem_cons_self ..
    · exact List.mem_cons_of_mem _ (span_mem_childSteps children h)

theorem span_mem_childSteps {s : Step} : ∀ {parent : Nat} {owner : String} {index : Nat}
    (ts : List Expansion), s ∈ childSteps parent owner index ts →
    s.span ∈ (Expansion.subtreesAll ts).map Expansion.span
  | parent, owner, index, t :: rest, h => by
    rw [childSteps] at h
    rw [Expansion.subtreesAll, List.map_append]
    rcases List.mem_cons.1 h with rfl | h
    · rw [Expansion.subtrees_eq]
      exact List.mem_append_left _ (List.mem_cons_self ..)
    · rcases List.mem_append.1 h with h | h
      · exact List.mem_append_left _ (span_mem_treeSteps t h)
      · exact List.mem_append_right _ (span_mem_childSteps rest h)

end

theorem span_mem_treesSteps {index : Nat} {ts : List Expansion} {s : Step}
    (h : s ∈ treesSteps index ts) : s.span ∈ (Expansion.subtreesAll ts).map Expansion.span := by
  induction ts generalizing index with
  | nil => cases h
  | cons t rest ih =>
    rw [Expansion.subtreesAll, List.map_append]
    rcases List.mem_append.1 h with h | h
    · exact List.mem_append_left _ (span_mem_treeSteps t h)
    · exact List.mem_append_right _ (ih h)

theorem span_mem_walk {d : Design} {s : Step} (h : s ∈ d.walk) : s.span ∈ d.spans := by
  rcases List.mem_append.1 h with h | h
  · exact List.mem_append_left _ (span_mem_componentsSteps h)
  · obtain ⟨t, ht, hspan⟩ := List.mem_map.1 (span_mem_treesSteps h)
    refine List.mem_append_right _ (List.mem_flatMap.2 ⟨t, ht, ?_⟩)
    rw [← hspan]
    exact List.mem_cons_self ..

/-- A defect stands where the step at fault does, and is held against an earlier step. -/
theorem Faulty.span_eq {d : Design} {before : List Step} {s : Step} {e : Defect}
    (h : d.Faulty before s e) : e.span = s.span ∧ ∀ first, e.firstSpan? = some first →
      ∃ s' ∈ before, s'.span = first := by
  cases h with
  | undeclared h => exact ⟨rfl, nofun⟩
  | taken hfirst hfree =>
    rename_i key owner owner' span first earlier later
    have hmem : Step.takes key owner' first ∈ before := by
      rw [hfirst]
      exact List.mem_append_right _ (List.mem_cons_self ..)
    -- the kind of the key decides the kind of the defect, but not its spans
    cases key <;> exact ⟨rfl, fun _ he => ⟨_, hmem, Option.some.inj he⟩⟩

/-- What is told about a design that does not build points to spans of it. -/
theorem defect_mem_spans {d : Design} {e : Defect} (h : d.build = .error e) :
    e.span ∈ d.spans ∧ ∀ first, e.firstSpan? = some first → first ∈ d.spans := by
  obtain ⟨k, s, hs, hfault, -⟩ := build_eq_error_iff.1 h
  obtain ⟨hspan, hfirst⟩ := hfault.span_eq
  refine ⟨?_, fun first he => ?_⟩
  · rw [hspan]
    exact span_mem_walk (List.mem_of_getElem? hs)
  · obtain ⟨s', hs', rfl⟩ := hfirst first he
    exact span_mem_walk (List.mem_of_mem_take hs')

end Design

/-! ## Findings -/

namespace Model

variable {m : Model}

theorem component_mem_spans {c : Component} (hc : c ∈ m.components) {s : Span} (hs : s ∈ c.spans) :
    s ∈ m.spans :=
  List.mem_append_left _ (List.mem_flatMap.2 ⟨c, hc, hs⟩)

theorem connector_mem_spans {k : Connector} (hk : k ∈ m.connectors) : k.span ∈ m.spans := by
  rcases List.mem_append.1 hk with hk | hk
  · obtain ⟨c, hc, hk⟩ := List.mem_flatMap.1 hk
    exact component_mem_spans hc (List.mem_cons_of_mem _ (List.mem_append_right _
      (List.mem_map_of_mem hk)))
  · obtain ⟨e, he, hk⟩ := List.mem_flatMap.1 hk
    exact List.mem_append_right _ (List.mem_flatMap.2
      ⟨e, he, List.mem_cons_of_mem _ (List.mem_map_of_mem hk)⟩)

theorem instanceLabels_mem_spans {c : Component} (hc : c ∈ m.components) {i : Instance}
    (hi : i ∈ c.instances) (message : String) :
    ∀ l ∈ Finding.instanceLabels c i message, l.span ∈ m.spans := by
  intro l hl
  refine component_mem_spans hc ?_
  rcases List.mem_cons.1 hl with rfl | hl
  · exact List.mem_cons_of_mem _ (List.mem_append_left _ (List.mem_append_right _
      (List.mem_map_of_mem hi)))
  · rw [List.mem_singleton.1 hl]
    exact List.mem_cons_self ..

/-- What a check tells points to spans of the model. -/
theorem finding_mem_spans {levels : Levels} {f : Diagnostic} (h : m.Finds levels f) :
    ∀ l ∈ f.labels, l.span ∈ m.spans := by
  cases h with
  | unresolved hk e owner error =>
    intro l hl
    rw [List.mem_singleton.1 hl]
    exact connector_mem_spans hk
  | unused hc hi direction port => exact instanceLabels_mem_spans hc hi _
  | undeclared hc hi ht => exact instanceLabels_mem_spans hc hi _

end Model

end Interconnect
