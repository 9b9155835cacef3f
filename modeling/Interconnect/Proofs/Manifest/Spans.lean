/-
Where loading points. What is made of declarations stands at places of parts or spans two of them, and
whatever is told about a text that is not loaded points there too. So what is true of all places, and of
spans between two of them, is true wherever loading points: the ends are in order, and they lie in the
text. A text that is not loaded is told about by errors, and there is at least one.
-/
import Interconnect.Proofs.Design.Spans
import Interconnect.Proofs.Manifest.Described
import Interconnect.Proofs.Manifest.Places

namespace Interconnect

/-- All labels of the diagnostic have their ends in order. -/
def Diagnostic.Ordered (d : Diagnostic) : Prop := ∀ l ∈ d.labels, l.span.Ordered

/-- The first label is primary, and no other one is. -/
def Diagnostic.Led (d : Diagnostic) : Prop :=
  ∃ l rest, d.labels = l :: rest ∧ l.primary = true ∧ ∀ l' ∈ rest, l'.primary = false

namespace Manifest

open Toml

/-! ## Designs of entries -/

section

variable {P : Part → Prop}

mutual

/-- The parts of all expanded instances inside are parts. -/
theorem ExpansionEntry.forall_nodes : ∀ e : ExpansionEntry, (∀ p ∈ e.parts, P p) → ∀ n ∈ e.nodes,
    P (.name .expanded n.name) ∧ P (.name .type n.type) ∧ ∀ c ∈ n.connectors, P (.connector c)
  | ⟨name, type, children, connectors⟩, h, n, hn => by
    obtain ⟨hname, htype, hchildren, hconnectors⟩ := ExpansionEntry.forall_parts.1 h
    rw [ExpansionEntry.nodes] at hn
    rcases List.mem_cons.1 hn with rfl | hn
    · exact ⟨hname, htype, hconnectors⟩
    · exact forall_expansionNodes children hchildren n hn

theorem forall_expansionNodes : ∀ es : List ExpansionEntry, (∀ e ∈ es, ∀ p ∈ e.parts, P p) →
    ∀ n ∈ expansionNodes es,
      P (.name .expanded n.name) ∧ P (.name .type n.type) ∧ ∀ c ∈ n.connectors, P (.connector c)
  | e :: rest, h, n, hn => by
    obtain ⟨he, hrest⟩ := List.forall_mem_cons.1 h
    rw [expansionNodes] at hn
    rcases List.mem_append.1 hn with hn | hn
    · exact e.forall_nodes he n hn
    · exact forall_expansionNodes rest hrest n hn

end

end

section

variable {P : Span → Prop} (hunion : ∀ {s t}, P s → P t → P (s.union t))

include hunion

theorem ConnectEntry.forall_span {c : ConnectEntry} (h : ∀ s ∈ (Part.connector c).places, P s)
    {k : Connector} (hk : c.connector? = some k) : P k.span := by
  obtain ⟨hsource, hconstant, htarget⟩ := Part.forall_connector.1 h
  obtain ⟨source, constant, target⟩ := c
  cases source <;> cases constant <;> cases hk
  · exact hunion (hconstant _ rfl) htarget
  · exact hunion (hsource _ rfl) htarget

theorem forall_connectors {cs : List ConnectEntry}
    (h : ∀ c ∈ cs, ∀ s ∈ (Part.connector c).places, P s) :
    ∀ k ∈ cs.filterMap ConnectEntry.connector?, P k.span := by
  intro k hk
  obtain ⟨c, hc, hk⟩ := List.mem_filterMap.1 hk
  exact c.forall_span hunion (h c hc) hk

theorem ComponentEntry.forall_spans {e : ComponentEntry} (h : ∀ p ∈ e.parts, ∀ s ∈ p.places, P s) :
    ∀ s ∈ e.component.spans, P s := by
  obtain ⟨hname, hincoming, houtgoing, hinstances, hconnectors⟩ := forall_parts.1 h
  simp only [Component.spans, Component.allConnectors, component, List.forall_mem_cons,
    List.forall_mem_append, List.forall_mem_map, List.forall_mem_flatMap]
  refine ⟨Part.forall_name.1 hname, ⟨⟨fun n hn => Part.forall_name.1 (hincoming n hn),
    fun n hn => Part.forall_name.1 (houtgoing n hn)⟩, fun i hi => ?_⟩,
    forall_connectors hunion hconnectors, fun i hi => ?_⟩
  · obtain ⟨hname, htype, -⟩ := InstanceEntry.forall_parts.1 (hinstances i hi)
    exact hunion (Part.forall_name.1 hname) (Part.forall_name.1 htype)
  · exact forall_connectors hunion (InstanceEntry.forall_parts.1 (hinstances i hi)).2.2

theorem ExpansionEntry.forall_spans {e : ExpansionEntry}
    (hname : P e.name.place) (htype : P e.type.place)
    (hconnectors : ∀ c ∈ e.connectors, ∀ s ∈ (Part.connector c).places, P s) :
    ∀ s ∈ e.expansion.spans, P s := by
  rw [e.expansion_eq]
  simp only [Expansion.spans, Expansion.span, Expansion.connectors, List.forall_mem_cons,
    List.forall_mem_map]
  exact ⟨hunion hname htype, forall_connectors hunion hconnectors⟩

/-- What is true of all places, and of spans between two of them, is true of all spans of the design. -/
theorem Declarations.forall_spans {d : Declarations} (h : ∀ p ∈ d.parts, ∀ s ∈ p.places, P s) :
    ∀ s ∈ d.design.spans, P s := by
  obtain ⟨hcomponents, hexpansions⟩ := forall_parts.1 h
  rw [Design.spans, design, subtreesAll_expansionTrees]
  simp only [List.forall_mem_append, List.forall_mem_flatMap, List.forall_mem_map]
  refine ⟨fun c hc => c.forall_spans hunion (hcomponents c hc), fun n hn => ?_⟩
  obtain ⟨hname, htype, hconnectors⟩ := forall_expansionNodes d.expansions hexpansions n hn
  exact n.forall_spans hunion (Part.forall_name.1 hname) (Part.forall_name.1 htype) hconnectors

end

/-! ## Reports -/

theorem misfitDiagnostic_led (m : Misfit) : (misfitDiagnostic m).Led := ⟨_, [], rfl, rfl, nofun⟩

theorem mem_labels_misfit {m : Misfit} {l : Label} (h : l ∈ (misfitDiagnostic m).labels) :
    l.span = m.span.inOrder := by
  rw [List.mem_singleton.1 h]

theorem defectDiagnostic_led (e : Defect) : (defectDiagnostic e).Led := by
  unfold Diagnostic.Led defectDiagnostic
  cases e.firstSpan? <;> simp

theorem mem_labels_defect {e : Defect} {l : Label} (h : l ∈ (defectDiagnostic e).labels) :
    l.span = e.span ∨ e.firstSpan? = some l.span := by
  unfold defectDiagnostic at h
  cases hf : e.firstSpan? with
  | none =>
    simp only [hf] at h
    exact .inl (congrArg Label.span (List.mem_singleton.1 h))
  | some first =>
    simp only [hf] at h
    rcases List.mem_cons.1 h with rfl | h
    · exact .inl rfl
    · rw [List.mem_singleton.1 h]
      exact .inr rfl

theorem Part.flaw_led (p : Part) : p.flaw.diagnostic.Led := by
  unfold Diagnostic.Led
  cases p with
  | name role n => by_cases he : n.value = "" <;> simp [flaw, Flaw.diagnostic, he]
  | connector c =>
    obtain ⟨source, constant, target⟩ := c
    cases source <;> cases constant <;> simp [flaw, Flaw.diagnostic]

/-- What is told of a part points to where it is written. -/
theorem Part.mem_labels_flaw {p : Part} {l : Label} (h : l ∈ p.flaw.diagnostic.labels) :
    l.span ∈ p.places := by
  cases p with
  | name role n =>
    by_cases he : n.value = "" <;> simp_all [flaw, Flaw.diagnostic, places]
  | connector c =>
    obtain ⟨source, constant, target⟩ := c
    cases source <;> cases constant <;>
      simp only [flaw, Flaw.diagnostic, List.mem_cons, List.not_mem_nil, or_false] at h
    · simp [h, places]
    · simp [h, places]
    · simp [h, places]
    · -- with a source and a constant there is a label for each
      rcases h with rfl | rfl <;> simp [places]

/-! ## Refusals -/

/-- A diagnostic of declarations that have no model: of a flawed part, or of the defect of the design. -/
inductive Declarations.Refused (d : Declarations) : Diagnostic → Prop where
  | part {p : Part} (hp : p ∈ d.parts) : d.Refused p.flaw.diagnostic
  | defect {defect : Defect} (h : d.design.build = .error defect) : d.Refused (defectDiagnostic defect)

/-- What is told if declarations have no model. -/
theorem Declarations.refused {d : Declarations} {es : List Diagnostic} (h : d.model = .error es) :
    es ≠ [] ∧ ∀ e ∈ es, d.Refused e := by
  by_cases hf : d.flaws = []
  · rw [model_of_flawless hf] at h
    cases hb : d.design.build with
    | ok m =>
      rw [hb] at h
      cases h
    | error defect =>
      rw [hb] at h
      cases h
      refine ⟨List.cons_ne_nil _ _, fun e he => ?_⟩
      rw [List.mem_singleton.1 he]
      exact .defect hb
  · rw [model_of_flaws hf] at h
    cases h
    refine ⟨fun hnil => hf (List.map_eq_nil_iff.1 hnil), fun e he => ?_⟩
    obtain ⟨f, hmem, rfl⟩ := List.mem_map.1 he
    rw [← d.flawsOf_parts] at hmem
    obtain ⟨p, hp, rfl⟩ := List.mem_map.1 hmem
    exact .part (List.mem_of_mem_filter hp)

namespace Declarations.Refused

variable {d : Declarations} {e : Diagnostic}

theorem severity_eq (h : d.Refused e) : e.severity = .error := by
  cases h with
  | @part p hp => exact p.flaw.severity_diagnostic
  | defect h => rfl

theorem led (h : d.Refused e) : e.Led := by
  cases h with
  | @part p hp => exact p.flaw_led
  | @defect defect h => exact defectDiagnostic_led defect

theorem forall_labels {P : Span → Prop} (hunion : ∀ {s t}, P s → P t → P (s.union t))
    (hplaces : ∀ p ∈ d.parts, ∀ s ∈ p.places, P s) (h : d.Refused e) : ∀ l ∈ e.labels, P l.span := by
  intro l hl
  cases h with
  | part hp => exact hplaces _ hp _ (Part.mem_labels_flaw hl)
  | defect h =>
    have hspans := d.forall_spans hunion hplaces
    obtain ⟨hspan, hfirst⟩ := Design.defect_mem_spans h
    rcases mem_labels_defect hl with hl | hl
    · rw [hl]
      exact hspans _ hspan
    · exact hspans _ (hfirst _ hl)

end Declarations.Refused

/-! ## Order -/

theorem ordered_places (p : Part) : ∀ s ∈ p.places, s.Ordered := by
  have hplace : ∀ {α : Type} (a : Placed α), a.place.Ordered := fun a => a.span.inOrder_ordered
  cases p with
  | name role n => exact Part.forall_name.2 (hplace n)
  | connector c =>
    exact Part.forall_connector.2 ⟨fun s _ => hplace s, fun k _ => hplace k, hplace c.target⟩

/-- A diagnostic of a manifest that is refused. -/
structure IsRefusal (e : Diagnostic) : Prop where
  error : e.severity = .error
  ordered : e.Ordered

theorem invalidDiagnostic_isRefusal (message : String) (span : Option Span) :
    IsRefusal (invalidDiagnostic message span) := by
  refine ⟨rfl, fun l hl => ?_⟩
  obtain ⟨s, -, rfl⟩ := Option.map_eq_some_iff.1 (Option.mem_toList.1 hl)
  exact s.inOrder_ordered

/-- Whatever is refused is refused with errors. -/
theorem refusals_of_load {text : String} {es : List Diagnostic}
    (h : load text = .error (.refused es)) : es ≠ [] ∧ ∀ e ∈ es, IsRefusal e := by
  cases hd : declarations text with
  | error failure =>
    rw [load, hd] at h
    cases h
    -- a document that is no manifest
    obtain ⟨m, rfl, -⟩ := within_misfit hd
    exact ⟨List.cons_ne_nil _ _, List.forall_mem_singleton.2 (invalidDiagnostic_isRefusal _ _)⟩
  | ok d =>
    rw [load_of_declarations hd] at h
    cases hm : d.model with
    | ok m =>
      rw [hm] at h
      cases h
    | error es =>
      rw [hm] at h
      cases h
      obtain ⟨hne, hrefused⟩ := d.refused hm
      refine ⟨hne, fun e he => ⟨(hrefused e he).severity_eq, ?_⟩⟩
      exact (hrefused e he).forall_labels (fun hs _ => Span.union_ordered hs) fun p _ => ordered_places p

theorem ordered_of_load {text : String} {m : Model} (h : load text = .ok m) :
    ∀ s ∈ m.spans, s.Ordered := by
  cases hd : declarations text with
  | error failure =>
    rw [load, hd] at h
    cases h
  | ok d =>
    obtain ⟨-, rfl⟩ := Design.build_eq_ok_iff.1 ((load_eq_ok_iff hd).1 h).2
    rw [d.design.spans_assemble]
    exact d.forall_spans (fun hs _ => Span.union_ordered hs) fun p _ => ordered_places p

end Manifest

end Interconnect
