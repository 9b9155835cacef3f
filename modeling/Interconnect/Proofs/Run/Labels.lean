/-
Labels in a manifest. Whatever is told about a manifest, by loading it or by checking its model, has one
primary label, the first one, and all its labels lie in the text. A finding points to what it is about: to
the name and the type of the instance, or to both ends of the connector.
-/
import Interconnect.Proofs.Check.Endpoints
import Interconnect.Proofs.Run.Outcome

namespace Interconnect

/-! ## Labels in a text -/

/-- The first label is the only primary one, all labels lie in a text of that many bytes, and so do the
places that the report points to. -/
structure Diagnostic.PointsInto (size : Nat) (d : Diagnostic) : Prop where
  led : d.Led
  labels : ∀ l ∈ d.labels, l.span.start ≤ l.span.stop ∧ l.span.stop ≤ size
  pointers : ∃ ps, d.report.pointers = some ps ∧ List.Forall₂ Label.Shown d.labels ps ∧
    ∀ p ∈ ps, p.offset + p.length ≤ size

/-- The primary label spans all that is at that place. -/
def Diagnostic.Marks (d : Diagnostic) (s : Span) : Prop :=
  ∃ l rest, d.labels = l :: rest ∧ l.primary = true ∧ l.span.Covers s

/-- What is on the right of a relation of two lists is related to what is at the same position. -/
theorem getElem?_of_forall₂ {α β : Type} {R : α → β → Prop} {xs : List α} {ys : List β}
    (h : List.Forall₂ R xs ys) {n : Nat} {b : β} (hb : ys[n]? = some b) :
    ∃ a, xs[n]? = some a ∧ R a b := by
  obtain ⟨hlength, hget⟩ := List.forall₂_iff_get.1 h
  obtain ⟨hn, rfl⟩ := List.getElem?_eq_some_iff.1 hb
  exact ⟨_, List.getElem?_eq_getElem (hlength ▸ hn), hget n _ hn⟩

theorem exists_getElem?_of_forall₂ {α β : Type} {R : α → β → Prop} {xs : List α} {ys : List β}
    (h : List.Forall₂ R xs ys) {b : β} (hb : b ∈ ys) :
    ∃ (n : Nat) (a : α), ys[n]? = some b ∧ xs[n]? = some a ∧ R a b := by
  obtain ⟨n, hn⟩ := List.mem_iff_getElem?.1 hb
  obtain ⟨a, ha, hr⟩ := getElem?_of_forall₂ h hn
  exact ⟨n, a, hn, ha, hr⟩

theorem Diagnostic.pointsInto {size : Nat} {d : Diagnostic} (hled : d.Led) (hordered : d.Ordered)
    (hwithin : ∀ l ∈ d.labels, l.span.Within size) : d.PointsInto size := by
  refine ⟨hled, fun l hl => ⟨hordered l hl, (hwithin l hl).2⟩, ?_⟩
  obtain ⟨l, rest, hlabels, -, -⟩ := hled
  rcases (Diagnostic.shown_report hordered).pointers with ⟨hnil, -⟩ | ⟨ps, -, hps, hshown⟩
  · rw [hlabels] at hnil
    cases hnil
  · refine ⟨ps, hps, hshown, fun p hp => ?_⟩
    obtain ⟨n, l, -, hl, hshown⟩ := exists_getElem?_of_forall₂ hshown hp
    rw [hshown.stop]
    exact (hwithin l (List.mem_of_getElem? hl)).2

namespace Manifest

open Toml

/-! ## What findings are about -/

/-- The declared connectors, in the order in which the model has them. -/
def Declarations.connectEntries (d : Declarations) : List ConnectEntry :=
  d.components.flatMap (fun c => c.connectors ++ c.instances.flatMap InstanceEntry.connectors) ++
    d.nodes.flatMap ExpansionEntry.connectors

/-- What a finding about a model is about, with its entry in the manifest: an instance, where the finding
marks name and type, or a connector, where it marks the target and the source or the constant. -/
inductive Declarations.Locates (d : Declarations) (m : Model) (levels : Levels) (f : Diagnostic) :
    Prop where
  | inst {index place : Nat} {c : Component} {e : ComponentEntry} {i : Instance} {x : InstanceEntry}
      (hc : m.components[index]? = some c) (he : d.components[index]? = some e)
      (hi : c.instances[place]? = some i) (hx : e.instances[place]? = some x)
      (hf : (∃ direction port, f = Finding.unused levels c i direction port) ∨
        f = Finding.undeclared levels c i)
      (hname : f.Marks x.name.place) (htype : f.Marks x.type.place)
  | connector {place : Nat} {k : Connector} {x : ConnectEntry}
      (hk : m.connectors[place]? = some k) (hx : d.connectEntries[place]? = some x)
      (hf : ∃ e owner error, f = Finding.unresolved levels e k owner error)
      (hends : ∀ s ∈ (Part.connector x).places, f.Marks s)

/-- A connector spans all that its entry consists of. -/
theorem ConnectEntry.Describes.covers {x : ConnectEntry} {scope : Scope} {k : Connector}
    (h : x.Describes scope k) : ∀ s ∈ (Part.connector x).places, k.span.Covers s := by
  refine Part.forall_connector.2 ?_
  rcases h.reads with ⟨source, hsource, hconstant, -, -, hspan⟩ |
    ⟨constant, text, hsource, hconstant, -, -, hspan⟩
  · rw [hspan, hsource, hconstant]
    refine ⟨?_, fun _ hnone => (nomatch hnone), Span.covers_union_right _ _⟩
    rintro _ ⟨⟩
    exact Span.covers_union_left _ _
  · rw [hspan, hsource, hconstant]
    refine ⟨nofun, ?_, Span.covers_union_right _ _⟩
    rintro _ ⟨⟩
    exact Span.covers_union_left _ _

/-- An instance spans its name and its type. -/
theorem InstanceEntry.Describes.covers {x : InstanceEntry} {scope : Scope} {i : Instance}
    (h : x.Describes scope i) : i.span.Covers x.name.place ∧ i.span.Covers x.type.place := by
  rw [h.span]
  exact ⟨Span.covers_union_left _ _, Span.covers_union_right _ _⟩

namespace Declarations.Describes

variable {d : Declarations} {m : Model} (h : d.Describes m)

include h

theorem forall₂_components :
    List.Forall₂ (fun e c => ∃ index, e.Describes index c) d.components m.components := by
  refine List.forall₂_iff_get.2 ⟨h.length_components.symm, fun n hn hn' => ⟨n, ?_⟩⟩
  exact h.components n _ _ (List.getElem?_eq_getElem hn) (List.getElem?_eq_getElem hn')

theorem forall₂_nodes : List.Forall₂ (fun e x => ∃ index, e.Describes index x) d.nodes m.expanded := by
  refine List.forall₂_iff_get.2 ⟨h.length_nodes.symm, fun n hn hn' => ⟨n, ?_⟩⟩
  exact h.nodes n _ _ (List.getElem?_eq_getElem hn) (List.getElem?_eq_getElem hn')

/-- The connectors of the model are the declared ones, in the same order. -/
theorem forall₂_connectors :
    List.Forall₂ (fun x k => ∃ scope, x.Describes scope k) d.connectEntries m.connectors := by
  have hscope : ∀ {scope xs ks}, List.Forall₂ (fun (x : ConnectEntry) k => x.Describes scope k) xs ks →
      List.Forall₂ (fun x k => ∃ scope, x.Describes scope k) xs ks :=
    fun h => h.imp fun _ _ hx => ⟨_, hx⟩
  refine List.rel_append (List.rel_flatMap h.forall₂_components ?_)
    (List.rel_flatMap h.forall₂_nodes ?_)
  · rintro e c ⟨index, hc⟩
    refine List.rel_append (hscope hc.connectors) (List.rel_flatMap hc.instances ?_)
    intro x i hi
    exact hscope hi.connectors
  · rintro e x ⟨index, hx⟩
    exact hscope hx.connectors

theorem exists_instance {c : Component} (hc : c ∈ m.components) {i : Instance} (hi : i ∈ c.instances) :
    ∃ (index place : Nat) (e : ComponentEntry) (x : InstanceEntry), m.components[index]? = some c ∧
      d.components[index]? = some e ∧ c.instances[place]? = some i ∧ e.instances[place]? = some x ∧
      i.span.Covers x.name.place ∧ i.span.Covers x.type.place := by
  obtain ⟨index, e, hc, he, index', hdescribes⟩ := exists_getElem?_of_forall₂ h.forall₂_components hc
  obtain ⟨place, x, hi, hx, hinst⟩ := exists_getElem?_of_forall₂ hdescribes.instances hi
  exact ⟨index, place, e, x, hc, he, hi, hx, hinst.covers⟩

/-- Every finding points to what it is about. -/
theorem locates {levels : Levels} {f : Diagnostic} (hf : m.Finds levels f) :
    d.Locates m levels f := by
  cases hf with
  | unresolved hk e owner error =>
    obtain ⟨place, x, hk, hx, scope, hdescribes⟩ := exists_getElem?_of_forall₂ h.forall₂_connectors hk
    refine .connector hk hx ⟨e, owner, error, rfl⟩ fun s hs => ⟨_, [], rfl, rfl, ?_⟩
    exact hdescribes.covers s hs
  | unused hc hi direction port =>
    obtain ⟨index, place, e, x, hc, he, hi, hx, hname, htype⟩ := h.exists_instance hc hi
    exact .inst hc he hi hx (.inl ⟨direction, port, rfl⟩) ⟨_, _, rfl, rfl, hname⟩ ⟨_, _, rfl, rfl, htype⟩
  | undeclared hc hi ht =>
    obtain ⟨index, place, e, x, hc, he, hi, hx, hname, htype⟩ := h.exists_instance hc hi
    exact .inst hc he hi hx (.inr rfl) ⟨_, _, rfl, rfl, hname⟩ ⟨_, _, rfl, rfl, htype⟩

end Declarations.Describes

/-! ## Loading and checking -/

theorem finding_led {m : Model} {levels : Levels} {f : Diagnostic} (h : m.Finds levels f) : f.Led := by
  cases h with
  | unresolved hk e owner error => exact ⟨_, [], rfl, rfl, nofun⟩
  | unused hc hi direction port => exact ⟨_, _, rfl, rfl, List.forall_mem_singleton.2 rfl⟩
  | undeclared hc hi ht => exact ⟨_, _, rfl, rfl, List.forall_mem_singleton.2 rfl⟩

/-- What is told about declarations points into a text of that many bytes: why they have no model, and
what a check of the model finds, which also marks what it is about. -/
structure Declarations.PointsInto (size : Nat) (levels : Levels) (d : Declarations) : Prop where
  refused : ∀ es, d.model = .error es → ∀ e ∈ es, e.PointsInto size
  checked : ∀ m, d.model = .ok m → ∀ f ∈ Model.told (m.check levels),
    f.PointsInto size ∧ d.Locates m levels f

theorem Declarations.pointsInto {size : Nat} {d : Declarations} (levels : Levels)
    (h : ∀ p ∈ d.parts, ∀ s ∈ p.places, s.Within size) : d.PointsInto size levels := by
  have hordered : ∀ p ∈ d.parts, ∀ s ∈ p.places, s.Ordered := fun p _ => ordered_places p
  constructor
  · intro es hes e he
    have hrefused := (d.refused hes).2 e he
    exact Diagnostic.pointsInto hrefused.led
      (hrefused.forall_labels (fun hs _ => Span.union_ordered hs) hordered)
      (hrefused.forall_labels Span.union_within h)
  · intro m hm f hf
    rw [m.told_check] at hf
    have hfinds := Model.finds_findings hf
    obtain ⟨hflaws, hbuild⟩ := Declarations.model_eq_ok_iff.1 hm
    obtain ⟨-, rfl⟩ := Design.build_eq_ok_iff.1 hbuild
    -- everything in the model is where it is declared
    have hspans : ∀ {P : Span → Prop}, (∀ s ∈ d.design.spans, P s) → ∀ l ∈ f.labels, P l.span := by
      intro P hP l hl
      refine hP _ ?_
      rw [← d.design.spans_assemble]
      exact Model.finding_mem_spans hfinds l hl
    refine ⟨Diagnostic.pointsInto (finding_led hfinds) ?_ ?_, (d.describes_assemble hflaws).locates hfinds⟩
    · exact hspans (d.forall_spans (fun hs _ => Span.union_ordered hs) hordered)
    · exact hspans (d.forall_spans Span.union_within h)

/-- Wherever declarations have their places, all that is told about them points into the same text; and
those of a manifest have them in its text. So all that is told about a manifest, by loading it or by
checking its model, points into the manifest, and what a check finds marks what it is about. -/
theorem labels_of_load (levels : Levels) :
    (∀ (size : Nat) (d : Declarations), (∀ p ∈ d.parts, ∀ s ∈ p.places, s.Within size) →
      d.PointsInto size levels) ∧
    ∀ text, (∀ es, load text = .error (.refused es) → ∀ e ∈ es, e.PointsInto text.utf8ByteSize) ∧
      ∀ m, load text = .ok m → ∃ d, declarations text = .ok d ∧
        ∀ f ∈ Model.told (m.check levels), f.PointsInto text.utf8ByteSize ∧ d.Locates m levels f := by
  refine ⟨fun size d => d.pointsInto levels, fun text => ⟨fun es h => ?_, fun m h => ?_⟩⟩
  · cases hd : declarations text with
    | error failure =>
      rw [load, hd] at h
      cases h
      obtain ⟨m, rfl, hm⟩ := within_misfit hd
      refine List.forall_mem_singleton.2 (Diagnostic.pointsInto (misfitDiagnostic_led m) ?_ ?_)
      · exact fun l hl => mem_labels_misfit hl ▸ m.span.inOrder_ordered
      · exact fun l hl => mem_labels_misfit hl ▸ Span.inOrder_within hm
    | ok d =>
      rw [load_of_declarations hd] at h
      cases hm : d.model with
      | ok m =>
        rw [hm] at h
        cases h
      | error es =>
        rw [hm] at h
        cases h
        exact (d.pointsInto levels (within_declarations hd)).refused es hm
  · cases hd : declarations text with
    | error failure =>
      rw [load, hd] at h
      cases h
    | ok d =>
      rw [load_of_declarations hd, mapError_eq_ok_iff] at h
      exact ⟨d, rfl, (d.pointsInto levels (within_declarations hd)).checked m h⟩

/-- A constant that leads nowhere, and an instance of a type that is not declared. -/
def strayManifest : String :=
  "component=[\x7bname='b',instance=[\x7bname='s',type='c'\x7d]," ++
    "connect=[\x7bconstant=1,target='z'\x7d]\x7d]"

theorem labels_of_load_stray : ∃ d m fs, declarations strayManifest = .ok d ∧
    load strayManifest = .ok m ∧ m.check {} = .error fs ∧
    (fs.map fun f => f.labels.map Label.span) = [[⟨71, 83⟩], [⟨37, 49⟩, ⟨17, 20⟩]] ∧
    ∀ f ∈ fs, f.PointsInto 87 ∧ d.Locates m {} f := by
  have hloaded : (load strayManifest).toOption.map (fun m =>
      ((m.findings {}).any Diagnostic.isError, (m.findings {}).map fun f => f.labels.map Label.span)) =
      some (true, [[⟨71, 83⟩], [⟨37, 49⟩, ⟨17, 20⟩]]) := by decide +kernel
  obtain ⟨m, hm, hfindings⟩ := exists_ok hloaded
  obtain ⟨hany, hspans⟩ := Prod.mk.inj hfindings
  obtain ⟨d, hd, hchecked⟩ := ((labels_of_load {}).2 strayManifest).2 m hm
  have hfails : m.check {} = .error (m.findings {}) := by
    rw [m.check_eq_verdict, Diagnostic.verdict_eq_error_iff]
    exact ⟨rfl, List.any_eq_true.1 hany⟩
  rw [hfails] at hchecked
  exact ⟨d, m, _, hd, hm, hfails, hspans, hchecked⟩

end Manifest

end Interconnect
