/-
Where the parts of a manifest are written. All that is declared is read from values of the document, and
so has its place in the text; and so has a value that does not have the form of its place. A constant is
read from what is spelled at its place.
-/
import Interconnect.Manifest.Load
import Interconnect.Proofs.Manifest.Flaws
import Interconnect.Proofs.Toml.Places

namespace Interconnect.Manifest

open Toml

/-! ## Places -/

/-- Where a part is written: a name, or the source, the constant and the target of a connector. -/
def Part.places : Part → List Span
  | name _ n => [n.place]
  | connector c => c.source.toList.map Placed.place ++ (c.constant.toList.map Placed.place ++
      [c.target.place])

section

variable {P : Span → Prop}

theorem Part.forall_name {role : Role} {n : Placed String} :
    (∀ s ∈ (name role n).places, P s) ↔ P n.place := List.forall_mem_singleton

theorem Part.forall_connector {c : ConnectEntry} : (∀ s ∈ (connector c).places, P s) ↔
    (∀ source, c.source = some source → P source.place) ∧
      (∀ constant, c.constant = some constant → P constant.place) ∧ P c.target.place := by
  unfold places
  rw [List.forall_mem_append, List.forall_mem_append, List.forall_mem_map, List.forall_mem_map]
  simp

end

/-- Source and target have their places in the text, and the constant is what the value that is written at
its place stands for. -/
structure ConnectEntry.Written (text : String) (c : ConnectEntry) : Prop where
  source : ∀ source, c.source = some source → source.place.InText text
  constant : ∀ constant, c.constant = some constant →
    ∃ v : Value, v.Written text ∧ v.span = constant.span ∧ Literal.read v = .ok constant.value
  target : c.target.place.InText text

/-- What the part is read from is written in the text. -/
def Part.Written (text : String) : Part → Prop
  | name _ n => n.place.InText text
  | connector c => c.Written text

theorem Part.Written.places {text : String} {p : Part} (h : p.Written text) :
    ∀ s ∈ p.places, s.InText text := by
  cases p with
  | name role n => exact forall_name.2 h
  | connector c =>
    have h : c.Written text := h
    refine forall_connector.2 ⟨h.source, fun constant hc => ?_, h.target⟩
    obtain ⟨v, hv, hspan, -⟩ := h.constant constant hc
    exact Span.inOrder_within (hspan ▸ hv.span)

section

variable {P : Part → Prop}

theorem InstanceEntry.forall_parts {i : InstanceEntry} : (∀ p ∈ i.parts, P p) ↔
    P (.name .inst i.name) ∧ P (.name .type i.type) ∧ ∀ c ∈ i.connectors, P (.connector c) := by
  simp [parts]

theorem ComponentEntry.forall_parts {c : ComponentEntry} : (∀ p ∈ c.parts, P p) ↔
    P (.name .component c.name) ∧ (∀ n ∈ c.incoming, P (.name .port n)) ∧
      (∀ n ∈ c.outgoing, P (.name .port n)) ∧ (∀ i ∈ c.instances, ∀ p ∈ i.parts, P p) ∧
      ∀ k ∈ c.connectors, P (.connector k) := by
  simp only [parts, List.forall_mem_cons, List.forall_mem_append, List.forall_mem_map,
    List.forall_mem_flatMap, and_assoc]

theorem forall_expansionParts {es : List ExpansionEntry} :
    (∀ p ∈ expansionParts es, P p) ↔ ∀ e ∈ es, ∀ p ∈ e.parts, P p := by
  induction es with
  | nil => simp [expansionParts]
  | cons e rest ih => rw [expansionParts, List.forall_mem_append, ih, List.forall_mem_cons]

theorem ExpansionEntry.forall_parts {e : ExpansionEntry} : (∀ p ∈ e.parts, P p) ↔
    P (.name .expanded e.name) ∧ P (.name .type e.type) ∧ (∀ c ∈ e.children, ∀ p ∈ c.parts, P p) ∧
      ∀ k ∈ e.connectors, P (.connector k) := by
  cases e
  simp only [parts, List.forall_mem_cons, List.forall_mem_append, List.forall_mem_map,
    forall_expansionParts, List.cons_append, List.nil_append]

theorem Declarations.forall_parts {d : Declarations} : (∀ p ∈ d.parts, P p) ↔
    (∀ c ∈ d.components, ∀ p ∈ c.parts, P p) ∧ ∀ e ∈ d.expansions, ∀ p ∈ e.parts, P p := by
  rw [parts, List.forall_mem_append, List.forall_mem_flatMap, forall_expansionParts]

end

/-! ## Reading -/

variable {text : String}

/-- What is read is as it should be, and a misfit has its place in the text. -/
def Points {α : Type} (text : String) (P : α → Prop) : Reading α → Prop
  | .ok a => P a
  | .error m => m.span.InText text

namespace Points

variable {α β : Type} {P : α → Prop} {Q : β → Prop}

theorem bind {x : Reading α} {next : α → Reading β} (h : Points text P x)
    (hnext : ∀ a, P a → Points text Q (next a)) : Points text Q (x >>= next) := by
  cases x with
  | ok a => exact hnext a h
  | error m => exact h

theorem mapM {f : α → Reading β} {xs : List α} (h : ∀ x ∈ xs, Points text Q (f x)) :
    Points text (fun ys => ∀ y ∈ ys, Q y) (xs.mapM f) := by
  induction xs with
  | nil => exact nofun
  | cons x rest ih =>
    obtain ⟨hx, hrest⟩ := List.forall_mem_cons.1 h
    rw [List.mapM_cons]
    exact hx.bind fun y hy => (ih hrest).bind fun ys hys => List.forall_mem_cons.2 ⟨hy, hys⟩

theorem foldlM {f : β → α → Reading β} {xs : List α} {b : β} (hb : Q b)
    (h : ∀ x ∈ xs, ∀ b, Q b → Points text Q (f b x)) : Points text Q (xs.foldlM f b) := by
  induction xs generalizing b with
  | nil => exact hb
  | cons x rest ih =>
    obtain ⟨hx, hrest⟩ := List.forall_mem_cons.1 h
    rw [List.foldlM_cons]
    exact (hx b hb).bind fun b' hb' => ih hb' hrest

variable {v : Value} (hv : v.Written text)

include hv

theorem unexpected (expected : String) : Points text P (v.unexpected expected : Reading α) := by
  unfold Value.unexpected
  split <;> exact hv.span

theorem placedString : Points text (fun p => p.place.InText text) v.placedString := by
  cases v with
  | string span s => exact Span.inOrder_within hv.span
  | _ => exact unexpected hv _

theorem list {item : (w : Value) → w ∈ v.parts → Reading α}
    (h : ∀ w hw, w.Written text → Points text P (item w hw)) :
    Points text (fun xs => ∀ x ∈ xs, P x) (v.list item) := by
  cases v with
  | array span items => exact mapM fun w _ => h w.1 w.2 (hv.parts w.1 w.2)
  | _ => exact unexpected hv _

theorem record {shape : Shape} {start : α}
    {set : String → (w : Value) → w ∈ v.parts → α → Reading α} (hstart : P start)
    (h : ∀ field w hw r, w.Written text → P r → Points text P (set field w hw r)) :
    Points text P (v.record shape start set) := by
  cases v with
  | table span entries =>
    refine (foldlM hstart fun e _ r hr => ?_).bind fun r hr => ?_
    · obtain ⟨⟨key, w⟩, he⟩ := e
      dsimp only
      split
      · exact h _ w _ r (hv.parts w (List.mem_map.2 ⟨_, he, rfl⟩)) hr
      · exact hv.keys key (List.mem_map.2 ⟨_, he, rfl⟩)
    · split
      · exact hv.span
      · exact hr
  | array span items =>
    refine (foldlM hstart fun e _ r hr => ?_).bind fun r hr => ?_
    · exact h _ _ _ r (hv.parts e.1.1 e.1.2) hr
    · split
      · exact hv.span
      · exact hr
  | moment span => exact hv.span
  | _ => exact unexpected hv _

end Points

theorem inText_numberFault {v : Value} (hv : v.Written text) {m : Misfit}
    (h : v.numberFault? = some m) : m.span.InText text := by
  induction hv with
  | @intro v hspan _ _ _ ih =>
    unfold Value.numberFault? at h
    split at h
    · split at h
      · cases h
        exact hspan
      · split at h <;> cases h
        exact hspan
    · split at h <;> cases h
      exact hspan
    · obtain ⟨w, -, hw⟩ := List.exists_of_findSome?_eq_some h
      exact ih w.1 w.2 hw
    · obtain ⟨e, -, he⟩ := List.exists_of_findSome?_eq_some h
      exact ih e.1.2 (List.mem_map_of_mem e.2) he
    · cases h

theorem Literal.points_read {v : Value} (hv : v.Written text) :
    Points text (fun l => Literal.read v = .ok l) (Literal.read v) := by
  cases hread : Literal.read v with
  | ok l => exact rfl
  | error m =>
    show m.span.InText text
    unfold Literal.read at hread
    split at hread
    · rename_i fault hfault
      cases hread
      exact inText_numberFault hv hfault
    · split at hread <;> cases hread
      exact hv.span

/-! ## Entries -/

theorem inText_default (text : String) : (default : Placed String).place.InText text :=
  Span.inOrder_within (Span.default_within _)

theorem ConnectEntry.points_read {v : Value} (hv : v.Written text) :
    Points text (·.Written text) (ConnectEntry.read v) := by
  refine Points.record hv ⟨nofun, fun _ h => (nomatch h), inText_default text⟩ ?_
  rintro field w _ c hw ⟨hsource, hconstant, htarget⟩
  split
  · refine (Points.placedString hw).bind fun source hs => ⟨?_, hconstant, htarget⟩
    rintro _ ⟨⟩
    exact hs
  · refine (Literal.points_read hw).bind fun literal hl => ⟨hsource, ?_, htarget⟩
    rintro _ ⟨⟩
    exact ⟨w, hw, rfl, hl⟩
  · exact (Points.placedString hw).bind fun target ht => ⟨hsource, hconstant, ht⟩

theorem points_connectors {v : Value} (hv : v.Written text) :
    Points text (fun cs => ∀ c ∈ cs, c.Written text)
      (v.list fun c _ => ConnectEntry.read c) :=
  Points.list hv fun _ _ hw => ConnectEntry.points_read hw

theorem points_names {v : Value} (hv : v.Written text) :
    Points text (fun ns => ∀ n ∈ ns, n.place.InText text) (v.list fun p _ => p.placedString) :=
  Points.list hv fun _ _ hw => Points.placedString hw

theorem InstanceEntry.points_read {v : Value} (hv : v.Written text) :
    Points text (fun i => ∀ p ∈ i.parts, p.Written text) (InstanceEntry.read v) := by
  simp only [InstanceEntry.forall_parts]
  refine Points.record hv ⟨inText_default text, inText_default text, List.forall_mem_nil _⟩ ?_
  rintro field w _ i hw ⟨hname, htype, hconnectors⟩
  split
  · exact (Points.placedString hw).bind fun name hn => ⟨hn, htype, hconnectors⟩
  · exact (Points.placedString hw).bind fun type ht => ⟨hname, ht, hconnectors⟩
  · exact (points_connectors hw).bind fun connectors hc => ⟨hname, htype, hc⟩

theorem ComponentEntry.points_read {v : Value} (hv : v.Written text) :
    Points text (fun c => ∀ p ∈ c.parts, p.Written text) (ComponentEntry.read v) := by
  simp only [ComponentEntry.forall_parts]
  refine Points.record hv ⟨inText_default text, nofun, nofun, List.forall_mem_nil _, List.forall_mem_nil _⟩ ?_
  rintro field w _ c hw ⟨hname, hincoming, houtgoing, hinstances, hconnectors⟩
  split
  · exact (Points.placedString hw).bind fun name hn =>
      ⟨hn, hincoming, houtgoing, hinstances, hconnectors⟩
  · exact (points_names hw).bind fun incoming hi =>
      ⟨hname, hi, houtgoing, hinstances, hconnectors⟩
  · exact (points_names hw).bind fun outgoing ho =>
      ⟨hname, hincoming, ho, hinstances, hconnectors⟩
  · exact (Points.list hw fun _ _ hi => InstanceEntry.points_read hi).bind fun instances hi =>
      ⟨hname, hincoming, houtgoing, hi, hconnectors⟩
  · exact (points_connectors hw).bind fun connectors hc =>
      ⟨hname, hincoming, houtgoing, hinstances, hc⟩

theorem ExpansionEntry.points_read {v : Value} (hv : v.Written text) :
    Points text (fun e => ∀ p ∈ e.parts, p.Written text) (ExpansionEntry.read v) := by
  rw [ExpansionEntry.read]
  refine Points.record hv (forall_parts.2 ⟨inText_default text, inText_default text,
    List.forall_mem_nil _, List.forall_mem_nil _⟩) ?_
  intro field w hw e hwritten he
  obtain ⟨hname, htype, hchildren, hconnectors⟩ := forall_parts.1 he
  split
  · exact (Points.placedString hwritten).bind fun name hn =>
      forall_parts.2 ⟨hn, htype, hchildren, hconnectors⟩
  · exact (Points.placedString hwritten).bind fun type ht =>
      forall_parts.2 ⟨hname, ht, hchildren, hconnectors⟩
  · refine (Points.list hwritten fun c hc hcwritten => ?_).bind fun children hc =>
      forall_parts.2 ⟨hname, htype, hc, hconnectors⟩
    exact ExpansionEntry.points_read hcwritten
  · exact (points_connectors hwritten).bind fun connectors hc =>
      forall_parts.2 ⟨hname, htype, hchildren, hc⟩
termination_by sizeOf v
decreasing_by
  exact Nat.lt_trans (Value.sizeOf_lt_of_mem_parts hc) (Value.sizeOf_lt_of_mem_parts hw)

theorem Declarations.points_read {entries : List (Key × Value)}
    (h : (Value.table {} entries).Written text) :
    Points text (fun d => ∀ p ∈ d.parts, p.Written text) (Declarations.read entries) := by
  simp only [Declarations.forall_parts]
  refine Points.record h ⟨List.forall_mem_nil _, List.forall_mem_nil _⟩ ?_
  rintro field w _ d hw ⟨hcomponents, hexpansions⟩
  split
  · exact (Points.list hw fun _ _ hc => ComponentEntry.points_read hc).bind fun components hc =>
      ⟨hc, hexpansions⟩
  · exact (Points.list hw fun _ _ he => ExpansionEntry.points_read he).bind fun expansions he =>
      ⟨hcomponents, he⟩

/-! ## Texts -/

/-- All that a text declares is read from what is written there. -/
theorem written_declarations {d : Declarations} (h : declarations text = .ok d) :
    ∀ p ∈ d.parts, p.Written text := by
  unfold declarations at h
  split at h
  · cases h
  · rename_i entries hdoc
    have hread := Declarations.points_read (written_document hdoc)
    split at h
    · rename_i hd
      cases h
      rw [hd] at hread
      exact hread
    · cases h

/-- All that a text declares has its place in the text. -/
theorem within_declarations {d : Declarations} (h : declarations text = .ok d) :
    ∀ p ∈ d.parts, ∀ s ∈ p.places, s.Within text.utf8ByteSize :=
  fun p hp => (written_declarations h p hp).places

/-- A document that is no manifest has a misfit in the text. -/
theorem within_misfit {es : List Diagnostic} (h : declarations text = .error (.refused es)) :
    ∃ m, es = [misfitDiagnostic m] ∧ m.span.Within text.utf8ByteSize := by
  unfold declarations at h
  split at h
  · cases h
  · rename_i entries hdoc
    have hread := Declarations.points_read (written_document hdoc)
    split at h
    · cases h
    · rename_i m hm
      cases h
      rw [hm] at hread
      exact ⟨m, rfl, hread⟩

end Interconnect.Manifest
