/-
Values in tables. A table is written entry by entry; as long as keys and values have their places in the
text, and bare values and strings are spelled there, so it is with everything in the table.
-/
import Interconnect.Toml.Document
import Interconnect.Toml.Record
import Interconnect.Proofs.Toml.Spelling

namespace Interconnect.Toml

/-- The keys of a table. -/
def Value.keys : Value → List Key
  | table _ entries => entries.map Prod.fst
  | _ => []

/-- A value without parts is spelled at its place: a string from a quote on, and another one as the bare
value that is read there. -/
def Value.Spelled (text : String) : Value → Prop
  | string span _ => ∃ cs, Spells text span cs ∧ ∃ q ∈ ['"', '\''], cs.head? = some q
  | array _ _ => True
  | table _ _ => True
  | v => ∃ cs s, Spells text v.span cs ∧ Scalar.read (String.ofList cs) = some s ∧ v = ofScalar v.span s

/-- The value, its keys and all that is inside it have their places in the text, and what has no parts is
spelled there. -/
inductive Value.Written (text : String) : Value → Prop where
  | intro {v : Value} (span : v.span.InText text) (spelled : v.Spelled text)
      (keys : ∀ k ∈ v.keys, k.span.InText text) (parts : ∀ w ∈ v.parts, w.Written text) :
      v.Written text

namespace Value.Written

variable {text : String} {v : Value}

theorem span : v.Written text → v.span.InText text
  | .intro span _ _ _ => span

theorem spelled : v.Written text → v.Spelled text
  | .intro _ spelled _ _ => spelled

theorem keys : v.Written text → ∀ k ∈ v.keys, k.span.InText text
  | .intro _ _ keys _ => keys

theorem parts : v.Written text → ∀ w ∈ v.parts, w.Written text
  | .intro _ _ _ parts => parts

end Value.Written

/-- The same of a node. -/
inductive Node.Written (text : String) : Node → Prop where
  | leaf {v : Value} (h : v.Written text) : (leaf v).Written text
  | table {origin : Origin} {span : Span} {entries : Entries} (hspan : span.InText text)
      (hkeys : ∀ e ∈ entries, e.1.span.InText text)
      (hnodes : ∀ e ∈ entries, e.2.Written text) : (table origin span entries).Written text
  | tables {span : Span} {elements : List Node} (hspan : span.InText text)
      (hnodes : ∀ n ∈ elements, n.Written text) : (tables span elements).Written text

/-- The same of the entries of a table. -/
def Entries.Written (text : String) (es : Entries) : Prop :=
  ∀ e ∈ es, e.1.span.InText text ∧ e.2.Written text

variable {text : String}

theorem entriesToValues_eq (es : Entries) :
    entriesToValues es = es.map fun e => (e.1, e.2.toValue) := by
  induction es with
  | nil => rfl
  | cons e rest ih => rw [entriesToValues, ih, List.map_cons]

theorem nodesToValues_eq (ns : List Node) : nodesToValues ns = ns.map Node.toValue := by
  induction ns with
  | nil => rfl
  | cons n rest ih => rw [nodesToValues, ih, List.map_cons]

theorem Value.written_leaf {v : Value} (hspan : v.span.InText text)
    (hspelled : v.Spelled text) (hkeys : v.keys = []) (hparts : v.parts = []) : v.Written text :=
  ⟨hspan, hspelled, by simp [hkeys], by simp [hparts]⟩

theorem Value.written_table {span : Span} {es : Entries} (hspan : span.InText text)
    (hkeys : ∀ e ∈ es, e.1.span.InText text) (hvalues : ∀ e ∈ es, e.2.toValue.Written text) :
    (Value.table span (entriesToValues es)).Written text := by
  rw [entriesToValues_eq]
  refine ⟨hspan, trivial, fun k hk => ?_, fun w hw => ?_⟩
  · simp only [keys, List.map_map, List.mem_map] at hk
    obtain ⟨e, he, rfl⟩ := hk
    exact hkeys e he
  · simp only [parts, List.map_map, List.mem_map] at hw
    obtain ⟨e, he, rfl⟩ := hw
    exact hvalues e he

theorem Node.Written.toValue {n : Node} (h : n.Written text) : n.toValue.Written text := by
  induction h with
  | leaf h => exact h
  | table hspan hkeys _ ih => exact Value.written_table hspan hkeys ih
  | tables hspan _ ih =>
    rw [Node.toValue, nodesToValues_eq]
    refine ⟨hspan, trivial, nofun, fun w hw => ?_⟩
    obtain ⟨n, hn, rfl⟩ := List.mem_map.1 hw
    exact ih n hn

/-! ## Entries -/

namespace Entries

variable {es : Entries} {key : Key} {node : Node}

theorem written_nil : Entries.Written text [] := by simp [Written]

theorem Written.table (h : es.Written text) {span : Span} (hspan : span.InText text) (origin : Origin) :
    (Node.table origin span es).Written text :=
  .table hspan (fun e he => (h e he).1) fun e he => (h e he).2

theorem written_of_table {origin : Origin} {span : Span}
    (h : (Node.table origin span es).Written text) : span.InText text ∧ es.Written text := by
  cases h with
  | table hspan hkeys hnodes => exact ⟨hspan, fun e he => ⟨hkeys e he, hnodes e he⟩⟩

theorem Written.toValues (h : es.Written text) {span : Span} (hspan : span.InText text) :
    (Value.table span (entriesToValues es)).Written text :=
  (h.table hspan .header).toValue

theorem Written.find? (h : es.Written text) (hf : es.find? key = some node) : node.Written text := by
  obtain ⟨e, he, rfl⟩ := Option.map_eq_some_iff.1 hf
  exact (h e (List.mem_of_find?_eq_some he)).2

theorem Written.insert (h : es.Written text) (hkey : key.span.InText text) (hnode : node.Written text) :
    (es.insert key node).Written text := by
  induction es with
  | nil => simpa [Entries.insert, Written] using ⟨hkey, hnode⟩
  | cons e rest ih =>
    unfold Entries.insert
    split
    · exact List.forall_mem_cons.2 ⟨⟨hkey, hnode⟩, h⟩
    · obtain ⟨he, hrest⟩ := List.forall_mem_cons.1 h
      exact List.forall_mem_cons.2 ⟨he, ih hrest⟩

theorem Written.replace (h : es.Written text) (hnode : node.Written text) :
    (es.replace key node).Written text := by
  intro e' he'
  obtain ⟨e, he, rfl⟩ := List.mem_map.1 he'
  split
  · exact ⟨(h e he).1, hnode⟩
  · exact h e he

theorem Written.erase (h : es.Written text) : (es.erase key).Written text :=
  fun e he => h e (List.mem_filter.1 he).1

/-- What is changed in a table keeps its place if the change keeps to the text. -/
theorem Written.updateAt {made here : Origin} {change : Origin → Entries → Option Entries}
    {path : List Key} {out : Entries} (h : es.Written text) (hpath : ∀ k ∈ path, k.span.InText text)
    (hchange : ∀ {here inner out}, Entries.Written text inner → change here inner = some out →
      Entries.Written text out)
    (hout : es.updateAt made change here path = some out) : out.Written text := by
  induction path generalizing es here out with
  | nil => exact hchange h hout
  | cons key path ih =>
    obtain ⟨hkey, hpath⟩ := List.forall_mem_cons.1 hpath
    unfold Entries.updateAt at hout
    -- the step is missing, a table, an array of tables, or a value that nothing can enter
    split at hout
    · obtain ⟨inner, hinner, hout⟩ := Option.bind_eq_some_iff.1 hout
      cases hout
      exact h.insert hkey ((ih written_nil hpath hinner).table hkey made)
    · rename_i origin span inner hfind
      obtain ⟨hspan, hold⟩ := written_of_table (h.find? hfind)
      split at hout
      · cases hout
      · obtain ⟨inner', hinner, hout⟩ := Option.bind_eq_some_iff.1 hout
        cases hout
        exact h.replace ((ih hold hpath hinner).table hspan origin)
    · rename_i span elements hfind
      cases h.find? hfind with
      | tables hspan hnodes =>
        split at hout
        · rename_i origin last inner hlast
          obtain ⟨inner', hinner, hout⟩ := Option.bind_eq_some_iff.1 hout
          cases hout
          obtain ⟨hwhere, hold⟩ := written_of_table (hnodes _ (List.mem_of_getLast? hlast))
          refine h.replace (.tables hspan fun n hn => ?_)
          rcases List.mem_append.1 hn with hn | hn
          · exact hnodes n (List.dropLast_subset _ hn)
          · rw [List.mem_singleton.1 hn]
            exact (ih hold hpath hinner).table hwhere origin
        · cases hout
    · cases hout

theorem Written.assign {path : List Key} {v : Value} {out : Entries} (h : es.Written text)
    (hpath : ∀ k ∈ path, k.span.InText text) (hkey : key.span.InText text) (hv : v.Written text)
    (hout : es.assign path key v = some out) : out.Written text := by
  refine h.updateAt hpath (fun hinner hchange => ?_) hout
  obtain ⟨-, hchange⟩ := Option.ite_none_right_eq_some.1 hchange
  cases hchange
  exact hinner.insert hkey (.leaf hv)

end Entries

end Interconnect.Toml
