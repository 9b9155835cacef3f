/-
Looking up by ids. A model is held with ids that were given out for its names at any time; whatever names
are entered later, a lookup by ids finds what a search for the name finds. With that, names are as good as
ids in everything that a session and the models made in it can be asked.
-/
import Interconnect.Design
import Interconnect.NameTable.Tagged
import Interconnect.Proofs.NameTable.Session

namespace Interconnect

namespace NameTable

/-! ## Held models -/

/-- The elements with ids that have been given out for their names. -/
structure Tags {α : Type} (s : Session) (name : α → String) (tagged : List (Tagged α))
    (values : List α) : Prop where
  values : tagged.map Tagged.value = values
  known : ∀ x ∈ tagged, s.Knows x.id (name x.value)

/-- The model with ids that have been given out for its names. -/
structure TaggedModel.Holds (s : Session) (held : TaggedModel) (m : Model) : Prop where
  components : Tags s Component.name (held.components.map (·.toTagged)) m.components
  nodes : Tags s Expanded.name (held.nodes.map (·.toTagged)) m.expanded
  ports : ∀ c ∈ held.components, Tags s Port.name c.ports c.value.ports
  instances : ∀ c ∈ held.components, Tags s Instance.name c.instances c.value.instances
  boundaries : ∀ e ∈ held.nodes, Tags s Port.name e.ports e.value.ports

section

variable {s s' : Session} (hext : s.Extends s')

include hext

theorem Tags.extends {α : Type} {name : α → String} {tagged : List (Tagged α)} {values : List α}
    (h : Tags s name tagged values) : Tags s' name tagged values :=
  ⟨h.values, fun x hx => (h.known x hx).extends hext⟩

/-- Once a model is held, it stays so. -/
theorem TaggedModel.Holds.extends {held : TaggedModel} {m : Model} (h : held.Holds s m) :
    held.Holds s' m :=
  ⟨h.components.extends hext, h.nodes.extends hext, fun c hc => (h.ports c hc).extends hext,
    fun c hc => (h.instances c hc).extends hext, fun e he => (h.boundaries e he).extends hext⟩

end

/-! ## Comparing ids -/

section

variable {s : Session}

/-- A search for the id of a text finds what a search for the text does. -/
theorem Tags.find?_eq {α : Type} {name : α → String} {tagged : List (Tagged α)} {values : List α}
    (h : Tags s name tagged values) (text : String) (p : α → Bool) :
    ((s.table.find? text).bind fun id =>
      (tagged.find? fun x => x.id = id && p x.value).map Tagged.value) =
      values.find? fun v => name v = text && p v := by
  rw [← h.values]
  cases hf : s.table.find? text with
  | none =>
    -- what has no id is the name of nothing
    symm
    rw [Option.bind_none, List.find?_eq_none]
    intro v hv hp
    obtain ⟨x, hx, rfl⟩ := List.mem_map.1 hv
    have hname : name x.value = text := by
      simp only [Bool.and_eq_true, decide_eq_true_eq] at hp
      exact hp.1
    refine (s.table.find?_eq_none_iff text).1 hf (mem_names_iff.2 ⟨x.id, ?_⟩)
    rw [← hname]
    exact (h.known x hx).2
  | some id =>
    have hid := find?_eq_some_iff.1 hf
    have hsame : ∀ x ∈ tagged, (decide (x.id = id) && p x.value) =
        (decide (name x.value = text) && p x.value) := by
      intro x hx
      have hx := (h.known x hx).2
      have hiff : x.id = id ↔ name x.value = text := by
        constructor
        · rintro rfl
          exact Option.some.inj (hx.symm.trans hid)
        · rintro rfl
          exact name?_inj hx hid
      simp [hiff]
    rw [Option.bind_some, List.find?_map, ← List.head?_filter, ← List.head?_filter,
      List.filter_congr hsame]
    rfl

theorem Tags.find_eq {α : Type} {name : α → String} {tagged : List (Tagged α)} {values : List α}
    (h : Tags s name tagged values) (text : String) :
    ((s.table.find? text).bind fun id => Tagged.find tagged id) =
      values.find? fun v => name v = text := by
  simpa [Tagged.find] using h.find?_eq text fun _ => true

variable {tagged : List (Tagged Port)} {ports : List Port}

theorem Tags.findDirected_eq (h : Tags s Port.name tagged ports) (text : String)
    (direction : Direction) :
    ((s.table.find? text).bind fun id => Tagged.findDirected tagged id direction) =
      Port.findDirected ports text direction :=
  h.find?_eq text fun p => p.direction = direction

theorem Tags.findNamed_eq (h : Tags s Port.name tagged ports) (text : String) :
    ((s.table.find? text).bind fun id => Tagged.findNamed tagged id) = Port.findNamed ports text := by
  unfold Port.findNamed Tagged.findNamed
  rw [← h.findDirected_eq, ← h.findDirected_eq]
  cases s.table.find? text <;> rfl

variable {held : TaggedModel} {m : Model}

theorem TaggedModel.Holds.getElem?_components (h : held.Holds s m) (index : Nat) :
    m.components[index]? = (held.components[index]?).map (·.value) := by
  rw [← h.components.values, List.map_map, List.getElem?_map]
  rfl

theorem TaggedModel.Holds.getElem?_nodes (h : held.Holds s m) (index : Nat) :
    m.expanded[index]? = (held.nodes[index]?).map (·.value) := by
  rw [← h.nodes.values, List.map_map, List.getElem?_map]
  rfl

/-- The children of a node are held with the ids of their names. -/
theorem TaggedModel.Holds.tags_children (h : held.Holds s m) (e : Expanded) :
    Tags s (fun found : Nat × Expanded => found.2.name) (held.children e)
      (e.children.filterMap fun index => (m.expanded[index]?).map (index, ·)) := by
  constructor
  · unfold children
    rw [List.map_filterMap]
    congr 1
    funext index
    rw [h.getElem?_nodes, Option.map_map, Option.map_map]
    rfl
  · intro x hx
    obtain ⟨index, -, hx⟩ := List.mem_filterMap.1 hx
    obtain ⟨node, hnode, rfl⟩ := Option.map_eq_some_iff.1 hx
    exact h.nodes.known _ (List.mem_map_of_mem (List.mem_of_getElem? hnode))

/-- A lookup by ids finds what a search for the name does. -/
theorem TaggedModel.Holds.resolve?_eq (h : held.Holds s m) (name : String) (kind : SymbolKind)
    (scope : Scope) : held.resolve? s.table name kind scope = m.symbol? name kind scope := by
  -- what is found is made a symbol, whether it is found by its id or by its name
  have hmap : ∀ {α : Type} (find : NameId → Option α) (symbol : α → Symbol),
      ((s.table.find? name).bind fun id => (find id).map symbol) =
        ((s.table.find? name).bind find).map symbol := by
    intro α find symbol
    cases s.table.find? name <;> rfl
  cases scope with
  | component index =>
    simp only [resolve?, Model.symbol?, Model.spanning?, h.getElem?_components]
    cases hc : held.components[index]? with
    | none => simp
    | some c =>
      have hmem := List.mem_of_getElem? hc
      have hports := h.ports c hmem
      cases kind with
      | port => simp [hmap, hports.findNamed_eq, Spanning.ports]
      | directedPort direction => simp [hmap, hports.findDirected_eq, Spanning.ports]
      | declared => simp [hmap, (h.instances c hmem).find_eq, Component.findInstance]
      | expanded => simp
  | expanded index =>
    simp only [resolve?, Model.symbol?, Model.spanning?, h.getElem?_nodes]
    cases he : held.nodes[index]? with
    | none => simp
    | some e =>
      have hports := h.boundaries e (List.mem_of_getElem? he)
      cases kind with
      | port => simp [hmap, hports.findNamed_eq, Spanning.ports]
      | directedPort direction => simp [hmap, hports.findDirected_eq, Spanning.ports]
      | declared => simp
      | expanded => simp [hmap, (h.tags_children e.value).find_eq, Model.findChild?]

theorem tags_map {α : Type} {name : α → String} {values : List α}
    (h : ∀ v ∈ values, name v ∈ s.table.names) (hs : s.Sound) :
    Tags s name (values.map (s.table.tag name)) values := by
  constructor
  · rw [List.map_map]
    exact List.map_id values
  · intro x hx
    obtain ⟨v, hv, rfl⟩ := List.mem_map.1 hx
    obtain ⟨id, hid⟩ := mem_names_iff.1 (h v hv)
    have htag : (s.table.tag name v).id = id := by simp [tag, find?_eq_some_iff.2 hid]
    rw [htag]
    exact ⟨hs.given id (name v) hid, hid⟩

/-- Every model is held where ids have been made for its names. -/
theorem holds_tagModel (hs : s.Sound) (h : ∀ name ∈ modelNames m, name ∈ s.table.names) :
    (tagModel s.table m).Holds s m := by
  have hcomponent : ∀ c ∈ m.components, ∀ name ∈ c.name :: (c.ports.map Port.name ++
      c.instances.map Instance.name), name ∈ s.table.names := by
    intro c hc name hname
    exact h name (List.mem_append_left _ (List.mem_flatMap.2 ⟨c, hc, hname⟩))
  have hnode : ∀ e ∈ m.expanded, ∀ name ∈ e.name :: e.ports.map Port.name,
      name ∈ s.table.names := by
    intro e he name hname
    exact h name (List.mem_append_right _ (List.mem_flatMap.2 ⟨e, he, hname⟩))
  constructor
  · rw [tagModel, List.map_map]
    exact tags_map (fun c hc => hcomponent c hc _ (List.mem_cons_self ..)) hs
  · rw [tagModel, List.map_map]
    exact tags_map (fun e he => hnode e he _ (List.mem_cons_self ..)) hs
  · intro held hheld
    obtain ⟨c, hc, rfl⟩ := List.mem_map.1 hheld
    refine tags_map (fun p hp => hcomponent c hc _ (List.mem_cons_of_mem _ ?_)) hs
    exact List.mem_append_left _ (List.mem_map_of_mem hp)
  · intro held hheld
    obtain ⟨c, hc, rfl⟩ := List.mem_map.1 hheld
    refine tags_map (fun i hi => hcomponent c hc _ (List.mem_cons_of_mem _ ?_)) hs
    exact List.mem_append_right _ (List.mem_map_of_mem hi)
  · intro held hheld
    obtain ⟨e, he, rfl⟩ := List.mem_map.1 hheld
    refine tags_map (fun p hp => hnode e he _ (List.mem_cons_of_mem _ ?_)) hs
    exact List.mem_map_of_mem hp

end

/-! ## Faithful sessions -/

namespace Session

variable {s s' : Session}

/-- The id of that number shows the text. -/
def Shows (s : Session) (n : Nat) (text : String) : Prop :=
  ∃ id, s.ids[n]? = some id ∧ s.table.name? id = some text

/-- What a session answers is what could be answered from texts alone, if `made` are the texts for which
ids have been made. -/
structure Faithful (s : Session) (made : List String) : Prop where
  shown : ∀ n < s.ids.length, ∃ text, s.Shows n text
  entered : ∀ name, ∃ n s₁, s.step? (.intern name) = some (.id n name, s₁) ∧ s₁.Shows n name
  joined : ∀ {x y a b}, s.Shows x a → s.Shows y b → ∃ n s₁,
    s.step? (.qualify x y) = some (.id n (a ++ "." ++ b), s₁) ∧ s₁.Shows n (a ++ "." ++ b)
  found : ∀ name ∈ made, ∃ n s₁, s.step? (.lookup name) = some (.id n name, s₁) ∧ s₁.Shows n name
  absent : ∀ name ∉ made, s.step? (.lookup name) = some (.absent, s)
  same : ∀ {x y a b}, s.Shows x a → s.Shows y b → (s.ids[x]? = s.ids[y]? ↔ a = b) ∧
    s.step? (.same x y) = some (.truth (a = b), s)
  named : ∀ {x a} name, s.Shows x a → s.step? (.named x name) = some (.truth (a = name), s)

theorem Shows.extends {n : Nat} {text : String} (h : s.Shows n text) (hext : s.Extends s') :
    s'.Shows n text := by
  obtain ⟨id, hn, hid⟩ := h
  obtain ⟨rest, hrest⟩ := hext.ids
  refine ⟨id, ?_, hext.grows.name?_eq hid⟩
  rw [← hrest, List.getElem?_append_left (List.getElem?_eq_some_iff.1 hn).1, hn]

/-- An id is given out under the number of an equal one. -/
theorem shows_give {id : NameId} {text : String} {table : NameTable} (h : table.name? id = some text) :
    ∃ n s₁, s.give id table = (.id n text, s₁) ∧ s₁.Shows n text := by
  have hmem : ((s.ids ++ [id]).findIdx? (· = id)).isSome = true := by simp
  obtain ⟨n, hn⟩ := Option.isSome_iff_exists.1 hmem
  refine ⟨n, ⟨table, s.ids ++ [id]⟩, ?_, id, ?_, h⟩
  · rw [give_eq h, hn, Option.getD_some]
  · obtain ⟨hlt, hid, -⟩ := List.findIdx?_eq_some_iff_getElem.1 hn
    rw [List.getElem?_eq_getElem hlt, of_decide_eq_true hid]

theorem faithful_of_sound {made : List String} (hs : s.Sound)
    (hmade : ∀ name, name ∈ s.table.names ↔ name ∈ made) : s.Faithful made where
  shown n hn := by
    obtain ⟨text, htext⟩ := hs.named s.ids[n] (List.getElem_mem hn)
    exact ⟨text, s.ids[n], List.getElem?_eq_getElem hn, htext⟩
  entered name := by
    obtain ⟨n, s₁, hgive, hshows⟩ := shows_give (s := s) (name?_intern s.table name)
    exact ⟨n, s₁, congrArg some hgive, hshows⟩
  joined := by
    rintro x y a b ⟨id, hx, ha⟩ ⟨id', hy, hb⟩
    obtain ⟨n, s₁, hgive, hshows⟩ := shows_give (s := s) (name?_intern s.table (PortRef.qualify a b))
    refine ⟨n, s₁, ?_, hshows⟩
    simp only [step?, hx, hy, qualify_eq ha hb, Option.bind_eq_bind, Option.bind_some, hgive]
    rfl
  found name hname := by
    obtain ⟨id, hid⟩ := mem_names_iff.1 ((hmade name).2 hname)
    obtain ⟨n, s₁, hgive, hshows⟩ := shows_give (s := s) hid
    refine ⟨n, s₁, ?_, hshows⟩
    simp only [step?, find?_eq_some_iff.2 hid, hgive]
  absent name hname := by
    have hnone := (s.table.find?_eq_none_iff name).2 fun h => hname ((hmade name).1 h)
    simp only [step?, hnone]
  same := by
    rintro x y a b ⟨id, hx, ha⟩ ⟨id', hy, hb⟩
    have hiff : id = id' ↔ a = b := by
      constructor
      · rintro rfl
        exact Option.some.inj (ha.symm.trans hb)
      · rintro rfl
        exact name?_inj ha hb
    simp [step?, hx, hy, hiff]
  named := by
    rintro x a name ⟨id, hx, ha⟩
    simp [step?, hx, ha]

end Session

/-- Names are as good as ids. After any steps a session answers what the texts alone would answer; an id
shows the same text for ever; a question in between, which may give out an id once more, changes no later
answer but for the numbers of the ids behind it; and a model that is held with ids for its names, as every
model can be where there are ids for them, is looked up in at any later time as if names were compared. -/
theorem faithful_of_run {before after : List Step} {as bs : List Answer} {s s' : Session}
    (h : Session.empty.run? before = some (as, s)) (h' : s.run? after = some (bs, s')) :
    Session.empty.answers? (before ++ after) = some (as ++ bs) ∧
    s'.Faithful (made (before ++ after) (as ++ bs)) ∧
    (∀ n text, s.Shows n text → s'.Shows n text) ∧
    (∀ question a s₁, question.isQuestion = true → s.step? question = some (a, s₁) →
      s₁.table = s.table ∧ ∃ s₂,
        s₁.run? (after.map (·.raised s.ids.length (s₁.ids.length - s.ids.length))) =
          some (bs.map (·.raised s.ids.length (s₁.ids.length - s.ids.length)), s₂)) ∧
    (∀ m, (∀ name ∈ modelNames m, name ∈ made before as) → (tagModel s.table m).Holds s m) ∧
    (∀ held m, TaggedModel.Holds s held m → ∀ name kind scope,
      held.resolve? s'.table name kind scope = m.symbol? name kind scope) := by
  have hsound := Session.sound_run h Session.sound_empty
  have hext := Session.extends_run h'
  have hall := Session.run?_append h h'
  refine ⟨?_, ?_, fun n text hn => hn.extends hext, ?_, ?_, ?_⟩
  · rw [Session.answers?_eq, hall, Option.map_some]
  · refine Session.faithful_of_sound (Session.sound_run h' hsound) fun name => ?_
    rw [Session.mem_names_run hall]
    simp [Session.empty, NameTable.empty]
  · intro question a s₁ hquestion hstep
    have hrepeats := Session.repeats_of_question hsound hquestion hstep
    exact ⟨hrepeats.table, hrepeats.run h'⟩
  · intro m hm
    refine holds_tagModel hsound fun name hname => ?_
    exact (Session.mem_names_run h).2 (.inr (hm name hname))
  · intro held m hheld name kind scope
    exact (hheld.extends hext).resolve?_eq name kind scope

/-- A pump, and an expanded one whose name is made by joining the two others. -/
def pumpDesign : Design where
  components := [{ name := "Pump", ports := [.incoming "in" {}], instances := [⟨"s", "Pump", [], {}⟩] }]
  expansions := [.node "Pump.s" "Pump" {} [] []]

def pumpSteps : List Step := [.intern "Pump", .intern "s", .intern "in", .qualify 0 1]

def pumpAnswers : List Answer := [.id 0 "Pump", .id 1 "s", .id 2 "in", .id 3 "Pump.s"]

def pumpQuestions : List Step := [.lookup "Pump.s", .lookup "t", .intern "t", .same 3 4]

def pumpReplies : List Answer := [.id 3 "Pump.s", .absent, .id 5 "t", .truth true]

theorem faithful_of_run_pump : ∃ m s s', pumpDesign.build = .ok m ∧
    Session.empty.run? pumpSteps = some (pumpAnswers, s) ∧
    s.run? pumpQuestions = some (pumpReplies, s') ∧
    s'.Faithful ["Pump", "s", "in", "Pump.s", "t"] ∧
    ∀ name kind scope,
      (tagModel s.table m).resolve? s'.table name kind scope = m.symbol? name kind scope := by
  have hnames : pumpDesign.build.toOption.map modelNames =
      some ["Pump", "in", "s", "Pump.s", "in"] := by decide +kernel
  have hanswers : ((Session.empty.run? pumpSteps).bind fun x =>
      (x.2.run? pumpQuestions).map fun y => (x.1, y.1)) = some (pumpAnswers, pumpReplies) := by
    decide +kernel
  simp only [Option.bind_eq_some_iff, Option.map_eq_some_iff] at hanswers
  obtain ⟨⟨as, s⟩, hs, ⟨bs, s'⟩, hs', hanswers⟩ := hanswers
  obtain ⟨rfl, rfl⟩ := Prod.mk.inj hanswers
  cases hm : pumpDesign.build with
  | error defect =>
    rw [hm] at hnames
    cases hnames
  | ok m =>
    rw [hm] at hnames
    have hmade : ∀ name ∈ modelNames m, name ∈ made pumpSteps pumpAnswers := by
      rw [Option.some.inj hnames]
      decide
    obtain ⟨-, hfaithful, -, -, hholds, hlookup⟩ := faithful_of_run hs hs'
    exact ⟨m, s, s', rfl, hs, hs', hfaithful, hlookup _ m (hholds m hmade)⟩

end NameTable

end Interconnect
