/-
What drafting comes to. Making things from entries and gathering what is wrong with the entries go hand
in hand, but neither depends on the other: what is made is a design of the entries, and what is gathered
are their flaws, each once and in the order of the entries. A design is only built where nothing has been
gathered.
-/
import Interconnect.Manifest.Load

namespace Interconnect.Manifest

open Toml

/-! ## The design of entries -/

def InstanceEntry.inst (i : InstanceEntry) : Instance where
  name := i.name.value
  type := i.type.value
  connectors := i.connectors.filterMap ConnectEntry.connector?
  span := i.name.place.union i.type.place

def ComponentEntry.component (c : ComponentEntry) : Component where
  name := c.name.value
  ports := c.incoming.map (fun p => .incoming p.value p.place) ++
    c.outgoing.map fun p => .outgoing p.value p.place
  instances := c.instances.map InstanceEntry.inst
  connectors := c.connectors.filterMap ConnectEntry.connector?
  span := c.name.place

mutual

def ExpansionEntry.expansion : ExpansionEntry → Expansion
  | ⟨name, type, children, connectors⟩ =>
    .node name.value type.value (name.place.union type.place)
      (connectors.filterMap ConnectEntry.connector?) (expansionTrees children)

def expansionTrees : List ExpansionEntry → List Expansion
  | [] => []
  | e :: rest => e.expansion :: expansionTrees rest

end

def Declarations.design (d : Declarations) : Design where
  components := d.components.map ComponentEntry.component
  expansions := expansionTrees d.expansions

/-! ## Drafts -/

/-- The draft makes `a`, and puts the diagnostics of the flaws behind whatever has been gathered. -/
def Drafts {α : Type} (draft : Drafting α) (a : α) (flaws : List Flaw) : Prop :=
  ∀ g : Diagnostic.Collector, draft g = (a, g.extend (flaws.map Flaw.diagnostic))

namespace Drafts

variable {α β : Type}

theorem pure (a : α) : Drafts (Pure.pure a) a [] := fun _ => rfl

theorem note (flaws : List Flaw) : Drafts (Manifest.note flaws) () flaws := fun _ => rfl

theorem bind {draft : Drafting α} {next : α → Drafting β} {a : α} {b : β} {before after : List Flaw}
    (h : Drafts draft a before) (hn : Drafts (next a) b after) :
    Drafts (draft >>= next) b (before ++ after) := by
  intro g
  show (match draft g with | (a, g') => next a g') = _
  -- what follows starts with all that the first draft has gathered
  rw [h g, List.map_append, Diagnostic.Collector.extend_append]
  exact hn _

/-- Without further flaws what follows is a function of what was made. -/
theorem map {draft : Drafting α} {a : α} {flaws : List Flaw} (h : Drafts draft a flaws) (f : α → β) :
    Drafts (draft >>= fun a => Pure.pure (f a)) (f a) flaws := by
  have hb : Drafts (draft >>= fun a => Pure.pure (f a)) (f a) (flaws ++ []) := h.bind (Drafts.pure _)
  rwa [List.append_nil] at hb

theorem mapM {draft : α → Drafting β} {f : α → β} {flaws : α → List Flaw}
    (h : ∀ x, Drafts (draft x) (f x) (flaws x)) (xs : List α) :
    Drafts (xs.mapM draft) (xs.map f) (xs.flatMap flaws) := by
  induction xs with
  | nil => exact Drafts.pure []
  | cons x rest ih =>
    rw [List.mapM_cons, List.map_cons, List.flatMap_cons]
    exact (h x).bind (ih.map (f x :: ·))

end Drafts

/-! ## Drafts of entries -/

theorem drafts_name (role : Role) (name : Placed String) :
    Drafts (draftName role name) name.value (nameFlaws role name) :=
  (Drafts.note _).map fun _ => name.value

theorem drafts_ports (direction : Direction) (ps : List (Placed String)) :
    Drafts (ps.mapM (draftPort direction))
      (ps.map fun p => { name := p.value, direction, span := p.place })
      (ps.flatMap (nameFlaws .port)) :=
  Drafts.mapM (fun p => (drafts_name .port p).map fun name =>
    ({ name, direction, span := p.place } : Port)) ps

theorem drafts_connectors (cs : List ConnectEntry) :
    Drafts (draftConnectors cs) (cs.filterMap ConnectEntry.connector?)
      (cs.flatMap ConnectEntry.flaws) := by
  have hone : ∀ c : ConnectEntry, Drafts c.draft c.connector? c.flaws := fun c =>
    (Drafts.note c.flaws).map fun _ => c.connector?
  have hall := (Drafts.mapM hone cs).map fun found => found.filterMap id
  rwa [List.filterMap_map] at hall

theorem InstanceEntry.drafts (i : InstanceEntry) : Drafts i.draft i.inst i.flaws := by
  unfold InstanceEntry.draft InstanceEntry.flaws
  rw [List.append_assoc]
  refine (drafts_name .inst i.name).bind ((drafts_name .type i.type).bind ?_)
  exact (drafts_connectors i.connectors).map _

theorem ComponentEntry.drafts (c : ComponentEntry) : Drafts c.draft c.component c.flaws := by
  unfold ComponentEntry.draft ComponentEntry.flaws
  simp only [List.append_assoc]
  refine (drafts_name .component c.name).bind ((drafts_ports .incoming c.incoming).bind
    ((drafts_ports .outgoing c.outgoing).bind
      ((Drafts.mapM InstanceEntry.drafts c.instances).bind ?_)))
  exact (drafts_connectors c.connectors).map _

mutual

theorem ExpansionEntry.drafts : ∀ e : ExpansionEntry, Drafts e.draft e.expansion e.flaws
  | ⟨name, type, children, connectors⟩ => by
    unfold ExpansionEntry.draft ExpansionEntry.flaws ExpansionEntry.expansion
    simp only [List.append_assoc]
    refine (drafts_name .expanded name).bind ((drafts_name .type type).bind
      ((drafts_expansions children).bind ?_))
    exact (drafts_connectors connectors).map _

theorem drafts_expansions : ∀ es : List ExpansionEntry,
    Drafts (draftExpansions es) (expansionTrees es) (expansionFlaws es)
  | [] => Drafts.pure []
  | e :: rest => by
    unfold draftExpansions expansionFlaws expansionTrees
    exact e.drafts.bind ((drafts_expansions rest).map (e.expansion :: ·))

end

/-- Drafting makes the design of what is declared, and gathers its flaws. -/
theorem Declarations.drafts (d : Declarations) : Drafts d.draft d.design d.flaws := by
  refine (Drafts.mapM ComponentEntry.drafts d.components).bind ?_
  exact (drafts_expansions d.expansions).map _

/-! ## Models -/

theorem Flaw.severity_diagnostic (f : Flaw) : f.diagnostic.severity = .error := by
  cases f <;> rfl

/-- Where there are flaws, they are all that is told. -/
theorem Declarations.model_of_flaws {d : Declarations} (h : d.flaws ≠ []) :
    d.model = .error (d.flaws.map Flaw.diagnostic) := by
  obtain ⟨f, hf⟩ := List.exists_mem_of_ne_nil _ h
  have hany : (d.flaws.map Flaw.diagnostic).any Diagnostic.isError = true :=
    List.any_eq_true.2 ⟨_, List.mem_map_of_mem hf, Diagnostic.isError_iff.2 f.severity_diagnostic⟩
  unfold Declarations.model
  rw [StateT.run, d.drafts, Diagnostic.Collector.extend_eq]
  simp only [Diagnostic.Collector.finish, List.nil_append, Bool.false_or, hany, if_true]

/-- Where there are none, it is up to the design whether there is a model. -/
theorem Declarations.model_of_flawless {d : Declarations} (h : d.flaws = []) :
    d.model = d.design.build.mapError fun defect => [defectDiagnostic defect] := by
  unfold Declarations.model
  rw [StateT.run, d.drafts, h]
  simp only [List.map_nil, Diagnostic.Collector.extend, List.foldl_nil, Diagnostic.Collector.finish]
  cases d.design.build <;> rfl

/-- Telling a failure in other words lets no result in or out. -/
theorem mapError_eq_ok_iff {ε φ α : Type} {f : ε → φ} {x : Except ε α} {a : α} :
    x.mapError f = .ok a ↔ x = .ok a := by
  cases x <;> constructor <;> intro h <;> cases h <;> rfl

theorem Declarations.model_eq_ok_iff {d : Declarations} {m : Model} :
    d.model = .ok m ↔ d.flaws = [] ∧ d.design.build = .ok m := by
  by_cases h : d.flaws = []
  · rw [model_of_flawless h, mapError_eq_ok_iff]
    exact (and_iff_right h).symm
  · rw [model_of_flaws h]
    constructor
    · intro hm
      cases hm
    · intro hm
      exact absurd hm.1 h

/-- What is loaded is the model of what is declared. -/
theorem load_of_declarations {text : String} {d : Declarations} (h : declarations text = .ok d) :
    load text = d.model.mapError .refused := by
  unfold load
  rw [h]
  dsimp only
  cases d.model <;> rfl

theorem load_eq_ok_iff {text : String} {d : Declarations} {m : Model}
    (h : declarations text = .ok d) :
    load text = .ok m ↔ d.flaws = [] ∧ d.design.build = .ok m := by
  rw [load_of_declarations h, mapError_eq_ok_iff, Declarations.model_eq_ok_iff]

/-- There is a result if something is known about it. -/
theorem exists_ok {ε α β : Type} {x : Except ε α} {f : α → β} {b : β}
    (h : x.toOption.map f = some b) : ∃ a, x = .ok a ∧ f a = b := by
  cases x with
  | error e => cases h
  | ok a => exact ⟨a, rfl, Option.some.inj h⟩

end Interconnect.Manifest
