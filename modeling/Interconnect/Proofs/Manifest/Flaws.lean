/-
The flaws that loading tells. What is declared is a list of parts, names and connectors in the order
in which they are looked at, and a part is flawed or not by itself. Loading tells every flawed part,
once and in that order, and nothing else; only where no part is flawed does the design of the manifest
count.
-/
import Interconnect.Proofs.Manifest.Drafting

namespace Interconnect.Manifest

open Toml

/-! ## Parts -/

/-- What can be flawed by itself. -/
inductive Part where
  | name (role : Role) (name : Placed String)
  | connector (c : ConnectEntry)
  deriving DecidableEq, Repr

def InstanceEntry.parts (i : InstanceEntry) : List Part :=
  [.name .inst i.name, .name .type i.type] ++ i.connectors.map .connector

def ComponentEntry.parts (c : ComponentEntry) : List Part :=
  .name .component c.name :: (c.incoming.map (.name .port) ++ c.outgoing.map (.name .port) ++
    c.instances.flatMap InstanceEntry.parts ++ c.connectors.map .connector)

mutual

/-- The expanded instances inside come before the connectors. -/
def ExpansionEntry.parts : ExpansionEntry → List Part
  | ⟨name, type, children, connectors⟩ =>
    [.name .expanded name, .name .type type] ++ expansionParts children ++ connectors.map .connector

def expansionParts : List ExpansionEntry → List Part
  | [] => []
  | e :: rest => e.parts ++ expansionParts rest

end

def Declarations.parts (d : Declarations) : List Part :=
  d.components.flatMap ComponentEntry.parts ++ expansionParts d.expansions

/-! ## Flawed parts -/

/-- A name is flawed if it is empty or holds a dot, a connector if it has both a source and a constant
or neither. -/
def Part.Flawed : Part → Prop
  | name _ n => n.value = "" ∨ '.' ∈ n.value.toList
  | connector c => c.source.isSome ↔ c.constant.isSome

instance : DecidablePred Part.Flawed
  | .name _ n => inferInstanceAs (Decidable (n.value = "" ∨ '.' ∈ n.value.toList))
  | .connector c => inferInstanceAs (Decidable ((c.source.isSome : Prop) ↔ c.constant.isSome))

/-- What is wrong with a part if it is flawed. -/
def Part.flaw : Part → Flaw
  | name role n => if n.value = "" then .emptyName role n.place else .dottedName role n.value n.place
  | connector c =>
    match c.source, c.constant with
    | some source, some constant => .twoSources c.target.value source.place constant.place
    | _, _ => .noSource c.target.value c.target.place

/-- The flaws of parts, each once and in the order of the parts. -/
def flawsOf (parts : List Part) : List Flaw :=
  (parts.filter (·.Flawed)).map Part.flaw

theorem flawsOf_append (ps qs : List Part) : flawsOf (ps ++ qs) = flawsOf ps ++ flawsOf qs := by
  unfold flawsOf
  rw [List.filter_append, List.map_append]

theorem flawsOf_flatMap {α : Type} {parts : α → List Part} {flaws : α → List Flaw}
    (h : ∀ x, flawsOf (parts x) = flaws x) (xs : List α) :
    flawsOf (xs.flatMap parts) = xs.flatMap flaws := by
  unfold flawsOf
  rw [List.filter_flatMap, List.map_flatMap]
  exact congrArg (xs.flatMap ·) (funext h)

theorem flawsOf_map {α : Type} {part : α → Part} {flaws : α → List Flaw}
    (h : ∀ x, flawsOf [part x] = flaws x) (xs : List α) :
    flawsOf (xs.map part) = xs.flatMap flaws := by
  rw [List.map_eq_flatMap]
  exact flawsOf_flatMap h xs

theorem flawsOf_name (role : Role) (n : Placed String) :
    flawsOf [.name role n] = nameFlaws role n := by
  have hempty : n.value.toList.isEmpty = true ↔ n.value = "" := by
    rw [List.isEmpty_iff, String.toList_eq_nil_iff]
  unfold nameFlaws
  by_cases he : n.value = ""
  · rw [if_pos (hempty.2 he)]
    simp [flawsOf, Part.Flawed, Part.flaw, he]
  · rw [if_neg (mt hempty.1 he)]
    by_cases hd : '.' ∈ n.value.toList
    · simp [flawsOf, Part.Flawed, Part.flaw, he, hd]
    · simp [flawsOf, Part.Flawed, he, hd]

/-- Of the four ways to have a source or a constant the two that give a connector are sound. -/
theorem flawsOf_connector (c : ConnectEntry) : flawsOf [.connector c] = c.flaws := by
  obtain ⟨source, constant, target⟩ := c
  cases source <;> cases constant <;> simp [flawsOf, Part.Flawed, Part.flaw, ConnectEntry.flaws]

theorem flawsOf_connectors (cs : List ConnectEntry) :
    flawsOf (cs.map .connector) = cs.flatMap ConnectEntry.flaws :=
  flawsOf_map flawsOf_connector cs

/-! ## Flaws of entries -/

theorem InstanceEntry.flawsOf_parts (i : InstanceEntry) : flawsOf i.parts = i.flaws := by
  unfold InstanceEntry.parts InstanceEntry.flaws
  rw [flawsOf_append, flawsOf_connectors, ← flawsOf_name, ← flawsOf_name, ← flawsOf_append]
  rfl

theorem ComponentEntry.flawsOf_parts (c : ComponentEntry) : flawsOf c.parts = c.flaws := by
  unfold ComponentEntry.parts ComponentEntry.flaws
  rw [← List.singleton_append]
  simp only [flawsOf_append, List.append_assoc]
  rw [flawsOf_name, flawsOf_map (flawsOf_name .port), flawsOf_map (flawsOf_name .port),
    flawsOf_flatMap InstanceEntry.flawsOf_parts, flawsOf_connectors]

mutual

theorem ExpansionEntry.flawsOf_parts : ∀ e : ExpansionEntry, flawsOf e.parts = e.flaws
  | ⟨name, type, children, connectors⟩ => by
    unfold ExpansionEntry.parts ExpansionEntry.flaws
    rw [flawsOf_append, flawsOf_append, flawsOf_connectors, flawsOf_expansionParts children,
      ← flawsOf_name, ← flawsOf_name, ← flawsOf_append]
    rfl

theorem flawsOf_expansionParts : ∀ es : List ExpansionEntry,
    flawsOf (expansionParts es) = expansionFlaws es
  | [] => rfl
  | e :: rest => by
    unfold expansionParts expansionFlaws
    rw [flawsOf_append, e.flawsOf_parts, flawsOf_expansionParts rest]

end

/-- The flaws of what is declared are those of its parts. -/
theorem Declarations.flawsOf_parts (d : Declarations) : flawsOf d.parts = d.flaws := by
  unfold Declarations.parts Declarations.flaws
  rw [flawsOf_append, flawsOf_flatMap ComponentEntry.flawsOf_parts, flawsOf_expansionParts]

/-! ## Loading -/

theorem exists_flawed_iff (parts : List Part) : (∃ p ∈ parts, p.Flawed) ↔ flawsOf parts ≠ [] := by
  unfold flawsOf
  rw [ne_eq, List.map_eq_nil_iff, List.filter_eq_nil_iff]
  simp

/-- If a part of what a text declares is flawed, loading tells each flawed part once, as an error and in
the order of the parts, whatever else is wrong with the manifest. If no part is, there is a model exactly
if the design builds, and otherwise its defect is the one error. -/
theorem load_tells_flaws {text : String} {d : Declarations} (h : declarations text = .ok d) :
    ((∃ p ∈ d.parts, p.Flawed) →
      load text = .error (.refused ((d.parts.filter (·.Flawed)).map fun p => p.flaw.diagnostic)) ∧
        ∀ p : Part, p.flaw.diagnostic.severity = .error) ∧
    ((∀ p ∈ d.parts, ¬ p.Flawed) →
      load text = d.design.build.mapError (fun defect => .refused [defectDiagnostic defect]) ∧
        ∀ defect, (defectDiagnostic defect).severity = .error) := by
  have hflaws : d.flaws = flawsOf d.parts := d.flawsOf_parts.symm
  refine ⟨fun hflawed => ⟨?_, fun p => p.flaw.severity_diagnostic⟩, fun hnone => ⟨?_, fun _ => rfl⟩⟩
  · have hne : d.flaws ≠ [] := by
      rw [hflaws]
      exact (exists_flawed_iff _).1 hflawed
    rw [load_of_declarations h, d.model_of_flaws hne, hflaws, flawsOf, List.map_map]
    rfl
  · have hnil : d.flaws = [] := by
      rw [hflaws]
      refine Decidable.byContradiction fun hne => ?_
      obtain ⟨p, hp, hflawed⟩ := (exists_flawed_iff _).2 hne
      exact hnone p hp hflawed
    rw [load_of_declarations h, d.model_of_flawless hnil]
    cases d.design.build <;> rfl

/-- Two components of one flawed name, a connector to nowhere from nothing, and a type that is not
declared. -/
def flawedManifest : String :=
  "component=[\x7bname='a.b',connect=[\x7btarget='z'\x7d]\x7d,\x7bname='a.b'\x7d]\n" ++
    "expansion=[\x7bname='e',type='X'\x7d]"

/-- Two components of one name. -/
def doubleManifest : String := "component=[\x7bname='a'\x7d,\x7bname='a'\x7d]"

theorem load_tells_flaws_both :
    (∃ d, declarations flawedManifest = .ok d ∧ (∃ p ∈ d.parts, p.Flawed) ∧
      load flawedManifest = .error (.refused (
        [.dottedName .component "a.b" ⟨17, 22⟩, .noSource "z" ⟨40, 43⟩,
          .dottedName .component "a.b" ⟨53, 58⟩].map Flaw.diagnostic))) ∧
    ∃ d defect, declarations doubleManifest = .ok d ∧ (∀ p ∈ d.parts, ¬ p.Flawed) ∧
      d.design.build = .error defect ∧
      load doubleManifest = .error (.refused [defectDiagnostic defect]) := by
  have hflawed : (declarations flawedManifest).toOption.map Declarations.parts = some
      [.name .component ⟨"a.b", ⟨17, 22⟩⟩, .connector ⟨none, none, ⟨"z", ⟨40, 43⟩⟩⟩,
        .name .component ⟨"a.b", ⟨53, 58⟩⟩, .name .expanded ⟨"e", ⟨78, 81⟩⟩,
        .name .type ⟨"X", ⟨87, 90⟩⟩] := by decide +kernel
  have hdouble : (declarations doubleManifest).toOption.map
      (fun d => (d.parts, d.design.build.toOption.isNone)) = some
      ([.name .component ⟨"a", ⟨17, 20⟩⟩, .name .component ⟨"a", ⟨28, 31⟩⟩], true) := by
    decide +kernel
  obtain ⟨d, hd, hparts⟩ := exists_ok hflawed
  obtain ⟨d', hd', hdesign⟩ := exists_ok hdouble
  refine ⟨⟨d, hd, ?_⟩, ?_⟩
  · have hsome : ∃ p ∈ d.parts, p.Flawed := by
      rw [hparts]
      decide
    refine ⟨hsome, ?_⟩
    rw [((load_tells_flaws hd).1 hsome).1, hparts]
    rfl
  · obtain ⟨hparts', hnone⟩ := Prod.mk.inj hdesign
    have hsound : ∀ p ∈ d'.parts, ¬ p.Flawed := by
      rw [hparts']
      decide
    cases hb : d'.design.build with
    | ok m =>
      rw [hb] at hnone
      cases hnone
    | error defect =>
      refine ⟨d', defect, hd', hsound, hb, ?_⟩
      rw [((load_tells_flaws hd').2 hsound).1, hb]
      rfl

end Interconnect.Manifest
