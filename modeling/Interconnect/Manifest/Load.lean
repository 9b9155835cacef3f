/-
Loading manifests: from a text to a model. What is declared becomes a design, and the design is
built, unless the text is no TOML document, does not have the form of a manifest, or has flaws.
-/
import Interconnect.Design
import Interconnect.Manifest.Flaw
import Interconnect.Text.Trimmed

namespace Interconnect.Manifest

open Toml

/-! ## From entries to a design -/

/-- The connector of an entry that has exactly one of a source and a constant. It spans both its
ends. -/
def ConnectEntry.connector? (c : ConnectEntry) : Option Connector :=
  match c.source, c.constant with
  | some source, none =>
    some (.wired source.value c.target.value (source.place.union c.target.place))
  | none, some constant =>
    some (.ofConstant constant.value.render c.target.value (constant.place.union c.target.place))
  | _, _ => none

/-- Making things from entries, whatever is wrong with these. What is wrong is gathered on the way. -/
abbrev Drafting := StateM Diagnostic.Collector

/-- Puts flaws behind what has been gathered. -/
def note (flaws : List Flaw) : Drafting Unit :=
  modify fun g => g.extend (flaws.map Flaw.diagnostic)

/-- A name is taken as it is written. -/
def draftName (role : Role) (name : Placed String) : Drafting String := do
  note (nameFlaws role name)
  pure name.value

def draftPort (direction : Direction) (p : Placed String) : Drafting Port := do
  let name ← draftName .port p
  pure { name, direction, span := p.place }

def ConnectEntry.draft (c : ConnectEntry) : Drafting (Option Connector) := do
  note c.flaws
  pure c.connector?

/-- The connectors of entries. An entry with a flaw is left out. -/
def draftConnectors (cs : List ConnectEntry) : Drafting (List Connector) := do
  let found ← cs.mapM ConnectEntry.draft
  pure (found.filterMap id)

/-- An instance spans its name and its type. -/
def InstanceEntry.draft (i : InstanceEntry) : Drafting Instance := do
  let name ← draftName .inst i.name
  let type ← draftName .type i.type
  let connectors ← draftConnectors i.connectors
  pure { name, type, connectors, span := i.name.place.union i.type.place }

/-- A component has its incoming ports before its outgoing ones. -/
def ComponentEntry.draft (c : ComponentEntry) : Drafting Component := do
  let name ← draftName .component c.name
  let incoming ← c.incoming.mapM (draftPort .incoming)
  let outgoing ← c.outgoing.mapM (draftPort .outgoing)
  let instances ← c.instances.mapM InstanceEntry.draft
  let connectors ← draftConnectors c.connectors
  pure { name, ports := incoming ++ outgoing, instances, connectors, span := c.name.place }

mutual

/-- An expanded instance spans its name and its type. -/
def ExpansionEntry.draft : ExpansionEntry → Drafting Expansion
  | ⟨name, type, children, connectors⟩ => do
    let itsName ← draftName .expanded name
    let itsType ← draftName .type type
    let below ← draftExpansions children
    let connectors ← draftConnectors connectors
    pure (.node itsName itsType (name.place.union type.place) connectors below)

def draftExpansions : List ExpansionEntry → Drafting (List Expansion)
  | [] => pure []
  | e :: rest => do
    let tree ← e.draft
    let trees ← draftExpansions rest
    pure (tree :: trees)

end

def Declarations.draft (d : Declarations) : Drafting Design := do
  let components ← d.components.mapM ComponentEntry.draft
  let expansions ← draftExpansions d.expansions
  pure { components, expansions }

/-! ## Reports on what cannot be loaded -/

/-- A text that is no manifest, and where it shows, if a place is named. -/
def invalidDiagnostic (message : String) (span : Option Span) : Diagnostic where
  severity := .error
  message := "invalid manifest: " ++ trimmed message
  labels := (span.map fun s => { span := s.inOrder, message := "here" }).toList

/-- A text that is no TOML document. -/
def syntaxDiagnostic (fault : SyntaxFault) : Diagnostic := invalidDiagnostic fault.message fault.span

/-- A value that does not have the form of its place in a manifest. -/
def misfitDiagnostic (m : Misfit) : Diagnostic := invalidDiagnostic m.cause.message (some m.span)

/-- A declaration that makes a design unsound. -/
def defectDiagnostic (d : Defect) : Diagnostic where
  severity := .error
  message := d.message
  labels := match d.firstSpan? with
    | some first =>
      [{ span := d.span, message := "declared again here" },
       { span := first, message := "first declared here", primary := false }]
    | none => [{ span := d.span, message := "declared here" }]

/-- Why a text has no model. -/
inductive LoadFailure where
  /-- The text itself, for which there are words. -/
  | notToml (text : String)
  | refused (ds : List Diagnostic)
  deriving DecidableEq, Repr

def LoadFailure.diagnostics (words : Wording) : LoadFailure → List Diagnostic
  | notToml text => [syntaxDiagnostic (words text)]
  | refused ds => ds

/-! ## Loading -/

/-- The model of what is declared. All flaws are reported; a design is only built if there are
none. -/
def Declarations.model (d : Declarations) : Except (List Diagnostic) Model :=
  let (design, gathered) := d.draft.run {}
  match gathered.finish with
  | .error ds => .error ds
  | .ok _ =>
    match design.build with
    | .ok m => .ok m
    | .error defect => .error [defectDiagnostic defect]

/-- What a text declares. -/
def declarations (text : String) : Except LoadFailure Declarations :=
  match document? text with
  | none => .error (.notToml text)
  | some entries =>
    match Declarations.read entries with
    | .ok d => .ok d
    | .error m => .error (.refused [misfitDiagnostic m])

/-- The model that a text describes. -/
def load (text : String) : Except LoadFailure Model :=
  match declarations text with
  | .error failure => .error failure
  | .ok d =>
    match d.model with
    | .ok m => .ok m
    | .error ds => .error (.refused ds)

end Interconnect.Manifest
