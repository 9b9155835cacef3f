/-
Diagnostics: what is reported about a manifest, how bad it is and where it stands, and the verdict
on a list of them.
-/
import Interconnect.Span

namespace Interconnect

inductive Severity where
  | error
  | warning
  deriving DecidableEq, Repr, Inhabited

def Severity.text : Severity → String
  | .error => "error"
  | .warning => "warning"

/-- The kinds of findings that have a number. -/
inductive Code where
  | unusedIncoming
  | unusedOutgoing
  | unresolvedSource
  | unresolvedTarget
  deriving DecidableEq, Repr

namespace Code

def text : Code → String
  | unusedIncoming => "AC008"
  | unusedOutgoing => "AC009"
  | unresolvedSource => "AC012"
  | unresolvedTarget => "AC013"

def description : Code → String
  | unusedIncoming => "incoming subcomponent port not used"
  | unusedOutgoing => "outgoing subcomponent port not used"
  | unresolvedSource => "connector source not resolvable"
  | unresolvedTarget => "connector target not resolvable"

/-- Findings about ports that nothing is wired to. -/
def isUnusedPort : Code → Bool
  | unusedIncoming => true
  | unusedOutgoing => true
  | _ => false

/-- Findings about connector ends that denote no port. -/
def isUnresolvedEndpoint : Code → Bool
  | unresolvedSource => true
  | unresolvedTarget => true
  | _ => false

end Code

/-- A remark on a place of the manifest. -/
structure Label where
  span : Span
  message : String
  primary : Bool := true
  deriving DecidableEq, Repr, Inhabited

structure Diagnostic where
  severity : Severity
  message : String
  code : Option Code := none
  labels : List Label := []
  help : Option String := none
  deriving DecidableEq, Repr, Inhabited

namespace Diagnostic

def isError (d : Diagnostic) : Bool := d.severity = .error

theorem isError_iff {d : Diagnostic} : d.isError = true ↔ d.severity = .error := decide_eq_true_iff

theorem isError_eq_false_iff {d : Diagnostic} : d.isError = false ↔ d.severity = .warning := by
  unfold isError
  cases d.severity <;> decide

/-- One line, as `error[AC008]: message`. -/
def text (d : Diagnostic) : String :=
  let mark := match d.code with
    | none => ""
    | some code => "[" ++ code.text ++ "]"
  d.severity.text ++ mark ++ ": " ++ d.message

/-! ## Lists of diagnostics -/

def errorCount (ds : List Diagnostic) : Nat := ds.countP isError

/-- The first diagnostic, and how many follow it. -/
def summary : List Diagnostic → String
  | [] => ""
  | [d] => d.text
  | d :: rest => d.text ++ " (+" ++ toString rest.length ++ " more)"

/-! ## Gathering -/

/-- Diagnostics in the order in which they came in, with a note whether one of them is an error. -/
structure Collector where
  diagnostics : List Diagnostic := []
  hasErrors : Bool := false
  deriving DecidableEq, Repr, Inhabited

namespace Collector

def emit (g : Collector) (d : Diagnostic) : Collector where
  diagnostics := g.diagnostics ++ [d]
  hasErrors := g.hasErrors || d.isError

def extend (g : Collector) (ds : List Diagnostic) : Collector := ds.foldl emit g

/-- Diagnostics pass as long as none of them is an error; either way all of them are kept. -/
def finish (g : Collector) : Except (List Diagnostic) (List Diagnostic) :=
  if g.hasErrors then .error g.diagnostics else .ok g.diagnostics

/-- What comes in is kept behind what is there, and errors are noted. -/
theorem extend_eq (g : Collector) (ds : List Diagnostic) :
    g.extend ds = ⟨g.diagnostics ++ ds, g.hasErrors || ds.any isError⟩ := by
  induction ds generalizing g with
  | nil => simp [extend]
  | cons d rest ih =>
    rw [extend, List.foldl_cons, ← extend, ih]
    simp [emit, Bool.or_assoc]

theorem extend_append (g : Collector) (as bs : List Diagnostic) :
    g.extend (as ++ bs) = (g.extend as).extend bs := List.foldl_append

/-- Lists that come in one after another come in as one. -/
theorem foldl_extend {α : Type} (f : α → List Diagnostic) (xs : List α) (g : Collector) :
    xs.foldl (fun g x => g.extend (f x)) g = g.extend (xs.flatMap f) := by
  induction xs generalizing g with
  | nil => rfl
  | cons x rest ih =>
    rw [List.foldl_cons, ih, List.flatMap_cons, extend_append]

end Collector

/-- The verdict on a list of diagnostics. -/
def verdict (ds : List Diagnostic) : Except (List Diagnostic) (List Diagnostic) :=
  (Collector.extend {} ds).finish

theorem verdict_eq (ds : List Diagnostic) :
    verdict ds = if ds.any isError then .error ds else .ok ds := by
  rw [verdict, Collector.extend_eq]
  simp [Collector.finish]

theorem verdict_eq_ok_iff {ds ws : List Diagnostic} :
    verdict ds = .ok ws ↔ ws = ds ∧ ∀ d ∈ ds, d.isError = false := by
  rw [verdict_eq]
  split
  · rename_i h
    obtain ⟨d, hd, he⟩ := List.any_eq_true.1 h
    refine ⟨nofun, fun ⟨_, hn⟩ => ?_⟩
    rw [hn d hd] at he
    cases he
  · rename_i h
    have hn : ∀ d ∈ ds, d.isError = false := by simpa using h
    refine ⟨fun e => ?_, fun ⟨e, _⟩ => by rw [e]⟩
    cases e
    exact ⟨rfl, hn⟩

theorem verdict_eq_error_iff {ds es : List Diagnostic} :
    verdict ds = .error es ↔ es = ds ∧ ∃ d ∈ ds, d.isError = true := by
  rw [verdict_eq]
  split
  · rename_i h
    refine ⟨fun e => ?_, fun ⟨e, _⟩ => by rw [e]⟩
    cases e
    exact ⟨rfl, List.any_eq_true.1 h⟩
  · rename_i h
    exact ⟨nofun, fun ⟨_, hd⟩ => absurd (List.any_eq_true.2 hd) h⟩

end Diagnostic

end Interconnect
