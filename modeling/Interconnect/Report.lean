/-
Reports: diagnostics and failures in the form in which they are shown beside the text of a manifest.
-/
import Interconnect.Run

namespace Interconnect

/-- A place that a report points to. -/
structure Pointer where
  offset : Nat
  length : Nat
  message : String
  primary : Bool
  deriving DecidableEq, Repr

structure Report where
  message : String
  code : Option String := none
  severity : Option Severity := none
  help : Option String := none
  /-- Where to point, if anywhere. -/
  pointers : Option (List Pointer) := none
  /-- Whether the text of the manifest is shown. -/
  hasText : Bool := false
  /-- Whether another error lies behind. -/
  hasCause : Bool := false
  deriving DecidableEq, Repr

def Label.pointer (l : Label) : Pointer := ⟨l.span.start, l.span.length, l.message, l.primary⟩

def Diagnostic.report (d : Diagnostic) : Report where
  message := d.message
  code := d.code.map Code.text
  severity := some d.severity
  help := d.help
  pointers := if d.labels.isEmpty then none else some (d.labels.map Label.pointer)
  hasText := true

/-- A report for each diagnostic of a failure, or a single one if it has none. -/
def Failure.reports (words : Toml.Wording) (f : Failure) : List Report :=
  match f.diagnostics? words with
  | some ds => ds.map Diagnostic.report
  | none => [{ message := f.message words, code := some "arcwire::io", hasCause := true }]

/-- A report as lines of text: its message, the places it points to, and its help. -/
def Report.lines (r : Report) : List String :=
  let mark := (r.severity.map Severity.text).getD "error"
  let code := (r.code.map fun c => "[" ++ c ++ "]").getD ""
  (mark ++ code ++ ": " ++ r.message) ::
    ((r.pointers.getD []).map fun p =>
      "  at " ++ toString p.offset ++ "+" ++ toString p.length ++ ": " ++ p.message) ++
    (r.help.map ("  help: " ++ ·)).toList

/-- The reports of a run: its warnings, or its failure. -/
def outcomeReports (words : Toml.Wording) : Except Failure Passed → List Report
  | .ok passed => passed.warnings.map Diagnostic.report
  | .error failure => failure.reports words

end Interconnect
