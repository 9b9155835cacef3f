/-
TOML documents: the entries of the root table, put together from the lines of a text. A header
opens a table, and the keys up to the next header belong to it.
-/
import Interconnect.Toml.Line

namespace Interconnect.Toml

/-- The keys that stand under one header. -/
structure Assignment where
  path : List Key
  key : Key
  value : Value

structure Section where
  many : Bool
  path : List Key
  key : Key
  span : Span
  body : List Assignment

/-- The assignments before the first header, and the sections after it. -/
def sections : List Line → List Assignment × List Section
  | [] => ([], [])
  | .assign path key value :: rest =>
    let (body, after) := sections rest
    (⟨path, key, value⟩ :: body, after)
  | .header many path key span :: rest =>
    let (body, after) := sections rest
    ([], ⟨many, path, key, span, body⟩ :: after)

namespace Entries

def assignAll (es : Entries) (body : List Assignment) : Option Entries :=
  body.foldlM (fun es a => es.assign a.path a.key a.value) es

/-- Adds a section. A single table may only have been implied before; a table of an array goes to its
end. -/
def addSection (es : Entries) (s : Section) : Option Entries :=
  es.updateAt .implied (fun _ inner =>
    match s.many, inner.find? s.key with
    | false, none => do
      let body ← assignAll [] s.body
      some (inner.insert s.key (.table .header s.span body))
    | false, some (.table .implied _ earlier) => do
      let body ← assignAll earlier s.body
      some ((inner.erase s.key).insert s.key (.table .header s.span body))
    | true, none => do
      let body ← assignAll [] s.body
      some (inner.insert s.key (.tables s.span [.table .header s.span body]))
    | true, some (.tables span elements) => do
      let body ← assignAll [] s.body
      some (inner.replace s.key (.tables span (elements ++ [.table .header s.span body])))
    | _, _ => none) .header s.path

end Entries

/-- The root table of a text, if the text is a TOML document. -/
def document? (text : String) : Option (List (Key × Value)) := do
  let (body, rest) := sections (← lines? (← tokens? text))
  let root ← Entries.assignAll [] body
  some (entriesToValues (← rest.foldlM Entries.addSection root))

/-! ## Texts that are no documents -/

/-- What is said about a text that is no document, and where in it, if a place is named. -/
structure SyntaxFault where
  message : String
  span : Option Span := none
  deriving DecidableEq, Repr

/-- The words for texts that are no documents. They belong to the parser, whichever it is; that a text
is no document does not depend on them. -/
abbrev Wording := String → SyntaxFault

end Interconnect.Toml
