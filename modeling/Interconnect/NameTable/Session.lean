/-
Sessions on a name table: the ids handed out so far, numbered as they came, and the questions that
can be asked about them.
-/
import Interconnect.NameTable

namespace Interconnect

namespace NameTable

/-- A table together with the ids it has given out, the oldest first. -/
structure Session where
  table : NameTable := .empty
  ids : List NameId := []
  deriving Repr, Inhabited

/-- What can be done in a session. Ids are given by their number. -/
inductive Step where
  | intern (name : String)
  | lookup (name : String)
  | qualify (a b : Nat)
  | same (a b : Nat)
  | named (a : Nat) (name : String)
  deriving DecidableEq, Repr

inductive Answer where
  /-- An id that was given out, by the number of the first equal one, and its name. -/
  | id (first : Nat) (name : String)
  | absent
  | truth (b : Bool)
  deriving DecidableEq, Repr

namespace Session

def empty : Session := {}

/-- Hands out an id. -/
def give (s : Session) (id : NameId) (table : NameTable) : Answer × Session :=
  let ids := s.ids ++ [id]
  (.id ((ids.findIdx? (· = id)).getD 0) ((table.name? id).getD ""), ⟨table, ids⟩)

/-- A step and its answer; `none` if it names an id that was never given out. -/
def step? (s : Session) : Step → Option (Answer × Session)
  | .intern name => some (s.give (s.table.intern name).1 (s.table.intern name).2)
  | .lookup name =>
    match s.table.find? name with
    | none => some (.absent, s)
    | some id => some (s.give id s.table)
  | .qualify a b => do
    let (id, table) ← s.table.qualify (← s.ids[a]?) (← s.ids[b]?)
    some (s.give id table)
  | .same a b => do some (.truth ((← s.ids[a]?) = (← s.ids[b]?)), s)
  | .named a name => do some (.truth (s.table.name? (← s.ids[a]?) = some name), s)

/-- The answers to a list of steps. -/
def answers? (s : Session) : List Step → Option (List Answer)
  | [] => some []
  | st :: rest => do
    let (a, s') ← s.step? st
    some (a :: (← s'.answers? rest))

end Session

end NameTable

end Interconnect
