/-
The values of a TOML document. Each has the place where it is written; the entries of a table are
sorted by their keys.
-/
import Interconnect.Toml.Scalar
import Interconnect.Span

namespace Interconnect.Toml

structure Key where
  text : String
  span : Span
  deriving DecidableEq, Repr

inductive Value where
  | string (span : Span) (text : String)
  | integer (span : Span) (n : Int)
  | float (span : Span) (x : FloatText)
  | boolean (span : Span) (b : Bool)
  /-- A date, a time or both. -/
  | moment (span : Span)
  | array (span : Span) (items : List Value)
  | table (span : Span) (entries : List (Key × Value))
  deriving Repr

namespace Value

def span : Value → Span
  | string s _ => s
  | integer s _ => s
  | float s _ => s
  | boolean s _ => s
  | moment s => s
  | array s _ => s
  | table s _ => s

def ofScalar (span : Span) : Scalar → Value
  | .boolean b => boolean span b
  | .integer n => integer span n
  | .float x => float span x
  | .moment => moment span

end Value

/-! ## Tables that are being written -/

/-- How a table came to be: by a header or as a value of its own, as a step in the path of a header,
or as a step in a dotted key. -/
inductive Origin where
  | header
  | implied
  | dotted
  deriving DecidableEq, Repr

/-- What a key stands for while a document is read. Leaves are finished; tables can still grow, and
an array of tables grows at its end. -/
inductive Node where
  | leaf (v : Value)
  | table (origin : Origin) (span : Span) (entries : List (Key × Node))
  | tables (span : Span) (elements : List Node)
  deriving Repr

abbrev Entries := List (Key × Node)

namespace Entries

def find? (es : Entries) (key : Key) : Option Node :=
  (List.find? (fun e => e.1.text = key.text) es).map Prod.snd

/-- Adds an entry in the order of the keys. -/
def insert (es : Entries) (key : Key) (node : Node) : Entries :=
  match es with
  | [] => [(key, node)]
  | e :: rest => if key.text < e.1.text then (key, node) :: e :: rest else e :: insert rest key node

/-- Puts another node behind a key that is there. -/
def replace (es : Entries) (key : Key) (node : Node) : Entries :=
  es.map fun e => if e.1.text = key.text then (e.1, node) else e

def erase (es : Entries) (key : Key) : Entries := es.filter fun e => e.1.text ≠ key.text

/-- Changes the table at the end of a path. Missing steps become tables of origin `made`. A dotted
key cannot enter a table that has a header, and nothing can enter a finished value. -/
def updateAt (made : Origin) (change : Origin → Entries → Option Entries) (here : Origin)
    (es : Entries) : List Key → Option Entries
  | [] => change here es
  | key :: path =>
    match es.find? key with
    | none => do
      let inner ← updateAt made change made [] path
      some (es.insert key (.table made key.span inner))
    | some (.table origin span inner) =>
      if made = .dotted && origin = .header then none
      else do
        let inner ← updateAt made change origin inner path
        some (es.replace key (.table origin span inner))
    | some (.tables span elements) =>
      match elements.getLast? with
      | some (.table origin last inner) => do
        let inner ← updateAt made change origin inner path
        some (es.replace key (.tables span (elements.dropLast ++ [.table origin last inner])))
      | _ => none
    | some (.leaf _) => none

/-- Gives a new key a value. A dotted key adds to tables that dotted keys made, and to no others. -/
def assign (es : Entries) (path : List Key) (key : Key) (v : Value) : Option Entries :=
  let origin := if path.isEmpty then Origin.header else .dotted
  es.updateAt .dotted (fun here inner =>
    if (here = .dotted) = (origin = .dotted) && (inner.find? key).isNone then
      some (inner.insert key (.leaf v))
    else none) .header path

end Entries

mutual

/-- A node with nothing more to come. -/
def Node.toValue : Node → Value
  | .leaf v => v
  | .table _ span entries => .table span (entriesToValues entries)
  | .tables span elements => .array span (nodesToValues elements)

def entriesToValues : List (Key × Node) → List (Key × Value)
  | [] => []
  | (key, node) :: rest => (key, node.toValue) :: entriesToValues rest

def nodesToValues : List Node → List Value
  | [] => []
  | node :: rest => node.toValue :: nodesToValues rest

end

end Interconnect.Toml
