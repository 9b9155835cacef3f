/-
Manifests: what a text declares, each name with the place where it is written, before anything is
made of it.
-/
import Interconnect.Toml.Document
import Interconnect.Toml.Record

namespace Interconnect.Manifest

open Toml

/-- The value of a constant connector. -/
inductive Literal where
  | boolean (b : Bool)
  | integer (n : Int)
  | float (x : Binary64)
  | text (s : String)
  deriving DecidableEq, Repr, Inhabited

/-- Floats are written out from ten thousandths up to, but not including, `10 ^ 16`. -/
def Literal.floatLayout : FloatLayout := ⟨fun power => -4 ≤ power && power < 16⟩

/-- A literal as the value of a port. -/
def Literal.render : Literal → String
  | boolean b => boolText b
  | integer n => toString n
  | float x => floatLayout.text x
  | text s => s

/-- A connector as it is entered: it should have a source or a constant. -/
structure ConnectEntry where
  source : Option (Placed String) := none
  constant : Option (Placed Literal) := none
  target : Placed String := default
  deriving DecidableEq, Repr, Inhabited

structure InstanceEntry where
  name : Placed String := default
  type : Placed String := default
  connectors : List ConnectEntry := []
  deriving DecidableEq, Repr, Inhabited

structure ComponentEntry where
  name : Placed String := default
  incoming : List (Placed String) := []
  outgoing : List (Placed String) := []
  instances : List InstanceEntry := []
  connectors : List ConnectEntry := []
  deriving DecidableEq, Repr, Inhabited

/-- An expanded instance as it is entered, with the ones inside it. -/
structure ExpansionEntry where
  name : Placed String := default
  type : Placed String := default
  children : List ExpansionEntry := []
  connectors : List ConnectEntry := []
  deriving Repr, Inhabited

/-- Everything that a text declares. -/
structure Declarations where
  components : List ComponentEntry := []
  expansions : List ExpansionEntry := []
  deriving Repr, Inhabited

/-! ## Reading -/

/-- Reads a literal. Integers that need all 64 bits become floats, and wider ones are refused. -/
def Literal.read (v : Value) : Reading Literal :=
  match v.numberFault? with
  | some fault => .error fault
  | none =>
    match v with
    | .boolean _ b => .ok (.boolean b)
    | .integer _ n =>
      .ok (if isSigned 64 n then .integer n else .float (Binary64.ofNat n.toNat))
    | .float _ x => .ok (.float (x.value?.getD .nan))
    | .string _ s => .ok (.text s)
    | v => v.fail (.noAlternative "Literal")

def ConnectEntry.shape : Shape where
  name := "ConnectDecl"
  fields := ["source", "constant", "target"]
  required := ["target"]
  least := 3

def ConnectEntry.read (v : Value) : Reading ConnectEntry :=
  v.record shape {} fun field w _ d =>
    match field with
    | "source" => do pure { d with source := some (← w.placedString) }
    | "constant" => do pure { d with constant := some ⟨← Literal.read w, w.span⟩ }
    | _ => do pure { d with target := ← w.placedString }

def InstanceEntry.shape : Shape where
  name := "InstanceDecl"
  fields := ["name", "type", "connect"]
  required := ["name", "type"]
  least := 2

def InstanceEntry.read (v : Value) : Reading InstanceEntry :=
  v.record shape {} fun field w _ d =>
    match field with
    | "name" => do pure { d with name := ← w.placedString }
    | "type" => do pure { d with type := ← w.placedString }
    | _ => do pure { d with connectors := ← w.list fun c _ => ConnectEntry.read c }

def ComponentEntry.shape : Shape where
  name := "ComponentDecl"
  fields := ["name", "in", "out", "instance", "connect"]
  required := ["name"]
  least := 1

def ComponentEntry.read (v : Value) : Reading ComponentEntry :=
  v.record shape {} fun field w _ d =>
    match field with
    | "name" => do pure { d with name := ← w.placedString }
    | "in" => do pure { d with incoming := ← w.list fun p _ => p.placedString }
    | "out" => do pure { d with outgoing := ← w.list fun p _ => p.placedString }
    | "instance" => do pure { d with instances := ← w.list fun i _ => InstanceEntry.read i }
    | _ => do pure { d with connectors := ← w.list fun c _ => ConnectEntry.read c }

def ExpansionEntry.shape : Shape where
  name := "ExpansionDecl"
  fields := ["name", "type", "instance", "connect"]
  required := ["name", "type"]
  least := 2

def ExpansionEntry.read (v : Value) : Reading ExpansionEntry :=
  v.record shape {} fun field w _hw d =>
    match field with
    | "name" => do pure { d with name := ← w.placedString }
    | "type" => do pure { d with type := ← w.placedString }
    | "instance" => do pure { d with children := ← w.list fun c _hc => ExpansionEntry.read c }
    | _ => do pure { d with connectors := ← w.list fun c _ => ConnectEntry.read c }
termination_by sizeOf v
decreasing_by
  all_goals
    exact Nat.lt_trans (Value.sizeOf_lt_of_mem_parts _hc) (Value.sizeOf_lt_of_mem_parts _hw)

def Declarations.shape : Shape where
  name := "Manifest"
  fields := ["component", "expansion"]
  required := []
  least := 0

/-- Reads the root table of a manifest. -/
def Declarations.read (entries : List (Key × Value)) : Reading Declarations :=
  (Value.table {} entries).record shape {} fun field w _ d =>
    match field with
    | "component" => do pure { d with components := ← w.list fun c _ => ComponentEntry.read c }
    | _ => do pure { d with expansions := ← w.list fun e _ => ExpansionEntry.read e }

end Interconnect.Manifest
