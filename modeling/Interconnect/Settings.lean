/-
Settings: how bad each class of findings is, as a text says it.
-/
import Interconnect.Check
import Interconnect.Toml.Document
import Interconnect.Toml.Record

namespace Interconnect.Settings

open Toml

/-! ## Levels -/

def levelNames : List String := ["error", "warning"]

def level? : String → Option Severity
  | "error" => some .error
  | "warning" => some .warning
  | _ => none

/-- The kind of a value that is no table, in messages about levels. -/
def kindText : Value → String
  | .string _ _ => "string"
  | .integer _ _ => "integer"
  | .float _ _ => "float"
  | .boolean _ _ => "boolean"
  | .moment _ => "datetime"
  | .array _ _ => "array"
  | .table _ _ => "table"

/-- What stands behind the name of a level must be an empty table or array. -/
def checkContent (v : Value) : Reading Unit :=
  match v with
  | .table _ [] => .ok ()
  | .array _ [] => .ok ()
  | .table _ _ => v.fail (.variantContent "empty table" none)
  | .array _ _ => v.fail (.variantContent "empty array" none)
  | _ => v.fail (.variantContent "table" (some (kindText v)))

/-- A level is its name, or a table with its name as the only key. -/
def readLevel (v : Value) : Reading Severity :=
  match v with
  | .string _ name =>
    match level? name with
    | some level => .ok level
    | none => v.fail (.unknownVariant name levelNames)
  | .table _ [] => v.fail (.variantCount false)
  | .table _ [(key, content)] =>
    match level? key.text with
    | some level => do checkContent content; pure level
    | none => v.fail (.unknownVariant key.text levelNames)
  | .table _ _ => v.fail (.variantCount true)
  | _ => v.fail .notAVariant

/-! ## Reading -/

def levelsShape : Shape where
  name := "CheckSection"
  fields := ["unused_ports", "unresolved_endpoints"]
  required := []
  least := 0

def readLevels (v : Value) : Reading Levels :=
  v.record levelsShape {} fun field w _ levels =>
    match field with
    | "unused_ports" => do pure { levels with unusedPort := ← readLevel w }
    | _ => do pure { levels with unresolvedEndpoint := ← readLevel w }

def shape : Shape where
  name := "AppConfig"
  fields := ["check"]
  required := []
  least := 0

inductive Fault where
  /-- The text itself, for which there are words. -/
  | notToml (text : String)
  | misfit (m : Misfit)
  deriving DecidableEq, Repr

/-- The levels that a text sets; what it leaves out is an error. -/
def read (text : String) : Except Fault Levels :=
  match document? text with
  | none => .error (.notToml text)
  | some entries =>
    match (Value.table {} entries).record shape {} fun _ w _ _ => readLevels w with
    | .ok levels => .ok levels
    | .error m => .error (.misfit m)

end Interconnect.Settings
